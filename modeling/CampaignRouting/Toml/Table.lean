import CampaignRouting.Json.Basic

/-! Tables while a TOML text is read. A table may be named several times, in headers and in dotted
keys, but what defines it may only come once; how a table came to be decides what may still be
added. -/

namespace CampaignRouting.Toml

/-- How a table came to be. -/
inductive Origin where
  /-- It has a header of its own. -/
  | header
  /-- A header names it on the way to another table. -/
  | passing
  /-- A dotted key names it. -/
  | dotted
deriving DecidableEq, Repr

/-- What stands under a name while a document is read. -/
inductive Item where
  /-- A value, to which nothing can be added. -/
  | value (v : Json)
  | table (origin : Origin) (members : List (String × Item))
  /-- Tables under one name; `members` are those of the last one. -/
  | tables (earlier : List Json) (members : List (String × Item))

/-- The entries of a table that is being read, in ascending order of their keys. -/
abbrev Members := List (String × Item)

mutual

/-- The value of an item, once the document has ended. -/
def Item.toJson : Item → Json
  | .value v => v
  | .table _ members => .object (toJsonMembers members)
  | .tables earlier members => .array (earlier ++ [.object (toJsonMembers members)])

def Item.toJsonMembers : List (String × Item) → List (String × Json)
  | [] => []
  | (key, item) :: members => (key, item.toJson) :: toJsonMembers members

end

namespace Members

/-- The value of a table. -/
def toJson (ms : Members) : Json := .object (Item.toJsonMembers ms)

/-- Adds a value under a dotted key. It goes into a table that dotted keys made, if into any but
`ms` itself; tables with a header are closed to dotted keys altogether. -/
def addPair (value : Json) : List String → Members → Option Members
  | [], _ => none
  | [key], ms =>
    match ms.lookup key with
    | none => some (insertEntry key (.value value) ms)
    | some _ => none
  | key :: key' :: keys, ms =>
    match ms.lookup key with
    | none => (addPair value (key' :: keys) []).map fun inner =>
      insertEntry key (.table .dotted inner) ms
    | some (.table origin inner) =>
      if origin = .header ∨ (keys = [] ∧ origin ≠ .dotted) then none
      else (addPair value (key' :: keys) inner).map fun inner =>
        insertEntry key (.table origin inner) ms
    | some (.tables earlier inner) =>
      if keys = [] then none
      else (addPair value (key' :: keys) inner).map fun inner =>
        insertEntry key (.tables earlier inner) ms
    | some (.value _) => none

/-- Adds values at their paths, one after the other. -/
def addPairs (pairs : List (List String × Json)) (ms : Members) : Option Members :=
  pairs.foldlM (fun ms (key, value) => addPair value key ms) ms

/-- Opens the table or tables at the end of a path. The path goes through the last one of several.
-/
def openAt (open? : Option Item → Option Item) : List String → Members → Option Members
  | [], _ => none
  | [key], ms => (open? (ms.lookup key)).map fun item => insertEntry key item ms
  | key :: key' :: keys, ms =>
    match ms.lookup key with
    | none => (openAt open? (key' :: keys) []).map fun inner =>
      insertEntry key (.table .passing inner) ms
    | some (.table origin inner) => (openAt open? (key' :: keys) inner).map fun inner =>
      insertEntry key (.table origin inner) ms
    | some (.tables earlier inner) => (openAt open? (key' :: keys) inner).map fun inner =>
      insertEntry key (.tables earlier inner) ms
    | some (.value _) => none

/-- A table under a header. It may have been passed through before. -/
def openTable (pairs : List (List String × Json)) : Option Item → Option Item
  | none => (addPairs pairs []).map (.table .header)
  | some (.table .passing inner) => (addPairs pairs inner).map (.table .header)
  | some _ => none

/-- One more of several tables under a name. -/
def openNext (pairs : List (List String × Json)) : Option Item → Option Item
  | none => (addPairs pairs []).map (.tables [])
  | some (.tables earlier last) =>
    (addPairs pairs []).map (.tables (earlier ++ [toJson last]))
  | some _ => none

end Members

/-- A header and the pairs under it. -/
structure Section where
  path : List String
  /-- The table is one of several. -/
  several : Bool
  pairs : List (List String × Json)

/-- The table that a text describes: the pairs before the first header, then those under each. -/
def tableOf? (pairs : List (List String × Json)) (sections : List Section) : Option Json := do
  let ms ← Members.addPairs pairs []
  let ms ← sections.foldlM
    (fun ms s =>
      Members.openAt (if s.several then Members.openNext s.pairs else Members.openTable s.pairs)
        s.path ms)
    ms
  return Members.toJson ms

end CampaignRouting.Toml
