import CampaignRouting.Json.Codec

/-! Codecs for records. A record is described by the list of its fields. It is written as an
object, and read from an object, whose members may come in any order, or from a list of the
fields' values. -/

namespace CampaignRouting.Json

variable {α β σ : Type}

/-- A field of a record. -/
structure Field (α : Type) where
  name : String
  aliases : List String
  codec : Codec α
  /-- The value where an object has no such member. -/
  ifMissing : Option α
  /-- The value where a list of values ends before it. -/
  ifShort : Option α
  /-- Whether a value is written. -/
  shows : α → Bool

namespace Field

/-- A field that has to be given. -/
def required (name : String) (codec : Codec α) : Field α where
  name
  aliases := []
  codec
  ifMissing := none
  ifShort := none
  shows _ := true

/-- A field with a default. -/
def withDefault (name : String) (default : α) (codec : Codec α) : Field α where
  name
  aliases := []
  codec
  ifMissing := some default
  ifShort := some default
  shows _ := true

/-- A field that may be `null`, or left out. -/
def optional (name : String) (codec : Codec α) : Field (Option α) :=
  withDefault name none codec.option

/-- A field that may be `null`, or left out of an object, but not of a list. -/
def nullable (name : String) (codec : Codec α) : Field (Option α) :=
  { required name codec.option with ifMissing := some none }

/-- Gives a field further names under which it is read. -/
def alsoNamed (f : Field α) (names : List String) : Field α := { f with aliases := names }

/-- Leaves a field out where it has no value. -/
def hidden (f : Field (Option α)) : Field (Option α) := { f with shows := Option.isSome }

/-- The name is one that the field is read under. -/
def AnswersTo (f : Field α) (name : String) : Prop := name = f.name ∨ name ∈ f.aliases

instance (f : Field α) (name : String) : Decidable (f.AnswersTo name) := by
  unfold AnswersTo; infer_instance

end Field

/-- The fields of a record in order. The first index is the type of their values, the second that of
the values found so far. -/
inductive Fields : Type → Type → Type 1 where
  | nil : Fields Unit Unit
  | cons {α β σ : Type} (field : Field α) (rest : Fields β σ) : Fields (α × β) (Option α × σ)

namespace Fields

/-- The number of fields. -/
def size : {β σ : Type} → Fields β σ → Nat
  | _, _, nil => 0
  | _, _, cons _ rest => rest.size + 1

/-- The names of the fields, in order. -/
def names : {β σ : Type} → Fields β σ → List String
  | _, _, nil => []
  | _, _, cons f rest => f.name :: rest.names

/-! ## Objects -/

/-- Nothing found yet. -/
def noneFound : {β σ : Type} → Fields β σ → σ
  | _, _, nil => ()
  | _, _, cons _ rest => (none, rest.noneFound)

/-- Reads a member into the field that answers to its name; `none` if no field does. -/
def readMember? (source : Source) (name : String) (value : Tree) :
    {β σ : Type} → Fields β σ → σ → Option (Except Error σ)
  | _, _, nil, _ => none
  | _, _, cons f rest, (found, others) =>
    if f.AnswersTo name then
      some <|
        if found.isSome then .error (.duplicateField f.name)
        else (f.codec.read source value).map fun a => (some a, others)
    else (rest.readMember? source name value others).map fun r =>
      r.map fun others => (found, others)

/-- Reads the members of an object one after the other. Members that belong to no field are
skipped. -/
def readMembers (fields : Fields β σ) (source : Source) : List (Quoted × Tree) → σ → Except Error σ
  | [], found => .ok found
  | (key, value) :: members, found => do
    let name ← key.read
    match fields.readMember? source name value found with
    | some r => readMembers fields source members (← r)
    | none =>
      checkFault value.skippedFault?
      readMembers fields source members found

/-- The values of all fields, once the object has ended. -/
def complete : {β σ : Type} → Fields β σ → σ → Except Error β
  | _, _, nil, _ => .ok ()
  | _, _, cons f rest, (found, others) =>
    match found.or f.ifMissing with
    | some a => (rest.complete others).map fun b => (a, b)
    | none => .error (.missingField f.name)

/-- Reads all members, and only then looks for those that are missing. -/
def readObject (fields : Fields β σ) (source : Source) (members : List (Quoted × Tree))
    (close : Close) : Except Error β := do
  let found ← fields.readMembers source members fields.noneFound
  checkFault close.objectFault?
  fields.complete found

/-! ## Lists -/

/-- `n elements` -/
def countText (n : Nat) : String := toString n ++ if n = 1 then " element" else " elements"

/-- Reads the values in order, of which `count` came before, and gives those left over. -/
def readItems (source : Source) (expected : String) (close : Close) :
    {β σ : Type} → Fields β σ → (count : Nat) → List Tree → Except Error (β × List Tree)
  | _, _, nil, _, items => .ok ((), items)
  | _, _, cons f rest, count, item :: items => do
    let a ← f.codec.read source item
    let (b, items) ← readItems source expected close rest (count + 1) items
    return ((a, b), items)
  | _, _, cons f rest, count, [] => do
    checkFault close.listFault?
    match f.ifShort with
    | some a =>
      let (b, items) ← readItems source expected close rest (count + 1) []
      return ((a, b), items)
    | none => throw (.invalidLength count expected)

/-- Checks that a list ends with its last field. -/
def checkEnd (source : Source) (size : Nat) (items : List Tree) (close : Close) :
    Except Error Unit :=
  match source, items, close with
  | _, [], .bracket => .ok ()
  | .text _, [], .commaBracket => .error (.malformed .trailingComma)
  | .text _, [], .endOfText => .error (.malformed .endInList)
  | .text _, _, _ => .error (.malformed .trailingCharacters)
  | .value, items, _ => .error (.invalidLength (size + items.length) "fewer elements in array")
  | .buffered, items, _ =>
    .error (.invalidLength (size + items.length) (countText size ++ " in sequence"))

/-- Reads the values of the fields in their order. -/
def readList (fields : Fields β σ) (source : Source) (type : String) (items : List Tree)
    (close : Close) : Except Error β := do
  let expected := type ++ " with " ++ countText fields.size
  let (b, rest) ← fields.readItems source expected close 0 items
  checkEnd source fields.size rest close
  return b

/-! ## Writing -/

/-- The members of the fields that are shown. -/
def write : {β σ : Type} → Fields β σ → β → List (String × Json)
  | _, _, nil, _ => []
  | _, _, cons f rest, (a, b) =>
    if f.shows a then (f.name, f.codec.write a) :: rest.write b else rest.write b

end Fields

/-- A record made of the values of its fields; `type` names it in messages. -/
def Codec.record (type : String) (fields : Fields β σ) (make : β → α) (parts : α → β) :
    Codec α where
  read
    | source, .object members close => do
      let inner ← source.enter
      (fields.readObject inner members close).map make
    | source, .list items close => do
      let inner ← source.enter
      (fields.readList inner type items close).map make
    | _, t => .error (t.mismatch type)
  write a := .object (fields.write (parts a))

end CampaignRouting.Json
