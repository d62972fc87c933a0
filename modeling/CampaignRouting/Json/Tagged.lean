import CampaignRouting.Json.Record

/-! Values of several kinds, told apart by a tag among their fields. In an object the tag may
stand anywhere, so all other members are checked and set aside until the object has ended; in a
list it comes first. -/

namespace CampaignRouting.Json

variable {κ : Type}

/-- Reads a tag. -/
def readTag (all : List κ) (name : κ → String) (t : Tree) : Except Error κ :=
  match t with
  | .scalar (.string q) => do Codec.variant all name (← q.read)
  | t => .error (t.mismatch "variant identifier")

/-- Reads the members of a tagged object: the tag, once found, and the others. -/
def readTaggedMembers (tag : String) (all : List κ) (name : κ → String) (source : Source) :
    List (Quoted × Tree) → Option κ → Except Error (Option κ × List (Quoted × Tree))
  | [], kind => .ok (kind, [])
  | (key, value) :: members, kind => do
    let k ← key.read
    if k = tag then
      if kind.isSome then throw (.duplicateField tag)
      let found ← readTag all name value
      readTaggedMembers tag all name source members (some found)
    else
      value.check source
      let (kind, others) ← readTaggedMembers tag all name source members kind
      return (kind, (key, value) :: others)

/-- Reads the tag of a value of the type `type`; what is left holds the fields. -/
def readTagged (type tag : String) (all : List κ) (name : κ → String) (source : Source) :
    Tree → Except Error (κ × Tree)
  | .object members close => do
    let inner ← source.enter
    let (kind, others) ← readTaggedMembers tag all name inner members none
    checkFault close.objectFault?
    match kind with
    | some kind => return (kind, .object others .bracket)
    | none => throw (.missingField tag)
  | .list [] close => do
    let _ ← source.enter
    checkFault close.listFault?
    throw (.missingField tag)
  | .list (first :: items) close => do
    let inner ← source.enter
    let kind ← readTag all name first
    items.forM (·.check inner)
    checkFault close.listFault?
    return (kind, .list items .bracket)
  | t => .error (t.mismatch ("internally tagged enum " ++ type))

end CampaignRouting.Json
