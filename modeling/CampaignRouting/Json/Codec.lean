import CampaignRouting.Json.Printer
import CampaignRouting.Json.Tree

/-! Codecs: how the values of a type are read from trees and written as JSON. A reader reports the
first thing in the text that keeps the value from being read, be it a fault of the text or a value
of the wrong kind. -/

namespace CampaignRouting.Json

variable {α β : Type}

/-- Where a tree comes from. It decides how deep lists and objects may go, and a few messages. -/
inductive Source where
  /-- A text, in which so many more levels of lists and objects may be opened. -/
  | text (room : Nat)
  /-- A value that has been read before. -/
  | value
  /-- Part of a text that has been checked, and set aside to be read later. -/
  | buffered
deriving DecidableEq

/-- The source inside a list or an object. -/
def Source.enter : Source → Except Error Source
  | text 0 => .error (.malformed .tooDeep)
  | text (room + 1) => .ok (.text room)
  | value => .ok .value
  | buffered => .ok .buffered

/-- How values of a type are read and written. -/
structure Codec (α : Type) where
  read : Source → Tree → Except Error α
  write : α → Json

/-- Fails with a fault, if there is one. -/
def checkFault : Option Fault → Except Error Unit
  | none => .ok ()
  | some fault => .error (.malformed fault)

/-- The text between the quotes, if nothing is wrong with it. -/
def Quoted.read (q : Quoted) : Except Error String := q.text.mapError .malformed

/-- Why a scalar is not what was expected. A faulty one says so itself. -/
def Scalar.mismatch (expected : String) : Scalar → Error
  | word .null => .invalidType .null expected
  | word .true => .invalidType (.bool true) expected
  | word .false => .invalidType (.bool false) expected
  | brokenWord _ fault => .malformed fault
  | number n => .invalidType (.number n) expected
  | hugeNumber => .malformed .numberOutOfRange
  | brokenNumber fault => .malformed fault
  | string q =>
    match q.text with
    | .ok s => .invalidType (.string s) expected
    | .error fault => .malformed fault
  | stray => .malformed .expectedValue

/-- Why a value is not what was expected. -/
def Tree.mismatch (expected : String) : Tree → Error
  | scalar s => s.mismatch expected
  | list .. => .invalidType .sequence expected
  | object .. => .invalidType .map expected
  | absent fault => .malformed fault

/-- Why what a token starts is not what was expected. -/
def Start.mismatch (expected : String) : Start → Error
  | scalar s => s.mismatch expected
  | list => .invalidType .sequence expected
  | object => .invalidType .map expected
  | other => .malformed .expectedValue

/-! ## Any value -/

mutual

/-- The value of a tree. Where an object repeats a key, the last member counts. -/
def Tree.toJson (source : Source) : Tree → Except Error Json
  | .scalar (.word .null) => .ok .null
  | .scalar (.word .true) => .ok (.bool true)
  | .scalar (.word .false) => .ok (.bool false)
  | .scalar (.number n) => .ok (.number n)
  | .scalar (.string q) => q.read.map .string
  | .scalar s => .error (s.mismatch "any value")
  | .absent fault => .error (.malformed fault)
  | .list items close => do
    let inner ← source.enter
    let items ← toJsonItems inner items
    checkFault close.listFault?
    return .array items
  | .object members close => do
    let inner ← source.enter
    let members ← toJsonMembers inner members
    checkFault close.objectFault?
    return .object (SortedMap.ofList members).entries

def Tree.toJsonItems (source : Source) : List Tree → Except Error (List Json)
  | [] => .ok []
  | t :: ts => do
    let v ← t.toJson source
    return v :: (← toJsonItems source ts)

def Tree.toJsonMembers (source : Source) :
    List (Quoted × Tree) → Except Error (List (String × Json))
  | [] => .ok []
  | (key, value) :: ms => do
    let k ← key.read
    let v ← value.toJson source
    return (k, v) :: (← toJsonMembers source ms)

end

/-- Checks that a tree spells a value, whichever. -/
def Tree.check (source : Source) (t : Tree) : Except Error Unit := do
  let _ ← t.toJson source

namespace Codec

/-- How many lists and objects may stand inside each other in a text. -/
def maxDepth : Nat := 127

/-- Reads a text that holds one value and nothing else. -/
def ofText (c : Codec α) (s : String) : Except Error α := do
  let (tree, more) := Tree.ofText s
  let a ← c.read (.text maxDepth) tree
  if more then throw (.malformed .trailingCharacters)
  return a

/-- Reads a value that has been read before. -/
def ofValue (c : Codec α) (v : Json) : Except Error α := c.read .value (Tree.ofJson v)

/-- Writes a value with as little space as can be. -/
def toText (c : Codec α) (a : α) : String := (c.write a).compact

/-- Writes a value over several lines. -/
def toPrettyText (c : Codec α) (a : α) : String := (c.write a).pretty

/-- Any value at all. -/
def json : Codec Json where
  read source t := t.toJson source
  write := id

/-! ## Scalars -/

def string : Codec String where
  read
    | _, .scalar (.string q) => q.read
    | _, t => .error (t.mismatch "a string")
  write := .string

def bool : Codec Bool where
  read
    | _, .scalar (.word .true) => .ok true
    | _, .scalar (.word .false) => .ok false
    | _, t => .error (t.mismatch "a boolean")
  write := .bool

/-- Numbers of any kind. A number that is not finite is written as `null`. -/
def float : Codec Float where
  read
    | _, .scalar (.number n) => .ok n.toFloat
    | _, t => .error (t.mismatch "f64")
  write := .ofFloat

/-- Integers from zero up to a bound; `type` names them in messages. -/
def natural (type : String) (bound : Nat) : Codec Nat where
  read
    | _, .scalar (.number (.integer i)) =>
      if 0 ≤ i ∧ i < bound then .ok i.toNat
      else .error (.invalidValue (.number (.integer i)) type)
    | _, t => .error (t.mismatch type)
  write := .ofNat

/-- A codec for the values that `f` gives. -/
def map (c : Codec α) (f : α → β) (g : β → α) : Codec β where
  read source t := (c.read source t).map f
  write b := c.write (g b)

/-- A codec for those values for which `f` finds a meaning. -/
def refine (c : Codec α) (f : α → Except Error β) (g : β → α) : Codec β where
  read source t := c.read source t >>= f
  write b := c.write (g b)

def uint8 : Codec UInt8 := (natural "u8" UInt8.size).map UInt8.ofNat UInt8.toNat

def uint32 : Codec UInt32 := (natural "u32" UInt32.size).map UInt32.ofNat UInt32.toNat

def uint64 : Codec UInt64 := (natural "u64" UInt64.size).map UInt64.ofNat UInt64.toNat

/-- Sizes and counts. -/
def size : Codec Nat := natural "usize" UInt64.size

/-- Nothing but `null`. -/
def readUnit (t : Tree) : Except Error Unit :=
  match t with
  | .scalar (.word .null) => .ok ()
  | t => .error (t.mismatch "unit")

/-! ## Enumerations -/

/-- The value with a name. -/
def variant (all : List α) (name : α → String) (s : String) : Except Error α :=
  match all.find? (name · = s) with
  | some a => .ok a
  | none => .error (.unknownVariant s (all.map name))

/-- Reads an enumeration written as an object, whose one key names the value. -/
def readVariantObject (all : List α) (name : α → String) (source : Source)
    (members : List (Quoted × Tree)) (close : Close) : Except Error α :=
  match source, members with
  | .text _, [] => do
    let _ ← source.enter
    match close with
    | .noFirstKey start => .error (start.mismatch "variant identifier")
    | .endOfText => .error (.malformed .endInValue)
    | _ => .error (.malformed .expectedValue)
  | .text _, (key, payload) :: more => do
    let _ ← source.enter
    let a ← variant all name (← key.read)
    readUnit payload
    match more, close with
    | [], .bracket => return a
    | [], .endOfText => throw (.malformed .endInObject)
    | _, _ => throw (.malformed .expectedValue)
  | _, [(key, payload)] => do
    let a ← variant all name (← key.read)
    readUnit payload
    return a
  | _, _ => .error (.invalidValue .map "map with a single key")

/-- Values with names. -/
def enum (all : List α) (name : α → String) : Codec α where
  read
    | _, .scalar (.string q) => do variant all name (← q.read)
    | source, .object members close => readVariantObject all name source members close
    | _, .absent fault => .error (.malformed fault)
    | .text _, _ => .error (.malformed .expectedValue)
    | _, t => .error (t.mismatch "string or map")
  write a := .string (name a)

/-! ## Containers -/

/-- A value that may be `null`. -/
def option (c : Codec α) : Codec (Option α) where
  read
    | _, .scalar (.word .null) => .ok none
    | _, .scalar (.brokenWord .null fault) => .error (.malformed fault)
    | source, t => (c.read source t).map some
  write
    | none => .null
    | some a => c.write a

/-- Lists, whose items are read in order up to the first fault. -/
def list (c : Codec α) : Codec (List α) where
  read
    | source, .list items close => do
      let inner ← source.enter
      let as ← items.mapM (c.read inner)
      checkFault close.listFault?
      return as
    | _, t => .error (t.mismatch "a sequence")
  write as := .array (as.map c.write)

/-- Reads the members of a map into those before them. -/
def readEntries (c : Codec α) (source : Source) :
    List (Quoted × Tree) → SortedMap α → Except Error (SortedMap α)
  | [], m => .ok m
  | (key, value) :: members, m => do
    let k ← key.read
    let a ← c.read source value
    readEntries c source members (m.insert k a)

/-- Maps from texts; the last member with a key counts. -/
def sortedMap (c : Codec α) : Codec (SortedMap α) where
  read
    | source, .object members close => do
      let inner ← source.enter
      let m ← readEntries c inner members ∅
      checkFault close.objectFault?
      return m
    | _, t => .error (t.mismatch "a map")
  write m := .object (m.entries.map fun (k, a) => (k, c.write a))

end Codec
end CampaignRouting.Json
