import CampaignRouting.Decimal.Layout
import CampaignRouting.SortedMap

/-! JSON values. Integers that fit 64 bits are kept apart from all other numbers, so a literal
such as `5` never turns into `5.0`. -/

namespace CampaignRouting

/-- A number as JSON has it. -/
inductive Json.Number where
  /-- An integer from `-2 ^ 63` up to `2 ^ 64 - 1`. -/
  | integer (i : Int)
  | float (x : Float)
deriving BEq, DecidableEq, Repr

/-- A value. The members of an object are kept in the order in which they come. -/
inductive Json where
  | null
  | bool (b : Bool)
  | number (n : Json.Number)
  | string (s : String)
  | array (items : List Json)
  | object (members : List (String × Json))
deriving Inhabited, Repr

namespace Json

namespace Number

/-- The integer, where it is one that is kept as such. -/
def ofInt (i : Int) : Number :=
  if -0x8000000000000000 ≤ i ∧ i < UInt64.size then .integer i else .float (Float.ofInt i)

/-- The number as a floating-point number, to the nearest. -/
def toFloat : Number → Float
  | integer i => Float.ofInt i
  | float x => x

/-- Whole numbers keep `.0`; from a hundred-thousandth on and below `10 ^ 16` numbers are written
out. -/
def layout : Decimal.Layout where
  positional := some (-5, 15)
  pointZero := true
  tie := .toEven

/-- The literal that a number is written as. -/
def text : Number → String
  | integer i => toString i
  | float x => layout.render x

end Number

/-- The number `x`, which JSON can only write if it is finite. -/
def ofFloat (x : Float) : Json := if x.isFinite then .number (.float x) else .null

/-- A natural number that fits 64 bits. -/
def ofNat (n : Nat) : Json := .number (.integer n)

mutual

/-- Equality of values, where numbers count as equal as floating-point comparison has it. -/
def same : Json → Json → Bool
  | .null, .null => true
  | .bool a, .bool b => a == b
  | .number m, .number n => m == n
  | .string s, .string t => s == t
  | .array as, .array bs => sameItems as bs
  | .object as, .object bs => sameMembers as bs
  | _, _ => false

/-- Lists are the same item by item. -/
def sameItems : List Json → List Json → Bool
  | [], [] => true
  | a :: as, b :: bs => same a b && sameItems as bs
  | _, _ => false

/-- Objects are the same member by member, in order. -/
def sameMembers : List (String × Json) → List (String × Json) → Bool
  | [], [] => true
  | (k, a) :: as, (l, b) :: bs => k == l && same a b && sameMembers as bs
  | _, _ => false

end

instance : BEq Json := ⟨same⟩

mutual

/-- The value with the members of all its objects in ascending order of their keys. -/
def sorted : Json → Json
  | .array items => .array (sortedItems items)
  | .object members => .object (sortedMembers members)
  | v => v

def sortedItems : List Json → List Json
  | [] => []
  | v :: vs => v.sorted :: sortedItems vs

/-- The first of two members with one key is kept. -/
def sortedMembers : List (String × Json) → List (String × Json)
  | [] => []
  | (k, v) :: ms => insertEntry k v.sorted (sortedMembers ms)

end
end Json
end CampaignRouting
