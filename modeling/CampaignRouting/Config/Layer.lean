import CampaignRouting.Decimal.Literal
import CampaignRouting.Json.Basic
import CampaignRouting.Text.Split

/-! Values in layers. A value laid over another one takes its place, except that an object goes into
an object member by member; so whatever the upper layer leaves open shows through from below. -/

namespace CampaignRouting
open Text (split)

namespace Json

/-- The members of an object. -/
def members : Json → List (String × Json)
  | object members => members
  | _ => []

/-- The member of an object with a name; other values have none. -/
def member? (v : Json) (key : String) : Option Json := v.members.lookup key

/-- Sets a member. Anything but an object gives way to one. -/
def withMember (v : Json) (key : String) (value : Json) : Json :=
  .object (insertEntry key value v.members)

mutual

/-- `base` with a layer on top. -/
def overlay (base : Json) : Json → Json
  | .object members => overlayMembers base members
  | layer => layer

def overlayMembers (base : Json) : List (String × Json) → Json
  | [] => base
  | (key, layer) :: rest =>
    overlayMembers
      (base.withMember key (((base.member? key).getD (.object [])).overlay layer)) rest

end

/-! ## Items -/

/-- The items of a list; other values have none. -/
def items : Json → List Json
  | array items => items
  | _ => []

/-- The index of a place in a list, counted from its end where it is below zero. -/
def index? (length : Nat) (place : Int) : Option Nat :=
  if 0 ≤ place then some place.toNat
  else if place.natAbs ≤ length then some (length - place.natAbs)
  else none

def item? (v : Json) (place : Int) : Option Json := (index? v.items.length place).bind (v.items[·]?)

/-- Sets an item; a list that is too short is filled up with nulls. Anything but a list gives way to
one, and a place before the first item is none. -/
def withItem (v : Json) (place : Int) (value : Json) : Json :=
  match index? v.items.length place with
  | some i => .array ((v.items ++ List.replicate (i + 1 - v.items.length) null).set i value)
  | none => .array v.items

end Json

/-! ## Paths -/

/-- One step of a path into a value. -/
inductive PathStep where
  | member (key : String)
  | item (place : Int)
deriving DecidableEq, Repr

/-- Lays a value over what is at the end of a path. An item at the end is replaced. -/
def Json.overlayAt (layer : Json) : List PathStep → Json → Json
  | [], base => base.overlay layer
  | [.item place], base => base.withItem place layer
  | .member key :: steps, base =>
    base.withMember key (overlayAt layer steps ((base.member? key).getD (.object [])))
  | .item place :: steps, base =>
    base.withItem place (overlayAt layer steps ((base.item? place).getD .null))

/-- The characters of the names along a path. -/
def isPathChar (c : Char) : Bool := c.isAlphanum || c = ' ' || c = '_' || c = '-'

/-- The step of a whole number of 64 bits and a closing bracket, with blanks around the number. -/
def PathStep.subscript? (cs : List Char) : Option PathStep :=
  let isBlank (c : Char) : Bool := c = ' ' || c = '\t'
  let digits := ((cs.dropLast.dropWhile isBlank).reverse.dropWhile isBlank).reverse
  if cs.getLast? = some ']' ∧ digits.head? ≠ some '+' then
    ((Decimal.integerOf? (String.ofList digits)).filter Decimal.FitsInt64).map .item
  else none

/-- The steps of a name with places in brackets behind it. -/
def PathStep.named? (cs : List Char) : Option (List PathStep) :=
  match split '[' cs with
  | [] => none
  | name :: subscripts =>
    if name ≠ [] ∧ name.all isPathChar then
      (subscripts.mapM subscript?).map (.member (String.ofList name) :: ·)
    else none

/-- The path that a key spells, whose names have dots between them. A key that spells none stands
for itself. -/
def keyPath (key : String) : List PathStep :=
  match (split '.' key.toList).mapM PathStep.named? with
  | some parts => parts.flatten
  | none => [.member key]

/-- Values with their paths as one value, where later ones lie over earlier ones. -/
def layered (entries : List (List PathStep × Json)) : Json :=
  entries.foldl (fun base (path, layer) => Json.overlayAt layer path base) (.object [])

end CampaignRouting
