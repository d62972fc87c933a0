import CampaignRouting.Decimal.Literal
import CampaignRouting.Json.Basic
import CampaignRouting.Json.Token

/-! The values that a single word of a TOML text can spell: truth values, numbers, dates and times
of day. A date or time is kept as text, in its canonical form. -/

namespace CampaignRouting.Toml
open Decimal (FitsInt64 digitsValue readSign)

/-! ## Numbers -/

/-- The digits of a number without the underscores, each of which has to stand between two digits.
-/
def ungroup? (isDigit : Char → Bool) : List Char → Option (List Char)
  | [] => none
  | [c] => if isDigit c then some [c] else none
  | c :: '_' :: cs => if isDigit c then (ungroup? isDigit cs).map (c :: ·) else none
  | c :: cs => if isDigit c then (ungroup? isDigit cs).map (c :: ·) else none

/-- The digits before the point: a zero stands alone. -/
def whole? (cs : List Char) : Option (List Char) := do
  let ds ← ungroup? Char.isDigit cs
  if ds.head? = some '0' ∧ ds ≠ ['0'] then none else some ds

/-- The value of digits in a base up to sixteen. -/
def valueIn (base : Nat) (ds : List Char) : Nat :=
  ds.foldl (fun n c => base * n + (Json.hexValue? c).getD 0) 0

/-- The digits of a base. -/
def isDigitIn (base : Nat) (c : Char) : Bool := (Json.hexValue? c).any (· < base)

/-- The integer, if it fits 64 bits. -/
def fit? (i : Int) : Option Json :=
  if FitsInt64 i then some (.number (.integer i)) else none

/-- Integers: decimal with or without sign, or in base two, eight or sixteen without one. -/
def integer? (cs : List Char) : Option Json :=
  match cs with
  | '0' :: 'x' :: ds => (ungroup? (isDigitIn 16) ds).bind fun ds => fit? (valueIn 16 ds)
  | '0' :: 'o' :: ds => (ungroup? (isDigitIn 8) ds).bind fun ds => fit? (valueIn 8 ds)
  | '0' :: 'b' :: ds => (ungroup? (isDigitIn 2) ds).bind fun ds => fit? (valueIn 2 ds)
  | cs =>
    let (negative, cs) := readSign cs
    (whole? cs).bind fun ds =>
      let n : Int := digitsValue ds
      fit? (if negative then -n else n)

/-- The power of ten at the end of a number, if it is well written. -/
def exponent? : List Char → Option Int
  | [] => some 0
  | _ :: cs => do
    let (negative, cs) := readSign cs
    let n : Int := digitsValue (← ungroup? Char.isDigit cs)
    return if negative then -n else n

def startsExponent (c : Char) : Bool := c = 'e' || c = 'E'

/-- Numbers with a point, a power of ten or both, and the words for an infinity and for no number.
A literal beyond the greatest number is refused, though not one below the least. -/
def float? (cs : List Char) : Option Json := do
  let (negative, cs) := readSign cs
  let signed (x : Float) := if negative then -x else x
  if cs = ['i', 'n', 'f'] then return .number (.float (signed (1.0 / 0.0)))
  if cs = ['n', 'a', 'n'] then return .number (.float (signed (0.0 / 0.0)))
  let ends (c : Char) := c = '.' || startsExponent c
  let whole ← whole? (cs.takeWhile (!ends ·))
  let (fraction, cs) ← match cs.dropWhile (!ends ·) with
    | [] => none
    | '.' :: cs => do
      let fraction ← ungroup? Char.isDigit (cs.takeWhile (!startsExponent ·))
      pure (fraction, cs.dropWhile (!startsExponent ·))
    | cs => pure ([], cs)
  let x := (Decimal.Literal.mk negative whole fraction (← exponent? cs)).toFloat
  if x == 1.0 / 0.0 then none else some (.number (.float x))

/-! ## Dates and times of day -/

/-- A number of two digits in a range. -/
def isTwoDigits (a b : Char) (least greatest : Nat) : Bool :=
  a.isDigit && b.isDigit && decide (least ≤ digitsValue [a, b] ∧ digitsValue [a, b] ≤ greatest)

/-- The year has a 29th of February. -/
def IsLeapYear (year : Nat) : Prop := year % 4 = 0 ∧ (year % 100 ≠ 0 ∨ year % 400 = 0)

instance (year : Nat) : Decidable (IsLeapYear year) := by unfold IsLeapYear; infer_instance

/-- The number of days of a month. -/
def daysIn (year month : Nat) : Nat :=
  if month = 2 then if IsLeapYear year then 29 else 28
  else if month ∈ [4, 6, 9, 11] then 30
  else 31

/-- The date at the start, and what follows it. -/
def readDate (cs : List Char) : Option (List Char × List Char) :=
  match cs with
  | y₁ :: y₂ :: y₃ :: y₄ :: '-' :: m₁ :: m₂ :: '-' :: d₁ :: d₂ :: rest =>
    let year := [y₁, y₂, y₃, y₄]
    if year.all Char.isDigit ∧ isTwoDigits m₁ m₂ 1 12
        ∧ isTwoDigits d₁ d₂ 1 (daysIn (digitsValue year) (digitsValue [m₁, m₂])) then
      some (cs.take 10, rest)
    else none
  | _ => none

/-- The parts of a second behind the point, of which nine digits count and zeros at the end do
not. -/
def readSecondParts (cs : List Char) : Option (List Char × List Char) :=
  match cs with
  | '.' :: cs =>
    let ds := cs.takeWhile Char.isDigit
    let shown := ((ds.take 9).reverse.dropWhile (· = '0')).reverse
    if ds = [] then none
    else some (if shown = [] then [] else '.' :: shown, cs.dropWhile Char.isDigit)
  | cs => some ([], cs)

/-- The time of day at the start, and what follows it. A minute may have a leap second. -/
def readTime (cs : List Char) : Option (List Char × List Char) :=
  match cs with
  | h₁ :: h₂ :: ':' :: m₁ :: m₂ :: ':' :: s₁ :: s₂ :: rest =>
    if isTwoDigits h₁ h₂ 0 23 ∧ isTwoDigits m₁ m₂ 0 59 ∧ isTwoDigits s₁ s₂ 0 60 then
      (readSecondParts rest).map fun (parts, rest) => (cs.take 8 ++ parts, rest)
    else none
  | _ => none

/-- The distance from universal time, which is never a negative zero. -/
def zone? (cs : List Char) : Option (List Char) :=
  match cs with
  | [] => some []
  | [c] => if c = 'Z' ∨ c = 'z' then some ['Z'] else none
  | [sign, h₁, h₂, ':', m₁, m₂] =>
    if (sign = '+' ∨ sign = '-') ∧ isTwoDigits h₁ h₂ 0 23 ∧ isTwoDigits m₁ m₂ 0 59 then
      let distance := [h₁, h₂, ':', m₁, m₂]
      some ((if digitsValue [h₁, h₂, m₁, m₂] = 0 then '+' else sign) :: distance)
    else none
  | _ => none

/-- A date, a time of day, or both with or without a zone. -/
def moment? (cs : List Char) : Option (List Char) :=
  match readDate cs with
  | some (date, []) => some date
  | some (date, mark :: cs) =>
    if mark ∈ ['T', 't', ' '] then do
      let (time, cs) ← readTime cs
      return date ++ 'T' :: time ++ (← zone? cs)
    else none
  | none =>
    match readTime cs with
    | some (time, []) => some time
    | _ => none

/-- The value of a word. -/
def scalar? (cs : List Char) : Option Json :=
  if cs = ['t', 'r', 'u', 'e'] then some (.bool true)
  else if cs = ['f', 'a', 'l', 's', 'e'] then some (.bool false)
  else ((integer? cs).or (float? cs)).or ((moment? cs).map fun cs => .string (String.ofList cs))

end CampaignRouting.Toml
