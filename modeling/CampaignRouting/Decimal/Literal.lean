/-! Reading decimal literals as floating-point numbers, correctly rounded. Magnitudes far outside
the range are decided from their number of digits alone, so that no huge power is ever computed.
-/

namespace CampaignRouting.Decimal

/-- The value of a string of decimal digits. -/
def digitsValue (ds : List Char) : Nat :=
  ds.foldl (fun n c => 10 * n + (c.toNat - '0'.toNat)) 0

/-- A decimal literal: its digits before and after the point, and the power of ten behind them. -/
structure Literal where
  negative : Bool
  whole : List Char
  fraction : List Char
  exponent : Int
deriving DecidableEq, Repr

/-- The nearest floating-point number, with ties to even. Too large a magnitude gives an infinity,
too small a one a zero; both keep the sign. A faster reader may settle for a number next to the
nearest one, or refuse the very largest literals; nothing that is proved about texts depends on
which number a literal with a fraction or an exponent is read as. -/
def Literal.toFloat (l : Literal) : Float :=
  let mantissa := digitsValue (l.whole ++ l.fraction)
  let exponent := l.exponent - l.fraction.length
  let digits := (Nat.toDigits 10 mantissa).length
  let magnitude : Float :=
    if mantissa = 0 ∨ digits + exponent < -400 then 0.0
    else if 400 < digits + exponent then 1.0 / 0.0
    else Float.ofScientific mantissa (exponent < 0) exponent.natAbs
  if l.negative then -magnitude else magnitude

/-! ## Free-standing numbers

Outside JSON a number may have a plus sign, digits on one side of the point only, and be one of the
words for an infinity or for no number, in capital or small letters. -/

/-- The sign of a text, and what follows it. -/
def readSign : List Char → Bool × List Char
  | '-' :: cs => (true, cs)
  | '+' :: cs => (false, cs)
  | cs => (false, cs)

/-- The integer fits 64 bits, the highest of which is for the sign. -/
def FitsInt64 (i : Int) : Prop := -0x8000000000000000 ≤ i ∧ i < 0x8000000000000000

instance (i : Int) : Decidable (FitsInt64 i) := by unfold FitsInt64; infer_instance

/-- The integer that a text spells, of any size. -/
def integerOf? (s : String) : Option Int :=
  let (negative, ds) := readSign s.toList
  if ds ≠ [] ∧ ds.all Char.isDigit then
    let n : Int := digitsValue ds
    some (if negative then -n else n)
  else none

/-- The natural number that a text spells; it may have a plus sign. -/
def naturalOf? (s : String) : Option Nat :=
  match s.toList with
  | '-' :: _ => none
  | _ => (integerOf? s).map Int.toNat

/-- The power of ten at the end of a text, if it is well written. -/
def exponentOf? : List Char → Option Int
  | [] => some 0
  | c :: cs =>
    let (negative, ds) := readSign cs
    if (c = 'e' ∨ c = 'E') ∧ ds ≠ [] ∧ ds.all Char.isDigit then
      let n : Int := digitsValue ds
      some (if negative then -n else n)
    else none

/-- The literal that a text without sign spells. -/
def literalOf? (negative : Bool) (cs : List Char) : Option Literal :=
  let whole := cs.takeWhile Char.isDigit
  let rest := cs.dropWhile Char.isDigit
  let (fraction, rest) := match rest with
    | '.' :: rest => (rest.takeWhile Char.isDigit, rest.dropWhile Char.isDigit)
    | rest => ([], rest)
  if whole = [] ∧ fraction = [] then none
  else (exponentOf? rest).map fun exponent => ⟨negative, whole, fraction, exponent⟩

/-- The number that a text spells. -/
def floatOf? (s : String) : Option Float :=
  let (negative, cs) := readSign s.toList
  let signed (x : Float) := if negative then -x else x
  let word := String.ofList (cs.map Char.toLower)
  if word = "inf" ∨ word = "infinity" then some (signed (1.0 / 0.0))
  else if word = "nan" then some (0.0 / 0.0)
  else (literalOf? negative cs).map (·.toFloat)

end CampaignRouting.Decimal
