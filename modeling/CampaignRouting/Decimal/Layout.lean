import CampaignRouting.Decimal.Shortest

/-! How a floating-point number is written once its digits are known. A `Layout` holds the decisions
of one output format; `Layout.render` turns a number into text. -/

namespace CampaignRouting.Decimal

/-- The decisions of an output format for numbers. -/
structure Layout where
  /-- The powers of ten of the leading digit that are written positionally; with `none` all are. -/
  positional : Option (Int × Int)
  /-- Whole numbers end in `.0`. -/
  pointZero : Bool
  tie : Tie
deriving DecidableEq, Repr

/-- `n` zeros. -/
def zeros (n : Nat) : List Char := List.replicate n '0'

/-- Significant digits, the first of which counts `10 ^ lead`, with a point in their place. -/
def positionalText (pointZero : Bool) (digits : List Char) (lead : Int) : List Char :=
  if lead < 0 then
    '0' :: '.' :: zeros (-lead - 1).toNat ++ digits
  else
    let whole := lead.toNat + 1
    if digits.length ≤ whole then
      digits ++ zeros (whole - digits.length) ++ if pointZero then ['.', '0'] else []
    else digits.take whole ++ '.' :: digits.drop whole

/-- Significant digits with the point behind the first and the power of ten at the end. -/
def scientificText (digits : List Char) (lead : Int) : List Char :=
  let sign := if lead < 0 then '-' else '+'
  let mantissa := match digits with
    | [] => []
    | [d] => [d]
    | d :: ds => d :: '.' :: ds
  mantissa ++ 'e' :: sign :: Nat.toDigits 10 lead.natAbs

/-- The text of a decimal; trailing zeros among its digits do not show. -/
def Layout.layOut (l : Layout) (d : Digits) : List Char :=
  let all := Nat.toDigits 10 d.digits
  let lead := if d.digits = 0 then 0 else d.exponent + all.length - 1
  let digits := if d.digits = 0 then all else (all.reverse.dropWhile (· = '0')).reverse
  match l.positional with
  | none => positionalText l.pointZero digits lead
  | some (least, greatest) =>
    if least ≤ lead ∧ lead ≤ greatest then positionalText l.pointZero digits lead
    else scientificText digits lead

/-- The text of a number. The infinities and the number that is none have words of their own. -/
def Layout.render (l : Layout) (x : Float) : String :=
  let bits := x.toBits
  let sign := if 0x8000000000000000 ≤ bits.toNat then ['-'] else []
  if x.isNaN then "NaN"
  else if x.isInf then String.ofList (sign ++ ['i', 'n', 'f'])
  else String.ofList (sign ++ l.layOut ((Binary.ofBits bits).shortest l.tie))

/-- Plain text: every number positional, whole numbers without a point. -/
def plain : Layout where
  positional := none
  pointZero := false
  tie := .up

end CampaignRouting.Decimal
