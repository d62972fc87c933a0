/-! Shortest decimals. A finite binary64 number stands for an interval of reals, those that round to
it. `Binary.shortest` finds the decimal with the fewest digits inside that interval, and of several
the one nearest to the number. Everything is decided in exact natural arithmetic on the bits. -/

namespace CampaignRouting.Decimal

/-- A finite magnitude, `mantissa * 2 ^ exponent`. -/
structure Binary where
  mantissa : Nat
  exponent : Int
  /-- The gap to the next number below is half the gap to the next one above. -/
  narrowBelow : Bool
deriving DecidableEq, Repr

/-- The magnitude held in the bits of a finite number; the sign bit is ignored. -/
def Binary.ofBits (bits : UInt64) : Binary :=
  let exponent : Nat := bits.toNat / Nat.pow 2 52 % Nat.pow 2 11
  let fraction : Nat := bits.toNat % Nat.pow 2 52
  if exponent = 0 then ⟨fraction, -1074, false⟩
  else ⟨Nat.pow 2 52 + fraction, exponent - 1075, fraction = 0 ∧ 1 < exponent⟩

/-- The decimal `digits * 10 ^ exponent`. -/
structure Digits where
  digits : Nat
  exponent : Int
deriving DecidableEq, Repr

/-- Which of two equally near decimals is taken. -/
inductive Tie where
  | toEven
  | up
deriving DecidableEq, Repr

/-- Compares `a * 10 ^ i` with `b * 2 ^ j`. -/
def compareScaled (a : Nat) (i : Int) (b : Nat) (j : Int) : Ordering :=
  compare (a * Nat.pow 10 i.toNat * Nat.pow 2 (-j).toNat)
    (b * Nat.pow 2 j.toNat * Nat.pow 10 (-i).toNat)

/-- The number of decimal digits of `n`, at least one. -/
def digitCount (n : Nat) : Nat := (Nat.toDigits 10 n).length

namespace Binary

/-- `d` rounds to `x`: it lies between the points half way to either neighbour. The end points
themselves count exactly when the mantissa is even. -/
def Contains (x : Binary) (d : Digits) : Prop :=
  let down := if x.narrowBelow then 1 else 2
  let lower := compareScaled d.digits d.exponent (4 * x.mantissa - down) (x.exponent - 2)
  let upper := compareScaled d.digits d.exponent (4 * x.mantissa + 2) (x.exponent - 2)
  let even := x.mantissa % 2 = 0
  (lower = .gt ∨ lower = .eq ∧ even) ∧ (upper = .lt ∨ upper = .eq ∧ even)

instance (x : Binary) (d : Digits) : Decidable (x.Contains d) := by
  unfold Contains; infer_instance

def numerator (x : Binary) : Nat := x.mantissa * Nat.pow 2 x.exponent.toNat

def denominator (x : Binary) : Nat := Nat.pow 2 (-x.exponent).toNat

/-- The least `k` with `x < 10 ^ k`, for `x` not zero. -/
def scale (x : Binary) : Int :=
  if x.denominator ≤ x.numerator then digitCount (x.numerator / x.denominator)
  else 1 - (digitCount ((x.denominator - 1) / x.numerator) : Int)

/-- `x / 10 ^ e`, rounded down. -/
def floorAt (x : Binary) (e : Int) : Nat :=
  x.numerator * Nat.pow 10 (-e).toNat / (x.denominator * Nat.pow 10 e.toNat)

/-- The nearer of the two multiples of `10 ^ e` on either side of `x`, if it rounds to `x`. -/
def nearestAt (x : Binary) (tie : Tie) (e : Int) : Option Digits :=
  let below : Digits := ⟨x.floorAt e, e⟩
  let above : Digits := ⟨x.floorAt e + 1, e⟩
  if x.Contains below then
    if x.Contains above then
      -- the middle of the two against `x`, both doubled
      match compareScaled (below.digits + above.digits) e (2 * x.mantissa) x.exponent with
      | .gt => some below
      | .lt => some above
      | .eq => some (if tie = .toEven ∧ below.digits % 2 = 0 then below else above)
    else some below
  else if x.Contains above then some above
  else none

/-- All digits of `x`. -/
def exact (x : Binary) : Digits :=
  if 0 ≤ x.exponent then ⟨x.numerator, 0⟩
  else ⟨x.mantissa * Nat.pow 5 (-x.exponent).toNat, x.exponent⟩

/-- The decimal with the fewest digits that rounds to `x`. One grid after the other is tried, from
one digit on; seventeen digits tell any two numbers apart. -/
def shortest (x : Binary) (tie : Tie) : Digits :=
  if x.mantissa = 0 then ⟨0, 0⟩
  else
    let found := (List.range 17).findSome? fun n => x.nearestAt tie (x.scale - (n + 1 : Nat))
    found.getD x.exact

end Binary
end CampaignRouting.Decimal
