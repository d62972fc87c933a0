/-! Dice for made-up data. The same seed always gives the same throws. -/

namespace CampaignRouting

/-- Dice that have been thrown some number of times. -/
structure Dice where
  state : UInt64
deriving DecidableEq, Repr

namespace Dice

def ofSeed (seed : Nat) : Dice := ⟨seed.toUInt64⟩

/-- Mixes the bits of the state, which goes up by the same step at each throw. -/
def next (d : Dice) : UInt64 × Dice :=
  let state := d.state + 0x9E3779B97F4A7C15
  let z := (state ^^^ (state >>> 30)) * 0xBF58476D1CE4E5B9
  let z := (z ^^^ (z >>> 27)) * 0x94D049BB133111EB
  (z ^^^ (z >>> 31), ⟨state⟩)

/-- A number below `sides`. -/
def throwBelow (sides : Nat) : StateM Dice Nat := fun d =>
  let (z, d) := d.next
  (z.toNat % sides, d)

theorem throwBelow_lt {sides : Nat} (h : 0 < sides) (d : Dice) :
    ((throwBelow sides).run d).1 < sides :=
  Nat.mod_lt _ h

/-- True `n` times out of `sides`. -/
def chance (n sides : Nat) : StateM Dice Bool := do return (← throwBelow sides) < n

/-- One of some texts; the empty text if there is none. -/
def oneOf (texts : List String) : StateM Dice String := do
  return texts.getD (← throwBelow texts.length) ""

end Dice
end CampaignRouting
