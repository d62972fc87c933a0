import CampaignRouting.Decimal.Layout

/-! Percentages: when shares add up to a hundred, and how a share reads in a message. -/

namespace CampaignRouting.Percent

/-- How far the arms of a test may be off a hundred percent together. -/
def armTolerance : Float := 0.01

/-- How far variants next to each other may be off a hundred percent together. -/
def variantTolerance : Float := 0.2

/-- Lets sums at the very edge of a tolerance pass in spite of binary rounding. -/
def slack : Float := 1e-9

/-- `sum` lies within `tolerance` of a hundred, bounds included. -/
def SumsToHundred (sum tolerance : Float) : Prop := (sum - 100.0).abs ≤ tolerance + slack

instance (sum tolerance : Float) : Decidable (SumsToHundred sum tolerance) := by
  unfold SumsToHundred; infer_instance

/-- The shares together, added up in order. -/
def total (shares : List Float) : Float := shares.foldl (· + ·) 0.0

/-- The text of a share, to two decimal places at most. Whole shares are written as 64-bit integers,
to whose bounds greater ones are cut. -/
def text (x : Float) : String :=
  let rounded := (x * 100.0).round / 100.0
  if rounded.isFinite && rounded.floor == rounded then toString rounded.toInt64.toInt
  else Decimal.plain.render rounded

end CampaignRouting.Percent
