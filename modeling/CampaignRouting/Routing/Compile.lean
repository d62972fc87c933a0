import CampaignRouting.Graph.Index
import CampaignRouting.Routing.Basic

/-! Compilation of a graph into a routing table. Only what the entry point leads to is routed:
segments next to it, and variants and tests next to those. All else is left out. -/

namespace CampaignRouting

namespace RoutedVariant

/-- A variant node as a destination of its own. -/
def ofVariant (id : String) (v : Variant) : RoutedVariant where
  id
  name := v.title
  page := v.page
  share := v.share
  isControl := false
  experiment := none

/-- An arm of the test `test`. -/
def ofArm (test : String) (a : Arm) : RoutedVariant where
  id := a.id
  name := a.name
  page := a.page
  share := some a.allocation
  isControl := a.isControl
  experiment := some test

/-- The destinations that a node next to a segment contributes. -/
def ofNode (n : Node) : List RoutedVariant :=
  match n.payload with
  | .abTest p => p.arms.map (ofArm n.id)
  | .variant p => [ofVariant n.id p]
  | .traffic _ | .segment _ | .note _ | .form _ => []

end RoutedVariant

namespace RoutedSegment

/-- A segment with the destinations next to it, in the order of its edges. -/
def ofSegment (i : Graph.Index) (id : String) (s : Segment) : RoutedSegment where
  id
  title := s.title
  description := s.description
  priority := s.priority
  primaryPage := s.primaryPage
  rules := s.rules
  translationMode := s.translationMode
  translations := s.translations
  variants := (i.targets id).flatMap RoutedVariant.ofNode

/-- The segments next to a node, in the order of its edges. -/
def nextTo (i : Graph.Index) (id : String) : List RoutedSegment :=
  (i.targets id).filterMap fun n => n.segment?.map (ofSegment i n.id)

end RoutedSegment

/-- The place of a priority in the total order of floating-point numbers, in which `-0.0` comes
before `0.0`. There is one value here that is no number, and it comes last, as a positive one does;
a negative one, which no text spells, would come first. -/
def priorityRank (x : Float) : Nat :=
  let bits := x.toBits.toNat
  let half := 0x8000000000000000
  if bits < half then half + bits else UInt64.size - 1 - bits

/-- Segments by priority, highest first. Those of one priority stay in order. -/
def byPriority (segments : List RoutedSegment) : List RoutedSegment :=
  segments.mergeSort fun s t => priorityRank t.priority ≤ priorityRank s.priority

namespace RoutingTable

/-- Compiles a graph. It fails only for want of a single entry point. -/
def compile (g : Graph) (settings : Settings) : Except StructureError RoutingTable := do
  let root ← g.root
  return {
    defaultPage := root.traffic.defaultPage
    segments := byPriority (RoutedSegment.nextTo g.index root.id)
    sessionDuration := settings.sessionDuration
    attributionPeriod := settings.attributionPeriod
    primaryGoal := settings.primaryGoal
    customGoals := settings.customGoals }

end RoutingTable
end CampaignRouting
