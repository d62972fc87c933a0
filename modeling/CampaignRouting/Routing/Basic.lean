import CampaignRouting.Graph.Codec
import CampaignRouting.Settings

/-! Routing tables, from which the router works. It takes the first segment that a visitor matches
and splits its visitors over the segment's variants. -/

namespace CampaignRouting
open Json

/-- One destination inside a segment. -/
structure RoutedVariant where
  id : String
  name : String
  page : Option PageId
  /-- The share of visitors, in percent. -/
  share : Option Float
  isControl : Bool
  /-- The test that the variant is an arm of. -/
  experiment : Option String
deriving BEq, Repr

/-- A segment as the router looks at it. -/
structure RoutedSegment where
  id : String
  title : String
  description : String
  priority : Float
  primaryPage : Option PageId
  rules : List Rule
  translationMode : TranslationMode
  translations : SortedMap Json
  variants : List RoutedVariant
deriving BEq

/-- All that the router knows about a campaign. -/
structure RoutingTable where
  defaultPage : Option PageId
  /-- Highest priority first. -/
  segments : List RoutedSegment
  sessionDuration : UInt32
  attributionPeriod : UInt32
  primaryGoal : String
  customGoals : List Goal
deriving BEq

/-- The table that leads nobody anywhere. -/
def RoutingTable.empty : RoutingTable := ⟨none, [], 0, 0, "", []⟩

/-! ## JSON form

Every field has to be given; where a value may be `null`, the field may be left out of an object. -/

def RoutedVariant.codec : Codec RoutedVariant :=
  .record "struct CleanedVariant"
    (.cons (.required "id" .string) <|
      .cons (.required "name" .string) <|
      .cons (.nullable "landingPageId" .string) <|
      .cons (.nullable "trafficPercentage" .float) <|
      .cons (.required "isControl" .bool) <|
      .cons (.nullable "experimentId" .string) .nil)
    (fun (id, name, page, share, isControl, experiment, ()) =>
      ⟨id, name, page, share, isControl, experiment⟩)
    (fun v => (v.id, v.name, v.page, v.share, v.isControl, v.experiment, ()))

/-- The codec for the rules of a routed segment. -/
def RoutedSegment.ruleCodec : Codec Rule :=
  .record "struct CleanedSegmentRule"
    (.cons (.required "id" .string) <|
      .cons (.required "ruleType" RuleType.codec) <|
      .cons (.required "operator" RuleOperator.codec) <|
      .cons (.nullable "value" RuleValue.codec) <|
      .cons (.required "label" .string) <|
      .cons (.nullable "isRequired" .bool) .nil)
    (fun (id, type, operator, value, label, isRequired, ()) =>
      ⟨id, type, operator, value, label, isRequired⟩)
    (fun r => (r.id, r.type, r.operator, r.value, r.label, r.isRequired, ()))

def RoutedSegment.codec : Codec RoutedSegment :=
  .record "struct CleanedSegment"
    (.cons (.required "id" .string) <|
      .cons (.required "title" .string) <|
      .cons (.required "description" .string) <|
      .cons (.required "priority" .float) <|
      .cons (.nullable "primaryLandingPageId" .string) <|
      .cons (.required "rules" (.list ruleCodec)) <|
      .cons (.required "translationMode" TranslationMode.codec) <|
      .cons (.required "translations" (.sortedMap .json)) <|
      .cons (.required "variants" (.list RoutedVariant.codec)) .nil)
    (fun (id, title, description, priority, page, rules, mode, translations, variants, ()) =>
      ⟨id, title, description, priority, page, rules, mode, translations, variants⟩)
    (fun s => (s.id, s.title, s.description, s.priority, s.primaryPage, s.rules,
      s.translationMode, s.translations, s.variants, ()))

def RoutingTable.codec : Codec RoutingTable :=
  .record "struct CompiledConfig"
    (.cons (.nullable "defaultVariantId" .string) <|
      .cons (.required "segments" (.list RoutedSegment.codec)) <|
      .cons (.required "sessionDuration" .uint32) <|
      .cons (.required "attributionPeriod" .uint32) <|
      .cons (.required "primaryGoal" .string) <|
      .cons (.required "customGoals" (.list Goal.codec)) .nil)
    (fun (page, segments, session, attribution, primary, custom, ()) =>
      ⟨page, segments, session, attribution, primary, custom⟩)
    (fun t => (t.defaultPage, t.segments, t.sessionDuration, t.attributionPeriod, t.primaryGoal,
      t.customGoals, ()))

namespace RoutingTable

def toText (t : RoutingTable) : String := codec.toText t

def toPrettyText (t : RoutingTable) : String := codec.toPrettyText t

/-- Reads a table that has been written, with whatever spaces. -/
def ofText (s : String) : Except Json.Error RoutingTable := codec.ofText s

/-- The message about a text that holds no routing table. -/
def errorMessage (e : Json.Error) : String := "Failed to serialize compiled config: " ++ e.message

end RoutingTable
end CampaignRouting
