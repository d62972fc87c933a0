import CampaignRouting.Graph.Basic
import CampaignRouting.Json.Record

/-! The JSON form of rules, payloads and edges. -/

namespace CampaignRouting
open Json

/-! ## Rules -/

def RuleType.codec : Codec RuleType := .enum RuleType.all RuleType.name

def RuleOperator.codec : Codec RuleOperator := .enum RuleOperator.all RuleOperator.name

namespace RuleValue

/-- The text of a scalar. -/
def text? : Tree → Option String
  | .scalar (.string q) => q.text.toOption
  | _ => none

/-- The number of a scalar. -/
def number? : Tree → Option Json.Number
  | .scalar (.number n) => some n
  | _ => none

/-- The operand that a checked tree spells. An empty list counts as a list of texts. -/
def ofTree? : Tree → Option RuleValue
  | .scalar (.word .true) => some (.bool true)
  | .scalar (.word .false) => some (.bool false)
  | .scalar (.number n) => some (.number n)
  | .scalar (.string q) => q.text.toOption.map .text
  | .list items _ => ((items.mapM text?).map .texts).or ((items.mapM number?).map .numbers)
  | _ => none

/-- The operand as it was read; numbers keep their kind. -/
def toJson : RuleValue → Json
  | bool b => .bool b
  | number n => .number n
  | text s => .string s
  | texts l => .array (l.map .string)
  | numbers l => .array (l.map .number)

/-- Reads an operand. The value is checked as a whole first, so that a fault in the text is reported
before a shape that fits nothing. -/
def codec : Codec RuleValue where
  read source t := do
    t.check source
    match ofTree? t with
    | some v => return v
    | none => throw (.noMatchingShape "RuleValue")
  write := toJson

end RuleValue

/-- The fields that rules have, wherever they stand. -/
def Rule.fields :=
  Fields.cons (.required "id" .string) <|
  .cons (.required "ruleType" RuleType.codec) <|
  .cons (.required "operator" RuleOperator.codec) <|
  .cons (.optional "value" RuleValue.codec) <|
  .cons (.withDefault "label" "" .string) <|
  .cons (.optional "isRequired" .bool) .nil

def Rule.codec : Codec Rule :=
  .record "struct SegmentRule" Rule.fields
    (fun (id, type, operator, value, label, isRequired, ()) =>
      ⟨id, type, operator, value, label, isRequired⟩)
    (fun r => (r.id, r.type, r.operator, r.value, r.label, r.isRequired, ()))

/-! ## Payloads -/

def Traffic.codec : Codec Traffic :=
  .record "struct TrafficPayload"
    (.cons (.optional "defaultVariantId" .string) .nil)
    (fun (defaultPage, ()) => ⟨defaultPage⟩)
    (fun p => (p.defaultPage, ()))

def TranslationMode.codec : Codec TranslationMode := .enum TranslationMode.all TranslationMode.name

/-- All fields of a segment may be left out. -/
def Segment.codec : Codec Segment :=
  .record "struct SegmentPayload"
    (.cons (.withDefault "title" "" .string) <|
      .cons (.withDefault "description" "" .string) <|
      .cons (.withDefault "priority" 0.0 .float) <|
      .cons (.optional "primaryLandingPageId" .string) <|
      .cons (.withDefault "rules" [] (.list Rule.codec)) <|
      .cons (.withDefault "translationMode" .none TranslationMode.codec) <|
      .cons (.withDefault "translations" ∅ (.sortedMap .json)) .nil)
    (fun (title, description, priority, primaryPage, rules, translationMode, translations, ()) =>
      ⟨title, description, priority, primaryPage, rules, translationMode, translations⟩)
    (fun p => (p.title, p.description, p.priority, p.primaryPage, p.rules, p.translationMode,
      p.translations, ()))

def AbTestStatus.codec : Codec AbTestStatus := .enum AbTestStatus.all AbTestStatus.name

/-- Only three levels of confidence are there to be read. -/
def Confidence.codec : Codec Confidence :=
  Codec.uint8.refine
    (fun n => match Confidence.ofPercent? n with
      | some c => .ok c
      | none => .error
          (.unsupported ("confidence level must be 90, 95 or 99, got " ++ toString n.toNat)))
    Confidence.percent

/-- Conditions that are left out are not set. -/
def CompletionCriteria.codec : Codec CompletionCriteria :=
  .record "struct CompletionCriteria"
    (.cons (.optional "minSampleSize" .uint64) <|
      .cons (.optional "minDurationDays" .uint32) <|
      .cons (.optional "maxDurationDays" .uint32) .nil)
    (fun (size, least, most, ()) => ⟨size, least, most⟩)
    (fun c => (c.minSampleSize, c.minDurationDays, c.maxDurationDays, ()))

/-- An arm has to have an id; its page is taken as it comes. -/
def Arm.codec : Codec Arm :=
  .record "struct AbTestVariant"
    (.cons (.required "id" .string) <|
      .cons (.withDefault "name" "" .string) <|
      .cons (.optional "landingPageId" .string) <|
      .cons (.withDefault "trafficAllocation" 0.0 .float) <|
      .cons (.withDefault "isControl" false .bool) .nil)
    (fun (id, name, page, allocation, isControl, ()) => ⟨id, name, page, allocation, isControl⟩)
    (fun a => (a.id, a.name, a.page, a.allocation, a.isControl, ()))

/-- A test that is read pools a fifth of its visitors unless it gives another number. -/
def AbTest.codec : Codec AbTest :=
  .record "struct AbTestPayload"
    (.cons (.withDefault "title" "" .string) <|
      .cons (.withDefault "hypothesis" "" .string) <|
      .cons (.withDefault "status" .draft AbTestStatus.codec) <|
      .cons (.optional "primaryMetric" .string) <|
      .cons (.optional "completionCriteria" CompletionCriteria.codec) <|
      .cons (.withDefault "confidenceLevel" .ninetyFive Confidence.codec) <|
      .cons (.withDefault "poolingPercent" 20.0 .float) <|
      .cons (.withDefault "variants" [] (.list Arm.codec)) <|
      .cons (.optional "winner" .string) .nil)
    (fun (title, hypothesis, status, metric, criteria, confidence, pooling, arms, winner, ()) =>
      ⟨title, hypothesis, status, metric, criteria, confidence, pooling, arms, winner⟩)
    (fun p => (p.title, p.hypothesis, p.status, p.primaryMetric, p.completionCriteria,
      p.confidence, p.poolingPercent, p.arms, p.winner, ()))

def Variant.codec : Codec Variant :=
  .record "struct VariantPayload"
    (.cons (.withDefault "title" "" .string) <|
      .cons (.optional "landingPageId" .string) <|
      .cons (.optional "trafficPercentage" .float) .nil)
    (fun (title, page, share, ()) => ⟨title, page, share⟩)
    (fun p => (p.title, p.page, p.share, ()))

def Note.codec : Codec Note :=
  .record "struct NotePayload"
    (.cons (.withDefault "text" "" .string) .nil)
    (fun (text, ()) => ⟨text⟩)
    (fun p => (p.text, ()))

def Form.codec : Codec Form :=
  .record "struct FormPayload"
    (.cons (.optional "formId" .string) <|
      .cons (.withDefault "title" "" .string) .nil)
    (fun (formId, title, ()) => ⟨formId, title⟩)
    (fun p => (p.formId, p.title, ()))

/-- Reads the payload of a node of a type. -/
def Payload.ofJson (type : NodeType) (data : Json) : Except Json.Error Payload :=
  match type with
  | .traffic => (Traffic.codec.ofValue data).map .traffic
  | .segment => (Segment.codec.ofValue data).map .segment
  | .abTest => (AbTest.codec.ofValue data).map .abTest
  | .variant => (Variant.codec.ofValue data).map .variant
  | .note => (Note.codec.ofValue data).map .note
  | .form => (Form.codec.ofValue data).map .form

/-- The payload with all its fields, in ascending order of their names. -/
def Payload.toJson (p : Payload) : Json :=
  Json.sorted <|
    match p with
    | .traffic p => Traffic.codec.write p
    | .segment p => Segment.codec.write p
    | .abTest p => AbTest.codec.write p
    | .variant p => Variant.codec.write p
    | .note p => Note.codec.write p
    | .form p => Form.codec.write p

/-! ## Nodes and edges -/

def NodeType.codec : Codec NodeType := .enum NodeType.all NodeType.name

/-- The ends of an edge may be given under longer names, too. -/
def Edge.codec : Codec Edge :=
  .record "struct Edge"
    (.cons (.required "id" .string) <|
      .cons (Field.alsoNamed (.required "source" .string) ["sourceNodeId"]) <|
      .cons (Field.alsoNamed (.required "target" .string) ["targetNodeId"]) .nil)
    (fun (id, source, target, ()) => ⟨id, source, target⟩)
    (fun e => (e.id, e.source, e.target, ()))

end CampaignRouting
