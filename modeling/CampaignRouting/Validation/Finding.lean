import CampaignRouting.Graph.Codec

/-! Findings of a validation, each a check that was not passed. -/

namespace CampaignRouting
open Json

/-- How bad a finding is. -/
inductive Severity where
  | error | warning | info
deriving DecidableEq, Repr

namespace Severity

def all : List Severity := [error, warning, info]

def name : Severity → String
  | error => "error"
  | warning => "warning"
  | info => "info"

def codec : Codec Severity := .enum all name

end Severity

/-- A finding as it is told to users. -/
structure Finding where
  id : String
  isValid : Bool
  message : String
  severity : Severity
  /-- The field of the payload that the finding is about. -/
  field : Option String
  /-- Findings about the campaign as a whole have one; the lower, the more fundamental. -/
  priority : Option UInt32
deriving BEq, DecidableEq, Repr

/-- The findings about one node. -/
structure NodeResult where
  nodeId : String
  nodeType : NodeType
  nodeTitle : String
  findings : List Finding
deriving BEq, DecidableEq, Repr

/-- One of the findings is an error. -/
def NodeResult.HasErrors (r : NodeResult) : Prop := ∃ f ∈ r.findings, f.severity = .error

instance (r : NodeResult) : Decidable r.HasErrors := by
  unfold NodeResult.HasErrors; infer_instance

/-! ## JSON form -/

/-- The fields that findings have, wherever they stand. -/
def Finding.fields :=
  Fields.cons (.required "id" .string) <|
  .cons (.required "isValid" .bool) <|
  .cons (.required "message" .string) <|
  .cons (.required "severity" Severity.codec) <|
  .cons (Field.hidden (.optional "field" .string)) <|
  .cons (Field.hidden (.optional "priority" .uint32)) .nil

def Finding.codec : Codec Finding :=
  .record "struct ValidationFinding" Finding.fields
    (fun (id, isValid, message, severity, field, priority, ()) =>
      ⟨id, isValid, message, severity, field, priority⟩)
    (fun f => (f.id, f.isValid, f.message, f.severity, f.field, f.priority, ()))

def NodeResult.codec : Codec NodeResult :=
  .record "struct ValidationResult"
    (.cons (.required "nodeId" .string) <|
      .cons (.required "nodeType" NodeType.codec) <|
      .cons (.required "nodeTitle" .string) <|
      .cons (.required "validations" (.list Finding.codec)) .nil)
    (fun (id, type, title, findings, ()) => ⟨id, type, title, findings⟩)
    (fun r => (r.nodeId, r.nodeType, r.nodeTitle, r.findings, ()))

end CampaignRouting
