import CampaignRouting.Validation.Validate

/-! Reports: all findings of a validation sorted by severity, and the decision whether the
campaign may be published. Only errors and critical findings stand in the way. -/

namespace CampaignRouting
open Json

/-- A finding with the node that it is about. -/
structure NodeFinding where
  nodeId : String
  nodeType : NodeType
  nodeTitle : String
  finding : Finding
deriving BEq, DecidableEq, Repr

/-- How many findings there are of each severity. -/
structure Report.Summary where
  errors : Nat
  warnings : Nat
  info : Nat
  critical : Nat
deriving BEq, DecidableEq, Repr

/-- The findings about nodes by severity, in the order of the nodes. -/
structure Report.BySeverity where
  /-- Findings about the campaign as a whole, the most fundamental first. -/
  critical : List Finding
  errors : List NodeFinding
  warnings : List NodeFinding
  info : List NodeFinding
deriving BEq, DecidableEq, Repr

/-- All that validation has found, and whether the campaign may be published. -/
structure Report where
  canPublish : Bool
  summary : Report.Summary
  bySeverity : Report.BySeverity
  results : List NodeResult
deriving BEq, DecidableEq, Repr

/-- The findings about a node that have a severity. -/
def NodeResult.withSeverity (r : NodeResult) (s : Severity) : List NodeFinding :=
  (r.findings.filter (·.severity = s)).map fun f => ⟨r.nodeId, r.nodeType, r.nodeTitle, f⟩

/-- The rank of a finding among critical ones; without a priority it comes last. -/
def Finding.rank (f : Finding) : Nat := (f.priority.getD (UInt32.ofNat (UInt32.size - 1))).toNat

namespace Report

/-- Puts the findings of a validation together. -/
def ofFindings (results : List NodeResult) (critical : List Finding) : Report :=
  let errors := results.flatMap (·.withSeverity .error)
  let warnings := results.flatMap (·.withSeverity .warning)
  let info := results.flatMap (·.withSeverity .info)
  let critical := critical.mergeSort fun f g => f.rank ≤ g.rank
  { canPublish := errors.isEmpty && critical.isEmpty
    summary := ⟨errors.length, warnings.length, info.length, critical.length⟩
    bySeverity := ⟨critical, errors, warnings, info⟩
    results }

/-- The finding that has to be dealt with first. -/
def firstBlocker? (r : Report) : Option Finding :=
  r.bySeverity.critical.head?.or (r.bySeverity.errors.head?.map (·.finding))

end Report

/-- The report on a graph. -/
def Graph.report (g : Graph) (config : ValidationConfig) (c : Context) : Report :=
  .ofFindings (g.validate config c) (g.criticalFindings c)

/-! ## JSON form

A finding with its node is one object with the fields of both. It is read in two steps: the fields
of the node as they come, all others set aside until the object has ended. -/

namespace NodeFinding

def nodeFields :=
  Fields.cons (.required "nodeId" .string) <|
  .cons (.required "nodeType" NodeType.codec) <|
  .cons (.required "nodeTitle" .string) .nil

/-- Reads the fields of the node among the members, and gives the other members. -/
def readNode (source : Source) :
    List (Quoted × Tree) → Option String × Option NodeType × Option String × Unit →
      Except Json.Error
        ((Option String × Option NodeType × Option String × Unit) × List (Quoted × Tree))
  | [], found => .ok (found, [])
  | (key, value) :: members, found => do
    let name ← key.read
    match nodeFields.readMember? source name value found with
    | some r => readNode source members (← r)
    | none =>
      value.check source
      let (found, others) ← readNode source members found
      return (found, (key, value) :: others)

def read (source : Source) : Tree → Except Json.Error NodeFinding
  | .object members close => do
    let inner ← source.enter
    let (found, others) ← readNode inner members nodeFields.noneFound
    checkFault close.objectFault?
    let (id, type, title, ()) ← nodeFields.complete found
    let finding ← Finding.codec.read .buffered (.object others .bracket)
    return ⟨id, type, title, finding⟩
  | t => .error (t.mismatch "struct NodeFinding")

def codec : Codec NodeFinding where
  read := read
  write f :=
    .object (nodeFields.write (f.nodeId, f.nodeType, f.nodeTitle, ())
      ++ Finding.fields.write (f.finding.id, f.finding.isValid, f.finding.message,
        f.finding.severity, f.finding.field, f.finding.priority, ()))

end NodeFinding

namespace Report

def Summary.codec : Codec Summary :=
  .record "struct ReportSummary"
    (.cons (.required "errors" .size) <|
      .cons (.required "warnings" .size) <|
      .cons (.required "info" .size) <|
      .cons (.required "criticalErrors" .size) .nil)
    (fun (errors, warnings, info, critical, ()) => ⟨errors, warnings, info, critical⟩)
    (fun s => (s.errors, s.warnings, s.info, s.critical, ()))

def BySeverity.codec : Codec BySeverity :=
  .record "struct BySeverity"
    (.cons (.required "critical" (.list Finding.codec)) <|
      .cons (.required "errors" (.list NodeFinding.codec)) <|
      .cons (.required "warnings" (.list NodeFinding.codec)) <|
      .cons (.required "info" (.list NodeFinding.codec)) .nil)
    (fun (critical, errors, warnings, info, ()) => ⟨critical, errors, warnings, info⟩)
    (fun b => (b.critical, b.errors, b.warnings, b.info, ()))

def codec : Codec Report :=
  .record "struct ValidationReport"
    (.cons (.required "canPublish" .bool) <|
      .cons (.required "summary" Summary.codec) <|
      .cons (.required "bySeverity" BySeverity.codec) <|
      .cons (.required "results" (.list NodeResult.codec)) .nil)
    (fun (canPublish, summary, bySeverity, results, ()) =>
      ⟨canPublish, summary, bySeverity, results⟩)
    (fun r => (r.canPublish, r.summary, r.bySeverity, r.results, ()))

def toText (r : Report) : String := codec.toText r

def toPrettyText (r : Report) : String := codec.toPrettyText r

end Report
end CampaignRouting
