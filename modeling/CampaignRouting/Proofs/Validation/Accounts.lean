import CampaignRouting.Proofs.Sorting
import CampaignRouting.Proofs.Validation.Decision

/-!
# What a report accounts for

A report holds the findings that it is made of, all of them and no others: those about nodes sorted
by severity, those about the campaign by priority (`Report.accountsFor_ofFindings`). Its counts, its
decision and the finding that it names as the first to deal with follow from these lists. A finding
without a priority counts as one of the greatest priority there is, so it need not come behind a
finding that has this priority (`Report.ofFindings_unset_first`).
-/

namespace CampaignRouting

/-- The findings about a node, each with the node. -/
def NodeResult.tagged (r : NodeResult) : List NodeFinding :=
  r.findings.map fun f => ⟨r.nodeId, r.nodeType, r.nodeTitle, f⟩

theorem NodeResult.withSeverity_eq_filter (r : NodeResult) (s : Severity) :
    r.withSeverity s = r.tagged.filter (·.finding.severity = s) := by
  rw [withSeverity, tagged, List.filter_map]
  rfl

theorem flatMap_withSeverity (results : List NodeResult) (s : Severity) :
    results.flatMap (·.withSeverity s) =
      (results.flatMap NodeResult.tagged).filter (·.finding.severity = s) := by
  rw [List.filter_flatMap]
  exact List.flatMap_congr fun r _ => r.withSeverity_eq_filter s

theorem map_finding_tagged (results : List NodeResult) :
    (results.flatMap NodeResult.tagged).map (·.finding) = results.flatMap (·.findings) := by
  rw [List.map_flatMap]
  refine List.flatMap_congr fun r _ => ?_
  rw [NodeResult.tagged, List.map_map]
  exact List.map_id _

/-- Every finding has one of three severities. -/
theorem length_filter_severity (fs : List NodeFinding) :
    (fs.filter (·.finding.severity = .error)).length +
      (fs.filter (·.finding.severity = .warning)).length +
      (fs.filter (·.finding.severity = .info)).length = fs.length := by
  induction fs with
  | nil => rfl
  | cons f fs ih => cases h : f.finding.severity <;> simp [h] <;> omega

/-- The findings `given`, ordered by priority: the most fundamental first, and those of one priority
as they were given. -/
structure Finding.Ordered (given ordered : List Finding) : Prop where
  perm : ordered.Perm given
  ascending : ordered.Pairwise fun f g => f.rank ≤ g.rank
  stable : ∀ rank, ordered.filter (·.rank = rank) = given.filter (·.rank = rank)

theorem Finding.ordered_mergeSort (given : List Finding) :
    Ordered given (given.mergeSort fun f g => f.rank ≤ g.rank) where
  perm := List.mergeSort_perm ..
  ascending := pairwise_mergeSort_rank rank given
  stable := filter_mergeSort_rank rank given

theorem Finding.rank_eq (f : Finding) :
    f.rank = match f.priority with
      | some priority => priority.toNat
      | none => 4294967295 := by
  unfold rank
  cases f.priority <;> rfl

/-- Only behind a finding without a priority there may be one of the greatest priority. -/
theorem Finding.Ordered.unsetLast {given ordered : List Finding} (h : Ordered given ordered) :
    ordered.Pairwise fun f g =>
      f.priority = none → ∀ priority ∈ g.priority, priority.toNat = 4294967295 := by
  refine h.ascending.imp fun {f g} hle hf priority hg => ?_
  have hbound : priority.toNat < 4294967296 := priority.toNat_lt
  rw [f.rank_eq, g.rank_eq, hf, Option.mem_def.1 hg] at hle
  dsimp only at hle
  omega

namespace Report

/-- The report is made of the findings `rs` about nodes and `fs` about the campaign. -/
structure AccountsFor (r : Report) (rs : List NodeResult) (fs : List Finding) : Prop where
  results : r.results = rs
  errors : r.bySeverity.errors =
    (rs.flatMap NodeResult.tagged).filter (·.finding.severity = .error)
  warnings : r.bySeverity.warnings =
    (rs.flatMap NodeResult.tagged).filter (·.finding.severity = .warning)
  info : r.bySeverity.info =
    (rs.flatMap NodeResult.tagged).filter (·.finding.severity = .info)
  critical : Finding.Ordered fs r.bySeverity.critical
  unsetLast : r.bySeverity.critical.Pairwise fun f g =>
    f.priority = none → ∀ priority ∈ g.priority, priority.toNat = 4294967295
  summary : r.summary = ⟨r.bySeverity.errors.length, r.bySeverity.warnings.length,
    r.bySeverity.info.length, r.bySeverity.critical.length⟩
  total : r.summary.errors + r.summary.warnings + r.summary.info =
    (rs.flatMap (·.findings)).length
  canPublish : r.canPublish = true ↔ (∀ x ∈ rs, ¬x.HasErrors) ∧ fs = []
  unblocked : r.firstBlocker? = none ↔ r.canPublish = true
  /-- The earliest critical finding of least rank if there is one, else the first error. -/
  firstBlocker : r.firstBlocker? = (fs.argmin Finding.rank).or
    ((rs.flatMap (·.findings)).find? (·.severity = .error))

variable (results : List NodeResult) (critical : List Finding)

theorem firstBlocker?_ofFindings : (ofFindings results critical).firstBlocker? =
    (critical.argmin Finding.rank).or
      ((results.flatMap (·.findings)).find? (·.severity = .error)) := by
  have herror : (results.flatMap (·.withSeverity .error)).head?.map (·.finding) =
      (results.flatMap (·.findings)).find? (·.severity = .error) := by
    rw [flatMap_withSeverity, List.head?_filter, ← map_finding_tagged, List.find?_map]
    rfl
  rw [firstBlocker?, ofFindings, head?_mergeSort, herror]

theorem firstBlocker?_eq_none_iff :
    (ofFindings results critical).firstBlocker? = none ↔
      (ofFindings results critical).canPublish = true := by
  rw [firstBlocker?_ofFindings, canPublish_ofFindings, Option.or_eq_none_iff,
    List.argmin_eq_none, and_comm]
  simp [NodeResult.HasErrors]

/-- Every finding about a node is counted once. -/
theorem total_ofFindings : (ofFindings results critical).summary.errors +
    (ofFindings results critical).summary.warnings + (ofFindings results critical).summary.info =
      (results.flatMap (·.findings)).length := by
  have hlength := length_filter_severity (results.flatMap NodeResult.tagged)
  simp only [← flatMap_withSeverity] at hlength
  rw [← map_finding_tagged, List.length_map]
  exact hlength

theorem accountsFor_ofFindings : (ofFindings results critical).AccountsFor results critical where
  results := rfl
  errors := flatMap_withSeverity results .error
  warnings := flatMap_withSeverity results .warning
  info := flatMap_withSeverity results .info
  critical := Finding.ordered_mergeSort critical
  unsetLast := (Finding.ordered_mergeSort critical).unsetLast
  summary := rfl
  total := total_ofFindings results critical
  canPublish := canPublish_ofFindings
  unblocked := firstBlocker?_eq_none_iff results critical
  firstBlocker := firstBlocker?_ofFindings results critical

/-! ## Findings without a priority -/

def withoutPriority : Finding := ⟨"unset", false, "No priority", .error, none, none⟩

def greatestPriority : Finding :=
  ⟨"greatest", false, "The greatest priority", .error, none, some 4294967295⟩

/-- A finding without a priority stays before one that has the greatest, and is the first to deal
with. -/
theorem ofFindings_unset_first :
    ¬((ofFindings [] [withoutPriority, greatestPriority]).bySeverity.critical.Pairwise fun f g =>
      f.priority = none → g.priority = none) ∧
    (ofFindings [] [withoutPriority, greatestPriority]).firstBlocker? = some withoutPriority := by
  have hcritical : (ofFindings [] [withoutPriority, greatestPriority]).bySeverity.critical =
      [withoutPriority, greatestPriority] := List.mergeSort_of_pairwise (by decide)
  rw [firstBlocker?, hcritical]
  decide

end Report
end CampaignRouting
