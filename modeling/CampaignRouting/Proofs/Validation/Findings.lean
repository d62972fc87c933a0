import CampaignRouting.Proofs.Validation.Decision

/-!
# Findings node by node

Two validations are compared by what they find about each node (`Graph.findings`). The results are
these findings in node order, without the nodes that have none (`validate_eq_filterMap`), and so are
the lists of a report (`flatMap_withSeverity_validate`) and the decision to publish
(`canPublish_report_iff_countP`).
-/

namespace CampaignRouting

theorem Issue.finding_ne_of_id_ne {i j : Issue} (h : i.id ≠ j.id) : i.finding ≠ j.finding :=
  fun heq => h (congrArg Finding.id heq)

/-- The result for a node with some findings, if there are any. -/
def Node.result? (n : Node) : List Finding → Option NodeResult
  | [] => none
  | f :: fs => some ⟨n.id, n.type, n.title, f :: fs⟩

@[simp] theorem Node.result?_nil (n : Node) : n.result? [] = none := rfl

theorem Node.result?_of_ne_nil (n : Node) {fs : List Finding} (h : fs ≠ []) :
    n.result? fs = some ⟨n.id, n.type, n.title, fs⟩ := by
  cases fs with
  | nil => exact absurd rfl h
  | cons f fs => rfl

namespace Context

variable {c : Context} {user : PageUser} {i : Issue}

theorem eq_of_mem_checkPage {page : PageId} (hi : i ∈ c.checkPage user page) :
    i = .pageDeleted user ∨ i = .pageUnpublished user := by
  unfold checkPage at hi
  split at hi
  · exact .inl (List.mem_singleton.1 hi)
  · cases hi
  · exact .inr (List.mem_singleton.1 hi)

theorem eq_of_mem_checkAssigned {page : Option PageId} (hi : i ∈ c.checkAssigned user page) :
    i = .pageUnset user ∨ i = .pageDeleted user ∨ i = .pageUnpublished user := by
  unfold checkAssigned at hi
  split at hi
  · exact .inl (List.mem_singleton.1 hi)
  · exact .inr (eq_of_mem_checkPage hi)

end Context

/-- A split is faulted once, or not at all. -/
theorem exists_checkSplit_eq (issue : Float → Issue) (variants : List Variant) :
    ∃ total : Option Float, checkSplit issue variants = (total.map issue).toList := by
  unfold checkSplit
  split
  · exact ⟨none, rfl⟩
  · exact ⟨some _, rfl⟩

namespace Graph

/-- The findings about a node. There are none about a place holder. -/
def findings (g : Graph) (config : ValidationConfig) (c : Context) (n : Node) : List Finding :=
  if config.IsPlaceholder n then [] else (g.index.checkNode config c n).map (·.finding)

section
variable {g : Graph} {config : ValidationConfig} {c : Context} {n : Node}

theorem findings_of_isPlaceholder (h : config.IsPlaceholder n) : g.findings config c n = [] :=
  if_pos h

theorem findings_of_not_isPlaceholder (h : ¬config.IsPlaceholder n) :
    g.findings config c n = (g.index.checkNode config c n).map (·.finding) :=
  if_neg h

end

variable (g : Graph) (config : ValidationConfig) (c : Context)

theorem validate_eq_filterMap :
    g.validate config c = g.nodes.filterMap fun n => n.result? (g.findings config c n) := by
  rw [validate, List.filterMap_filter]
  refine List.filterMap_congr fun n _ => ?_
  by_cases hplace : config.IsPlaceholder n
  · simp [hplace, findings_of_isPlaceholder]
  · rw [if_pos (decide_eq_true hplace), findings_of_not_isPlaceholder hplace, nodeResult?]
    cases g.index.checkNode config c n with
    | nil => rfl
    | cons i issues => rfl

/-- A choice among the results that hangs on their nodes only is one among the nodes. -/
theorem filter_validate {p : NodeResult → Bool} {q : Node → Bool}
    (h : ∀ (n : Node) fs, p ⟨n.id, n.type, n.title, fs⟩ = q n) :
    (g.validate config c).filter p =
      g.nodes.filterMap fun n => n.result? (if q n then g.findings config c n else []) := by
  rw [validate_eq_filterMap, List.filter_filterMap]
  refine List.filterMap_congr fun n _ => ?_
  cases g.findings config c n with
  | nil => simp
  | cons f fs =>
    rw [Node.result?_of_ne_nil n (List.cons_ne_nil f fs), Option.filter_some, h]
    cases q n <;> rfl

/-- The findings of one severity, with their nodes, in node order. -/
theorem flatMap_withSeverity_validate (s : Severity) :
    (g.validate config c).flatMap (·.withSeverity s) = g.nodes.flatMap fun n =>
      ((g.findings config c n).filter (·.severity = s)).map fun f =>
        ⟨n.id, n.type, n.title, f⟩ := by
  rw [validate_eq_filterMap, List.filterMap_eq_flatMap_toList, List.flatMap_assoc]
  refine List.flatMap_congr fun n _ => ?_
  cases g.findings config c n with
  | nil => rfl
  | cons f fs => exact List.append_nil _

/-- A campaign may be published if there is no error with any node, and nothing critical. -/
theorem canPublish_report_iff_countP : (g.report config c).canPublish = true ↔
    (∀ n ∈ g.nodes, (g.findings config c n).countP (·.severity = .error) = 0) ∧
      g.criticalFindings c = [] := by
  have herrors : (∀ r ∈ g.validate config c, ¬r.HasErrors) ↔
      (g.validate config c).flatMap (·.withSeverity .error) = [] := by
    simp only [List.flatMap_eq_nil_iff, NodeResult.withSeverity_error_eq_nil_iff]
  rw [report, Report.canPublish_ofFindings, herrors, flatMap_withSeverity_validate]
  simp only [List.flatMap_eq_nil_iff, List.map_eq_nil_iff, List.filter_eq_nil_iff,
    List.countP_eq_zero]

end Graph
end CampaignRouting
