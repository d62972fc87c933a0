import CampaignRouting.Proofs.Validation.Findings
import Mathlib.Data.List.Infix

/-!
# Settings of validation

Settings only filter what is found (`Graph.settings_only_filter`). Place holders are passed over,
but where other nodes are checked they count as any node does, so a marker takes results away and
leaves the others as they are. A lower bound on the length of hypotheses takes away warnings about
weak ones, and results that say nothing else; errors, and with them the decision to publish, do not
hang on it.
-/

namespace CampaignRouting

/-- The findings `fs'` are `fs`, as they are or without the warning about a weak hypothesis. -/
def Finding.Relaxed (fs fs' : List Finding) : Prop :=
  fs' = fs ∨ fs' = fs.filter (· ≠ Issue.weakHypothesis.finding)

/-- The results are about one node, and differ at most in the warning about a weak hypothesis. -/
def NodeResult.Relaxed (r r' : NodeResult) : Prop :=
  ∃ fs, Finding.Relaxed r.findings fs ∧ r' = { r with findings := fs }

/-- Reports that differ in warnings only, and in results that say nothing else. -/
structure Report.SameButWarnings (r r' : Report) : Prop where
  errors : r.bySeverity.errors = r'.bySeverity.errors
  info : r.bySeverity.info = r'.bySeverity.info
  critical : r.bySeverity.critical = r'.bySeverity.critical
  canPublish : r.canPublish = r'.canPublish

/-- A test draws the warning about its hypothesis, or not; all else is found under any settings. -/
theorem Graph.Index.exists_checkTest_eq (i : Index) (id : String) (t : AbTest) :
    ∃ before after : List Issue, (∀ x ∈ before ++ after, x.id ≠ Issue.weakHypothesis.id) ∧
      ∀ config : ValidationConfig, i.checkTest config id t =
        before ++ (if (Text.trim t.hypothesis.toList).length ≤ config.minHypothesisChars then
          [.weakHypothesis] else []) ++ after := by
  refine ⟨_, _, ?_, fun config => by simp only [checkTest, List.append_assoc]; rfl⟩
  simp only [List.forall_mem_append]
  refine ⟨?_, ?_, ?_, ?_, ?_⟩
  · split <;> simp [Issue.id]
  · split <;> simp [Issue.id]
  · obtain ⟨total, htotal⟩ := exists_checkSplit_eq .testSplit (i.ownedVariants id)
    rw [htotal]
    cases total <;> simp [Issue.id]
  · split <;> simp [Issue.id]
  · split <;> simp [Issue.id]

theorem filter_ne_weakHypothesis {issues : List Issue}
    (h : ∀ i ∈ issues, i.id ≠ Issue.weakHypothesis.id) :
    (issues.map (·.finding)).filter (· ≠ Issue.weakHypothesis.finding) =
      issues.map (·.finding) := by
  rw [List.filter_eq_self, List.forall_mem_map]
  intro i hi
  exact decide_eq_true (Issue.finding_ne_of_id_ne (h i hi))

/-- A lower bound leaves the findings about a test as they are, or takes away one warning. -/
theorem Graph.Index.relaxed_checkTest_of_le (i : Index) (id : String) (t : AbTest) (m : String)
    {a b : Nat} (h : a ≤ b) :
    Finding.Relaxed ((i.checkTest ⟨m, b⟩ id t).map (·.finding))
      ((i.checkTest ⟨m, a⟩ id t).map (·.finding)) := by
  obtain ⟨before, after, hids, htest⟩ := i.exists_checkTest_eq id t
  obtain ⟨hbefore, hafter⟩ := List.forall_mem_append.1 hids
  rw [htest, htest]
  by_cases ha : (Text.trim t.hypothesis.toList).length ≤ a
  · left
    rw [if_pos ha, if_pos (Nat.le_trans ha h)]
  · rw [if_neg ha]
    by_cases hb : (Text.trim t.hypothesis.toList).length ≤ b
    · right
      rw [if_pos hb]
      simp only [List.map_append, List.filter_append, filter_ne_weakHypothesis hbefore,
        filter_ne_weakHypothesis hafter]
      rfl
    · left
      rw [if_neg hb]

/-- Where the findings about each node are relaxed, so are the results, but that empty ones go. -/
theorem exists_relaxed_results {f f' : Node → List Finding}
    (h : ∀ n, Finding.Relaxed (f' n) (f n)) (nodes : List Node) : ∃ relaxed,
      List.Forall₂ NodeResult.Relaxed (nodes.filterMap fun n => n.result? (f' n)) relaxed ∧
        nodes.filterMap (fun n => n.result? (f n)) = relaxed.filter (·.findings ≠ []) := by
  induction nodes with
  | nil => exact ⟨[], .nil, rfl⟩
  | cons n nodes ih =>
    obtain ⟨relaxed, hrelaxed, hresults⟩ := ih
    by_cases hf' : f' n = []
    · have hf : f n = [] := by simpa [Finding.Relaxed, hf'] using h n
      refine ⟨relaxed, ?_, ?_⟩
      · rwa [List.filterMap_cons, hf', Node.result?_nil]
      · rwa [List.filterMap_cons, hf, Node.result?_nil]
    · refine ⟨⟨n.id, n.type, n.title, f n⟩ :: relaxed, ?_, ?_⟩
      · rw [List.filterMap_cons, Node.result?_of_ne_nil n hf']
        exact .cons ⟨f n, h n, rfl⟩ hrelaxed
      · by_cases hf : f n = []
        · rw [List.filterMap_cons, hf, Node.result?_nil, hresults,
            List.filter_cons_of_neg (by simp)]
        · rw [List.filterMap_cons, Node.result?_of_ne_nil n hf, hresults,
            List.filter_cons_of_pos (by simpa using hf)]

namespace Graph

variable (g : Graph) (c : Context)

/-! ## Markers of place holders -/

theorem findings_marker (m : String) (chars : Nat) (n : Node) (hm : m ≠ "") :
    g.findings ⟨m, chars⟩ c n =
      if ¬m.toList <:+: n.id.toList then g.findings ⟨"", chars⟩ c n else [] := by
  have hplace : ValidationConfig.IsPlaceholder ⟨m, chars⟩ n ↔ m.toList <:+: n.id.toList :=
    ValidationConfig.isPlaceholder_iff.trans (and_iff_right hm)
  have hnone : ¬ValidationConfig.IsPlaceholder ⟨"", chars⟩ n := fun h => h.1 rfl
  by_cases h : m.toList <:+: n.id.toList
  · rw [if_neg (not_not.2 h), findings_of_isPlaceholder (hplace.2 h)]
  · rw [if_pos h, findings_of_not_isPlaceholder (mt hplace.1 h),
      findings_of_not_isPlaceholder hnone]
    rfl

theorem validate_marker (m : String) (chars : Nat) (hm : m ≠ "") :
    g.validate ⟨m, chars⟩ c =
      (g.validate ⟨"", chars⟩ c).filter fun r => ¬m.toList <:+: r.nodeId.toList := by
  rw [filter_validate _ _ _ (q := fun n => ¬m.toList <:+: n.id.toList) fun _ _ => rfl,
    validate_eq_filterMap]
  refine List.filterMap_congr fun n _ => ?_
  rw [findings_marker g c m chars n hm]
  simp only [decide_eq_true_eq]

/-! ## Bounds on hypotheses -/

section
variable (m : String) {a b : Nat} (h : a ≤ b)
include h

/-- Of all nodes only tests feel the bound. -/
theorem relaxed_findings_of_le (n : Node) :
    Finding.Relaxed (g.findings ⟨m, b⟩ c n) (g.findings ⟨m, a⟩ c n) := by
  by_cases hplace : ValidationConfig.IsPlaceholder ⟨m, b⟩ n
  · left
    have hplace' : ValidationConfig.IsPlaceholder ⟨m, a⟩ n := hplace
    rw [findings_of_isPlaceholder hplace, findings_of_isPlaceholder hplace']
  · have hplace' : ¬ValidationConfig.IsPlaceholder ⟨m, a⟩ n := hplace
    rw [findings_of_not_isPlaceholder hplace, findings_of_not_isPlaceholder hplace']
    unfold Index.checkNode
    cases n.payload with
    | abTest t => exact g.index.relaxed_checkTest_of_le n.id t m h
    | traffic | segment | variant | note | form => exact .inl rfl

theorem filter_findings_of_le {s : Severity} (hs : s ≠ .warning) (n : Node) :
    (g.findings ⟨m, a⟩ c n).filter (·.severity = s) =
      (g.findings ⟨m, b⟩ c n).filter (·.severity = s) := by
  rcases g.relaxed_findings_of_le c m h n with hsame | hdropped
  · rw [hsame]
  · rw [hdropped, List.filter_filter]
    refine List.filter_congr fun f _ => ?_
    by_cases hf : f.severity = s
    · have hne : f ≠ Issue.weakHypothesis.finding := fun heq => hs (hf.symm.trans (heq ▸ rfl))
      simp [hf, hne]
    · simp [hf]

theorem sameButWarnings_of_le :
    (g.report ⟨m, a⟩ c).SameButWarnings (g.report ⟨m, b⟩ c) := by
  have hseverity {s : Severity} (hs : s ≠ .warning) :
      (g.validate ⟨m, a⟩ c).flatMap (·.withSeverity s) =
        (g.validate ⟨m, b⟩ c).flatMap (·.withSeverity s) := by
    simp only [flatMap_withSeverity_validate, g.filter_findings_of_le c m h hs]
  have herrors := hseverity (s := .error) nofun
  refine ⟨herrors, hseverity nofun, rfl, ?_⟩
  simp only [report, Report.ofFindings, herrors]

end

/-- A marker only takes away the results about place holders, and a lower bound on the length of
hypotheses only warnings about weak ones. -/
theorem settings_only_filter :
    (∀ m chars, m ≠ "" → g.validate ⟨m, chars⟩ c =
      (g.validate ⟨"", chars⟩ c).filter fun r => ¬m.toList <:+: r.nodeId.toList) ∧
    ∀ m a b, a ≤ b →
      (∃ relaxed, List.Forall₂ NodeResult.Relaxed (g.validate ⟨m, b⟩ c) relaxed ∧
        g.validate ⟨m, a⟩ c = relaxed.filter (·.findings ≠ [])) ∧
      (g.report ⟨m, a⟩ c).SameButWarnings (g.report ⟨m, b⟩ c) := by
  refine ⟨g.validate_marker c, fun m a b h => ⟨?_, g.sameButWarnings_of_le c m h⟩⟩
  rw [validate_eq_filterMap, validate_eq_filterMap]
  exact exists_relaxed_results (g.relaxed_findings_of_le c m h) g.nodes

/-- The marker passes over one of the two variants that the test of `evenSplit` owns. -/
theorem settings_only_filter_evenSplit :
    ("left" ≠ "" ∧ evenSplit.validate ⟨"left", 10⟩ evenSplitContext =
      (evenSplit.validate ⟨"", 10⟩ evenSplitContext).filter
        fun r => ¬"left".toList <:+: r.nodeId.toList) ∧
    10 ≤ 20 ∧ (evenSplit.report ⟨"left", 10⟩ evenSplitContext).SameButWarnings
      (evenSplit.report ⟨"left", 20⟩ evenSplitContext) := by
  obtain ⟨hmarker, hbound⟩ := evenSplit.settings_only_filter evenSplitContext
  have hne : "left" ≠ "" := by decide
  have hle : 10 ≤ 20 := by decide
  exact ⟨⟨hne, hmarker "left" 10 hne⟩, hle, (hbound "left" 10 20 hle).2⟩

end Graph
end CampaignRouting
