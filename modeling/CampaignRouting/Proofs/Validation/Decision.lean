import CampaignRouting.Proofs.Validation.Fitness
import CampaignRouting.Report

/-!
# The decision to publish

The report on a campaign allows its publication exactly if nothing stands in the way
(`canPublish_report_iff_publishable`): the campaign has one entry point, its lead form and its
pages are in order, and every node is fit that is no place holder. The decision is a fold over
findings; that it hangs on no more than whether there are errors and critical findings is
`canPublish_ofFindings`.
-/

namespace CampaignRouting

/-! ## Place holders -/

/-- The search for a part of a text finds it wherever it stands. -/
theorem occursIn_iff_infix {part text : List Char} :
    occursIn part text = true ↔ part <:+: text := by
  induction text with
  | nil => simp [occursIn]
  | cons c text ih => simp [occursIn, ih, List.infix_cons_iff]

/-- An empty marker marks nothing. -/
theorem ValidationConfig.isPlaceholder_iff {config : ValidationConfig} {n : Node} :
    config.IsPlaceholder n ↔
      config.placeholderMarker ≠ "" ∧ config.placeholderMarker.toList <:+: n.id.toList := by
  rw [IsPlaceholder, occursIn_iff_infix]

/-! ## Findings -/

/-- There are no errors to list exactly if there are none. -/
theorem NodeResult.withSeverity_error_eq_nil_iff {r : NodeResult} :
    r.withSeverity .error = [] ↔ ¬r.HasErrors := by
  simp [withSeverity, HasErrors]

/-- Only errors and critical findings stand in the way. -/
theorem Report.canPublish_ofFindings {results : List NodeResult} {critical : List Finding} :
    (ofFindings results critical).canPublish = true ↔
      (∀ r ∈ results, ¬r.HasErrors) ∧ critical = [] := by
  have hcritical : (critical.mergeSort fun f g => f.rank ≤ g.rank) = [] ↔ critical = [] := by
    rw [← List.length_eq_zero_iff, List.length_mergeSort, List.length_eq_zero_iff]
  simp only [ofFindings, Bool.and_eq_true, List.isEmpty_iff, hcritical, List.flatMap_eq_nil_iff,
    NodeResult.withSeverity_error_eq_nil_iff]

namespace Graph

variable {g : Graph} {config : ValidationConfig} {c : Context}

/-- A node without a result has no issues, so nothing is said against it. -/
theorem forall_nodeResult?_iff {i : Index} {n : Node} :
    (∀ r ∈ nodeResult? i config c n, ¬r.HasErrors) ↔ Harmless (i.checkNode config c n) := by
  unfold nodeResult?
  cases h : i.checkNode config c n with
  | nil => simp
  | cons issue issues => simp [NodeResult.HasErrors, Harmless, Issue.finding]

/-- Validation finds no errors exactly if all nodes are fit that are looked at. -/
theorem forall_validate_iff :
    (∀ r ∈ g.validate config c, ¬r.HasErrors) ↔
      ∀ n ∈ g.nodes, ¬config.IsPlaceholder n → g.Fit c n := by
  have hnode (n : Node) : (∀ r ∈ nodeResult? g.index config c n, ¬r.HasErrors) ↔ g.Fit c n :=
    forall_nodeResult?_iff.trans harmless_checkNode
  constructor
  · intro h n hn hplace
    refine (hnode n).1 fun r hr => h r ?_
    exact List.mem_filterMap.2 ⟨n, List.mem_filter.2 ⟨hn, decide_eq_true hplace⟩, hr⟩
  · intro h r hr
    obtain ⟨n, hn, hr⟩ := List.mem_filterMap.1 hr
    obtain ⟨hn, hplace⟩ := List.mem_filter.1 hn
    exact (hnode n).2 (h n hn (of_decide_eq_true hplace)) r hr

end Graph

/-! ## Critical findings -/

theorem Context.checkLeadForm_eq_nil_iff {c : Context} :
    c.checkLeadForm = [] ↔ c.LeadFormValid := by
  unfold checkLeadForm LeadFormValid
  cases c.needsLeadForm with
  | false => simp
  | true => cases c.leadForm <;> simp [Nat.pos_iff_ne_zero]

/-- Pages are only asked for where the form for leads is in order. -/
theorem Context.checkCampaign_eq_nil_iff {c : Context} :
    c.checkCampaign = [] ↔ c.LeadFormValid ∧ c.HasPages := by
  rw [← checkLeadForm_eq_nil_iff, checkCampaign]
  cases c.checkLeadForm <;> simp

theorem Context.hasPages_iff {c : Context} : c.HasPages ↔ ∃ page, (c.pageStatus? page).isSome := by
  simp only [HasPages, SortedMap.isEmpty, pageStatus?, SortedMap.get?]
  cases c.pages.entries with
  | nil => simp
  | cons e entries => exact ⟨fun _ => ⟨e.1, by simp⟩, fun _ => rfl⟩

namespace Graph

variable {g : Graph} {config : ValidationConfig} {c : Context}

theorem checkRoot_eq_nil_iff : g.checkRoot = [] ↔ ∃ r, g.root = .ok r := by
  unfold checkRoot
  cases g.root <;> simp

/-- The three conditions on a campaign as a whole. -/
theorem criticalFindings_eq_nil_iff :
    g.criticalFindings c = [] ↔ c.LeadFormValid ∧ c.HasPages ∧ ∃ r, g.root = .ok r := by
  rw [criticalFindings, List.map_eq_nil_iff, List.append_eq_nil_iff,
    Context.checkCampaign_eq_nil_iff, checkRoot_eq_nil_iff, and_assoc]

/-! ## Reports -/

/-- The decision in terms of the model, with its own names for the conditions. -/
theorem canPublish_report :
    (g.report config c).canPublish = true ↔
      (∀ n ∈ g.nodes, ¬config.IsPlaceholder n → g.Fit c n) ∧
        c.LeadFormValid ∧ c.HasPages ∧ ∃ r, g.root = .ok r := by
  rw [report, Report.canPublish_ofFindings, forall_validate_iff, criticalFindings_eq_nil_iff]

/-- A campaign in good order. Two edges lead to its only segment, and from there to two variants
that a test owns, and to the test. -/
def evenSplit : Graph where
  nodes := [
    ⟨"entry", none, .traffic ⟨some "home"⟩⟩,
    ⟨"visitors", none, .segment { Segment.blank with primaryPage := some "home" }⟩,
    ⟨"left", some "test", .variant ⟨"Left", some "home", some 50.0⟩⟩,
    ⟨"right", some "test", .variant ⟨"Right", some "sale", some 50.0⟩⟩,
    ⟨"test", none, .abTest { AbTest.blank with primaryMetric := some "sales" }⟩]
  edges := [
    ⟨"e1", "entry", "visitors"⟩, ⟨"e2", "entry", "visitors"⟩, ⟨"e3", "visitors", "left"⟩,
    ⟨"e4", "visitors", "right"⟩, ⟨"e5", "visitors", "test"⟩]

/-- The pages that `evenSplit` leads to. -/
def evenSplitContext : Context :=
  (Context.empty.withPage "home" .published).withPage "sale" .published

theorem canPublish_evenSplit :
    (evenSplit.report .default evenSplitContext).canPublish = true :=
  canPublish_report.2 ⟨by decide, by decide, by decide, root_eq_ok_iff.2 ⟨_, rfl⟩⟩

/-- What a campaign has to be to be published. -/
structure Publishable (g : Graph) (config : ValidationConfig) (c : Context) : Prop where
  oneEntry : ∃ n, g.trafficNodes = [n]
  leadForm : c.needsLeadForm = true → ∃ form, c.leadForm = some form ∧ 0 < form.fieldCount
  hasPages : ∃ page, (c.pageStatus? page).isSome
  /-- Nodes whose ids contain the marker of place holders are passed over, if there is a marker. -/
  fit : ∀ n ∈ g.nodes,
    config.placeholderMarker = "" ∨ ¬config.placeholderMarker.toList <:+: n.id.toList → g.Fit c n

/-- The report allows a campaign exactly if it is publishable. -/
theorem canPublish_report_iff_publishable :
    (g.report config c).canPublish = true ↔ g.Publishable config c := by
  have hplace (n : Node) : ¬config.IsPlaceholder n ↔
      config.placeholderMarker = "" ∨ ¬config.placeholderMarker.toList <:+: n.id.toList := by
    rw [ValidationConfig.isPlaceholder_iff, not_and_or, ne_eq, not_not]
  simp only [canPublish_report, hplace, root_eq_ok_iff, Context.hasPages_iff]
  constructor
  · rintro ⟨hfit, hform, hpages, hentry⟩
    exact ⟨hentry, hform, hpages, hfit⟩
  · rintro ⟨hentry, hform, hpages, hfit⟩
    exact ⟨hfit, hform, hpages, hentry⟩

end Graph
end CampaignRouting
