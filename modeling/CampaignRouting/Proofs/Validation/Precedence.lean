import CampaignRouting.Proofs.Routing.Projection
import CampaignRouting.Proofs.Validation.Decision

/-!
# Precedence among critical findings

What is wrong with a campaign as a whole is told from the most fundamental on. At most one thing is
said of its lead form and its pages together (`Context.Standing`), and that there are no pages only
once the form is in order; its entry point is faulted exactly if it does not compile. So critical
findings have ascending priorities as they come, and a report leaves them in their order
(`Graph.precedence_criticalFindings`).
-/

namespace CampaignRouting

/-- How lead form and pages of a campaign stand, with the issues that this raises. -/
inductive Context.Standing (c : Context) : List Issue → Prop
  | leadFormMissing (hform : ¬c.LeadFormValid) : Standing c [.leadFormMissing]
  | leadFormEmpty (hform : ¬c.LeadFormValid) : Standing c [.leadFormEmpty]
  | noPages (hform : c.LeadFormValid) (hpages : ¬c.HasPages) : Standing c [.noPages]
  | ready (hform : c.LeadFormValid) (hpages : c.HasPages) : Standing c []

namespace Context

variable {c : Context}

theorem checkLeadForm_cases (c : Context) : c.checkLeadForm = [] ∨
    c.checkLeadForm = [.leadFormMissing] ∨ c.checkLeadForm = [.leadFormEmpty] := by
  unfold checkLeadForm
  split
  · cases c.leadForm with
    | none => exact .inr (.inl rfl)
    | some form =>
      dsimp only
      split
      · exact .inr (.inr rfl)
      · exact .inl rfl
  · exact .inl rfl

/-- The campaign as a whole stands in one of four ways. -/
theorem standing_checkCampaign (c : Context) : c.Standing c.checkCampaign := by
  have hvalid := checkLeadForm_eq_nil_iff (c := c)
  unfold checkCampaign
  rcases c.checkLeadForm_cases with hform | hform | hform
  · rw [hform]
    have hvalid : c.LeadFormValid := hvalid.1 hform
    by_cases hpages : c.HasPages
    · rw [if_pos hpages]
      exact .ready hvalid hpages
    · rw [if_neg hpages]
      exact .noPages hvalid hpages
  · rw [hform] at hvalid ⊢
    exact .leadFormMissing fun h => List.cons_ne_nil _ _ (hvalid.2 h)
  · rw [hform] at hvalid ⊢
    exact .leadFormEmpty fun h => List.cons_ne_nil _ _ (hvalid.2 h)

namespace Standing

variable {issues : List Issue} (h : c.Standing issues)
include h

theorem length_le_one : issues.length ≤ 1 := by
  cases h <;> decide

theorem noPages_iff : (∃ i ∈ issues, i.id = "no-landing-pages") ↔
    c.LeadFormValid ∧ ¬c.HasPages := by
  cases h <;> simp_all [Issue.id]

theorem leadForm_iff :
    (∃ i ∈ issues, i.id = "lead-form-missing" ∨ i.id = "lead-form-empty") ↔
      ¬c.LeadFormValid := by
  cases h <;> simp_all [Issue.id]

theorem id_ne : ∀ i ∈ issues, i.id ≠ "traffic-source-count" := by
  cases h <;> simp [Issue.id]

/-- The priorities of the issues come before that of a missing entry point. -/
theorem priorities : ∃ ps : List UInt32, issues.map (·.priority?) = ps.map some ∧
    ps.Pairwise (· < ·) ∧ ∀ p ∈ ps, p < 3 := by
  cases h with
  | leadFormMissing | leadFormEmpty => exact ⟨[1], rfl, List.pairwise_singleton .., by simp⟩
  | noPages => exact ⟨[2], rfl, List.pairwise_singleton .., by simp⟩
  | ready => exact ⟨[], rfl, .nil, by simp⟩

end Standing
end Context

/-- Findings whose priorities ascend stay in order when they are sorted. -/
theorem Finding.mergeSort_of_ascending {fs : List Finding} {ps : List UInt32}
    (hps : fs.map (·.priority) = ps.map some) (hascending : ps.Pairwise (· < ·)) :
    (fs.mergeSort fun f g => f.rank ≤ g.rank) = fs := by
  have hranks : (fs.map (·.priority)).Pairwise fun p q =>
      (p.getD (UInt32.ofNat (UInt32.size - 1))).toNat ≤
        (q.getD (UInt32.ofNat (UInt32.size - 1))).toNat := by
    rw [hps, List.pairwise_map]
    exact hascending.imp fun hlt => Nat.le_of_lt (UInt32.lt_iff_toNat_lt.1 hlt)
  apply List.mergeSort_of_pairwise
  exact (List.pairwise_map.1 hranks).imp decide_eq_true

namespace Graph

/-- What the critical findings `fs` on a campaign say, and in which order. -/
structure Precedence (g : Graph) (c : Context) (fs : List Finding) : Prop where
  one : (fs.filter (·.id ∈ ["lead-form-missing", "lead-form-empty", "no-landing-pages"])).length ≤ 1
  noPages : (∃ f ∈ fs, f.id = "no-landing-pages") ↔
    c.LeadFormValid ∧ ∀ page, c.pageStatus? page = none
  leadForm : (∃ f ∈ fs, f.id = "lead-form-missing" ∨ f.id = "lead-form-empty") ↔ ¬c.LeadFormValid
  /-- No settings change whether a campaign compiles, nor why not. -/
  entry : ∀ settings message,
    (∃ f ∈ fs, f.id = "traffic-source-count" ∧ f.message = message) ↔
      ∃ e, RoutingTable.compile g settings = .error e ∧ e.message = message
  ascending : ∃ ps : List UInt32, fs.map (·.priority) = ps.map some ∧ ps.Pairwise (· < ·)
  sorted : ∀ results, (Report.ofFindings results fs).bySeverity.critical = fs
  unblocked : ∀ settings, fs = [] ↔ c.LeadFormValid ∧ (∃ page, (c.pageStatus? page).isSome) ∧
    ∃ t, RoutingTable.compile g settings = .ok t

variable (g : Graph) (c : Context)

theorem exists_criticalFindings_iff {p : Finding → Prop} : (∃ f ∈ g.criticalFindings c, p f) ↔
    (∃ i ∈ c.checkCampaign, p i.finding) ∨ ∃ i ∈ g.checkRoot, p i.finding := by
  simp only [criticalFindings, List.mem_map, List.mem_append, exists_exists_and_eq_and,
    or_and_right, exists_or]

theorem id_of_mem_checkRoot : ∀ i ∈ g.checkRoot, i.id = "traffic-source-count" := by
  unfold checkRoot
  cases g.root <;> simp [Issue.id]

/-- Compilation fails for its entry point or not at all. -/
theorem compile_eq_error_iff {settings : Settings} {e : StructureError} :
    RoutingTable.compile g settings = .error e ↔ g.root = .error e := by
  cases hroot : g.root with
  | error e' => rw [RoutingTable.compile_of_root_error settings hroot]; simp
  | ok r => simp [RoutingTable.compile_of_root_ok settings hroot]

theorem exists_compile_iff {settings : Settings} :
    (∃ t, RoutingTable.compile g settings = .ok t) ↔ ∃ r, g.root = .ok r := by
  cases hroot : g.root with
  | error e => simp [RoutingTable.compile_of_root_error settings hroot]
  | ok r => simp [RoutingTable.compile_of_root_ok settings hroot]

/-- The entry point is faulted for the reason for which there is none. -/
theorem badRoot_iff {message : String} :
    (∃ i ∈ g.checkRoot, i.id = "traffic-source-count" ∧ i.message = message) ↔
      ∃ e, g.root = .error e ∧ e.message = message := by
  unfold checkRoot
  cases g.root with
  | ok r => simp
  | error e =>
    constructor
    · rintro ⟨i, hi, -, hmessage⟩
      obtain rfl := List.mem_singleton.1 hi
      exact ⟨e, rfl, hmessage⟩
    · rintro ⟨e', he, hmessage⟩
      cases he
      exact ⟨_, List.mem_singleton_self _, rfl, hmessage⟩

theorem priorities_criticalFindings : ∃ ps : List UInt32,
    (g.criticalFindings c).map (·.priority) = ps.map some ∧ ps.Pairwise (· < ·) := by
  obtain ⟨ps, hps, hascending, hlt⟩ := c.standing_checkCampaign.priorities
  have hmap : (g.criticalFindings c).map (·.priority) =
      ps.map some ++ g.checkRoot.map (·.priority?) := by
    rw [criticalFindings, List.map_map, List.map_append, ← hps]
    rfl
  rw [hmap, checkRoot]
  cases g.root with
  | ok r => exact ⟨ps, List.append_nil _, hascending⟩
  | error e =>
    refine ⟨ps ++ [3], by rw [List.map_append]; rfl, ?_⟩
    refine List.pairwise_append.2 ⟨hascending, List.pairwise_singleton .., fun p hp q hq => ?_⟩
    rw [List.mem_singleton.1 hq]
    exact hlt p hp

/-- Of lead form and pages, only the most fundamental issue is told. -/
theorem length_filter_criticalFindings : ((g.criticalFindings c).filter (·.id ∈
    ["lead-form-missing", "lead-form-empty", "no-landing-pages"])).length ≤ 1 := by
  have hroot : (g.checkRoot.map (·.finding)).filter (·.id ∈
      ["lead-form-missing", "lead-form-empty", "no-landing-pages"]) = [] := by
    rw [List.filter_eq_nil_iff, List.forall_mem_map]
    intro i hi
    have hid : i.finding.id = "traffic-source-count" := g.id_of_mem_checkRoot i hi
    simp [hid]
  rw [criticalFindings, List.map_append, List.filter_append, hroot, List.append_nil]
  refine (List.length_filter_le ..).trans ?_
  rw [List.length_map]
  exact c.standing_checkCampaign.length_le_one

theorem precedence_criticalFindings : g.Precedence c (g.criticalFindings c) := by
  have hstanding := c.standing_checkCampaign
  have hroot {s : String} (hs : s ≠ "traffic-source-count") : ¬∃ i ∈ g.checkRoot, i.id = s :=
    fun ⟨i, hi, hid⟩ => hs (hid.symm.trans (g.id_of_mem_checkRoot i hi))
  have hpages : ¬c.HasPages ↔ ∀ page, c.pageStatus? page = none := by
    simp [Context.hasPages_iff]
  obtain ⟨ps, hps, hascending⟩ := g.priorities_criticalFindings c
  refine ⟨g.length_filter_criticalFindings c, ?_, ?_, ?_, ⟨ps, hps, hascending⟩, ?_, ?_⟩
  · rw [exists_criticalFindings_iff, ← hpages]
    exact (or_iff_left (hroot (by decide))).trans hstanding.noPages_iff
  · rw [exists_criticalFindings_iff]
    refine (or_iff_left ?_).trans hstanding.leadForm_iff
    rintro ⟨i, hi, hid | hid⟩
    · exact hroot (by decide) ⟨i, hi, hid⟩
    · exact hroot (by decide) ⟨i, hi, hid⟩
  · intro settings message
    rw [exists_criticalFindings_iff]
    simp only [compile_eq_error_iff]
    refine (or_iff_right ?_).trans g.badRoot_iff
    rintro ⟨i, hi, hid, -⟩
    exact hstanding.id_ne i hi hid
  · exact fun results => Finding.mergeSort_of_ascending hps hascending
  · intro settings
    rw [criticalFindings_eq_nil_iff, exists_compile_iff, Context.hasPages_iff]

end Graph
end CampaignRouting
