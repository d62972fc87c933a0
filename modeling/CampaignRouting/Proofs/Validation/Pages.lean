import CampaignRouting.Proofs.SortedMap
import CampaignRouting.Proofs.Validation.Findings

/-!
# Publishing a page

A page that is published makes no campaign worse (`Graph.eases_withPage`). What is found about nodes
beyond the pages that they lead to stays as it is, and of pages there is nothing new to find: an
issue with the page of a segment or a variant is there already, or goes. A traffic node without
a default page may be faulted for another reason than before, but it is faulted once either way.
-/

namespace CampaignRouting

/-- The finding is about the page that its node leads to. -/
def Finding.ConcernsPage (f : Finding) : Prop :=
  f.field ∈ [some "defaultVariantId", some "primaryLandingPageId", some "landingPageId"]

instance (f : Finding) : Decidable f.ConcernsPage := by
  unfold Finding.ConcernsPage; infer_instance

/-- The issues with the page that a node leads to. -/
def Context.pageIssues (c : Context) (n : Node) : List Issue :=
  match n.payload with
  | .traffic t => c.checkTraffic t
  | .segment s => c.checkAssigned .segment s.primaryPage
  | .variant v => c.checkAssigned .variant v.page
  | .abTest _ | .note _ | .form _ => []

/-- What is known of a project makes a difference to pages only. -/
theorem Graph.Index.exists_checkNode_eq (i : Index) (config : ValidationConfig) (n : Node) :
    ∃ others : List Issue, ∀ c : Context, i.checkNode config c n = c.pageIssues n ++ others := by
  unfold checkNode Context.pageIssues
  cases n.payload with
  | traffic t => exact ⟨[], fun c => (List.append_nil _).symm⟩
  | segment s => exact ⟨_, fun c => List.append_assoc ..⟩
  | abTest t => exact ⟨_, fun c => rfl⟩
  | variant v => exact ⟨_, fun c => rfl⟩
  | note | form => exact ⟨[], fun c => rfl⟩

namespace Context

variable {c : Context}

@[simp] theorem pageStatus?_withPage (page p : PageId) (status : PageStatus) :
    (c.withPage page status).pageStatus? p = if p = page then some status else c.pageStatus? p :=
  SortedMap.get?_insert ..

theorem hasPages_withPage (page : PageId) (status : PageStatus) :
    (c.withPage page status).HasPages :=
  hasPages_iff.2 ⟨page, by simp⟩

/-! ## Issues with pages -/

section
variable (page : PageId)

/-- An issue with a page goes with its publication, and no other does. -/
theorem checkPage_sublist (user : PageUser) (p : PageId) :
    ((c.withPage page .published).checkPage user p).Sublist (c.checkPage user p) := by
  unfold checkPage
  rw [pageStatus?_withPage]
  by_cases hp : p = page
  · rw [if_pos hp]
    exact List.nil_sublist _
  · rw [if_neg hp]

theorem checkAssigned_sublist (user : PageUser) (p : Option PageId) :
    ((c.withPage page .published).checkAssigned user p).Sublist (c.checkAssigned user p) := by
  unfold checkAssigned
  cases assigned p with
  | none => exact .refl _
  | some p => exact checkPage_sublist page user p

/-- Without a default page there is one error, whichever it is. -/
theorem countP_checkTraffic_le (t : Traffic) :
    ((c.withPage page .published).checkTraffic t).countP (·.severity = .error) ≤
      (c.checkTraffic t).countP (·.severity = .error) := by
  unfold checkTraffic
  cases assigned t.defaultPage with
  | some p => exact (checkPage_sublist page .traffic p).countP_le
  | none =>
    dsimp only
    rw [if_pos (hasPages_withPage page .published)]
    split
    · exact Nat.le_refl _
    · split <;> exact Nat.le_refl _

theorem countP_pageIssues_le (n : Node) :
    ((c.withPage page .published).pageIssues n).countP (·.severity = .error) ≤
      (c.pageIssues n).countP (·.severity = .error) := by
  unfold pageIssues
  cases n.payload with
  | traffic t => exact countP_checkTraffic_le page t
  | segment s => exact (checkAssigned_sublist page .segment s.primaryPage).countP_le
  | variant v => exact (checkAssigned_sublist page .variant v.page).countP_le
  | abTest | note | form => exact Nat.le_refl _

/-- Only a campaign without pages is told that it needs one. -/
theorem checkCampaign_withPage :
    (c.withPage page .published).checkCampaign = c.checkCampaign ∨
      c.checkCampaign = .noPages :: (c.withPage page .published).checkCampaign := by
  have hform : (c.withPage page .published).checkLeadForm = c.checkLeadForm := rfl
  unfold checkCampaign
  rw [hform]
  cases c.checkLeadForm with
  | cons i issues => exact .inl rfl
  | nil =>
    dsimp only
    rw [if_pos (hasPages_withPage page .published)]
    by_cases hpages : c.HasPages
    · rw [if_pos hpages]
      exact .inl rfl
    · rw [if_neg hpages]
      exact .inr rfl

end

theorem concernsPage_of_field (user : PageUser) {i : Issue} (h : i.field? = some user.field) :
    i.finding.ConcernsPage := by
  have hfield : i.finding.field = some user.field := h
  rw [Finding.ConcernsPage, hfield]
  cases user <;> decide

theorem concernsPage_of_mem_checkPage {user : PageUser} {p : PageId} :
    ∀ i ∈ c.checkPage user p, i.finding.ConcernsPage := by
  intro i hi
  apply concernsPage_of_field user
  rcases eq_of_mem_checkPage hi with rfl | rfl <;> rfl

theorem concernsPage_of_mem_checkAssigned {user : PageUser} {p : Option PageId} :
    ∀ i ∈ c.checkAssigned user p, i.finding.ConcernsPage := by
  intro i hi
  apply concernsPage_of_field user
  rcases eq_of_mem_checkAssigned hi with rfl | rfl | rfl <;> rfl

theorem concernsPage_of_mem_checkTraffic {t : Traffic} :
    ∀ i ∈ c.checkTraffic t, i.finding.ConcernsPage := by
  unfold checkTraffic
  cases assigned t.defaultPage with
  | some p => exact concernsPage_of_mem_checkPage
  | none =>
    intro i hi
    apply concernsPage_of_field .traffic
    dsimp only at hi
    split at hi
    · rw [List.mem_singleton.1 hi]; rfl
    · split at hi <;> (rw [List.mem_singleton.1 hi]; rfl)

theorem concernsPage_of_mem_pageIssues {n : Node} :
    ∀ i ∈ c.pageIssues n, i.finding.ConcernsPage := by
  unfold pageIssues
  cases n.payload with
  | traffic t => exact concernsPage_of_mem_checkTraffic
  | segment s => exact concernsPage_of_mem_checkAssigned
  | variant v => exact concernsPage_of_mem_checkAssigned
  | abTest | note | form => exact fun _ hi => absurd hi List.not_mem_nil

end Context

/-! ## Campaigns -/

namespace Graph

/-- No more is found amiss where `c'` is known of a project than where `c` is, and nothing else but
for pages. -/
structure Eases (g : Graph) (config : ValidationConfig) (c c' : Context) : Prop where
  errors : ∀ n, (g.findings config c' n).countP (·.severity = .error) ≤
    (g.findings config c n).countP (·.severity = .error)
  others : ∀ n, (g.findings config c' n).filter (¬·.ConcernsPage) =
    (g.findings config c n).filter (¬·.ConcernsPage)
  critical : g.criticalFindings c' = g.criticalFindings c ∨
    g.criticalFindings c = Issue.noPages.finding :: g.criticalFindings c'
  canPublish : (g.report config c).canPublish = true → (g.report config c').canPublish = true

variable {g : Graph} {config : ValidationConfig} {c : Context} (page : PageId)

/-- No node draws more errors when a page is published. -/
theorem countP_findings_le (n : Node) :
    (g.findings config (c.withPage page .published) n).countP (·.severity = .error) ≤
      (g.findings config c n).countP (·.severity = .error) := by
  by_cases hplace : config.IsPlaceholder n
  · simp only [findings_of_isPlaceholder hplace, Nat.le_refl]
  · obtain ⟨others, hothers⟩ := g.index.exists_checkNode_eq config n
    simp only [findings_of_not_isPlaceholder hplace, hothers, List.countP_map, List.countP_append]
    exact Nat.add_le_add_right (Context.countP_pageIssues_le page n) _

/-- What is found beyond pages does not hang on what is known of the project. -/
theorem filter_findings_eq (c c' : Context) (n : Node) :
    (g.findings config c' n).filter (¬·.ConcernsPage) =
      (g.findings config c n).filter (¬·.ConcernsPage) := by
  have hpages (c : Context) :
      ((c.pageIssues n).map (·.finding)).filter (¬·.ConcernsPage) = [] := by
    rw [List.filter_eq_nil_iff, List.forall_mem_map]
    intro i hi
    simpa using Context.concernsPage_of_mem_pageIssues i hi
  by_cases hplace : config.IsPlaceholder n
  · simp only [findings_of_isPlaceholder hplace]
  · obtain ⟨others, hothers⟩ := g.index.exists_checkNode_eq config n
    simp only [findings_of_not_isPlaceholder hplace, hothers, List.map_append, List.filter_append,
      hpages]

/-- A page only answers the complaint that there is none. -/
theorem criticalFindings_withPage :
    g.criticalFindings (c.withPage page .published) = g.criticalFindings c ∨
      g.criticalFindings c =
        Issue.noPages.finding :: g.criticalFindings (c.withPage page .published) := by
  unfold criticalFindings
  rcases c.checkCampaign_withPage page with hcampaign | hcampaign
  · left
    rw [hcampaign]
  · right
    rw [hcampaign]
    rfl

theorem canPublish_withPage (h : (g.report config c).canPublish = true) :
    (g.report config (c.withPage page .published)).canPublish = true := by
  obtain ⟨herrors, hcritical⟩ := (canPublish_report_iff_countP ..).1 h
  refine (canPublish_report_iff_countP ..).2 ⟨fun n hn => ?_, ?_⟩
  · apply Nat.le_zero.1
    rw [← herrors n hn]
    exact countP_findings_le page n
  · rcases g.criticalFindings_withPage page with hsame | hpages
    · exact hsame.trans hcritical
    · exact absurd (hpages.symm.trans hcritical) (List.cons_ne_nil _ _)

/-- A page that is published makes no campaign worse. -/
theorem eases_withPage : g.Eases config c (c.withPage page .published) where
  errors := countP_findings_le page
  others := filter_findings_eq c _
  critical := criticalFindings_withPage page
  canPublish := canPublish_withPage page

theorem eases_withPage_evenSplit :
    (evenSplit.report .default (evenSplitContext.withPage "blog" .published)).canPublish = true :=
  (eases_withPage "blog").canPublish canPublish_evenSplit

end Graph
end CampaignRouting
