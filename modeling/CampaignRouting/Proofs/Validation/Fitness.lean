import CampaignRouting.Proofs.Graph.Lookup
import CampaignRouting.Validation.Checks

/-!
# Fit nodes

What a node has to be before visitors may come to it (`Graph.Fit`), said without the checks and
without the tables of the graph. The checks find no error with a node exactly if it is fit
(`harmless_checkNode`); each check has a lemma of this form. Issues that are not errors do not
count, so rules, hypotheses and completion criteria leave a node fit.
-/

namespace CampaignRouting

/-- None of the issues is an error. -/
def Harmless (issues : List Issue) : Prop := ∀ i ∈ issues, i.severity ≠ .error

/-- A reference to a page that visitors may see. -/
def Context.Live (c : Context) (page : Option PageId) : Prop :=
  ∃ id, page = some id ∧ ¬Text.AllBlank id ∧ c.pageStatus? id = some .published

/-- A share that is set, and is one. -/
def ValidShare (share : Option Float) : Prop := ∃ x, share = some x ∧ 0.0 ≤ x ∧ x ≤ 100.0

/-- A text that is set, and not blank. -/
def Filled (text : Option String) : Prop := ∃ s, text = some s ∧ ¬Text.AllBlank s

/-- Some variants share all visitors among them. -/
def ShareAll (variants : List Variant) : Prop :=
  Percent.SumsToHundred (Percent.total (variants.filterMap (·.share))) 0.2

namespace Graph

/-- The variants that the edges from a node lead to, one for each edge. -/
def routedVariants (g : Graph) (id : String) : List Variant :=
  (g.edgesFrom id).filterMap fun e => (g.resolve? e.target).bind (·.variant?)

/-- The variants that a node owns, in node order. -/
def ownedVariants (g : Graph) (id : String) : List Variant := (g.ownedBy id).filterMap (·.variant?)

/-- The node is fit for visitors. -/
def Fit (g : Graph) (c : Context) (n : Node) : Prop :=
  match n.payload with
  | .traffic t => c.Live t.defaultPage
  | .segment s =>
    c.Live s.primaryPage ∧ (g.routedVariants n.id ≠ [] → ShareAll (g.routedVariants n.id))
  | .abTest t =>
    2 ≤ (g.ownedVariants n.id).length ∧ ShareAll (g.ownedVariants n.id) ∧
      (t.arms ≠ [] → Percent.SumsToHundred (Percent.total (t.arms.map (·.allocation))) 0.01) ∧
      Filled t.primaryMetric
  | .variant v => c.Live v.page ∧ ValidShare v.share
  | .note _ | .form _ => True

section Fit

variable {g : Graph} {c : Context} {n : Node} (h : g.Fit c n)
include h

theorem Fit.traffic {t : Traffic} (hp : n.payload = .traffic t) : c.Live t.defaultPage := by
  simpa only [Fit, hp] using h

theorem Fit.segment {s : Segment} (hp : n.payload = .segment s) :
    c.Live s.primaryPage ∧ (g.routedVariants n.id ≠ [] → ShareAll (g.routedVariants n.id)) := by
  simpa only [Fit, hp] using h

theorem Fit.arms {t : AbTest} (hp : n.payload = .abTest t) (hne : t.arms ≠ []) :
    Percent.SumsToHundred (Percent.total (t.arms.map (·.allocation))) 0.01 := by
  simp only [Fit, hp] at h
  exact h.2.2.1 hne

theorem Fit.variant {v : Variant} (hp : n.payload = .variant v) :
    c.Live v.page ∧ ValidShare v.share := by
  simpa only [Fit, hp] using h

end Fit

end Graph

instance (c : Context) (page : Option PageId) : Decidable (c.Live page) :=
  decidable_of_iff
    (page.any fun id => ¬Text.AllBlank id ∧ c.pageStatus? id = some .published) <| by
    cases page <;> simp [Context.Live]

instance (share : Option Float) : Decidable (ValidShare share) :=
  decidable_of_iff (share.any fun x => 0.0 ≤ x ∧ x ≤ 100.0) <| by
    cases share <;> simp [ValidShare]

instance (text : Option String) : Decidable (Filled text) :=
  decidable_of_iff (text.any fun s => ¬Text.AllBlank s) <| by cases text <;> simp [Filled]

instance (variants : List Variant) : Decidable (ShareAll variants) := by
  unfold ShareAll; infer_instance

instance (g : Graph) (c : Context) (n : Node) : Decidable (g.Fit c n) := by
  unfold Graph.Fit; split <;> infer_instance

/-! ## Lists of issues -/

@[simp] theorem harmless_nil : Harmless [] := fun _ hi => absurd hi List.not_mem_nil

@[simp] theorem harmless_singleton {i : Issue} : Harmless [i] ↔ i.severity ≠ .error := by
  simp [Harmless]

@[simp] theorem harmless_append {is js : List Issue} :
    Harmless (is ++ js) ↔ Harmless is ∧ Harmless js := List.forall_mem_append

@[simp] theorem harmless_ite_nil {p : Prop} [Decidable p] {is : List Issue} :
    Harmless (if p then [] else is) ↔ p ∨ Harmless is := by
  by_cases hp : p <;> simp [hp]

@[simp] theorem harmless_ite {p : Prop} [Decidable p] {is : List Issue} :
    Harmless (if p then is else []) ↔ (p → Harmless is) := by
  by_cases hp : p <;> simp [hp]

/-! ## Pages -/

theorem assigned_eq_some_iff {page : Option PageId} {id : PageId} :
    assigned page = some id ↔ page = some id ∧ ¬Text.AllBlank id := by
  simp [assigned, Option.filter_eq_some_iff]

namespace Context

variable {c : Context}

/-- A page is live exactly if it is assigned and published. -/
theorem live_iff_assigned {page : Option PageId} :
    c.Live page ↔ ∃ id, assigned page = some id ∧ c.pageStatus? id = some .published := by
  simp only [Live, assigned_eq_some_iff, and_assoc]

theorem harmless_checkPage {user : PageUser} {page : PageId} :
    Harmless (c.checkPage user page) ↔ c.pageStatus? page = some .published := by
  unfold checkPage
  match c.pageStatus? page with
  | none => simp [Issue.severity]
  | some .published => simp
  | some .draft | some .archived => simp [Issue.severity]

theorem harmless_checkAssigned {user : PageUser} {page : Option PageId} :
    Harmless (c.checkAssigned user page) ↔ c.Live page := by
  rw [live_iff_assigned, checkAssigned]
  cases assigned page with
  | none => simp [Issue.severity]
  | some id => simp [harmless_checkPage]

/-- Whatever the issue is called, without a live page there is one. -/
theorem harmless_checkTraffic {t : Traffic} :
    Harmless (c.checkTraffic t) ↔ c.Live t.defaultPage := by
  rw [live_iff_assigned, checkTraffic]
  cases assigned t.defaultPage with
  | none =>
    -- which issue it is depends on the campaign, but each of the three is an error
    have h : ¬Harmless (if c.HasPages then [.defaultPageUnset]
        else if c.LeadFormValid then [.defaultPageAwaitsPages]
        else [.defaultPageAwaitsLeadForm]) := by
      split
      · simp [Issue.severity]
      · split <;> simp [Issue.severity]
    simp [h]
  | some id => simp [harmless_checkPage]

/-! ## Shares -/

theorem harmless_checkShare {share : Option Float} :
    Harmless (checkShare share) ↔ ValidShare share := by
  cases share <;> simp [checkShare, ValidShare, Issue.severity]

/-- A variant draws no error exactly if its page is live and its share is one. -/
theorem harmless_checkVariant {v : Variant} :
    Harmless (c.checkVariant v) ↔ c.Live v.page ∧ ValidShare v.share := by
  rw [checkVariant, harmless_append, harmless_checkAssigned, harmless_checkShare]

end Context

/-- Shares draw no error exactly if there are none, or they share all visitors. -/
theorem harmless_checkSplit (issue : Float → Issue) (hissue : ∀ x, (issue x).severity = .error)
    {variants : List Variant} :
    Harmless (checkSplit issue variants) ↔ (variants ≠ [] → ShareAll variants) := by
  rw [checkSplit, harmless_ite_nil, harmless_singleton, hissue]
  simp only [ne_eq, not_true_eq_false, or_false]
  exact Decidable.or_iff_not_imp_left

/-! ## Nodes -/

namespace Graph

variable {g : Graph} {config : ValidationConfig} {c : Context}

@[simp] theorem routedVariants_index (id : String) :
    g.index.routedVariants id = g.routedVariants id := by
  rw [Index.routedVariants, targets_index, List.filterMap_filterMap]
  rfl

@[simp] theorem ownedVariants_index (id : String) :
    g.index.ownedVariants id = g.ownedVariants id := by
  rw [Index.ownedVariants, children_index, ownedVariants]

/-- Of a graph, the checks read the variants that a segment leads to and those that a test owns. -/
theorem checkNode_congr {h : Graph} {n : Node}
    (hrouted : n.type = .segment → h.routedVariants n.id = g.routedVariants n.id)
    (howned : n.type = .abTest → h.ownedVariants n.id = g.ownedVariants n.id) :
    h.index.checkNode config c n = g.index.checkNode config c n := by
  unfold Index.checkNode
  cases hp : n.payload with
  | segment s =>
    have htype : n.type = .segment := by rw [Node.type, hp, Payload.type]
    simp only [Index.checkSegment, routedVariants_index, hrouted htype]
  | abTest t =>
    have htype : n.type = .abTest := by rw [Node.type, hp, Payload.type]
    simp only [Index.checkTest, ownedVariants_index, howned htype]
  | traffic | variant | note | form => rfl

/-- Rules do not count: a segment without rules draws a remark only. -/
theorem harmless_checkSegment {id : String} {s : Segment} :
    Harmless (g.index.checkSegment c id s) ↔
      c.Live s.primaryPage ∧ (g.routedVariants id ≠ [] → ShareAll (g.routedVariants id)) := by
  simp only [Index.checkSegment, harmless_append, Context.harmless_checkAssigned,
    routedVariants_index, harmless_checkSplit .segmentSplit fun _ => rfl]
  simp [Issue.severity]

/-- Neither a weak hypothesis nor missing criteria count. -/
theorem harmless_checkTest {id : String} {t : AbTest} :
    Harmless (g.index.checkTest config id t) ↔
      2 ≤ (g.ownedVariants id).length ∧ ShareAll (g.ownedVariants id) ∧
        (t.arms ≠ [] → Percent.SumsToHundred (Percent.total (t.arms.map (·.allocation))) 0.01) ∧
        Filled t.primaryMetric := by
  -- a test without variants passes the check of their split, but has too few of them
  have hne : 2 ≤ (g.ownedVariants id).length → g.ownedVariants id ≠ [] := by
    intro h hnil
    simp [hnil] at h
  have hmetric : t.primaryMetric.all (Text.AllBlank ·) = false ↔ Filled t.primaryMetric := by
    cases t.primaryMetric <;> simp [Filled]
  simp only [Index.checkTest, harmless_append, ownedVariants_index,
    harmless_checkSplit .testSplit fun _ => rfl]
  simp [Issue.severity, ← hmetric, Percent.armTolerance]
  constructor
  · rintro ⟨⟨⟨hlen, hset⟩, hshare⟩, harms⟩
    exact ⟨hlen, hshare (hne hlen), harms.resolve_left, hset⟩
  · rintro ⟨hlen, hshare, harms, hset⟩
    exact ⟨⟨⟨hlen, hset⟩, fun _ => hshare⟩, Decidable.or_iff_not_imp_left.2 harms⟩

/-- The checks find no error with a node exactly if it is fit for visitors. -/
theorem harmless_checkNode {n : Node} :
    Harmless (g.index.checkNode config c n) ↔ g.Fit c n := by
  cases hp : n.payload with
  | traffic t => simp only [Index.checkNode, Fit, hp, Context.harmless_checkTraffic]
  | segment s => simp only [Index.checkNode, Fit, hp, harmless_checkSegment]
  | abTest t => simp only [Index.checkNode, Fit, hp, harmless_checkTest]
  | variant v => simp only [Index.checkNode, Fit, hp, Context.harmless_checkVariant]
  | note _ | form _ => simp [Index.checkNode, Fit, hp]

/-- Whether a node is fit depends on no more of the graph than its checks do. -/
theorem fit_congr {h : Graph} {n : Node}
    (hrouted : n.type = .segment → h.routedVariants n.id = g.routedVariants n.id)
    (howned : n.type = .abTest → h.ownedVariants n.id = g.ownedVariants n.id) :
    h.Fit c n ↔ g.Fit c n := by
  have hsame : h.index.checkNode .default c n = g.index.checkNode .default c n :=
    checkNode_congr hrouted howned
  rw [← harmless_checkNode, hsame, harmless_checkNode]

end Graph
end CampaignRouting
