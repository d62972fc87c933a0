import CampaignRouting.Proofs.Routing.Agreement

/-!
# Arms in routing tables

Validation checks the variants that a test owns, but compilation lists the arms of the test. Pages
and shares of arms go live as they are (`compile_armsLive_iff`); they are in order where each arm
has its page and its share from an owned variant. What is checked of arms is that their shares add
up within a test. A segment may list several tests, and variants beside them: each group of
destinations then adds up to a hundred percent by itself (`compile_splitsInto`).
-/

namespace CampaignRouting

variable {g : Graph} {settings : Settings} {config : ValidationConfig} {c : Context}

/-! ## Pages and shares of arms -/

/-- All arms lead to live pages and have proper shares. -/
def AbTest.ArmsLive (p : AbTest) (c : Context) : Prop :=
  ∀ a ∈ p.arms, c.Live a.page ∧ ValidShare (some a.allocation)

/-- Each arm has the page and the share of one of the variants. -/
def AbTest.Mirrors (p : AbTest) (variants : List Variant) : Prop :=
  ∀ a ∈ p.arms, ∃ v ∈ variants, v.page = a.page ∧ v.share = some a.allocation

/-- All arms of tests in a table lead to live pages and have proper shares. -/
def RoutingTable.ArmsLive (t : RoutingTable) (c : Context) : Prop :=
  ∀ s ∈ t.segments, ∀ v ∈ s.variants, v.experiment ≠ none → c.Live v.page ∧ ValidShare v.share

/-- The arms that mirror fit variants are live. -/
theorem AbTest.Mirrors.armsLive {p : AbTest} {id : String} (h : p.Mirrors (g.ownedVariants id))
    (hfit : ∀ n ∈ g.nodes, g.Fit c n) : p.ArmsLive c := by
  intro a ha
  obtain ⟨v, hv, hpage, hshare⟩ := h a ha
  obtain ⟨n, hn, hv⟩ := List.mem_filterMap.1 hv
  have hvariant := (hfit n (List.mem_filter.1 hn).1).variant (Node.variant?_eq_some_iff.1 hv)
  rwa [hpage, hshare] at hvariant

namespace RoutingTable

theorem armsLive_iff {t : RoutingTable} (h : compile g settings = .ok t) :
    t.ArmsLive c ↔ ∀ n, g.Routed n → ∀ p, n.payload = .abTest p → p.ArmsLive c := by
  constructor
  · intro hlive n hn p hp a ha
    have hv : RoutedVariant.ofArm n.id a ∈ RoutedVariant.ofNode n :=
      RoutedVariant.mem_ofNode.2 (.inr ⟨p, hp, a, ha, rfl⟩)
    obtain ⟨s, hs, hv⟩ := (mem_variants_of_compile h).2 ⟨n, hn, hv⟩
    exact hlive s hs _ hv nofun
  · intro hlive s hs v hv htest
    obtain ⟨n, hn, hv⟩ := (mem_variants_of_compile h).1 ⟨s, hs, hv⟩
    obtain ⟨p, hp, rfl⟩ | ⟨p, hp, a, ha, rfl⟩ := RoutedVariant.mem_ofNode.1 hv
    · exact absurd rfl htest
    · exact hlive n hn p hp a ha

/-- Arms go live as they are. That a campaign may be published says no more of them than of the
variants that they mirror. -/
theorem compile_armsLive_iff
    (hmarker : config.placeholderMarker = "" ∨
      ∀ n ∈ g.nodes, ¬config.placeholderMarker.toList <:+: n.id.toList)
    (hpublish : (g.report config c).canPublish = true) :
    ∃ t, compile g settings = .ok t ∧
      (t.ArmsLive c ↔ ∀ n, g.Routed n → ∀ p, n.payload = .abTest p → p.ArmsLive c) ∧
      ((∀ n, g.Routed n → ∀ p, n.payload = .abTest p → p.Mirrors (g.ownedVariants n.id)) →
        t.ArmsLive c) := by
  obtain ⟨t, ht⟩ := exists_compile_of_canPublish settings hpublish
  have hfit := Graph.fit_of_canPublish hmarker hpublish
  refine ⟨t, ht, armsLive_iff ht, fun hmirrors => ?_⟩
  exact (armsLive_iff ht).2 fun n hn p hp => (hmirrors n hn p hp).armsLive hfit

end RoutingTable

namespace Graph

def visitors : Node :=
  ⟨"visitors", none, .segment { Segment.blank with primaryPage := some "home" }⟩

def salesTest (arms : List Arm) : Node :=
  ⟨"test", none, .abTest { AbTest.blank with primaryMetric := some "sales", arms }⟩

/-- A campaign whose only segment leads to the variants `left` and `right` and to the test that owns
them. -/
def testedSplit (arms : List Arm) : Graph where
  nodes := [
    ⟨"entry", none, .traffic ⟨some "home"⟩⟩, visitors,
    ⟨"left", some "test", .variant ⟨"Left", some "home", some 50.0⟩⟩,
    ⟨"right", some "test", .variant ⟨"Right", some "sale", some 50.0⟩⟩, salesTest arms]
  edges := [
    ⟨"e1", "entry", "visitors"⟩, ⟨"e2", "visitors", "left"⟩, ⟨"e3", "visitors", "right"⟩,
    ⟨"e4", "visitors", "test"⟩]

theorem routed_visitors (arms : List Arm) : (testedSplit arms).Routed visitors :=
  .segment rfl ⟨⟨"e1", "entry", "visitors"⟩, by simp [edgesFrom, testedSplit], rfl⟩ rfl

theorem routed_salesTest {arms : List Arm} (h : arms ≠ []) :
    (testedSplit arms).Routed (salesTest arms) :=
  .destination (routed_visitors arms) rfl
    ⟨⟨"e4", "visitors", "test"⟩, by simp [edgesFrom, testedSplit, visitors], rfl⟩
    (by simpa [RoutedVariant.ofNode, salesTest] using h)

/-- The arms of `testedSplit` that mirror its variants. -/
def mirroringArms : List Arm :=
  [⟨"a", "A", some "home", 50.0, true⟩, ⟨"b", "B", some "sale", 50.0, false⟩]

/-- One arm leads nowhere and has more than all visitors, the other leads to a page that is gone and
has less than none. -/
def deadArms : List Arm :=
  [⟨"a", "A", none, 150.0, true⟩, ⟨"b", "B", some "gone", -50.0, false⟩]

theorem canPublish_mirroringArms :
    ((testedSplit mirroringArms).report .default evenSplitContext).canPublish = true :=
  canPublish_report.2 ⟨by decide, by decide, by decide, root_eq_ok_iff.2 ⟨_, rfl⟩⟩

theorem canPublish_deadArms :
    ((testedSplit deadArms).report .default evenSplitContext).canPublish = true :=
  canPublish_report.2 ⟨by decide, by decide, by decide, root_eq_ok_iff.2 ⟨_, rfl⟩⟩

end Graph

namespace RoutingTable

theorem compile_mirroringArms_armsLive :
    ∃ t, compile (.testedSplit Graph.mirroringArms) .default = .ok t ∧
      t.ArmsLive Graph.evenSplitContext := by
  obtain ⟨t, ht, -, hlive⟩ := @compile_armsLive_iff _ .default _ _ (.inr (by decide))
    Graph.canPublish_mirroringArms
  refine ⟨t, ht, hlive fun n hn p hp => ?_⟩
  have hmem := hn.mem_nodes
  simp only [Graph.testedSplit, List.mem_cons, List.not_mem_nil, or_false] at hmem
  obtain rfl | rfl | rfl | rfl | rfl := hmem <;> cases hp
  unfold AbTest.Mirrors
  decide

/-- A campaign without place holders may be published, and a dead arm of it goes live. -/
theorem compile_deadArms :
    (∀ n ∈ (Graph.testedSplit Graph.deadArms).nodes,
      ¬ValidationConfig.default.placeholderMarker.toList <:+: n.id.toList) ∧
    ((Graph.testedSplit Graph.deadArms).report .default Graph.evenSplitContext).canPublish ∧
    ∃ t, compile (.testedSplit Graph.deadArms) .default = .ok t ∧
      ∃ s ∈ t.segments, ∃ v ∈ s.variants, v.experiment ≠ none ∧
        ¬Graph.evenSplitContext.Live v.page ∧ ¬ValidShare v.share := by
  obtain ⟨t, ht⟩ := exists_compile_of_canPublish .default Graph.canPublish_deadArms
  obtain ⟨s, hs, hv⟩ := (mem_variants_of_compile ht).2
    ⟨_, Graph.routed_salesTest (by decide), List.mem_cons_self⟩
  exact ⟨by decide, Graph.canPublish_deadArms, t, ht, s, hs, _, hv, by decide⟩

end RoutingTable

/-! ## Shares in a segment -/

/-- The shares of some destinations add up to a hundred percent, but for a tolerance. -/
def AddUp (variants : List RoutedVariant) (tolerance : Float) : Prop :=
  Percent.SumsToHundred (Percent.total (variants.filterMap (·.share))) tolerance

instance (variants : List RoutedVariant) (tolerance : Float) :
    Decidable (AddUp variants tolerance) := by unfold AddUp; infer_instance

theorem AddUp.mono {variants : List RoutedVariant} {a b : Float} (h : AddUp variants a)
    (hab : a + Percent.slack ≤ b + Percent.slack) : AddUp variants b := float_le_trans h hab

/-- The arms of one test, whose shares add up. -/
structure TestGroup (variants : List RoutedVariant) : Prop where
  arms : ∃ test, ∀ v ∈ variants, v.experiment = some test
  addUp : variants ≠ [] → AddUp variants 0.01

/-- How a segment splits its visitors: over variants that stand for themselves, which share all of
them, and over tests, the arms of each of which share all of them again. There is a group for each
edge, which is empty where the edge leads to neither. -/
structure RoutedSegment.SplitsInto (s : RoutedSegment) (groups : List (List RoutedVariant)) :
    Prop where
  variants : s.variants = groups.flatten
  group : ∀ l ∈ groups, (∃ v, l = [v] ∧ v.experiment = none) ∨ TestGroup l
  direct : s.direct ≠ [] → AddUp s.direct 0.2

namespace Graph

/-- The destinations that an edge leads to are a group. -/
theorem group_destinations (hfit : ∀ n ∈ g.nodes, g.Fit c n) (e : Edge) :
    (∃ v, g.destinations e = [v] ∧ v.experiment = none) ∨ TestGroup (g.destinations e) := by
  have hnil : TestGroup [] := ⟨⟨"", nofun⟩, fun h => absurd rfl h⟩
  rw [← ofNode_resolve?]
  cases hn : g.resolve? e.target with
  | none => exact .inr hnil
  | some n =>
    rw [Option.toList_some, List.flatMap_singleton, RoutedVariant.ofNode]
    cases hp : n.payload with
    | variant p => exact .inl ⟨_, rfl, rfl⟩
    | abTest p =>
      refine .inr ⟨⟨n.id, List.forall_mem_map.2 fun a _ => rfl⟩, fun hne => ?_⟩
      have hsum := (hfit n (mem_nodes_of_resolve? hn)).arms hp (by simpa using hne)
      have hshares : (p.arms.map (RoutedVariant.ofArm n.id)).filterMap (·.share) =
          p.arms.map (·.allocation) := by
        rw [List.filterMap_map, ← List.filterMap_eq_map]
        rfl
      rw [AddUp, hshares]
      exact hsum
    | traffic | segment | note | form => exact .inr hnil

end Graph

/-- All destinations of a segment add up together if they are one group. -/
theorem RoutedSegment.SplitsInto.addUp {s : RoutedSegment} {groups : List (List RoutedVariant)}
    (h : s.SplitsInto groups) (hne : s.variants ≠ [])
    (hone : s.direct = s.variants ∨ s.variants ∈ groups) : AddUp s.variants 0.2 := by
  have hdirect (hd : s.direct = s.variants) : AddUp s.variants 0.2 := hd ▸ h.direct (hd ▸ hne)
  obtain hd | hmem := hone
  · exact hdirect hd
  · obtain ⟨v, hv, htest⟩ | htest := h.group _ hmem
    · exact hdirect (by simp [RoutedSegment.direct, hv, htest])
    · exact (htest.addUp hne).mono (by decide)

namespace RoutingTable

/-- The destinations of a published segment add up group by group. -/
theorem compile_splitsInto
    (hmarker : config.placeholderMarker = "" ∨
      ∀ n ∈ g.nodes, ¬config.placeholderMarker.toList <:+: n.id.toList)
    (hpublish : (g.report config c).canPublish = true) :
    ∃ t, compile g settings = .ok t ∧ ∀ s ∈ t.segments,
      s.SplitsInto ((g.edgesFrom s.id).map g.destinations) ∧
      (s.variants ≠ [] →
        s.direct = s.variants ∨ s.variants ∈ (g.edgesFrom s.id).map g.destinations →
        AddUp s.variants 0.2) := by
  obtain ⟨t, ht⟩ := exists_compile_of_canPublish settings hpublish
  have hfit := Graph.fit_of_canPublish hmarker hpublish
  have hlive : t.DirectlyLive c := .of_fit ht fun n hn => hfit n hn.mem_nodes
  refine ⟨t, ht, fun s hs => ?_⟩
  have hvariants : s.variants = (g.edgesFrom s.id).flatMap g.destinations := by
    obtain ⟨n, _, p, _, rfl⟩ := (mem_segments_of_compile ht).1 hs
    exact Graph.variants_ofSegment g n.id p
  have hsplits : s.SplitsInto ((g.edgesFrom s.id).map g.destinations) :=
    ⟨hvariants, List.forall_mem_map.2 fun e _ => Graph.group_destinations hfit e, hlive.shares s hs⟩
  exact ⟨hsplits, hsplits.addUp⟩

theorem compile_evenSplit_splitsInto :
    ∃ t, compile .evenSplit .default = .ok t ∧ ∀ s ∈ t.segments,
      s.SplitsInto ((Graph.evenSplit.edgesFrom s.id).map Graph.evenSplit.destinations) ∧
      s.variants ≠ [] ∧ AddUp s.variants 0.2 := by
  obtain ⟨t, ht, h⟩ := @compile_splitsInto _ .default _ _ (.inr (by decide))
    Graph.canPublish_evenSplit
  refine ⟨t, ht, fun s hs => ?_⟩
  have hid : s.id = "visitors" := by
    obtain ⟨n, hn, p, hp, rfl⟩ := (mem_segments_of_compile ht).1 hs
    have hmem := hn.mem_nodes
    simp only [Graph.evenSplit, List.mem_cons, List.not_mem_nil, or_false] at hmem
    obtain rfl | rfl | rfl | rfl | rfl := hmem <;> cases hp
    rfl
  obtain ⟨hsplits, hadd⟩ := h s hs
  have hvariants := hsplits.variants
  rw [hid] at hvariants
  have hne : s.variants ≠ [] := by
    rw [hvariants]
    exact List.cons_ne_nil _ _
  -- the test has no arms, so all variants stand for themselves
  refine ⟨hsplits, hne, hadd hne (.inl ?_)⟩
  rw [RoutedSegment.direct, hvariants]
  rfl

/-- The variants of a published segment and the arms of a test next to them add up to two hundred
percent. -/
theorem compile_mirroringArms_not_addUp :
    (∀ n ∈ (Graph.testedSplit Graph.mirroringArms).nodes,
      ¬ValidationConfig.default.placeholderMarker.toList <:+: n.id.toList) ∧
    ((Graph.testedSplit Graph.mirroringArms).report .default Graph.evenSplitContext).canPublish ∧
    ∃ t, compile (.testedSplit Graph.mirroringArms) .default = .ok t ∧
      ∃ s ∈ t.segments, s.variants ≠ [] ∧
        Percent.total (s.variants.filterMap (·.share)) = 200.0 ∧ ¬AddUp s.variants 0.2 := by
  obtain ⟨t, ht⟩ := exists_compile_of_canPublish .default Graph.canPublish_mirroringArms
  refine ⟨by decide, Graph.canPublish_mirroringArms, t, ht, _,
    (mem_segments_of_compile ht).2 ⟨_, Graph.routed_visitors _, _, rfl, rfl⟩, ?_⟩
  rw [AddUp, Graph.variants_ofSegment]
  decide

end RoutingTable
end CampaignRouting
