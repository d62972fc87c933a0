import CampaignRouting.Proofs.Routing.Projection
import CampaignRouting.Proofs.Validation.Decision

/-!
# What goes live has been validated

Validation looks at the nodes of a graph, compilation lists what its edges lead to. Where no node is
a place holder they agree on all that is routed directly: of a campaign that may be published, the
default page, the segments and the variants that stand for themselves are as validation wants them
(`compile_directlyLive`). The direct variants of a compiled segment are those whose shares
validation adds up, in the same order (`map_toVariant_direct`), whatever edges there are.
-/

namespace CampaignRouting

/-- The variant as its node carries it. -/
def RoutedVariant.toVariant (v : RoutedVariant) : Variant := ⟨v.name, v.page, v.share⟩

/-- The variants of a segment that are no arms of a test. -/
def RoutedSegment.direct (s : RoutedSegment) : List RoutedVariant :=
  s.variants.filter (·.experiment = none)

namespace Graph

variable {g : Graph} {config : ValidationConfig} {c : Context}

/-- Of what an edge leads to, only a variant node is direct. -/
theorem map_toVariant_destinations (g : Graph) (e : Edge) :
    ((g.destinations e).filter (·.experiment = none)).map RoutedVariant.toVariant =
      ((g.resolve? e.target).bind (·.variant?)).toList := by
  unfold destinations
  match g.resolve? e.target with
  | none => rfl
  | some ⟨id, _, p⟩ =>
    cases p with
    | abTest t => simp [Node.variant?, List.filter_eq_nil_iff]
    | variant | traffic | segment | note | form => rfl

theorem map_toVariant_direct (g : Graph) (id : String) (p : Segment) :
    (RoutedSegment.ofSegment g.index id p).direct.map RoutedVariant.toVariant =
      g.routedVariants id := by
  rw [RoutedSegment.direct, variants_ofSegment, List.filter_flatMap, List.map_flatMap,
    routedVariants, List.filterMap_eq_flatMap_toList]
  exact List.flatMap_congr fun e _ => map_toVariant_destinations g e

theorem fit_of_canPublish (hmarker : config.placeholderMarker = "" ∨
      ∀ n ∈ g.nodes, ¬config.placeholderMarker.toList <:+: n.id.toList)
    (hpublish : (g.report config c).canPublish = true) : ∀ n ∈ g.nodes, g.Fit c n := by
  intro n hn
  refine (canPublish_report.1 hpublish).1 n hn fun hplace => ?_
  obtain ⟨hne, hinfix⟩ := ValidationConfig.isPlaceholder_iff.1 hplace
  exact hmarker.elim hne fun h => h n hn hinfix

end Graph

namespace RoutingTable

/-- All that a table routes directly is live, and the direct variants of a segment share all
visitors among them. -/
structure DirectlyLive (t : RoutingTable) (c : Context) : Prop where
  defaultPage : c.Live t.defaultPage
  segments : ∀ s ∈ t.segments, c.Live s.primaryPage
  variants : ∀ s ∈ t.segments, ∀ v ∈ s.direct, c.Live v.page ∧ ValidShare v.share
  shares : ∀ s ∈ t.segments, s.direct ≠ [] →
    Percent.SumsToHundred (Percent.total (s.direct.filterMap (·.share))) 0.2

variable {g : Graph} {settings : Settings} {config : ValidationConfig} {c : Context}

/-- A graph that passes validation compiles. -/
theorem exists_compile_of_canPublish (settings : Settings)
    (hpublish : (g.report config c).canPublish = true) : ∃ t, compile g settings = .ok t := by
  obtain ⟨_, _, _, r, hroot⟩ := Graph.canPublish_report.1 hpublish
  exact ⟨_, compile_of_root_ok settings hroot⟩

theorem DirectlyLive.of_fit {t : RoutingTable} (h : compile g settings = .ok t)
    (hfit : ∀ n, g.Routed n → g.Fit c n) : t.DirectlyLive c := by
  have hsegment : ∀ s ∈ t.segments, c.Live s.primaryPage ∧ (s.direct ≠ [] →
      Percent.SumsToHundred (Percent.total (s.direct.filterMap (·.share))) 0.2) := by
    intro s hs
    obtain ⟨n, hn, p, hp, rfl⟩ := (mem_segments_of_compile h).1 hs
    have hdirect := Graph.map_toVariant_direct g n.id p
    have hsegment := (hfit n hn).segment hp
    refine ⟨hsegment.1, fun hne => ?_⟩
    have hshares := hsegment.2 (by simpa [← hdirect] using hne)
    rw [ShareAll, ← hdirect, List.filterMap_map] at hshares
    exact hshares
  obtain ⟨n, hn, hp, -⟩ := entry_of_compile h
  refine ⟨(hfit n (.entry hn)).traffic hp, fun s hs => (hsegment s hs).1, fun s hs v hv => ?_,
    fun s hs => (hsegment s hs).2⟩
  obtain ⟨hv, hdirect⟩ := List.mem_filter.1 hv
  obtain ⟨n, hn, hv⟩ := (mem_variants_of_compile h).1 ⟨s, hs, hv⟩
  obtain ⟨p, hp, rfl⟩ | ⟨p, hp, a, ha, rfl⟩ := RoutedVariant.mem_ofNode.1 hv
  · exact (hfit n hn).variant hp
  · cases of_decide_eq_true hdirect

/-- A campaign without place holders that may be published compiles, and all that it routes
directly is live. -/
theorem compile_directlyLive
    (hmarker : config.placeholderMarker = "" ∨
      ∀ n ∈ g.nodes, ¬config.placeholderMarker.toList <:+: n.id.toList)
    (hpublish : (g.report config c).canPublish = true) :
    ∃ t, compile g settings = .ok t ∧ t.DirectlyLive c := by
  obtain ⟨t, ht⟩ := exists_compile_of_canPublish settings hpublish
  exact ⟨t, ht, .of_fit ht fun n hn => Graph.fit_of_canPublish hmarker hpublish n hn.mem_nodes⟩

theorem compile_evenSplit_directlyLive :
    ∃ t, compile .evenSplit .default = .ok t ∧ t.DirectlyLive Graph.evenSplitContext :=
  compile_directlyLive (.inr (by simp only [← occursIn_iff_infix]; decide))
    Graph.canPublish_evenSplit

end RoutingTable
end CampaignRouting
