import CampaignRouting.Proofs.Routing.Agreement

/-!
# Place holders in routing tables

Validation passes over place holders, but compilation routes them like any other node. What goes
live has been validated unless it is a place holder (`compile_fit_or_placeholder`); a campaign of
nothing but blank place holders may be published (`compile_drafts`).
-/

namespace CampaignRouting

variable {g : Graph} {settings : Settings} {config : ValidationConfig} {c : Context}

namespace RoutingTable

/-- A table says what the routed nodes of a graph say, and no more. -/
structure MadeOf (g : Graph) (t : RoutingTable) : Prop where
  entry : ∃ n, g.Routed n ∧ n.payload = .traffic ⟨t.defaultPage⟩
  segments : ∀ s, s ∈ t.segments ↔ ∃ n, g.Routed n ∧
    ∃ p, n.payload = .segment p ∧ RoutedSegment.ofSegment g.index n.id p = s
  variants : ∀ v, (∃ s ∈ t.segments, v ∈ s.variants) ↔
    ∃ n, g.Routed n ∧ v ∈ RoutedVariant.ofNode n

theorem madeOf_of_compile {t : RoutingTable} (h : compile g settings = .ok t) : MadeOf g t where
  entry := by
    obtain ⟨n, hn, hp, _⟩ := entry_of_compile h
    exact ⟨n, .entry hn, hp⟩
  segments _ := mem_segments_of_compile h
  variants _ := mem_variants_of_compile h

/-- All that goes live has been validated, but for place holders. -/
theorem compile_fit_or_placeholder (hpublish : (g.report config c).canPublish = true) :
    ∃ t, compile g settings = .ok t ∧ MadeOf g t ∧
      (∀ n, g.Routed n → g.Fit c n ∨
        config.placeholderMarker ≠ "" ∧ config.placeholderMarker.toList <:+: n.id.toList) ∧
      ((∀ n, g.Routed n → config.placeholderMarker = "" ∨
        ¬config.placeholderMarker.toList <:+: n.id.toList) → t.DirectlyLive c) := by
  obtain ⟨t, ht⟩ := exists_compile_of_canPublish settings hpublish
  have hfit : ∀ n, g.Routed n → g.Fit c n ∨ config.IsPlaceholder n := fun n hn =>
    or_iff_not_imp_right.2 ((Graph.canPublish_report.1 hpublish).1 n hn.mem_nodes)
  simp only [ValidationConfig.isPlaceholder_iff] at hfit
  refine ⟨t, ht, madeOf_of_compile ht, hfit, fun hmarker => .of_fit ht fun n hn => ?_⟩
  refine (hfit n hn).resolve_right fun ⟨hne, hinfix⟩ => ?_
  exact (hmarker n hn).elim hne (absurd hinfix)

theorem compile_evenSplit_fit_or_placeholder :
    ∃ t, compile .evenSplit .default = .ok t ∧ MadeOf .evenSplit t ∧
      t.DirectlyLive Graph.evenSplitContext := by
  obtain ⟨t, ht, hmade, -, hlive⟩ := @compile_fit_or_placeholder _ .default _ _
    Graph.canPublish_evenSplit
  have hmarker : ∀ n ∈ Graph.evenSplit.nodes,
      ¬ValidationConfig.default.placeholderMarker.toList <:+: n.id.toList := by decide
  exact ⟨t, ht, hmade, hlive fun n hn => .inr (hmarker n hn.mem_nodes)⟩

end RoutingTable

/-! ## Place holders that go live -/

namespace Graph

/-- A campaign that is yet to be filled in. -/
def drafts : Graph where
  nodes := [
    ⟨"placeholder-entry", none, .traffic .blank⟩,
    ⟨"placeholder-segment", none, .segment .blank⟩,
    ⟨"placeholder-variant", none, .variant .blank⟩]
  edges := [
    ⟨"e1", "placeholder-entry", "placeholder-segment"⟩,
    ⟨"e2", "placeholder-segment", "placeholder-variant"⟩]

/-- A page that `drafts` does not lead to. -/
def homeContext : Context := Context.empty.withPage "home" .published

theorem canPublish_drafts : (drafts.report .default homeContext).canPublish = true :=
  canPublish_report.2 ⟨by decide, by decide, by decide, root_eq_ok_iff.2 ⟨_, rfl⟩⟩

theorem routed_drafts : ∀ n ∈ drafts.nodes, drafts.Routed n := by
  have hsegment : drafts.Routed ⟨"placeholder-segment", none, .segment .blank⟩ :=
    .segment rfl ⟨⟨"e1", "placeholder-entry", "placeholder-segment"⟩, by simp [edgesFrom, drafts],
      rfl⟩ rfl
  intro n hn
  simp only [drafts, List.mem_cons, List.not_mem_nil, or_false] at hn
  obtain rfl | rfl | rfl := hn
  · exact .entry rfl
  · exact hsegment
  · exact .destination hsegment rfl
      ⟨⟨"e2", "placeholder-segment", "placeholder-variant"⟩, by simp [edgesFrom, drafts], rfl⟩
      (List.cons_ne_nil _ _)

end Graph

/-- What `drafts` makes of its segment. -/
def RoutedSegment.draft : RoutedSegment where
  id := "placeholder-segment"
  title := ""
  description := ""
  priority := 0.0
  primaryPage := none
  rules := []
  translationMode := .none
  translations := ∅
  variants := [⟨"placeholder-variant", "", none, none, false, none⟩]

/-- None of the place holders is fit, and all of them go live. -/
theorem RoutingTable.compile_drafts :
    (Graph.drafts.report .default Graph.homeContext).canPublish = true ∧
    (∀ n ∈ Graph.drafts.nodes, ValidationConfig.default.IsPlaceholder n ∧
      ¬Graph.drafts.Fit Graph.homeContext n ∧ Graph.drafts.Routed n) ∧
    compile .drafts .default = .ok { empty with segments := [.draft] } := by
  refine ⟨Graph.canPublish_drafts, fun n hn => ?_, ?_⟩
  · have hunfit : ∀ n ∈ Graph.drafts.nodes, ValidationConfig.default.IsPlaceholder n ∧
        ¬Graph.drafts.Fit Graph.homeContext n := by decide
    exact ⟨(hunfit n hn).1, (hunfit n hn).2, Graph.routed_drafts n hn⟩
  · have hroot : Graph.drafts.root = .ok ⟨"placeholder-entry", .blank⟩ := rfl
    have hsegments : byPriority (Graph.drafts.projection "placeholder-entry") = [.draft] :=
      List.mergeSort_singleton RoutedSegment.draft
    rw [compile_of_root_ok .default hroot, hsegments]
    rfl

end CampaignRouting
