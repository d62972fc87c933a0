import CampaignRouting.Proofs.Validation.Findings

/-!
# Where edges count

Edges decide one thing that validation looks at: which variants a segment leads to. What a test has
to do with a variant is told by the parent of the variant, and the entry point by the nodes alone.
So an edge that is added (`Graph.insertEdge`) reaches the split of the segments that it leaves, and
not even this unless it leads to a variant (`Graph.confined_insertEdge`).
-/

namespace CampaignRouting

theorem Node.variant?_of_type_ne {n : Node} (h : n.type ≠ .variant) : n.variant? = none := by
  unfold variant?
  split
  · next hp => exact absurd (by rw [Node.type, hp, Payload.type]) h
  · rfl

namespace Graph

/-- The graph with one more edge, in the place `k`. -/
def insertEdge (g : Graph) (k : Nat) (e : Edge) : Graph :=
  { g with edges := g.edges.take k ++ e :: g.edges.drop k }

/-- With `e`, what was found in `g` is found in `h` as well, and nothing else, but for the splits of
the segments that `e` leaves. -/
structure Confined (g h : Graph) (e : Edge) (config : ValidationConfig) (c : Context) : Prop where
  critical : h.criticalFindings c = g.criticalFindings c
  elsewhere : ∀ n, ¬(n.type = .segment ∧ n.id = e.source) →
    h.findings config c n = g.findings config c n
  /-- The results about other nodes are the same, in the same order. -/
  results : (h.validate config c).filter (fun r => ¬(r.nodeType = .segment ∧ r.nodeId = e.source)) =
    (g.validate config c).filter fun r => ¬(r.nodeType = .segment ∧ r.nodeId = e.source)
  noVariant : (∀ n, g.resolve? e.target = some n → n.type ≠ .variant) →
    h.validate config c = g.validate config c
  source : ∀ n, n.type = .segment → n.id = e.source →
    ∃ (others : List Finding) (before after : Option Float),
      (∀ f ∈ others, f.id ≠ "segment-variant-split") ∧
      g.findings config c n =
        others ++ (before.map fun x => (Issue.segmentSplit x).finding).toList ∧
      h.findings config c n =
        others ++ (after.map fun x => (Issue.segmentSplit x).finding).toList
  tests : ∀ n, n.type = .abTest → h.findings config c n = g.findings config c n

variable (g : Graph) (k : Nat) (e : Edge) (config : ValidationConfig) (c : Context)

/-! ## What edges lead to -/

theorem edgesFrom_insertEdge (id : String) : (g.insertEdge k e).edgesFrom id =
    (g.edges.take k).filter (·.source = id) ++ [e].filter (·.source = id) ++
      (g.edges.drop k).filter (·.source = id) := by
  rw [edgesFrom, insertEdge, ← List.filter_append, ← List.filter_append, List.append_assoc]
  rfl

variable {e} in
theorem routedVariants_insertEdge {id : String}
    (h : e.source = id → (g.resolve? e.target).bind (·.variant?) = none) :
    (g.insertEdge k e).routedVariants id = g.routedVariants id := by
  have hedge : ([e].filter (·.source = id)).filterMap
      (fun e => (g.resolve? e.target).bind (·.variant?)) = [] := by
    by_cases hsource : e.source = id
    · simp [hsource, h hsource]
    · simp [hsource]
  have hedges : g.edgesFrom id =
      (g.edges.take k).filter (·.source = id) ++ (g.edges.drop k).filter (·.source = id) := by
    rw [edgesFrom, ← List.filter_append, List.take_append_drop]
  have hresolve : (g.insertEdge k e).resolve? = g.resolve? := rfl
  rw [routedVariants, routedVariants, edgesFrom_insertEdge, hedges, hresolve]
  simp only [List.filterMap_append, hedge, List.append_nil]

/-! ## Nodes -/

variable {e} in
theorem findings_insertEdge {n : Node} (h : n.type = .segment → n.id = e.source →
      ∀ m, g.resolve? e.target = some m → m.type ≠ .variant) :
    (g.insertEdge k e).findings config c n = g.findings config c n := by
  have hcheck : (g.insertEdge k e).index.checkNode config c n = g.index.checkNode config c n := by
    refine checkNode_congr (fun htype => routedVariants_insertEdge g k fun hsource => ?_)
      fun _ => rfl
    rw [Option.bind_eq_none_iff]
    intro m hm
    exact Node.variant?_of_type_ne (h htype hsource.symm m hm)
  rw [findings, findings, hcheck]

variable {e} in
theorem findings_insertEdge_of_ne {n : Node} (hn : ¬(n.type = .segment ∧ n.id = e.source)) :
    (g.insertEdge k e).findings config c n = g.findings config c n :=
  findings_insertEdge g k config c fun htype hsource => absurd ⟨htype, hsource⟩ hn

/-- All graphs find the same with a segment, but for its split. -/
theorem exists_findings_of_segment {n : Node} (htype : n.type = .segment) :
    ∃ others : List Finding, (∀ f ∈ others, f.id ≠ "segment-variant-split") ∧
      ∀ g : Graph, ∃ total : Option Float, g.findings config c n =
        others ++ (total.map fun x => (Issue.segmentSplit x).finding).toList := by
  by_cases hplace : config.IsPlaceholder n
  · exact ⟨[], by simp, fun g => ⟨none, findings_of_isPlaceholder hplace⟩⟩
  · cases hp : n.payload with
    | segment s =>
      refine ⟨(c.checkAssigned .segment s.primaryPage ++
        if s.rules.isEmpty then [Issue.noRules] else []).map (·.finding), ?_, fun g => ?_⟩
      · rw [List.forall_mem_map]
        intro i hi
        change i.id ≠ _
        rcases List.mem_append.1 hi with hi | hi
        · rcases Context.eq_of_mem_checkAssigned hi with rfl | rfl | rfl <;> decide
        · split at hi
          · rw [List.mem_singleton.1 hi]
            decide
          · cases hi
      · obtain ⟨total, htotal⟩ := exists_checkSplit_eq .segmentSplit (g.routedVariants n.id)
        refine ⟨total, ?_⟩
        rw [findings_of_not_isPlaceholder hplace, Index.checkNode, hp]
        simp only [Index.checkSegment, routedVariants_index, htotal, List.map_append]
        cases total <;> rfl
    | _ => simp [Node.type, Payload.type, hp] at htype

/-- An edge reaches no further than the splits of the segments that it leaves. -/
theorem confined_insertEdge : Confined g (g.insertEdge k e) e config c where
  critical := rfl
  elsewhere _ := findings_insertEdge_of_ne g k config c
  results := by
    have hnodes (g : Graph) := g.filter_validate config c
      (p := fun r => ¬(r.nodeType = .segment ∧ r.nodeId = e.source))
      (q := fun n => ¬(n.type = .segment ∧ n.id = e.source)) fun _ _ => rfl
    rw [hnodes, hnodes]
    refine List.filterMap_congr fun n _ => ?_
    split
    · next hn => rw [findings_insertEdge_of_ne g k config c (of_decide_eq_true hn)]
    · rfl
  noVariant h := by
    rw [validate_eq_filterMap, validate_eq_filterMap]
    exact List.filterMap_congr fun n _ => by
      rw [findings_insertEdge g k config c fun _ _ => h]
  source n htype _ := by
    obtain ⟨others, hothers, hfindings⟩ := exists_findings_of_segment config c htype
    obtain ⟨before, hbefore⟩ := hfindings g
    obtain ⟨after, hafter⟩ := hfindings (g.insertEdge k e)
    exact ⟨others, before, after, hothers, hbefore, hafter⟩
  tests n htype := by
    apply findings_insertEdge_of_ne
    rw [htype]
    exact fun h => nomatch h.1

/-- One more edge from the segment of `evenSplit` to its test. -/
theorem confined_insertEdge_evenSplit :
    (∀ n, evenSplit.resolve? "test" = some n → n.type ≠ .variant) ∧
      (evenSplit.insertEdge 3 ⟨"e6", "visitors", "test"⟩).validate .default evenSplitContext =
        evenSplit.validate .default evenSplitContext := by
  have htest : ∀ n, evenSplit.resolve? "test" = some n → n.type ≠ .variant := by
    have htype : (evenSplit.resolve? "test").map Node.type = some .abTest := rfl
    intro n hn
    rw [hn, Option.map_some, Option.some_inj] at htype
    rw [htype]
    decide
  exact ⟨htest, (confined_insertEdge _ 3 ⟨"e6", "visitors", "test"⟩ _ _).noVariant htest⟩

end Graph
end CampaignRouting
