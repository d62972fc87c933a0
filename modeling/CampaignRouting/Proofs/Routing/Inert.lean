import CampaignRouting.Proofs.Routing.Projection
import CampaignRouting.Proofs.Validation.Decision

/-!
# Notes, forms and dead edges

Notes and forms are there for the people who edit a campaign, and an edge that ends at one of them,
or nowhere, or that leaves neither an entry point nor a segment, leads no visitor on. A graph
without them (`Graph.strip`) is compiled and validated as it was before
(`Graph.compile_and_report_strip`). Leaving out nodes changes every table of the graph, but of what
a segment leads to and of what a node owns it takes the inert nodes only (`Graph.targets_strip`,
`Graph.children_strip`), and to these no check and no projection gives anything.
-/

namespace CampaignRouting

/-- The node is a note or a form. -/
def Node.Inert (n : Node) : Prop := n.type = .note ∨ n.type = .form

instance (n : Node) : Decidable n.Inert := by unfold Node.Inert; infer_instance

namespace Graph

/-- The edge leaves an entry point or a segment, and ends at a node that is not inert. -/
def Alive (g : Graph) (e : Edge) : Prop :=
  (∃ n ∈ g.nodes, n.id = e.source ∧ (n.type = .traffic ∨ n.type = .segment)) ∧
    ∃ n ∈ g.resolve? e.target, ¬n.Inert

instance (g : Graph) (e : Edge) : Decidable (g.Alive e) := by unfold Alive; infer_instance

/-- The graph without inert nodes, and without edges that are not alive. -/
def strip (g : Graph) : Graph where
  nodes := g.nodes.filter fun n => ¬n.Inert
  edges := g.edges.filter fun e => g.Alive e

/-! ## Lists of nodes -/

section
variable {β : Type} {nodes : List Node}

/-- What inert nodes add nothing to can do without them. -/
theorem filterMap_filter_inert {f : Node → Option β} (hf : ∀ n, n.Inert → f n = none) :
    (nodes.filter fun n => ¬n.Inert).filterMap f = nodes.filterMap f := by
  rw [List.filterMap_filter]
  refine List.filterMap_congr fun n _ => ?_
  by_cases hn : n.Inert <;> simp [hn, hf]

theorem flatMap_filter_inert {f : Node → List β} (hf : ∀ n, n.Inert → f n = []) :
    (nodes.filter fun n => ¬n.Inert).flatMap f = nodes.flatMap f := by
  induction nodes with
  | nil => rfl
  | cons n nodes ih => by_cases hn : n.Inert <;> simp [hn, hf, ← ih]

/-- Where no two nodes share an id, leaving some out does not uncover others. -/
theorem find?_filter_of_nodup (p : Node → Bool) (hids : (nodes.map (·.id)).Nodup) (id : String) :
    (nodes.filter p).find? (·.id = id) = (nodes.find? (·.id = id)).filter p := by
  induction nodes with
  | nil => rfl
  | cons n nodes ih =>
    obtain ⟨hn, hids⟩ := List.nodup_cons.1 hids
    by_cases hid : n.id = id
    · subst hid
      have hnone : nodes.find? (·.id = n.id) = none := by
        refine List.find?_eq_none.2 fun m hm hmn => hn (List.mem_map.2 ⟨m, hm, ?_⟩)
        exact of_decide_eq_true hmn
      cases hp : p n <;> simp [hp, ih hids, hnone, Option.filter]
    · cases hp : p n <;> simp [hp, hid, ih hids]

end

/-! ## What inert nodes give -/

section
variable {n : Node} (hn : n.Inert)
include hn

/-- Only notes and forms are inert. -/
theorem exists_payload_of_inert :
    (∃ p, n.payload = .note p) ∨ ∃ p, n.payload = .form p := by
  cases hp : n.payload <;> simp_all [Node.Inert, Node.type, Payload.type]

theorem traffic?_of_inert : n.traffic? = none := by
  rcases exists_payload_of_inert hn with ⟨p, hp⟩ | ⟨p, hp⟩ <;> simp only [Node.traffic?, hp]

theorem segment?_of_inert : n.segment? = none := by
  rcases exists_payload_of_inert hn with ⟨p, hp⟩ | ⟨p, hp⟩ <;> simp only [Node.segment?, hp]

theorem variant?_of_inert : n.variant? = none := by
  rcases exists_payload_of_inert hn with ⟨p, hp⟩ | ⟨p, hp⟩ <;> simp only [Node.variant?, hp]

theorem ofNode_of_inert : RoutedVariant.ofNode n = [] := by
  rcases exists_payload_of_inert hn with ⟨p, hp⟩ | ⟨p, hp⟩ <;>
    simp only [RoutedVariant.ofNode, hp]

theorem nodeResult?_of_inert (i : Index) (config : ValidationConfig) (c : Context) :
    nodeResult? i config c n = none := by
  rcases exists_payload_of_inert hn with ⟨p, hp⟩ | ⟨p, hp⟩ <;>
    simp only [nodeResult?, Index.checkNode, hp]

end

/-! ## Lookups -/

variable {g : Graph}

theorem roots_strip (g : Graph) : g.strip.roots = g.roots :=
  filterMap_filter_inert fun n hn => by rw [traffic?_of_inert hn, Option.map_none]

theorem root_strip (g : Graph) : g.strip.root = g.root := by
  rw [root, root, roots_strip]

/-- The children of a node are the same but for the inert ones. -/
theorem children_strip (g : Graph) (id : String) :
    g.strip.index.children id = (g.index.children id).filter fun n => ¬n.Inert := by
  rw [children_index, children_index, ownedBy, ownedBy, strip, List.filter_comm]

section
variable (hids : (g.nodes.map (·.id)).Nodup)
include hids

/-- An id is found as before, unless its node is inert. -/
theorem resolve?_strip (id : String) :
    g.strip.resolve? id = (g.resolve? id).filter fun n => ¬n.Inert :=
  find?_filter_of_nodup _ hids id

/-- A traffic node and a segment lead to the same nodes but for the inert ones. -/
theorem targets_strip {n : Node} (hn : n ∈ g.nodes)
    (htype : n.type = .traffic ∨ n.type = .segment) :
    g.strip.index.targets n.id = (g.index.targets n.id).filter fun n => ¬n.Inert := by
  have hedges : g.strip.edgesFrom n.id = (g.edgesFrom n.id).filter fun e => g.Alive e := by
    rw [edgesFrom, edgesFrom, strip, List.filter_comm]
  rw [targets_index, targets_index, hedges, List.filterMap_filter, List.filter_filterMap]
  refine List.filterMap_congr fun e he => ?_
  have hsource : n.id = e.source := (of_decide_eq_true (List.mem_filter.1 he).2).symm
  have halive : g.Alive e ↔ ∃ m ∈ g.resolve? e.target, ¬m.Inert :=
    and_iff_right ⟨n, hn, hsource, htype⟩
  rw [resolve?_strip hids]
  cases hm : g.resolve? e.target with
  | none => simp
  | some m =>
    have halive : g.Alive e ↔ ¬m.Inert := by simpa [hm] using halive
    by_cases hinert : m.Inert <;> simp [halive, hinert, Option.filter]

/-! ## Validation -/

/-- No check looks at an inert node. -/
theorem checkNode_strip (config : ValidationConfig) (c : Context) {n : Node} (hn : n ∈ g.nodes) :
    g.strip.index.checkNode config c n = g.index.checkNode config c n := by
  refine checkNode_congr (fun htype => ?_) fun _ => ?_
  · rw [← routedVariants_index, ← routedVariants_index, Index.routedVariants,
      Index.routedVariants, targets_strip hids hn (.inr htype),
      filterMap_filter_inert fun _ => variant?_of_inert]
  · rw [← ownedVariants_index, ← ownedVariants_index, Index.ownedVariants, Index.ownedVariants,
      children_strip, filterMap_filter_inert fun _ => variant?_of_inert]

theorem validate_strip (config : ValidationConfig) (c : Context) :
    g.strip.validate config c = g.validate config c := by
  have hresult : ∀ n ∈ g.nodes,
      nodeResult? g.strip.index config c n = nodeResult? g.index config c n := fun n hn => by
    rw [nodeResult?, nodeResult?, checkNode_strip hids config c hn]
  rw [validate, validate, strip, List.filter_comm,
    filterMap_filter_inert fun _ hn => nodeResult?_of_inert hn ..]
  exact List.filterMap_congr fun n hn => hresult n (List.mem_filter.1 hn).1

/-- The report is the same without inert nodes and dead edges. -/
theorem report_strip (config : ValidationConfig) (c : Context) :
    g.strip.report config c = g.report config c := by
  have hcritical : g.strip.criticalFindings c = g.criticalFindings c := by
    rw [criticalFindings, criticalFindings, checkRoot, checkRoot, root_strip]
  rw [report, report, validate_strip hids, hcritical]

/-! ## Compilation -/

theorem ofSegment_strip {n : Node} (hn : n ∈ g.nodes) (htype : n.type = .segment) (s : Segment) :
    RoutedSegment.ofSegment g.strip.index n.id s = RoutedSegment.ofSegment g.index n.id s := by
  simp only [RoutedSegment.ofSegment, targets_strip hids hn (.inr htype),
    flatMap_filter_inert fun _ => ofNode_of_inert]

theorem nextTo_strip {n : Node} (hn : n ∈ g.nodes) (htype : n.type = .traffic) :
    RoutedSegment.nextTo g.strip.index n.id = RoutedSegment.nextTo g.index n.id := by
  rw [RoutedSegment.nextTo, RoutedSegment.nextTo, targets_strip hids hn (.inl htype),
    filterMap_filter_inert fun _ hm => by rw [segment?_of_inert hm, Option.map_none]]
  refine List.filterMap_congr fun m hm => ?_
  cases hs : m.segment? with
  | none => rfl
  | some s =>
    have htype : m.type = .segment := by
      rw [Node.type, Node.segment?_eq_some_iff.1 hs, Payload.type]
    rw [Option.map_some, Option.map_some,
      ofSegment_strip hids (mem_targets_index.1 hm).mem_nodes htype]

/-- So is the routing table. -/
theorem compile_strip (settings : Settings) :
    RoutingTable.compile g.strip settings = RoutingTable.compile g settings := by
  have hstrip := root_strip g
  cases hroot : g.root with
  | error e =>
    rw [hroot] at hstrip
    rw [RoutingTable.compile_of_root_error settings hroot,
      RoutingTable.compile_of_root_error settings hstrip]
  | ok r =>
    rw [hroot] at hstrip
    obtain ⟨n, hn, -, hid⟩ := exists_node_of_root hroot
    obtain ⟨hn, htype⟩ := mem_trafficNodes.1 (hn ▸ List.mem_singleton_self n)
    rw [RoutingTable.compile_of_root_ok settings hroot,
      RoutingTable.compile_of_root_ok settings hstrip, ← nextTo_index, ← nextTo_index, hid,
      nextTo_strip hids hn htype]

/-- Notes, forms and dead edges change neither the routing table, nor why there is none, nor
anything in the report. -/
theorem compile_and_report_strip :
    (∀ settings, RoutingTable.compile g.strip settings = RoutingTable.compile g settings) ∧
      ∀ config c, g.strip.report config c = g.report config c :=
  ⟨compile_strip hids, report_strip hids⟩

end

/-- `evenSplit` with a note that its segment owns, a form, and edges to the note, to nowhere, and
from the test. -/
def evenSplitWithNotes : Graph where
  nodes := ⟨"memo", some "visitors", .note ⟨"To be split anew."⟩⟩ ::
    ⟨"leads", none, .form .blank⟩ :: evenSplit.nodes
  edges := ⟨"e6", "visitors", "memo"⟩ :: ⟨"e7", "entry", "nowhere"⟩ :: ⟨"e8", "test", "left"⟩ ::
    evenSplit.edges

theorem compile_and_report_evenSplitWithNotes : evenSplitWithNotes.strip = evenSplit ∧
    RoutingTable.compile evenSplit .default = RoutingTable.compile evenSplitWithNotes .default ∧
    evenSplit.report .default evenSplitContext =
      evenSplitWithNotes.report .default evenSplitContext := by
  have hstrip : evenSplitWithNotes.strip = evenSplit := rfl
  obtain ⟨hcompile, hreport⟩ := compile_and_report_strip (g := evenSplitWithNotes) (by decide)
  rw [hstrip] at hcompile hreport
  exact ⟨hstrip, hcompile .default, hreport .default evenSplitContext⟩

end Graph
end CampaignRouting
