import CampaignRouting.Proofs.Routing.Projection
import CampaignRouting.Proofs.Validation.Decision
import Mathlib.Logic.Relation

/-!
# Edits that routing does not see

Compilation follows the edges from the entry point and from the segments next to it, and looks up
the nodes that these lead to. `Graph.Edit` lists what may be done to all else, and to the order in
which a graph is stored. No number of such edits changes the routing table
(`RoutingTable.compile_edited`). One edit leaves the graph alike in all that is looked at
(`Graph.Edit.routesAlike`), and graphs that are alike have one projection
(`Graph.RoutesAlike.projection_eq`).
-/

namespace CampaignRouting

theorem eq_of_perm_of_length_le_one {α : Type} {l l' : List α} (hperm : l.Perm l')
    (hlength : l'.length ≤ 1) : l = l' := by
  match l', hlength with
  | [], _ => exact List.perm_nil.1 hperm
  | [a], _ => exact List.perm_singleton.1 hperm

/-- The node without its owner. -/
def Node.disowned (n : Node) : Node := { n with parent := none }

namespace Graph

/-- The nodes with an id, in node order. -/
def named (g : Graph) (id : String) : List Node := g.nodes.filter (·.id = id)

/-- The edges from this id are followed: it is that of the entry point, or of a segment next to
it. -/
inductive Followed (g : Graph) : String → Prop
  | entry {r : Root} (hr : g.root = .ok r) : Followed g r.id
  | segment {r : Root} {n : Node} (hr : g.root = .ok r) (h : g.Leads r.id n)
      (hn : n.type = .segment) : Followed g n.id

/-- An edge that is followed leads to this id. -/
def Sought (g : Graph) (id : String) : Prop := ∃ e ∈ g.edges, g.Followed e.source ∧ e.target = id

/-- One change to a graph that leaves alone which nodes are sought, and where they lead. -/
inductive Edit (g : Graph) : Graph → Prop
  | reorderNodes {nodes : List Node} (h : nodes.Perm g.nodes) : Edit g { g with nodes }
  /-- The edges from each node stay in order. -/
  | reorderEdges {edges : List Edge} (hperm : edges.Perm g.edges)
      (h : ∀ id, edges.filter (·.source = id) = g.edgesFrom id) : Edit g { g with edges }
  | addNode {before after : List Node} {n : Node} (hg : g.nodes = before ++ after)
      (htype : n.type ≠ .traffic) (hn : ¬g.Sought n.id) :
      Edit g { g with nodes := before ++ n :: after }
  | deleteNode {before after : List Node} {n : Node} (hg : g.nodes = before ++ n :: after)
      (htype : n.type ≠ .traffic) (hn : ¬g.Sought n.id) : Edit g { g with nodes := before ++ after }
  | changeParent {before after : List Node} {n : Node} (hg : g.nodes = before ++ n :: after)
      (parent : Option String) : Edit g { g with nodes := before ++ { n with parent } :: after }
  | addEdge {before after : List Edge} {e : Edge} (hg : g.edges = before ++ after)
      (he : ¬g.Followed e.source) : Edit g { g with edges := before ++ e :: after }
  | deleteEdge {before after : List Edge} {e : Edge} (hg : g.edges = before ++ e :: after)
      (he : ¬g.Followed e.source) : Edit g { g with edges := before ++ after }

/-- Visitors enter both graphs in one place, and what is followed and sought in the first is the
same in the second. -/
structure RoutesAlike (g h : Graph) : Prop where
  root {r : Root} (hr : g.root = .ok r) : h.root = .ok r
  edges {id : String} (hid : g.Followed id) : h.edgesFrom id = g.edgesFrom id
  nodes {id : String} (hid : g.Sought id) :
    (h.named id).map Node.disowned = (g.named id).map Node.disowned

variable {g h : Graph} {r : Root}

theorem resolve?_eq_head?_named (g : Graph) (id : String) : g.resolve? id = (g.named id).head? :=
  (List.head?_filter ..).symm

theorem sought_of_mem_edgesFrom {id : String} (hid : g.Followed id) {e : Edge}
    (he : e ∈ g.edgesFrom id) : g.Sought e.target := by
  obtain ⟨he, hsource⟩ := List.mem_filter.1 he
  exact ⟨e, he, of_decide_eq_true hsource ▸ hid, rfl⟩

/-- Edges are followed from the entry point and from segments, and from nowhere else. -/
theorem Followed.exists_node {id : String} (hid : g.Followed id) :
    ∃ n ∈ g.nodes, n.id = id ∧ (n.type = .traffic ∨ n.type = .segment) := by
  cases hid with
  | entry hr =>
    obtain ⟨n, hn, -, hid⟩ := exists_node_of_root hr
    obtain ⟨hn, htype⟩ := mem_trafficNodes.1 (hn ▸ List.mem_singleton_self n)
    exact ⟨n, hn, hid.symm, .inl htype⟩
  | segment _ hleads htype => exact ⟨_, hleads.mem_nodes, rfl, .inr htype⟩

/-! ## Graphs that are alike -/

namespace RoutesAlike

variable (halike : RoutesAlike g h)
include halike

theorem resolve? {id : String} (hid : g.Sought id) :
    (h.resolve? id).map Node.disowned = (g.resolve? id).map Node.disowned := by
  rw [resolve?_eq_head?_named, resolve?_eq_head?_named, ← List.head?_map, ← List.head?_map,
    halike.nodes hid]

/-- Where a sought id leads, but for the owner of the node. -/
theorem resolve?_eq_some {id : String} (hid : g.Sought id) {n : Node}
    (hn : h.resolve? id = some n) :
    ∃ m, g.resolve? id = some m ∧ m.id = n.id ∧ m.payload = n.payload := by
  have hresolve := halike.resolve? hid
  rw [hn, Option.map_some] at hresolve
  obtain ⟨m, hm, hmn⟩ := Option.map_eq_some_iff.1 hresolve.symm
  have hid : m.disowned.id = n.disowned.id := by rw [hmn]
  have hpayload : m.disowned.payload = n.disowned.payload := by rw [hmn]
  exact ⟨m, hm, hid, hpayload⟩

theorem followed (hr : g.root = .ok r) {id : String} (hid : h.Followed id) : g.Followed id := by
  cases hid with
  | entry hr' =>
    cases (halike.root hr).symm.trans hr'
    exact .entry hr
  | segment hr' hleads hn =>
    cases (halike.root hr).symm.trans hr'
    obtain ⟨e, he, hresolve⟩ := hleads
    rw [halike.edges (.entry hr)] at he
    obtain ⟨m, hm, hid, hpayload⟩ :=
      halike.resolve?_eq_some (sought_of_mem_edgesFrom (.entry hr) he) hresolve
    rw [← hid]
    exact .segment hr ⟨e, he, hm⟩ (by rw [← hn, Node.type, Node.type, hpayload])

theorem sought (hr : g.root = .ok r) {id : String} (hid : h.Sought id) : g.Sought id := by
  obtain ⟨e, he, hsource, rfl⟩ := hid
  have hsource := halike.followed hr hsource
  have he : e ∈ h.edgesFrom e.source := List.mem_filter.2 ⟨he, by simp⟩
  exact sought_of_mem_edgesFrom hsource (halike.edges hsource ▸ he)

/-- An edge that is followed leads to the same destinations. -/
theorem destinations_eq {e : Edge} (he : g.Sought e.target) :
    h.destinations e = g.destinations e := by
  -- what a node contributes does not depend on its owner
  have hdisowned (o : Option Node) : o.toList.flatMap RoutedVariant.ofNode =
      (o.map Node.disowned).toList.flatMap RoutedVariant.ofNode := by
    cases o <;> rfl
  rw [← ofNode_resolve?, ← ofNode_resolve?, hdisowned, halike.resolve? he, ← hdisowned]

theorem ofSegment_eq {id : String} (hid : g.Followed id) (s : Segment) :
    RoutedSegment.ofSegment h.index id s = RoutedSegment.ofSegment g.index id s := by
  have hvariants : (h.edgesFrom id).flatMap h.destinations =
      (g.edgesFrom id).flatMap g.destinations := by
    rw [halike.edges hid]
    exact List.flatMap_congr fun e he => halike.destinations_eq (sought_of_mem_edgesFrom hid he)
  simp only [RoutedSegment.ofSegment, flatMap_ofNode_targets, hvariants]

theorem segmentAt?_eq (hr : g.root = .ok r) {e : Edge} (he : e ∈ g.edgesFrom r.id) :
    h.segmentAt? e = g.segmentAt? e := by
  have hsought := sought_of_mem_edgesFrom (.entry hr) he
  rw [← segment?_resolve?, ← segment?_resolve?]
  cases hn : h.resolve? e.target with
  | none =>
    have hnone := halike.resolve? hsought
    rw [hn, Option.map_none, eq_comm, Option.map_eq_none_iff] at hnone
    rw [hnone]
    rfl
  | some n =>
    obtain ⟨m, hm, hid, hpayload⟩ := halike.resolve?_eq_some hsought hn
    have hsegment : m.segment? = n.segment? := by rw [Node.segment?, Node.segment?, hpayload]
    rw [hm, Option.bind_some, Option.bind_some, hsegment]
    cases hs : n.segment? with
    | none => rfl
    | some s =>
      have hm' : m.type = .segment := by
        rw [Node.type, hpayload, Node.segment?_eq_some_iff.1 hs]
        rfl
      rw [Option.map_some, Option.map_some, ← hid,
        halike.ofSegment_eq (.segment hr ⟨e, he, hm⟩ hm')]

/-- What is compiled is the same, as it looks at nothing that the edit has changed. -/
theorem projection_eq (hr : g.root = .ok r) : h.projection r.id = g.projection r.id := by
  rw [projection, projection, halike.edges (.entry hr)]
  exact List.filterMap_congr fun e he => halike.segmentAt?_eq hr he

end RoutesAlike

/-! ## One edit -/

section
variable {nodes before after : List Node} {n : Node} {edges : List Edge} {e : Edge} {id : String}

/-- The only entry point does not hang on the order of the nodes. -/
theorem root_of_perm (hperm : nodes.Perm g.nodes) (hr : g.root = .ok r) :
    root { g with nodes } = .ok r := by
  have hroots : g.roots = [r] := by
    unfold root at hr
    split at hr <;> cases hr
    assumption
  have hperm : (roots { g with nodes }).Perm [r] := hroots ▸ hperm.filterMap _
  simp only [root, List.perm_singleton.1 hperm]

theorem root_append_cons (hn : n.type ≠ .traffic) :
    root ⟨before ++ n :: after, edges⟩ = root ⟨before ++ after, edges⟩ := by
  have htraffic : n.traffic? = none := by
    unfold Node.traffic?
    split
    · next hp => exact absurd (by rw [Node.type, hp]; rfl) hn
    · rfl
  simp [root, roots, htraffic]

theorem root_changeParent (parent : Option String) :
    root ⟨before ++ { n with parent } :: after, edges⟩ = root ⟨before ++ n :: after, edges⟩ := by
  simp only [root, roots, List.filterMap_append, List.filterMap_cons]
  rfl

theorem named_append_cons (hn : n.id ≠ id) :
    named ⟨before ++ n :: after, edges⟩ id = named ⟨before ++ after, edges⟩ id := by
  simp [named, hn]

theorem map_disowned_named_changeParent (parent : Option String) :
    (named ⟨before ++ { n with parent } :: after, edges⟩ id).map Node.disowned =
      (named ⟨before ++ n :: after, edges⟩ id).map Node.disowned := by
  by_cases hid : n.id = id <;> simp [named, hid, Node.disowned]

theorem edgesFrom_append_cons {before after : List Edge} (he : e.source ≠ id) :
    edgesFrom ⟨nodes, before ++ e :: after⟩ id = edgesFrom ⟨nodes, before ++ after⟩ id := by
  simp [edgesFrom, he]

end

/-- An edit leaves alone all that is looked at, if no two nodes have an id that is sought. -/
theorem Edit.routesAlike (hedit : Edit g h)
    (hnamed : ∀ id, g.Sought id → (g.named id).length ≤ 1) : RoutesAlike g h := by
  have hne {p : String → Prop} {a b : String} (ha : ¬p a) (hb : p b) : a ≠ b :=
    fun hab => ha (hab ▸ hb)
  obtain ⟨nodes, edges⟩ := g
  cases hedit with
  | reorderNodes hperm =>
    exact ⟨root_of_perm hperm, fun _ => rfl,
      fun hid => congrArg _ (eq_of_perm_of_length_le_one (hperm.filter _) (hnamed _ hid))⟩
  | reorderEdges _ hedges => exact ⟨id, fun _ => hedges _, fun _ => rfl⟩
  | addNode hg htype hn =>
    cases hg
    exact ⟨(root_append_cons htype).trans, fun _ => rfl,
      fun hid => congrArg _ (named_append_cons (hne hn hid))⟩
  | deleteNode hg htype hn =>
    cases hg
    exact ⟨(root_append_cons htype).symm.trans, fun _ => rfl,
      fun hid => congrArg _ (named_append_cons (hne hn hid)).symm⟩
  | changeParent hg parent =>
    cases hg
    exact ⟨(root_changeParent parent).trans, fun _ => rfl,
      fun _ => map_disowned_named_changeParent parent⟩
  | addEdge hg he =>
    cases hg
    exact ⟨id, fun hid => edgesFrom_append_cons (hne he hid), fun _ => rfl⟩
  | deleteEdge hg he =>
    cases hg
    exact ⟨id, fun hid => (edgesFrom_append_cons (hne he hid)).symm, fun _ => rfl⟩

/-! ## Any number of edits -/

/-- The entry point and its projection stay as they are. The ids that are sought keep to one node
each, so the nodes may be reordered at any point. -/
theorem root_and_projection_of_edits (hedits : Relation.ReflTransGen Edit g h)
    (hnamed : ∀ id, g.Sought id → (g.named id).length ≤ 1) (hr : g.root = .ok r) :
    h.root = .ok r ∧ h.projection r.id = g.projection r.id := by
  induction hedits using Relation.ReflTransGen.head_induction_on with
  | refl => exact ⟨hr, rfl⟩
  | head hedit _ ih =>
    have halike := hedit.routesAlike hnamed
    obtain ⟨hroot, hprojection⟩ := ih (fun id hid => by
      have hid := halike.sought hr hid
      rw [← List.length_map (f := Node.disowned), halike.nodes hid, List.length_map]
      exact hnamed id hid) (halike.root hr)
    exact ⟨hroot, hprojection.trans (halike.projection_eq hr)⟩

theorem length_named_le_one (hids : (g.nodes.map (·.id)).Nodup) (id : String) :
    (g.named id).length ≤ 1 := by
  have hcount := List.nodup_iff_count_le_one.1 hids id
  rwa [List.count, List.countP_map, List.countP_eq_length_filter] at hcount

end Graph

namespace RoutingTable

variable {g h : Graph}

/-- A campaign that is edited where routing does not look has the routing table that it had. -/
theorem compile_edited (hids : (g.nodes.map (·.id)).Nodup) (hroot : ∃ n, g.trafficNodes = [n])
    (hedits : Relation.ReflTransGen Graph.Edit g h) (settings : Settings) :
    ∃ t, compile g settings = .ok t ∧ compile h settings = .ok t ∧
      (compile h settings).map toText = (compile g settings).map toText := by
  obtain ⟨r, hr⟩ := Graph.root_eq_ok_iff.2 hroot
  obtain ⟨hr', hprojection⟩ :=
    Graph.root_and_projection_of_edits hedits (fun id _ => Graph.length_named_le_one hids id) hr
  have hg := compile_of_root_ok settings hr
  have hh := compile_of_root_ok settings hr'
  rw [hprojection] at hh
  exact ⟨_, hg, hh, by rw [hg, hh]⟩

end RoutingTable

/-! ## A campaign that is edited -/

/-- `evenSplit`, stored in another order. The test no longer owns a variant, and has an edge to a
note. -/
def Graph.evenSplitWithMemo : Graph where
  nodes := [
    ⟨"memo", none, .note ⟨"To be split anew."⟩⟩,
    ⟨"test", none, .abTest { AbTest.blank with primaryMetric := some "sales" }⟩,
    ⟨"right", some "test", .variant ⟨"Right", some "sale", some 50.0⟩⟩,
    ⟨"left", none, .variant ⟨"Left", some "home", some 50.0⟩⟩,
    ⟨"visitors", none, .segment { Segment.blank with primaryPage := some "home" }⟩,
    ⟨"entry", none, .traffic ⟨some "home"⟩⟩]
  edges := [
    ⟨"e6", "test", "memo"⟩, ⟨"e3", "visitors", "left"⟩, ⟨"e4", "visitors", "right"⟩,
    ⟨"e1", "entry", "visitors"⟩, ⟨"e2", "entry", "visitors"⟩, ⟨"e5", "visitors", "test"⟩]

theorem RoutingTable.compile_edited_evenSplit :
    ∃ t, compile .evenSplit .default = .ok t ∧ compile .evenSplitWithMemo .default = .ok t := by
  have hmemo : ¬Graph.evenSplit.Sought "memo" := fun ⟨e, he, _, htarget⟩ =>
    absurd htarget ((by decide : ∀ e ∈ Graph.evenSplit.edges, e.target ≠ "memo") e he)
  have hedits : Relation.ReflTransGen Graph.Edit .evenSplit .evenSplitWithMemo := by
    refine .head (.addNode (n := ⟨"memo", none, .note ⟨"To be split anew."⟩⟩)
      (show _ = [] ++ Graph.evenSplit.nodes from rfl) nofun hmemo) ?_
    refine .head (.changeParent (show _ = [_, _, _] ++ _ :: _ from rfl) none) ?_
    refine .head (.reorderNodes ((List.reverse_perm _).cons _)) ?_
    refine .head (.addEdge (e := ⟨"e6", "test", "memo"⟩)
      (show _ = [] ++ Graph.evenSplit.edges from rfl) fun htest => ?_) ?_
    · obtain ⟨n, hn, hid, htype⟩ := htest.exists_node
      have hnodes : ∀ n ∈ Graph.evenSplitWithMemo.nodes, n.id = "test" →
          ¬(n.type = .traffic ∨ n.type = .segment) := by decide
      exact hnodes n hn hid htype
    refine .single (.reorderEdges (by decide) fun id => ?_)
    by_cases htest : id = "test"
    · subst htest
      decide
    by_cases hvisitors : id = "visitors"
    · subst hvisitors
      decide
    by_cases hentry : id = "entry"
    · subst hentry
      decide
    simp [Graph.edgesFrom, Graph.evenSplit, Ne.symm htest, Ne.symm hvisitors, Ne.symm hentry]
  obtain ⟨t, ht, ht', -⟩ := compile_edited (by decide) ⟨_, rfl⟩ hedits .default
  exact ⟨t, ht, ht'⟩

end CampaignRouting
