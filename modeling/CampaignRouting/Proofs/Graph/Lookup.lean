import CampaignRouting.Graph.Index
import Mathlib.Data.List.Basic
import Std.Data.HashMap.Lemmas

/-!
# Lookups in a graph

What the tables of a graph stand for: each lookup by table finds what a walk along the nodes or
the edges finds (`node?_index`, `outEdges_index`, `targets_index`, `children_index`). Nothing is
assumed of the graph; several nodes may have one id, and edges may lead nowhere. Statements about
graphs are made in terms of the walks.
-/

namespace CampaignRouting.Graph

/-- The node that an id stands for, the first that has it. -/
def resolve? (g : Graph) (id : String) : Option Node := g.nodes.find? (·.id = id)

/-- The edges that leave a node, in edge order. -/
def edgesFrom (g : Graph) (id : String) : List Edge := g.edges.filter (·.source = id)

/-- The nodes that a node owns, in node order. -/
def ownedBy (g : Graph) (id : String) : List Node := g.nodes.filter (·.parent = some id)

/-- The traffic nodes, in node order. -/
def trafficNodes (g : Graph) : List Node := g.nodes.filter (·.type = .traffic)

theorem mem_nodes_of_resolve? {g : Graph} {id : String} {n : Node} (h : g.resolve? id = some n) :
    n ∈ g.nodes := List.mem_of_find?_eq_some h

theorem resolve?_eq_none {g : Graph} {id : String} (hid : ∀ n ∈ g.nodes, n.id ≠ id) :
    g.resolve? id = none :=
  List.find?_eq_none.2 fun n hn => by simpa using hid n hn

/-- Where all ids differ, each stands for its node. -/
theorem resolve?_of_mem {g : Graph} {n : Node} (hids : (g.nodes.map (·.id)).Nodup)
    (hn : n ∈ g.nodes) : g.resolve? n.id = some n := by
  obtain ⟨before, after, hnodes⟩ := List.append_of_mem hn
  rw [hnodes, List.map_append, List.map_cons, List.perm_middle.nodup_iff] at hids
  have hbefore : before.find? (·.id = n.id) = none := List.find?_eq_none.2 fun m hm heq =>
    (List.nodup_cons.1 hids).1 (List.mem_append_left _
      (List.mem_map.2 ⟨m, hm, of_decide_eq_true heq⟩))
  rw [resolve?, hnodes, List.find?_append, hbefore, Option.none_or,
    List.find?_cons_of_pos (by simp)]

/-! ## Tables -/

theorem getD_file {α : Type} (key k : String) (a : α) (table : Std.HashMap String (List α)) :
    (file key a table).getD k [] =
      if key = k then a :: table.getD k [] else table.getD k [] := by
  rw [file, Std.HashMap.getD_insert]
  by_cases h : key = k
  · subst h; simp
  · simp [h]

/-- A table that is filled from the back lists what is filed under a key in order. -/
theorem getD_foldr_file {α : Type} (key : α → Option String) (k : String) (l : List α) :
    (l.foldr (fun a table => (key a).elim table fun k => file k a table) ∅).getD k [] =
      l.filter (key · = some k) := by
  induction l with
  | nil => simp
  | cons a l ih =>
    rw [List.foldr_cons, List.filter_cons]
    cases hk : key a with
    | none => simpa using ih
    | some k' =>
      rw [Option.elim_some, getD_file, ih]
      by_cases h : k' = k <;> simp [h]

/-- Of nodes with one id the first is found, as it is put into the table last. -/
theorem getElem?_foldr_insert (id : String) (nodes : List Node) :
    (nodes.foldr (fun n (table : Std.HashMap String Node) => table.insert n.id n) ∅)[id]? =
      nodes.find? (·.id = id) := by
  induction nodes with
  | nil => simp
  | cons n nodes ih =>
    rw [List.foldr_cons, Std.HashMap.getElem?_insert, ih, List.find?_cons]
    by_cases h : n.id = id <;> simp [h]

@[simp] theorem node?_index (g : Graph) (id : String) : g.index.node? id = g.resolve? id :=
  getElem?_foldr_insert id g.nodes

@[simp] theorem outEdges_index (g : Graph) (id : String) :
    g.index.outEdges id = g.edgesFrom id := by
  -- every edge has a source, so the optional key of the table is never absent
  have h := getD_foldr_file (fun e : Edge => some e.source) id g.edges
  simp only [Option.elim_some, Option.some.injEq] at h
  exact h

@[simp] theorem children_index (g : Graph) (id : String) :
    g.index.children id = g.ownedBy id :=
  getD_foldr_file Node.parent id g.nodes

@[simp] theorem targets_index (g : Graph) (id : String) :
    g.index.targets id = (g.edgesFrom id).filterMap (g.resolve? ·.target) := by
  rw [Index.targets, outEdges_index]
  exact List.filterMap_congr fun e _ => node?_index g e.target

/-! ## The entry point -/

theorem exists_traffic_of_mem_trafficNodes {g : Graph} {n : Node} (h : n ∈ g.trafficNodes) :
    ∃ t, n.payload = .traffic t := by
  have htype : n.type = .traffic := of_decide_eq_true (List.mem_filter.1 h).2
  cases hp : n.payload with
  | traffic t => exact ⟨t, rfl⟩
  | _ => simp [Node.type, Payload.type, hp] at htype

theorem mem_trafficNodes {g : Graph} {n : Node} :
    n ∈ g.trafficNodes ↔ n ∈ g.nodes ∧ n.type = .traffic := by
  simp [trafficNodes]

theorem roots_eq_filterMap (g : Graph) :
    g.roots = g.trafficNodes.filterMap fun n => n.traffic?.map fun t => ⟨n.id, t⟩ := by
  rw [roots, trafficNodes, List.filterMap_filter]
  refine List.filterMap_congr fun n _ => ?_
  cases h : n.payload <;> simp [Node.type, Payload.type, Node.traffic?, h]

theorem map_id_roots (g : Graph) : g.roots.map (·.id) = g.trafficNodes.map (·.id) := by
  rw [roots_eq_filterMap, List.map_filterMap, ← List.filterMap_eq_map]
  refine List.filterMap_congr fun n hn => ?_
  obtain ⟨t, ht⟩ := exists_traffic_of_mem_trafficNodes hn
  simp [Node.traffic?, ht]

/-- The entry point by the number of traffic nodes. -/
theorem root_of_trafficNodes (g : Graph) :
    match g.trafficNodes with
    | [] => g.root = .error .noTraffic
    | [n] => ∃ t, n.payload = .traffic t ∧ g.root = .ok ⟨n.id, t⟩
    | ns => g.root = .error (.severalTraffic (ns.map (·.id))) := by
  have hids := map_id_roots g
  have hroots := roots_eq_filterMap g
  match hn : g.trafficNodes with
  | [] => simp [root, hroots, hn]
  | [n] =>
    obtain ⟨t, ht⟩ := exists_traffic_of_mem_trafficNodes (g := g) (n := n) (by simp [hn])
    exact ⟨t, ht, by simp [root, hroots, hn, Node.traffic?, ht]⟩
  | n₁ :: n₂ :: ns =>
    rw [hn] at hids
    match hr : g.roots with
    | [] | [r] => simp [hr] at hids
    | r₁ :: r₂ :: rs =>
      rw [hr] at hids
      simp only [root, hr, hids]

/-- There is a root exactly if there is one traffic node. -/
theorem root_eq_ok_iff {g : Graph} : (∃ r, g.root = .ok r) ↔ ∃ n, g.trafficNodes = [n] := by
  have h := root_of_trafficNodes g
  match hn : g.trafficNodes with
  | [] => simp_all
  | [n] =>
    rw [hn] at h
    obtain ⟨t, _, hroot⟩ := h
    simp [hroot]
  | n₁ :: n₂ :: ns => simp_all

theorem exists_node_of_root {g : Graph} {r : Root} (h : g.root = .ok r) :
    ∃ n, g.trafficNodes = [n] ∧ n.payload = .traffic r.traffic ∧ r.id = n.id := by
  have hroot := g.root_of_trafficNodes
  obtain ⟨n, hn⟩ := root_eq_ok_iff.1 ⟨r, h⟩
  rw [hn] at hroot
  obtain ⟨t, ht, hroot⟩ := hroot
  cases h.symm.trans hroot
  exact ⟨n, hn, ht, rfl⟩

/-- The tables find what walks along the graph find. An id stands for the first node that has it.
The edges that leave a node and the nodes that it owns are listed in the order of the graph, each as
often as it stands there, and every such edge leads to the node that its target stands for, if there
is one. The entry point is the only traffic node; if there are several, all are named in order. -/
theorem index_eq_walks (g : Graph) (id : String) :
    g.index.node? id = g.nodes.find? (·.id = id) ∧
    g.index.outEdges id = g.edges.filter (·.source = id) ∧
    g.index.children id = g.nodes.filter (·.parent = some id) ∧
    g.index.targets id =
      (g.edges.filter (·.source = id)).filterMap (fun e => g.nodes.find? (·.id = e.target)) ∧
    match g.nodes.filter (·.type = .traffic) with
    | [] => g.root = .error .noTraffic
    | [n] => ∃ t, n.payload = .traffic t ∧ g.root = .ok ⟨n.id, t⟩
    | ns => g.root = .error (.severalTraffic (ns.map (·.id))) :=
  ⟨node?_index g id, outEdges_index g id, children_index g id, targets_index g id,
    root_of_trafficNodes g⟩

end CampaignRouting.Graph
