import CampaignRouting.Proofs.Graph.Lookup
import CampaignRouting.Proofs.Routing.Priority

/-!
# Routing tables as projections

What compilation makes of a graph, said edge by edge and without tables: `projection` lists a
segment for each edge from the entry point that leads to one, with the destinations that the edges
from there lead to. A routing table holds this list, ordered by priority (`compile_projection`).
Node by node, it is made of those that are `Routed`, and of all of them (`mem_segments_of_compile`,
`mem_variants_of_compile`).
-/

namespace CampaignRouting

@[simp] theorem Node.segment?_eq_some_iff {n : Node} {p : Segment} :
    n.segment? = some p ↔ n.payload = .segment p := by
  unfold segment?
  split <;> simp_all

@[simp] theorem Node.variant?_eq_some_iff {n : Node} {p : Variant} :
    n.variant? = some p ↔ n.payload = .variant p := by
  unfold variant?
  split <;> simp_all

/-- A variant contributes itself, and a test its arms. -/
theorem RoutedVariant.mem_ofNode {n : Node} {v : RoutedVariant} :
    v ∈ ofNode n ↔ (∃ p, n.payload = .variant p ∧ ofVariant n.id p = v) ∨
      ∃ p, n.payload = .abTest p ∧ ∃ a ∈ p.arms, ofArm n.id a = v := by
  unfold ofNode
  cases n.payload <;> simp [eq_comm]

namespace Graph

/-- The destinations that an edge from a segment leads to: a variant by itself, or the arms of a
test. -/
def destinations (g : Graph) (e : Edge) : List RoutedVariant :=
  match g.resolve? e.target with
  | some ⟨id, _, .variant v⟩ =>
    [{ id, name := v.title, page := v.page, share := v.share, isControl := false,
       experiment := none }]
  | some ⟨test, _, .abTest t⟩ =>
    t.arms.map fun a =>
      { id := a.id, name := a.name, page := a.page, share := some a.allocation,
        isControl := a.isControl, experiment := some test }
  | _ => []

/-- The segment that an edge from the entry point leads to, if it leads to one. -/
def segmentAt? (g : Graph) (e : Edge) : Option RoutedSegment :=
  match g.resolve? e.target with
  | some ⟨id, _, .segment s⟩ =>
    some {
      id
      title := s.title
      description := s.description
      priority := s.priority
      primaryPage := s.primaryPage
      rules := s.rules
      translationMode := s.translationMode
      translations := s.translations
      variants := (g.edgesFrom id).flatMap g.destinations }
  | _ => none

/-- The segments that the edges from a node lead to, in edge order. -/
def projection (g : Graph) (id : String) : List RoutedSegment :=
  (g.edgesFrom id).filterMap g.segmentAt?

theorem ofNode_resolve? (g : Graph) (e : Edge) :
    (g.resolve? e.target).toList.flatMap RoutedVariant.ofNode = g.destinations e := by
  unfold destinations
  match g.resolve? e.target with
  | none => rfl
  | some ⟨id, _, p⟩ =>
    cases p with
    | variant | abTest => exact List.append_nil _
    | traffic | segment | note | form => rfl

theorem flatMap_ofNode_targets (g : Graph) (id : String) :
    (g.index.targets id).flatMap RoutedVariant.ofNode =
      (g.edgesFrom id).flatMap g.destinations := by
  rw [targets_index, List.filterMap_eq_flatMap_toList, List.flatMap_assoc]
  exact List.flatMap_congr fun e _ => ofNode_resolve? g e

theorem variants_ofSegment (g : Graph) (id : String) (s : Segment) :
    (RoutedSegment.ofSegment g.index id s).variants = (g.edgesFrom id).flatMap g.destinations :=
  flatMap_ofNode_targets g id

theorem segment?_resolve? (g : Graph) (e : Edge) :
    ((g.resolve? e.target).bind fun n => n.segment?.map (RoutedSegment.ofSegment g.index n.id)) =
      g.segmentAt? e := by
  unfold segmentAt?
  match g.resolve? e.target with
  | none => rfl
  | some ⟨id, _, p⟩ =>
    cases p with
    | segment s =>
      have h := flatMap_ofNode_targets g id
      simp only [Node.segment?, RoutedSegment.ofSegment, Option.bind_some, Option.map_some, h]
    | traffic | abTest | variant | note | form => rfl

/-- The tables of a graph give the segments that its edges lead to, in order. -/
theorem nextTo_index (g : Graph) (id : String) :
    RoutedSegment.nextTo g.index id = g.projection id := by
  rw [RoutedSegment.nextTo, targets_index, List.filterMap_filterMap, projection]
  exact List.filterMap_congr fun e _ => segment?_resolve? g e

/-! ## The nodes that are routed -/

/-- An edge leads from the nodes with an id to a node. -/
def Leads (g : Graph) (id : String) (n : Node) : Prop :=
  ∃ e ∈ g.edgesFrom id, g.resolve? e.target = some n

/-- The nodes that a routing table is made of. -/
inductive Routed (g : Graph) : Node → Prop
  | entry {n : Node} (h : g.trafficNodes = [n]) : Routed g n
  | segment {n m : Node} (hn : g.trafficNodes = [n]) (h : g.Leads n.id m)
      (hm : m.type = .segment) : Routed g m
  /-- A variant, or a test that has arms. -/
  | destination {m n : Node} (hm : Routed g m) (hsegment : m.type = .segment)
      (h : g.Leads m.id n) (hn : RoutedVariant.ofNode n ≠ []) : Routed g n

variable {g : Graph}

theorem Leads.mem_nodes {id : String} {n : Node} (h : g.Leads id n) : n ∈ g.nodes := by
  obtain ⟨e, _, hn⟩ := h
  exact mem_nodes_of_resolve? hn

theorem Routed.mem_nodes {n : Node} (h : g.Routed n) : n ∈ g.nodes := by
  cases h with
  | entry h => exact (List.mem_filter.1 (h ▸ List.mem_singleton_self n)).1
  | segment _ h _ | destination _ _ h _ => exact h.mem_nodes

theorem mem_targets_index {id : String} {n : Node} : n ∈ g.index.targets id ↔ g.Leads id n := by
  rw [targets_index, List.mem_filterMap, Leads]

theorem mem_projection {id : String} {s : RoutedSegment} :
    s ∈ g.projection id ↔ ∃ n, g.Leads id n ∧
      ∃ p, n.payload = .segment p ∧ RoutedSegment.ofSegment g.index n.id p = s := by
  simp only [← nextTo_index, RoutedSegment.nextTo, List.mem_filterMap, mem_targets_index,
    Option.map_eq_some_iff, Node.segment?_eq_some_iff]

theorem mem_variants_ofSegment {id : String} {p : Segment} {v : RoutedVariant} :
    v ∈ (RoutedSegment.ofSegment g.index id p).variants ↔
      ∃ n, g.Leads id n ∧ v ∈ RoutedVariant.ofNode n := by
  simp only [RoutedSegment.ofSegment, List.mem_flatMap, mem_targets_index]

end Graph

namespace RoutingTable

variable {g : Graph} (settings : Settings)

theorem compile_of_root_error {e : StructureError} (h : g.root = .error e) :
    compile g settings = .error e := by
  rw [compile, h]
  rfl

theorem compile_of_root_ok {r : Root} (h : g.root = .ok r) :
    compile g settings = .ok {
      defaultPage := r.traffic.defaultPage
      segments := byPriority (g.projection r.id)
      sessionDuration := settings.sessionDuration
      attributionPeriod := settings.attributionPeriod
      primaryGoal := settings.primaryGoal
      customGoals := settings.customGoals } := by
  rw [compile, h, ← Graph.nextTo_index]
  rfl

/-- Compilation fails for want of a single entry point and for nothing else. -/
theorem exists_compile_error_iff :
    (∃ e, compile g settings = .error e) ↔ g.trafficNodes.length ≠ 1 := by
  rw [ne_eq, List.length_eq_one_iff, ← Graph.root_eq_ok_iff]
  cases h : g.root with
  | error e => simp [compile_of_root_error settings h]
  | ok r => simp [compile_of_root_ok settings h]

/-- The segments of a list in the order in which the router tries them: highest priority first,
and those of one priority in the order of the list. -/
structure Prioritised (list segments : List RoutedSegment) : Prop where
  perm : segments.Perm list
  descending : segments.Pairwise fun s t => TotalLE t.priority s.priority
  stable : ∀ p, segments.filter (·.priority = p) = list.filter (·.priority = p)

theorem prioritised_byPriority (list : List RoutedSegment) : Prioritised list (byPriority list) :=
  ⟨byPriority_perm, byPriority_descending, byPriority_stable⟩

/-- No segment stands before one of greater priority. -/
theorem Prioritised.not_lt {list segments : List RoutedSegment} (h : Prioritised list segments) :
    segments.Pairwise fun s t => ¬s.priority < t.priority := h.descending.imp TotalLE.not_lt

/-- The routing table of a campaign that visitors enter at `n`. -/
structure Projects (g : Graph) (settings : Settings) (n : Node) (t : RoutingTable) : Prop where
  entry : n.payload = .traffic ⟨t.defaultPage⟩
  segments : Prioritised (g.projection n.id) t.segments
  settings : settings = ⟨t.sessionDuration, t.attributionPeriod, t.primaryGoal, t.customGoals⟩

/-- A graph compiles to its projection if visitors enter it in one place, and not at all if not. -/
theorem compile_projection (g : Graph) (settings : Settings) :
    ((∃ e, compile g settings = .error e) ↔ g.trafficNodes.length ≠ 1) ∧
    match g.trafficNodes with
    | [] => compile g settings = .error .noTraffic
    | [n] => ∃ t, compile g settings = .ok t ∧ Projects g settings n t
    | ns => compile g settings = .error (.severalTraffic (ns.map (·.id))) := by
  refine ⟨exists_compile_error_iff settings, ?_⟩
  have hroot := g.root_of_trafficNodes
  match hn : g.trafficNodes with
  | [] =>
    rw [hn] at hroot
    exact compile_of_root_error settings hroot
  | [n] =>
    rw [hn] at hroot
    obtain ⟨traffic, hpayload, hroot⟩ := hroot
    exact ⟨_, compile_of_root_ok settings hroot, hpayload, prioritised_byPriority _, rfl⟩
  | n₁ :: n₂ :: ns =>
    rw [hn] at hroot
    exact compile_of_root_error settings hroot

/-! ## Where the parts of a table come from -/

section Parts

variable {settings} {t : RoutingTable} (h : compile g settings = .ok t)
include h

/-- A table comes from the one traffic node of its graph. -/
theorem entry_of_compile :
    ∃ n, g.trafficNodes = [n] ∧ n.payload = .traffic ⟨t.defaultPage⟩ ∧
      t.segments = byPriority (g.projection n.id) := by
  cases hroot : g.root with
  | error e => cases (compile_of_root_error settings hroot).symm.trans h
  | ok r =>
    cases (compile_of_root_ok settings hroot).symm.trans h
    obtain ⟨n, hn, hpayload, hid⟩ := Graph.exists_node_of_root hroot
    exact ⟨n, hn, hpayload, hid ▸ rfl⟩

/-- The segments of a table are those of the segment nodes that are routed. -/
theorem mem_segments_of_compile {s : RoutedSegment} :
    s ∈ t.segments ↔ ∃ n, g.Routed n ∧
      ∃ p, n.payload = .segment p ∧ RoutedSegment.ofSegment g.index n.id p = s := by
  obtain ⟨root, hroot, hentry, hsegments⟩ := entry_of_compile h
  rw [hsegments, mem_byPriority, Graph.mem_projection]
  constructor
  · rintro ⟨n, hn, p, hp, hs⟩
    exact ⟨n, .segment hroot hn (by rw [Node.type, hp]; rfl), p, hp, hs⟩
  · rintro ⟨n, hn, p, hp, hs⟩
    refine ⟨n, ?_, p, hp, hs⟩
    cases hn with
    | entry hn =>
      cases hroot.symm.trans hn
      cases hentry.symm.trans hp
    | segment hn h _ =>
      cases hroot.symm.trans hn
      exact h
    | destination _ _ _ hn => exact absurd (by rw [RoutedVariant.ofNode, hp]) hn

/-- The variants of a table are those of the variants and tests that are routed. -/
theorem mem_variants_of_compile {v : RoutedVariant} :
    (∃ s ∈ t.segments, v ∈ s.variants) ↔ ∃ n, g.Routed n ∧ v ∈ RoutedVariant.ofNode n := by
  have htype (n : Node) : n.type = .segment ↔ ∃ p, n.payload = .segment p := by
    cases hp : n.payload <;> simp [Node.type, Payload.type, hp]
  constructor
  · rintro ⟨s, hs, hv⟩
    obtain ⟨m, hm, p, hp, rfl⟩ := (mem_segments_of_compile h).1 hs
    obtain ⟨n, hn, hv⟩ := Graph.mem_variants_ofSegment.1 hv
    exact ⟨n, .destination hm ((htype m).2 ⟨p, hp⟩) hn (List.ne_nil_of_mem hv), hv⟩
  · rintro ⟨n, hn, hv⟩
    cases hn with
    | entry hn =>
      have hmem : n ∈ g.trafficNodes := hn ▸ List.mem_singleton_self n
      obtain ⟨traffic, hp⟩ := Graph.exists_traffic_of_mem_trafficNodes hmem
      simp [RoutedVariant.ofNode, hp] at hv
    | segment _ _ hn =>
      obtain ⟨p, hp⟩ := (htype n).1 hn
      simp [RoutedVariant.ofNode, hp] at hv
    | destination hm hsegment hn _ =>
      obtain ⟨p, hp⟩ := (htype _).1 hsegment
      exact ⟨_, (mem_segments_of_compile h).2 ⟨_, hm, p, hp, rfl⟩,
        Graph.mem_variants_ofSegment.2 ⟨n, hn, hv⟩⟩

end Parts

end RoutingTable
end CampaignRouting
