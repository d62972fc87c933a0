import CampaignRouting.Proofs.Graph.RulePlace
import CampaignRouting.Proofs.Json.Depth
import CampaignRouting.Proofs.Json.Integer
import CampaignRouting.Proofs.Json.Path
import CampaignRouting.Proofs.Routing.Projection

/-!
# Values of rules on their way to the router

The value of a rule is written as the JSON value that it was read from, in the document of the graph
and in the routing table (`Graph.Carries`). All that is not an operand is refused
(`Graph.rule_values_carried`), in the name of its segment if it is not nested too deep for a text.
-/

namespace CampaignRouting

open Json (Codec Step Tree)

/-! ## Where values are written -/

/-- The way to the value of rule `j`, from what has the rules. -/
def Rule.valuePath (j : Nat) : List Step := [.key "rules", .item j, .key "value"]

def Graph.valuePath (i j : Nat) : List Step :=
  .key "nodes" :: .item i :: .key "data" :: Rule.valuePath j

def RoutingTable.valuePath (k j : Nat) : List Step :=
  .key "segments" :: .item k :: Rule.valuePath j

/-- Both codecs of rules write the value alike. -/
theorem Rule.write_at? {v : Json} {c : Codec Rule} {rules : List Rule} {j : Nat} {r : Rule}
    (hrules : v.step? (.key "rules") = some (c.list.write rules))
    (hvalue : ∀ r, (c.write r).step? (.key "value") = some (RuleValue.codec.option.write r.value))
    (h : rules[j]? = some r) :
    v.at? (valuePath j) = some (RuleValue.codec.option.write r.value) := by
  simp [valuePath, hrules, Codec.list, h, hvalue]

theorem Segment.write_at? {p : Segment} {j : Nat} {r : Rule} (h : p.rules[j]? = some r) :
    (Segment.codec.write p).at? (Rule.valuePath j) = some (RuleValue.codec.option.write r.value) :=
  Rule.write_at? (c := Rule.codec) rfl (fun _ => rfl) h

theorem RoutedSegment.write_at? {s : RoutedSegment} {j : Nat} {r : Rule}
    (h : s.rules[j]? = some r) :
    (RoutedSegment.codec.write s).at? (Rule.valuePath j) =
      some (RuleValue.codec.option.write r.value) :=
  Rule.write_at? (c := ruleCodec) rfl (fun _ => rfl) h

theorem RuleValue.sorted_write (o : Option RuleValue) :
    (codec.option.write o).sorted = codec.option.write o := by
  cases o with
  | none => rfl
  | some r => exact toJson_rearranged .sorted r

theorem Graph.RuleAt.write_at? {g : Graph} {i j : Nat} {n : Node} {p : Segment} {r : Rule}
    (h : g.RuleAt i j n p r) : (Graph.codec.write g).at? (Graph.valuePath i j) =
      some (RuleValue.codec.option.write r.value) := by
  have hnodes : (Graph.codec.write g).step? (.key "nodes") =
      some (.array (g.document.nodes.map DocumentNode.codec.write)) := rfl
  have hdata (data : Json) : (DocumentNode.codec.write ⟨n.id, n.type.name, n.parent, data⟩).step?
      (.key "data") = some data := by
    cases n.parent <;> rfl
  have hpayload : n.payload.toJson = (Segment.codec.write p).sorted := by
    rw [h.payload]
    rfl
  simp [Graph.valuePath, hnodes, h.node, Graph.document, hdata, hpayload, Json.at?_sorted,
    Segment.write_at? h.rule, RuleValue.sorted_write]

theorem RoutingTable.write_at? {t : RoutingTable} {k j : Nat} {s : RoutedSegment} {r : Rule}
    (hs : t.segments[k]? = some s) (hr : s.rules[j]? = some r) :
    (RoutingTable.codec.write t).at? (RoutingTable.valuePath k j) =
      some (RuleValue.codec.option.write r.value) := by
  have hsegments : (RoutingTable.codec.write t).step? (.key "segments") =
      some (.array (t.segments.map RoutedSegment.codec.write)) := rfl
  simp [RoutingTable.valuePath, hsegments, hs, RoutedSegment.write_at? hr]

/-! ## Segments of a node -/

theorem Graph.nodup_ids_of_ofText {s : String} {g : Graph} (h : Graph.ofText s = .ok g) :
    (g.nodes.map (·.id)).Nodup := by
  unfold Graph.ofText at h
  split at h
  · next d hd =>
    obtain ⟨hdistinct, hgives, -⟩ := Document.graph_eq_ok_iff.1 h
    have hids : d.nodes.map (·.id) = g.nodes.map (·.id) := by
      rw [← List.forall₂_eq_eq_eq, List.forall₂_map_left_iff, List.forall₂_map_right_iff]
      exact hgives.imp fun _ _ hn => hn.id.symm
    exact hids ▸ hdistinct
  · cases h

/-- A routed segment with the id of a segment has its rules, if no other node has this id. -/
theorem RoutingTable.rules_of_compile {g : Graph} {settings : Settings} {t : RoutingTable}
    (ht : RoutingTable.compile g settings = .ok t) (hids : (g.nodes.map (·.id)).Nodup) {n : Node}
    {p : Segment} (hn : n ∈ g.nodes) (hp : n.payload = .segment p) {s : RoutedSegment}
    (hs : s ∈ t.segments) (hid : s.id = n.id) : s.rules = p.rules := by
  obtain ⟨m, hm, q, hq, rfl⟩ := (mem_segments_of_compile ht).1 hs
  obtain rfl : m = n := List.inj_on_of_nodup_map hids hm.mem_nodes hn hid
  cases hq.symm.trans hp
  rfl

/-! ## The way of a value -/

/-- The value of rule `j` of node `i` is `v` in the graph, in its document, and in all segments that
are compiled from the node. -/
structure Graph.Carries (g : Graph) (i j : Nat) (v : Json) : Prop where
  rule : ∃ n p r, g.RuleAt i j n p r ∧ RuleValue.codec.option.write r.value = v ∧
    r.value ≠ some (.numbers [])
  document : ∃ w : Json, g.toText = w.compact ∧ w.at? (Graph.valuePath i j) = some v
  table (settings : Settings) (t : RoutingTable) (h : RoutingTable.compile g settings = .ok t) :
    ∃ w : Json, t.toText = w.compact ∧ t.toPrettyText = w.pretty ∧
      ∀ (k : Nat) (s : RoutedSegment), t.segments[k]? = some s →
        g.nodes[i]?.map (·.id) = some s.id → w.at? (RoutingTable.valuePath k j) = some v

theorem Graph.RuleAt.carries {g : Graph} {i j : Nat} {n : Node} {p : Segment} {r : Rule}
    (h : g.RuleAt i j n p r) (hids : (g.nodes.map (·.id)).Nodup)
    (hvalue : r.value ≠ some (.numbers [])) :
    g.Carries i j (RuleValue.codec.option.write r.value) where
  rule := ⟨n, p, r, h, rfl, hvalue⟩
  document := ⟨Graph.codec.write g, rfl, h.write_at?⟩
  table settings t ht := by
    refine ⟨RoutingTable.codec.write t, rfl, rfl, fun k s hs hid => ?_⟩
    rw [h.node, Option.map_some, Option.some.injEq] at hid
    have hrules := RoutingTable.rules_of_compile ht hids (List.mem_of_getElem? h.node) h.payload
      (List.mem_of_getElem? hs) hid.symm
    exact RoutingTable.write_at? hs (hrules ▸ h.rule)

namespace Json.Tree

variable {source : Source}

theorem depth_eq_zero {t : Tree} {v : Json} (h : t.toJson source = .ok v)
    (hlist : ∀ vs, v ≠ .array vs) (hobject : ∀ ms, v ≠ .object ms) : t.depth = 0 := by
  cases t with
  | scalar s => rw [depth]
  | absent fault => cases h
  | list items close =>
    obtain ⟨_, vs, -, -, -, rfl⟩ := toJson_list_eq_ok_iff.1 h
    exact absurd rfl (hlist vs)
  | object members close =>
    obtain ⟨_, _, -, -, -, rfl⟩ := toJson_object_eq_ok_iff.1 h
    exact absurd rfl (hobject _)

theorem itemsDepth_eq_zero {α : Type} {items : List Tree} {l : List α}
    (h : List.Forall₂ (fun t _ => t.depth = 0) items l) : itemsDepth items = 0 := by
  induction h with
  | nil => rw [itemsDepth]
  | cons ht _ ih => rw [itemsDepth, ht, ih, Nat.max_self]

/-- Whatever is accepted is a scalar, or a list of such. -/
theorem depth_le_one {t : Tree} {v : Json} (h : t.toJson source = .ok v)
    (hv : v = .null ∨ v.Operand) : t.depth ≤ 1 := by
  have hscalar (hlist : ∀ vs, v ≠ .array vs) (hobject : ∀ ms, v ≠ .object ms) : t.depth ≤ 1 :=
    (depth_eq_zero h hlist hobject).le.trans (Nat.zero_le 1)
  have hitems {α : Type} {l : List α} {f : α → Json} (hf : ∀ a vs, f a ≠ .array vs)
      (hf' : ∀ a ms, f a ≠ .object ms) (hv : v = .array (l.map f)) : t.depth ≤ 1 := by
    subst hv
    cases t with
    | scalar s => simp [depth]
    | absent fault => cases h
    | list items close =>
      obtain ⟨_, _, -, hitems, -, heq⟩ := toJson_list_eq_ok_iff.1 h
      cases heq
      have hflat := (List.forall₂_map_right_iff.1 hitems).imp fun t a ha =>
        depth_eq_zero ha (hf a) (hf' a)
      rw [depth, itemsDepth_eq_zero hflat]
    | object members close =>
      obtain ⟨_, _, -, -, -, heq⟩ := toJson_object_eq_ok_iff.1 h
      cases heq
  rcases hv with rfl | hv
  · exact hscalar nofun nofun
  · cases hv with
    | bool | number | string => exact hscalar nofun nofun
    | strings l => exact hitems (f := .string) nofun nofun rfl
    | numbers l => exact hitems (f := .number) nofun nofun rfl

end Json.Tree

namespace Graph

/-- What becomes of a text with the value `v`, which nests so deep, for rule `j` of node `i`, the
segment `id`. -/
structure TakesValue (s : String) (i j : Nat) (id : String) (v : Json) (depth : Nat) : Prop where
  accepted : (∃ g, Graph.ofText s = .ok g) ↔ v = .null ∨ v.Operand
  /-- What is no operand is refused as the payload of the segment, unless the text as a whole nests
  too deep for its sake. -/
  refused : ¬(v = .null ∨ v.Operand) → Graph.ofText s =
    if depth ≤ 121 then .error (.invalidPayload id .segment (.noMatchingShape "RuleValue"))
    else .error (.malformed (.malformed .tooDeep))
  carried : ∀ g, Graph.ofText s = .ok g → g.Carries i j v

/-- What becomes of all texts that differ only in the value of rule `j` of node `i`, which is the
segment `id`, whose place is `p`. -/
structure TakesValues (p : RulePlace) (i j : Nat) (id : String) : Prop where
  value : ∀ s t, Tree.ofText s = (p.fill t, false) → ∀ v, t.toJson .value = .ok v →
    TakesValue s i j id v t.depth
  /-- A value that cannot be read is what the whole text is refused for. -/
  unreadable : ∀ s t, Tree.ofText s = (p.fill t, false) → ∀ e, t.toJson (.text 121) = .error e →
    Graph.ofText s = .error (.malformed e)
  absent : ∀ s, p.rule.Omits ["value"] → Tree.ofText s = (p.bare, false) →
    ∃ g, Graph.ofText s = .ok g ∧ g.Carries i j .null
  /-- An integer is written in the digits that it is spelled in. -/
  integer : ∀ l : Json.Integral, l.text ≠ ['-', '0'] → -0x8000000000000000 ≤ l.value →
    l.value ≤ 0xFFFFFFFFFFFFFFFF →
    (∀ rest, Json.Delimits rest →
      Json.Lexes [.scalar (.number (.integer l.value))] (l.text ++ rest) rest) ∧
    ∀ spacing depth, (Json.number (.integer l.value)).print spacing depth = l.text

theorem takesValue_of_ok {s : String} {i j : Nat} {id : String} {v : Json} {depth : Nat} {g : Graph}
    (hs : Graph.ofText s = .ok g) (hv : v = .null ∨ v.Operand) (hcarries : g.Carries i j v) :
    TakesValue s i j id v depth where
  accepted := ⟨fun _ => hv, fun _ => ⟨g, hs⟩⟩
  refused h := absurd hv h
  carried g' hg' := by
    cases hg'.symm.trans hs
    exact hcarries

theorem takesValue_of_error {s : String} {i j : Nat} {id : String} {v : Json} {depth : Nat}
    (hs : Graph.ofText s =
      if depth ≤ 121 then .error (.invalidPayload id .segment (.noMatchingShape "RuleValue"))
      else .error (.malformed (.malformed .tooDeep)))
    (hv : ¬(v = .null ∨ v.Operand)) : TakesValue s i j id v depth := by
  have hnone (g : Graph) : Graph.ofText s ≠ .ok g := by
    rw [hs]
    split <;> exact nofun
  exact {
    accepted := ⟨fun ⟨g, hg⟩ => absurd hg (hnone g), fun h => absurd h hv⟩
    refused := fun _ => hs
    carried := fun g hg => absurd hg (hnone g) }

/-- Let a document be valid with some value for the rule of a segment. With another value it is
accepted exactly if this is an operand or no value, and the value is carried as it is. -/
theorem rule_values_carried {p : RulePlace} {i j : Nat} (hp : p.Leads i j) {s₀ : String}
    {t₀ : Tree} {g₀ : Graph} {n : Node} (hs₀ : Tree.ofText s₀ = (p.fill t₀, false))
    (hg₀ : Graph.ofText s₀ = .ok g₀) (hn : g₀.nodes[i]? = some n) (htype : n.type = .segment) :
    TakesValues p i j n.id := by
  obtain ⟨⟨q, r, hrule⟩, hfill, hbare⟩ := ofText_fill hp hs₀ hg₀ hn htype
  have hcarries {s : String} {o : Option RuleValue} {v : Json}
      (hs : Graph.ofText s = .ok (g₀.withValue i j o)) (hv : RuleValue.codec.option.write o = v)
      (hne : o ≠ some (.numbers [])) : (g₀.withValue i j o).Carries i j v :=
    hv ▸ (hrule.withValue o).carries (nodup_ids_of_ofText hs) hne
  constructor
  case value =>
    intro s t hs v hv
    have hread := hfill s t hs
    rw [Tree.toJson_text 121 hv, Tree.bounded] at hread
    by_cases hoperand : v = .null ∨ v.Operand
    · have hdepth : t.depth ≤ 121 := (Tree.depth_le_one hv hoperand).trans (by decide)
      obtain ⟨o, ho, hne⟩ := RuleValue.exists_write_iff.2 hoperand
      simp only [if_pos hdepth, RuleValue.option_ofValue_eq_ok_iff.2 ⟨ho, hne⟩] at hread
      exact takesValue_of_ok hread hoperand (hcarries hread ho hne)
    · refine takesValue_of_error (hread.trans ?_) hoperand
      by_cases hdepth : t.depth ≤ 121
      · simp only [if_pos hdepth, RuleValue.option_ofValue_of_not hoperand]
      · simp only [if_neg hdepth]
  case unreadable =>
    intro s t hs e he
    have hread := hfill s t hs
    rwa [he] at hread
  case absent =>
    intro s homits hs
    have hread := hbare s homits hs
    exact ⟨_, hread, hcarries hread rfl nofun⟩
  case integer =>
    intro l hzero hleast hgreatest
    exact ⟨(l.printed hzero hleast hgreatest).2, fun _ _ => l.text_value hzero⟩

/-- Where the value of the rule of `visitorsFrom` stands. -/
def visitorsPlace : RulePlace where
  document := .member [] (.ofString "nodes")
    [(.ofString "edges", .ofJson (.array [.array [.string "e", .string "t", .string "s"]]))]
    .bracket
  nodes := .item [.ofJson (.array [.string "t", .string "traffic"])] [] .bracket
  node := .item [.ofJson (.string "s"), .ofJson (.string "segment"), .ofJson .null] [] .bracket
  data := .member [] (.ofString "rules") [] .bracket
  rules := .item [] [] .bracket
  rule := .member [(.ofString "id", .ofJson (.string "r")),
    (.ofString "ruleType", .ofJson (.string "country")),
    (.ofString "operator", .ofJson (.string "in"))] (.ofString "value") [] .bracket

/-- A campaign with one segment, whose rule has the value `v`. -/
def visitorsFrom (v : Json) : Json :=
  .object [
    ("nodes", .array [
      .array [.string "t", .string "traffic"],
      .array [.string "s", .string "segment", .null, .object [
        ("rules", .array [.object [("id", .string "r"), ("ruleType", .string "country"),
          ("operator", .string "in"), ("value", v)]])]]]),
    ("edges", .array [.array [.string "e", .string "t", .string "s"]])]

theorem leads_visitorsPlace : visitorsPlace.Leads 1 0 where
  document := by
    refine ⟨⟨"nodes", .head _, rfl⟩, ?_⟩
    simp [Json.Quoted.ofString]
  nodes := rfl
  node := rfl
  data := ⟨⟨"rules", .head _, rfl⟩, nofun⟩
  rules := rfl
  rule := ⟨⟨"value", .head _, rfl⟩, nofun⟩

theorem ofText_visitorsFrom {v : Json} (h : ∀ n ∈ v.numbers, n.ReadsBack) :
    Tree.ofText (visitorsFrom v).compact = (visitorsPlace.fill (.ofJson v), false) := by
  have hnumbers : (visitorsFrom v).numbers = v.numbers := by
    simp [visitorsFrom, Json.numbers, Json.itemNumbers, Json.memberNumbers]
  exact Tree.ofText_print Json.Spacing.blank_compact (visitorsFrom v) (hnumbers ▸ h)

theorem exists_ofText_visitorsFrom : ∃ g n, Graph.ofText (visitorsFrom .null).compact = .ok g ∧
    g.nodes[1]? = some n ∧ n.type = .segment ∧ n.id = "s" := by
  rw [ofText_of_tree (ofText_visitorsFrom (v := .null) (List.forall_mem_nil _))]
  exact ⟨_, _, rfl, rfl, rfl, rfl⟩

/-- The greatest integer goes to the router along with a small one. A list of a country and a number
does not, and neither does a list in a list. -/
theorem rule_values_carried_visitors :
    (∃ g, Graph.ofText (visitorsFrom (.array [.number (.integer 0xFFFFFFFFFFFFFFFF),
      .number (.integer (-5))])).compact = .ok g ∧
      g.Carries 1 0 (.array [.number (.integer 0xFFFFFFFFFFFFFFFF), .number (.integer (-5))])) ∧
    Graph.ofText (visitorsFrom (.array [.string "DE", .number (.integer 1)])).compact =
      .error (.invalidPayload "s" .segment (.noMatchingShape "RuleValue")) ∧
    Graph.ofText (visitorsFrom (.array [.array []])).compact =
      .error (.invalidPayload "s" .segment (.noMatchingShape "RuleValue")) := by
  obtain ⟨g₀, n, hg₀, hn, htype, hid⟩ := exists_ofText_visitorsFrom
  have hcarried (v : Json) (hv : ∀ n ∈ v.numbers, n.ReadsBack)
      (hread : (Tree.ofJson v).toJson .value = .ok v) :=
    (rule_values_carried leads_visitorsPlace (ofText_visitorsFrom (v := .null)
      (List.forall_mem_nil _)) hg₀ hn htype).value _ _ (ofText_visitorsFrom hv) v hread
  have hinteger {k : Int} (h : -0x8000000000000000 ≤ k ∧ k < UInt64.size) :
      (Json.Number.integer k).ReadsBack := .integer h
  refine ⟨?_, ?_, ?_⟩
  · have htakes := hcarried
      (.array [.number (.integer 0xFFFFFFFFFFFFFFFF), .number (.integer (-5))])
      (List.forall_mem_cons.2 ⟨hinteger (by decide),
        List.forall_mem_singleton.2 (hinteger (by decide))⟩) rfl
    obtain ⟨g, hg⟩ := htakes.accepted.2 (.inr (by decide))
    exact ⟨g, hg, htakes.carried g hg⟩
  · have hrefused := (hcarried (.array [.string "DE", .number (.integer 1)])
      (List.forall_mem_singleton.2 (hinteger (by decide))) rfl).refused
      (not_or.2 ⟨nofun, by decide⟩)
    rwa [hid] at hrefused
  · have hrefused := (hcarried (.array [.array []]) (List.forall_mem_nil _) rfl).refused
      (not_or.2 ⟨nofun, by decide⟩)
    rwa [hid] at hrefused

/-- Lists around an empty one. -/
def nested : Nat → Json
  | 0 => .array []
  | depth + 1 => .array [nested depth]

theorem numbers_nested (depth : Nat) : (nested depth).numbers = [] := by
  induction depth with
  | zero => rfl
  | succ depth ih => simp [nested, Json.numbers, Json.itemNumbers, ih]

theorem toJson_nested (depth : Nat) :
    (Tree.ofJson (nested depth)).toJson .value = .ok (nested depth) := by
  induction depth with
  | zero => rfl
  | succ depth ih =>
    exact Tree.toJson_list_eq_ok_iff.2 ⟨.value, [nested depth], rfl, .cons ih .nil, rfl, rfl⟩

theorem depth_nested (depth : Nat) : (Tree.ofJson (nested depth)).depth = depth + 1 := by
  induction depth with
  | zero => simp [nested, Tree.ofJson, Tree.ofItems, Tree.depth, Tree.itemsDepth]
  | succ depth ih => simp [nested, Tree.ofJson, Tree.ofItems, Tree.depth, Tree.itemsDepth, ih]

/-- A list in a list that is nested too deep for the text is not refused for its segment. -/
theorem nested_value_too_deep :
    (∃ g, Graph.ofText (visitorsFrom .null).compact = .ok g) ∧
    ¬(nested 121).Operand ∧
    Graph.ofText (visitorsFrom (nested 121)).compact = .error (.malformed (.malformed .tooDeep)) ∧
    Graph.ofText (visitorsFrom (nested 121)).compact ≠
      .error (.invalidPayload "s" .segment (.noMatchingShape "RuleValue")) := by
  obtain ⟨g₀, n, hg₀, hn, htype, hid⟩ := exists_ofText_visitorsFrom
  have hread := (ofText_fill leads_visitorsPlace (ofText_visitorsFrom (v := .null)
    (List.forall_mem_nil _)) hg₀ hn htype).2.1 _ _
    (ofText_visitorsFrom (v := nested 121) (by simp [numbers_nested]))
  rw [Tree.toJson_text 121 (toJson_nested 121), Tree.bounded, depth_nested, if_neg (by decide)]
    at hread
  refine ⟨⟨g₀, hg₀⟩, by decide, hread, ?_⟩
  rw [hread]
  exact nofun

end Graph
end CampaignRouting
