import CampaignRouting.Proofs.Graph.Acceptance
import CampaignRouting.Proofs.Graph.RuleValue
import CampaignRouting.Proofs.Json.Place

/-!
# The place of a rule's value in a document

Frame by frame a document is read as the value of one of its rules is (`Document.read_fillRule`,
`Segment.read_fill`). So it depends on this value alone whether a document that is valid but for it
gives a graph, and only the rule's value differs between the graphs (`Graph.ofText_fill`).
-/

namespace CampaignRouting

open Json (Codec Field Fields Frame Source Tree)

/-- The document around the value of a rule, from the outside to the inside, each part without the
next. -/
structure RulePlace where
  document : Frame
  nodes : Frame
  node : Frame
  data : Frame
  rules : Frame
  rule : Frame

namespace RulePlace

variable (p : RulePlace) {i j : Nat}

def fillData (rule : Tree) : Tree := p.data.fill (p.rules.fill rule)

def fillRule (rule : Tree) : Tree := p.document.fill (p.nodes.fill (p.node.fill (p.fillData rule)))

/-- The document with a value for the rule. -/
def fill (value : Tree) : Tree := p.fillRule (p.rule.fill value)

/-- The document in which the rule has no value. -/
def bare : Tree := p.fillRule p.rule.bare

/-- The parts are those that lead to the value of rule `j` of node `i`. -/
structure Leads (i j : Nat) : Prop where
  document : p.document.Leads ["nodes"] 0
  nodes : p.nodes.Leads [] i
  node : p.node.Leads ["data", "payload"] 3
  data : p.data.Leads ["rules"] 4
  rules : p.rules.Leads [] j
  rule : p.rule.Leads ["value"] 3

end RulePlace

/-! ## Rules in a graph -/

/-- The segment with another value for rule `j`. -/
def Segment.withValue (p : Segment) (j : Nat) (o : Option RuleValue) : Segment :=
  { p with rules := p.rules.modify j fun r => { r with value := o } }

def Node.withValue (n : Node) (j : Nat) (o : Option RuleValue) : Node :=
  match n.payload with
  | .segment p => { n with payload := .segment (p.withValue j o) }
  | _ => n

/-- The graph with another value for rule `j` of node `i`. -/
def Graph.withValue (g : Graph) (i j : Nat) (o : Option RuleValue) : Graph :=
  { g with nodes := g.nodes.modify i (·.withValue j o) }

/-- Rule `j` of the graph's node `i`. -/
structure Graph.RuleAt (g : Graph) (i j : Nat) (n : Node) (p : Segment) (r : Rule) : Prop where
  node : g.nodes[i]? = some n
  payload : n.payload = .segment p
  rule : p.rules[j]? = some r

theorem Segment.withValue_eq_set (p : Segment) {j : Nat} {r : Rule} (h : p.rules[j]? = some r)
    (o : Option RuleValue) :
    p.withValue j o = { p with rules := p.rules.set j { r with value := o } } := by
  rw [withValue, List.modify_eq_set_getElem?, h]
  rfl

namespace Graph.RuleAt

variable {g : Graph} {i j : Nat} {n : Node} {p : Segment} {r : Rule}

theorem withValue_eq_set (h : g.RuleAt i j n p r) (o : Option RuleValue) :
    g.withValue i j o =
      { g with nodes := g.nodes.set i { n with payload := .segment (p.withValue j o) } } := by
  have hnode : n.withValue j o = { n with payload := .segment (p.withValue j o) } := by
    simp only [Node.withValue, h.payload]
  rw [Graph.withValue, List.modify_eq_set_getElem?, h.node, ← hnode]
  rfl

theorem withValue (h : g.RuleAt i j n p r) (o : Option RuleValue) :
    (g.withValue i j o).RuleAt i j { n with payload := .segment (p.withValue j o) }
      (p.withValue j o) { r with value := o } where
  node := by
    obtain ⟨hi, -⟩ := List.getElem?_eq_some_iff.1 h.node
    rw [h.withValue_eq_set]
    exact List.getElem?_set_self hi
  payload := rfl
  rule := by
    obtain ⟨hj, -⟩ := List.getElem?_eq_some_iff.1 h.rule
    rw [p.withValue_eq_set h.rule]
    exact List.getElem?_set_self hj

end Graph.RuleAt

/-! ## Reading

A text has room for 127 lists and objects in each other. The document, its nodes and the node stand
around the data of a node, which leaves 124; the data, the rules and the rule stand around the value
of a rule, which leaves 121.
-/

theorem Document.read_fillRule {p : RulePlace} {i j : Nat} (hp : p.Leads i j) {t₀ : Tree}
    {d₀ : Document} (hread : Document.codec.read (.text Codec.maxDepth) (p.fillRule t₀) = .ok d₀) :
    ∃ n₀, d₀.nodes[i]? = some n₀ ∧ (p.fillData t₀).toJson (.text 124) = .ok n₀.data ∧
      ∀ t, Document.codec.read (.text Codec.maxDepth) (p.fillRule t) =
        ((p.fillData t).toJson (.text 124)).map fun w =>
          { d₀ with nodes := d₀.nodes.set i { n₀ with data := w } } := by
  obtain ⟨_, ns₀, ⟨⟩, hns, hset, hdocument⟩ :=
    (Fields.At.head _).record_read_fill (fun ns (d : Document) => { d with nodes := ns })
      (fun _ _ => rfl) hp.document hread
  obtain ⟨_, n₀, ⟨⟩, hn, hat, hnodes⟩ := Codec.list_read_fill hp.nodes hns
  obtain ⟨_, w₀, ⟨⟩, hw, hdata, hnode⟩ :=
    (Fields.At.tail _ (by decide) <| .tail _ (by decide) <| .tail _ (by decide) <|
      .head _).record_read_fill (fun w (n : DocumentNode) => { n with data := w })
      (fun _ _ => rfl) hp.node hn
  obtain rfl : ns₀ = d₀.nodes := congrArg Document.nodes hset
  obtain rfl : w₀ = n₀.data := congrArg DocumentNode.data hdata
  have hdocument (t : Tree) : Document.codec.read (.text Codec.maxDepth) (p.document.fill t) =
      (DocumentNode.codec.list.read (.text 126) t).map fun ns => { d₀ with nodes := ns } :=
    hdocument t
  have hnode (t : Tree) : DocumentNode.codec.read (.text 125) (p.node.fill t) =
      (t.toJson (.text 124)).map fun w => { n₀ with data := w } := hnode t
  refine ⟨n₀, hat, hw, fun t => ?_⟩
  rw [RulePlace.fillRule, hdocument, hnodes, hnode]
  cases (p.fillData t).toJson (.text 124) <;> rfl

theorem Rule.value_at : Rule.fields.At (.optional "value" RuleValue.codec) 3
    (fun o b => (b.1, b.2.1, b.2.2.1, o, b.2.2.2.2))
    fun o x => (x.1, x.2.1, x.2.2.1, o, x.2.2.2.2) :=
  .tail _ (by decide) <| .tail _ (by decide) <| .tail _ (by decide) <| .head _

/-- A segment that is kept as a value is read as the value of one of its rules is. -/
theorem Segment.read_fill {data rules rule : Frame} {j : Nat} (hdata : data.Leads ["rules"] 4)
    (hrules : rules.Leads [] j) (hrule : rule.Leads ["value"] 3) {t₀ : Tree} {p₀ : Segment}
    (hread : Segment.codec.read .value (data.fill (rules.fill (rule.fill t₀))) = .ok p₀) :
    ∃ r₀, p₀.rules[j]? = some r₀ ∧
      (∀ t, Segment.codec.read .value (data.fill (rules.fill (rule.fill t))) =
        (RuleValue.codec.option.read .value t).map (p₀.withValue j)) ∧
      (rule.Omits ["value"] → Segment.codec.read .value (data.fill (rules.fill rule.bare)) =
        .ok (p₀.withValue j none)) := by
  obtain ⟨_, rs₀, ⟨⟩, hrs, hset, hsegment⟩ :=
    (Fields.At.tail _ (by decide) <| .tail _ (by decide) <| .tail _ (by decide) <|
      .tail _ (by decide) <| .head _).record_read_fill
      (fun rs (p : Segment) => { p with rules := rs }) (fun _ _ => rfl) hdata hread
  obtain ⟨_, r₀, ⟨⟩, hr, hat, hitems⟩ := Codec.list_read_fill hrules hrs
  obtain ⟨_, _, ⟨⟩, -, -, hvalue⟩ := Rule.value_at.record_read_fill
    (fun o (r : Rule) => { r with value := o }) (fun _ _ => rfl) hrule hr
  obtain rfl : rs₀ = p₀.rules := congrArg Segment.rules hset
  have hsegment (t : Tree) : Segment.codec.read .value (data.fill t) =
      (Rule.codec.list.read .value t).map fun rs => { p₀ with rules := rs } := hsegment t
  have hvalue (t : Tree) : Rule.codec.read .value (rule.fill t) =
      (RuleValue.codec.option.read .value t).map fun o => { r₀ with value := o } := hvalue t
  refine ⟨r₀, hat, fun t => ?_, fun homits => ?_⟩
  · rw [hsegment, hitems, hvalue]
    cases RuleValue.codec.option.read .value t with
    | error e => rfl
    | ok o => exact congrArg Except.ok (p₀.withValue_eq_set hat o).symm
  · have hbare : Rule.codec.read .value rule.bare = .ok { r₀ with value := none } :=
      Rule.value_at.record_read_bare (fun o (r : Rule) => { r with value := o }) (fun _ _ => rfl)
        hrule homits rfl rfl hr
    rw [hsegment, hitems, hbare]
    exact congrArg Except.ok (p₀.withValue_eq_set hat none).symm

/-! ## Data that are kept -/

theorem RulePlace.toJson_fillData {p : RulePlace} {i j : Nat} (hp : p.Leads i j) {t₀ : Tree}
    {w₀ : Json} (h : (p.fillData (p.rule.fill t₀)).toJson (.text 124) = .ok w₀) :
    ∃ (data rules rule : Frame) (f : Json → Json), data.Leads ["rules"] 4 ∧ rules.Leads [] j ∧
      rule.Leads ["value"] 3 ∧
      (∀ v, Tree.ofJson (f v) = data.fill (rules.fill (rule.fill (.ofJson v)))) ∧
      (∀ t, (p.fillData (p.rule.fill t)).toJson (.text 124) = (t.toJson (.text 121)).map f) ∧
      (p.rule.Omits ["value"] → rule.Omits ["value"] ∧
        ∃ w, (p.fillData p.rule.bare).toJson (.text 124) = .ok w ∧
          Tree.ofJson w = data.fill (rules.fill rule.bare)) := by
  obtain ⟨_, data, f, ⟨⟩, hdata, hkeptData, hreadData, -⟩ :=
    Tree.toJson_fill (by simp) hp.data h
  obtain ⟨_, hrules, -⟩ := map_eq_ok_iff.1 ((hreadData _).symm.trans h)
  obtain ⟨_, rules, g, ⟨⟩, hrulesLeads, hkeptRules, hreadRules, -⟩ :=
    Tree.toJson_fill (by simp) hp.rules hrules
  obtain ⟨_, hrule, -⟩ := map_eq_ok_iff.1 ((hreadRules _).symm.trans hrules)
  obtain ⟨_, rule, k, ⟨⟩, hruleLeads, hkeptRule, hreadRule, hbare⟩ :=
    Tree.toJson_fill (by simp) hp.rule hrule
  refine ⟨data, rules, rule, f ∘ g ∘ k, hdata, hrulesLeads, hruleLeads, fun v => ?_, fun t => ?_,
    fun homits => ?_⟩
  · simp only [Function.comp_apply, hkeptData, hkeptRules, hkeptRule]
  · rw [fillData, hreadData, hreadRules, hreadRule]
    cases t.toJson (.text 121) <;> rfl
  · obtain ⟨hruleOmits, v, hv, hkept⟩ := hbare homits
    refine ⟨hruleOmits, f (g v), ?_, by rw [hkeptData, hkeptRules, hkept]⟩
    rw [fillData, hreadData, hreadRules, hv]
    rfl

/-! ## Nodes -/

theorem checkNodes_set {seen : List String} {ds : List DocumentNode} {ns : List Node} {i : Nat}
    {d : DocumentNode} (h : checkNodes seen ds = .ok ns) (hd : ds[i]? = some d) :
    ∃ n, d.Gives n ∧ ns[i]? = some n ∧ ∀ d' : DocumentNode, d'.id = d.id →
      checkNodes seen (ds.set i d') = d'.check.map fun n' => ns.set i n' := by
  induction ds generalizing seen ns i with
  | nil => cases hd
  | cons e ds ih =>
    obtain ⟨hid, m, ns, hm, hns, rfl⟩ := checkNodes_cons_eq_ok_iff.1 h
    cases i with
    | zero =>
      cases hd
      refine ⟨m, hm, rfl, fun d' hd' => ?_⟩
      rw [List.set_cons_zero, checkNodes, hd', if_neg hid]
      simp only [bind, Except.bind, hns]
      cases d'.check <;> rfl
    | succ i =>
      obtain ⟨n, hn, hat, hset⟩ := ih hns hd
      refine ⟨n, hn, hat, fun d' hd' => ?_⟩
      rw [List.set_cons_succ, checkNodes, if_neg hid, hset d' hd',
        DocumentNode.check_eq_ok_iff.2 hm]
      cases d'.check <;> rfl

theorem Document.graph_set {d : Document} {g : Graph} {i : Nat} {dn : DocumentNode}
    (h : d.graph = .ok g) (hdn : d.nodes[i]? = some dn) :
    ∃ n, dn.Gives n ∧ g.nodes[i]? = some n ∧ ∀ dn' : DocumentNode, dn'.id = dn.id →
      Document.graph { d with nodes := d.nodes.set i dn' } =
        dn'.check.map fun n' => { g with nodes := g.nodes.set i n' } := by
  obtain ⟨ns, hns, h⟩ := bind_eq_ok_iff.1 h
  cases h
  obtain ⟨n, hn, hat, hset⟩ := checkNodes_set hns hdn
  refine ⟨n, hn, hat, fun dn' hdn' => ?_⟩
  rw [Document.graph, hset dn' hdn']
  cases dn'.check <;> rfl

/-! ## Documents -/

theorem Json.Frame.fill_ne_scalar (frame : Frame) (t : Tree) (x : Json.Scalar) :
    frame.fill t ≠ .scalar x := by
  cases frame <;> exact nofun

theorem DocumentNode.check_segment {d : DocumentNode} (htag : d.type ∈ NodeType.segment.spellings)
    (hdata : d.data ≠ .null) : d.check =
      match Segment.codec.ofValue d.data with
      | .ok p => .ok ⟨d.id, d.parent, .segment p⟩
      | .error e => .error (.invalidPayload d.id .segment e) := by
  have hpayload : d.payloadData = d.data := by
    unfold payloadData
    split
    · next h => exact absurd h hdata
    · rfl
  rw [check_of_tag htag, hpayload, Payload.ofJson]
  cases Segment.codec.ofValue d.data <;> rfl

/-- The graph of a document in which a segment has been given other data. -/
theorem Document.graph_setData {d : Document} {g : Graph} {i : Nat} {dn : DocumentNode} {n : Node}
    (h : d.graph = .ok g) (hdn : d.nodes[i]? = some dn) (hn : g.nodes[i]? = some n)
    (htype : n.type = .segment) {w : Json} (hw : w ≠ .null) :
    Document.graph { d with nodes := d.nodes.set i { dn with data := w } } =
      match Segment.codec.ofValue w with
      | .ok p => .ok { g with nodes := g.nodes.set i { n with payload := .segment p } }
      | .error e => .error (.invalidPayload n.id .segment e) := by
  obtain ⟨m, hm, hat, hset⟩ := Document.graph_set h hdn
  obtain rfl : m = n := Option.some.inj (hat.symm.trans hn)
  have htag : dn.type ∈ NodeType.segment.spellings := htype ▸ hm.tag
  have hcheck := DocumentNode.check_segment (d := { dn with data := w }) htag hw
  rw [hset { dn with data := w } rfl, hcheck, hm.id, hm.parent]
  cases Segment.codec.ofValue w <;> rfl

/-- A segment of a document comes from data that are one. -/
theorem Document.exists_segment {d : Document} {g : Graph} {i : Nat} {dn : DocumentNode} {n : Node}
    (h : d.graph = .ok g) (hdn : d.nodes[i]? = some dn) (hn : g.nodes[i]? = some n)
    (htype : n.type = .segment) (hdata : dn.data ≠ .null) :
    ∃ p, Segment.codec.ofValue dn.data = .ok p ∧ n.payload = .segment p := by
  obtain ⟨m, hm, hat, -⟩ := Document.graph_set h hdn
  obtain rfl : m = n := Option.some.inj (hat.symm.trans hn)
  have hcheck := DocumentNode.check_eq_ok_iff.2 hm
  rw [DocumentNode.check_segment (htype ▸ hm.tag) hdata] at hcheck
  split at hcheck <;> cases hcheck
  next p hp => exact ⟨p, hp, rfl⟩

namespace Graph

theorem ofText_of_tree {s : String} {t : Tree} (h : Tree.ofText s = (t, false)) :
    Graph.ofText s =
      match Document.codec.read (.text Codec.maxDepth) t with
      | .ok d => d.graph
      | .error e => .error (.malformed e) := by
  have hread : Document.codec.ofText s = Document.codec.read (.text Codec.maxDepth) t := by
    simp only [Codec.ofText, h]
    cases Document.codec.read (.text Codec.maxDepth) t <;> rfl
  show (match Document.codec.ofText s with
    | .ok d => d.graph
    | .error e => .error (.malformed e)) = _
  rw [hread]

/-- Of a document that gives a graph with some value for a rule, the graph is known for any. -/
theorem ofText_fill {p : RulePlace} {i j : Nat} (hp : p.Leads i j) {s₀ : String} {t₀ : Tree}
    {g₀ : Graph} {n : Node} (hs₀ : Tree.ofText s₀ = (p.fill t₀, false))
    (hg₀ : Graph.ofText s₀ = .ok g₀) (hn : g₀.nodes[i]? = some n) (htype : n.type = .segment) :
    (∃ q r, g₀.RuleAt i j n q r) ∧
    (∀ s t, Tree.ofText s = (p.fill t, false) → Graph.ofText s =
      match t.toJson (.text 121) with
      | .error e => .error (.malformed e)
      | .ok v =>
        match RuleValue.codec.option.ofValue v with
        | .error e => .error (.invalidPayload n.id .segment e)
        | .ok o => .ok (g₀.withValue i j o)) ∧
    ∀ s, p.rule.Omits ["value"] → Tree.ofText s = (p.bare, false) →
      Graph.ofText s = .ok (g₀.withValue i j none) := by
  rw [ofText_of_tree hs₀] at hg₀
  cases hread : Document.codec.read (.text Codec.maxDepth) (p.fill t₀) with
  | error e =>
    rw [hread] at hg₀
    cases hg₀
  | ok d₀ =>
    rw [hread] at hg₀
    obtain ⟨d, hd, hdata, hdocument⟩ := Document.read_fillRule hp hread
    obtain ⟨data, rules, rule, f, hdataLeads, hrulesLeads, hruleLeads, hkept, hfill, hbare⟩ :=
      p.toJson_fillData hp hdata
    obtain ⟨v₀, -, hv₀⟩ := map_eq_ok_iff.1 ((hfill t₀).symm.trans hdata)
    have hne {w : Json} {t : Tree} (hw : Tree.ofJson w = data.fill t) : w ≠ .null := by
      rintro rfl
      exact data.fill_ne_scalar _ _ hw.symm
    obtain ⟨q, hq, hpayload⟩ :=
      Document.exists_segment hg₀ hd hn htype (hv₀ ▸ hne (hkept v₀))
    rw [Codec.ofValue, ← hv₀, hkept] at hq
    obtain ⟨r, hr, hsegment, hsegmentBare⟩ :=
      Segment.read_fill hdataLeads hrulesLeads hruleLeads hq
    have hrule : g₀.RuleAt i j n q r := ⟨hn, hpayload, hr⟩
    refine ⟨⟨q, r, hrule⟩, fun s t hs => ?_, fun s homits hs => ?_⟩
    · rw [ofText_of_tree hs, RulePlace.fill, hdocument, hfill]
      cases t.toJson (.text 121) with
      | error e => rfl
      | ok v =>
        simp only [Except.map, Document.graph_setData hg₀ hd hn htype (hne (hkept v)),
          Codec.ofValue, hkept, hsegment]
        cases RuleValue.codec.option.read .value (.ofJson v) with
        | error e => rfl
        | ok o => exact congrArg Except.ok (hrule.withValue_eq_set o).symm
    · obtain ⟨hruleOmits, w, hw, hwkept⟩ := hbare homits
      rw [ofText_of_tree hs, RulePlace.bare, hdocument, hw]
      simp only [Except.map, Document.graph_setData hg₀ hd hn htype (hne hwkept), Codec.ofValue,
        hwkept, hsegmentBare hruleOmits]
      exact congrArg Except.ok (hrule.withValue_eq_set none).symm

end Graph
end CampaignRouting
