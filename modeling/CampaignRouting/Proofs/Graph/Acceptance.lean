import CampaignRouting.Graph.Document
import CampaignRouting.Proofs.Json.Reading

/-!
# Which documents are accepted

A document is a graph if the ids of its nodes differ and each node, looked at by itself, has a known
tag and a payload of that type. Else the error is that of the first node at fault
(`Graph.ofText_accepts_or_blames`). The nodes are walked once, with the ids seen so far, so both
halves are proved of a walk that begins with any such ids (`checkNodes_eq_ok_iff`,
`checkNodes_eq_error_iff`).
-/

namespace CampaignRouting

/-! ## Tags -/

namespace NodeType

/-- The tags that stand for a type. -/
def spellings : NodeType → List String
  | abTest => ["ab-test", "abTest", "ab_test"]
  | traffic => ["traffic"]
  | segment => ["segment"]
  | variant => ["variant"]
  | note => ["note"]
  | form => ["form"]

theorem ofTag?_of_mem_spellings {t : NodeType} {tag : String} (h : tag ∈ t.spellings) :
    ofTag? tag = some t := by
  cases t <;> simp only [spellings, List.mem_cons, List.not_mem_nil, or_false] at h
  case abTest => rcases h with rfl | rfl | rfl <;> rfl
  all_goals exact h ▸ rfl

theorem ofTag?_eq_some_iff {t : NodeType} {tag : String} :
    ofTag? tag = some t ↔ tag ∈ t.spellings := by
  refine ⟨fun h => ?_, ofTag?_of_mem_spellings⟩
  unfold ofTag? at h
  split at h
  · next hold =>
    cases h
    rcases hold with rfl | rfl <;> decide
  · have hname := List.find?_some h
    have hname : t.name = tag := of_decide_eq_true hname
    cases t <;> simp [spellings, ← hname, name]

end NodeType

theorem Payload.type_of_ofJson {type : NodeType} {data : Json} {p : Payload}
    (h : Payload.ofJson type data = .ok p) : p.type = type := by
  cases type <;> obtain ⟨_, -, rfl⟩ := map_eq_ok_iff.1 h <;> rfl

/-! ## One node -/

namespace DocumentNode

/-- What the payload is read from. -/
def payloadData (n : DocumentNode) : Json :=
  match n.data with
  | .null => .object []
  | data => data

/-- The node in the graph: its id and parent are kept, its tag and its data give the payload. -/
structure Gives (d : DocumentNode) (n : Node) : Prop where
  id : n.id = d.id
  parent : n.parent = d.parent
  tag : d.type ∈ n.type.spellings
  payload : Payload.ofJson n.type d.payloadData = .ok n.payload

/-- The tag is known, and the data are a payload of its type. -/
def Sound (d : DocumentNode) : Prop :=
  ∃ type : NodeType, d.type ∈ type.spellings ∧ ∃ p, Payload.ofJson type d.payloadData = .ok p

/-- What is wrong with a node where some ids are taken. Its id is looked at before its tag, and its
tag before its data. -/
inductive Fault (taken : List String) (d : DocumentNode) : GraphError → Prop
  | duplicateId (h : d.id ∈ taken) : Fault taken d (.duplicateId d.id)
  | unknownType (hid : d.id ∉ taken) (h : ∀ type : NodeType, d.type ∉ type.spellings) :
    Fault taken d (.unknownType d.id d.type)
  | invalidPayload {type : NodeType} {error : Json.Error} (hid : d.id ∉ taken)
    (htag : d.type ∈ type.spellings) (h : Payload.ofJson type d.payloadData = .error error) :
    Fault taken d (.invalidPayload d.id type error)

variable {d : DocumentNode} {n : Node} {e : GraphError} {taken taken' : List String}

theorem check_of_unknown (h : ∀ type : NodeType, d.type ∉ type.spellings) :
    d.check = .error (.unknownType d.id d.type) := by
  have htype : NodeType.ofTag? d.type = none :=
    Option.eq_none_iff_forall_ne_some.2 fun type ht => h type (NodeType.ofTag?_eq_some_iff.1 ht)
  simp only [check, htype]

theorem check_of_tag {type : NodeType} (h : d.type ∈ type.spellings) :
    d.check = match Payload.ofJson type d.payloadData with
      | .ok payload => .ok ⟨d.id, d.parent, payload⟩
      | .error error => .error (.invalidPayload d.id type error) := by
  simp only [check, NodeType.ofTag?_of_mem_spellings h]
  rfl

/-- A node passes its check exactly if it gives the node of a graph. -/
theorem check_eq_ok_iff : d.check = .ok n ↔ d.Gives n := by
  by_cases htag : ∃ type : NodeType, d.type ∈ type.spellings
  · obtain ⟨type, htag⟩ := htag
    rw [check_of_tag htag]
    constructor
    · intro h
      split at h <;> cases h
      next payload hpayload =>
        have htype : payload.type = type := Payload.type_of_ofJson hpayload
        subst htype
        exact ⟨rfl, rfl, htag, hpayload⟩
    · intro h
      have htype : n.type = type :=
        Option.some.inj ((NodeType.ofTag?_of_mem_spellings h.tag).symm.trans
          (NodeType.ofTag?_of_mem_spellings htag))
      rw [← htype, h.payload, ← h.id, ← h.parent]
  · rw [check_of_unknown fun type h => htag ⟨type, h⟩]
    exact ⟨nofun, fun h => absurd ⟨_, h.tag⟩ htag⟩

theorem check_eq_error_iff (hid : d.id ∉ taken) : d.check = .error e ↔ d.Fault taken e := by
  by_cases htag : ∃ type : NodeType, d.type ∈ type.spellings
  · obtain ⟨type, htag⟩ := htag
    rw [check_of_tag htag]
    constructor
    · intro h
      split at h <;> cases h
      next error herror => exact .invalidPayload hid htag herror
    · rintro (h | ⟨-, h⟩ | ⟨-, htag', h⟩)
      · exact absurd h hid
      · exact absurd htag (h type)
      · cases (NodeType.ofTag?_of_mem_spellings htag).symm.trans
          (NodeType.ofTag?_of_mem_spellings htag')
        rw [h]
  · rw [check_of_unknown fun type h => htag ⟨type, h⟩]
    constructor
    · rintro ⟨⟩
      exact .unknownType hid fun type h => htag ⟨type, h⟩
    · rintro (h | ⟨-, h⟩ | ⟨-, htag', h⟩)
      · exact absurd h hid
      · rfl
      · exact absurd ⟨_, htag'⟩ htag

theorem sound_iff : d.Sound ↔ ∃ n, d.Gives n := by
  constructor
  · rintro ⟨type, htag, p, hp⟩
    exact ⟨⟨d.id, d.parent, p⟩, check_eq_ok_iff.1 (by rw [check_of_tag htag, hp])⟩
  · rintro ⟨n, h⟩
    exact ⟨n.type, h.tag, n.payload, h.payload⟩

/-- Of the ids that are taken only which ones they are matters. -/
theorem Fault.congr (h : ∀ id, id ∈ taken ↔ id ∈ taken') : d.Fault taken e ↔ d.Fault taken' e := by
  have himp : ∀ {l l' : List String}, (∀ id, id ∈ l ↔ id ∈ l') → d.Fault l e → d.Fault l' e := by
    rintro l l' h (hid | ⟨hid, htag⟩ | ⟨hid, htag, herror⟩)
    · exact .duplicateId ((h _).1 hid)
    · exact .unknownType (mt (h _).2 hid) htag
    · exact .invalidPayload (mt (h _).2 hid) htag herror
  exact ⟨himp h, himp fun id => (h id).symm⟩

end DocumentNode

/-! ## The walk over the nodes -/

section
variable {seen : List String} {d : DocumentNode} {ds : List DocumentNode} {ns : List Node}
  {e : GraphError}

theorem checkNodes_cons_eq_ok_iff : checkNodes seen (d :: ds) = .ok ns ↔
    d.id ∉ seen ∧ ∃ n ns', d.Gives n ∧ checkNodes (d.id :: seen) ds = .ok ns' ∧ ns = n :: ns' := by
  rw [checkNodes]
  split
  · next hid =>
    constructor
    · rintro ⟨⟩
    · intro h
      exact absurd hid h.1
  · next hid =>
    simp only [bind_eq_ok_iff, DocumentNode.check_eq_ok_iff, hid, not_false_iff, true_and]
    constructor
    · rintro ⟨n, hn, ns', hns, h⟩
      cases h
      exact ⟨n, ns', hn, hns, rfl⟩
    · rintro ⟨n, ns', hn, hns, rfl⟩
      exact ⟨n, hn, ns', hns, rfl⟩

/-- The walk ends at the first node, or goes on behind it. -/
theorem checkNodes_cons_eq_error_iff : checkNodes seen (d :: ds) = .error e ↔
    d.Fault seen e ∨ (d.id ∉ seen ∧ d.Sound ∧ checkNodes (d.id :: seen) ds = .error e) := by
  rw [checkNodes]
  split
  · next hid =>
    constructor
    · rintro ⟨⟩
      exact .inl (.duplicateId hid)
    · rintro ((h | ⟨h, -⟩ | ⟨h, -⟩) | ⟨h, -⟩)
      · rfl
      all_goals exact absurd hid h
  · next hid =>
    rw [← DocumentNode.check_eq_error_iff hid, DocumentNode.sound_iff]
    cases hcheck : d.check with
    | error e' =>
      have hnone : ¬∃ n, d.Gives n := by
        rintro ⟨n, hn⟩
        rw [DocumentNode.check_eq_ok_iff.2 hn] at hcheck
        cases hcheck
      simp [hnone, bind, Except.bind]
    | ok n =>
      have hsome : ∃ n, d.Gives n := ⟨n, DocumentNode.check_eq_ok_iff.1 hcheck⟩
      cases hrest : checkNodes (d.id :: seen) ds <;>
        simp [hid, hsome, bind, Except.bind, pure, Except.pure]

/-- Nodes pass together exactly if each gives its own, and no id is taken twice. -/
theorem checkNodes_eq_ok_iff (hseen : seen.Nodup) : checkNodes seen ds = .ok ns ↔
    (ds.map (·.id) ++ seen).Nodup ∧ List.Forall₂ DocumentNode.Gives ds ns := by
  induction ds generalizing seen ns with
  | nil =>
    rw [List.forall₂_nil_left_iff]
    exact ⟨fun h => ⟨hseen, (Except.ok.inj h).symm⟩, fun h => h.2 ▸ rfl⟩
  | cons d ds ih =>
    have hids : (d.id ∉ seen ∧ (ds.map (·.id) ++ d.id :: seen).Nodup) ↔
        ((d :: ds).map (·.id) ++ seen).Nodup := by
      rw [List.perm_middle.nodup_iff, List.map_cons, List.cons_append, List.nodup_cons]
      exact ⟨fun h => h.2, fun h => ⟨fun hmem => h.1 (List.mem_append_right _ hmem), h⟩⟩
    rw [checkNodes_cons_eq_ok_iff, List.forall₂_cons_left_iff, ← hids]
    constructor
    · rintro ⟨hid, n, ns', hn, hns, rfl⟩
      obtain ⟨hdistinct, hgives⟩ := (ih (hseen.cons hid)).1 hns
      exact ⟨⟨hid, hdistinct⟩, n, ns', hn, hgives, rfl⟩
    · rintro ⟨⟨hid, hdistinct⟩, n, ns', hn, hgives, rfl⟩
      exact ⟨hid, n, ns', hn, (ih (hseen.cons hid)).2 ⟨hdistinct, hgives⟩, rfl⟩

/-- The error is that of the first node at fault, where the ids of the nodes before it are taken as
well. -/
theorem checkNodes_eq_error_iff (hseen : seen.Nodup) : checkNodes seen ds = .error e ↔
    ∃ before d after, ds = before ++ d :: after ∧ (before.map (·.id) ++ seen).Nodup ∧
      (∀ b ∈ before, b.Sound) ∧ d.Fault (before.map (·.id) ++ seen) e := by
  -- Every node that is passed moves from the nodes before the fault to the ids seen.
  induction ds generalizing seen with
  | nil =>
    refine ⟨nofun, fun ⟨before, d, after, h, _⟩ => ?_⟩
    exact absurd h.symm (List.append_ne_nil_of_right_ne_nil _ (List.cons_ne_nil _ _))
  | cons d ds ih =>
    rw [checkNodes_cons_eq_error_iff]
    constructor
    · rintro (h | ⟨hid, hsound, h⟩)
      · exact ⟨[], d, ds, rfl, hseen, nofun, h⟩
      · obtain ⟨before, d', after, rfl, hdistinct, hbefore, h⟩ := (ih (hseen.cons hid)).1 h
        refine ⟨d :: before, d', after, rfl, List.perm_middle.nodup_iff.1 hdistinct,
          List.forall_mem_cons.2 ⟨hsound, hbefore⟩, ?_⟩
        exact (DocumentNode.Fault.congr fun id => List.perm_middle.mem_iff).1 h
    · rintro ⟨before, d', after, hds, hdistinct, hbefore, h⟩
      cases before with
      | nil =>
        obtain ⟨rfl, rfl⟩ := List.cons.inj hds
        exact .inl h
      | cons b before =>
        obtain ⟨rfl, rfl⟩ := List.cons.inj hds
        obtain ⟨hsound, hbefore⟩ := List.forall_mem_cons.1 hbefore
        have hid : d.id ∉ seen := fun hmem =>
          (List.nodup_cons.1 hdistinct).1 (List.mem_append_right _ hmem)
        refine .inr ⟨hid, hsound, (ih (hseen.cons hid)).2 ⟨before, d', after, rfl, ?_, hbefore, ?_⟩⟩
        · exact List.perm_middle.nodup_iff.2 hdistinct
        · exact (DocumentNode.Fault.congr fun id => List.perm_middle.mem_iff).2 h

end

/-! ## Documents -/

namespace Document

variable {d : Document} {g : Graph} {e : GraphError}

theorem graph_eq_ok_iff : d.graph = .ok g ↔ (d.nodes.map (·.id)).Nodup ∧
    List.Forall₂ DocumentNode.Gives d.nodes g.nodes ∧ g.edges = d.edges := by
  have hwalk (ns : List Node) : checkNodes [] d.nodes = .ok ns ↔
      (d.nodes.map (·.id)).Nodup ∧ List.Forall₂ DocumentNode.Gives d.nodes ns := by
    rw [checkNodes_eq_ok_iff .nil, List.append_nil]
  rw [graph, bind_eq_ok_iff]
  constructor
  · rintro ⟨ns, hns, h⟩
    cases h
    exact ⟨((hwalk ns).1 hns).1, ((hwalk ns).1 hns).2, rfl⟩
  · rintro ⟨hdistinct, hgives, hedges⟩
    exact ⟨g.nodes, (hwalk _).2 ⟨hdistinct, hgives⟩, hedges ▸ rfl⟩

/-- The first node at fault is told, and all nodes before it are sound. -/
theorem graph_eq_error_iff : d.graph = .error e ↔ ∃ before n after,
    d.nodes = before ++ n :: after ∧ (before.map (·.id)).Nodup ∧ (∀ b ∈ before, b.Sound) ∧
      n.Fault (before.map (·.id)) e := by
  have hgraph : d.graph = .error e ↔ checkNodes [] d.nodes = .error e := by
    rw [graph]
    cases checkNodes [] d.nodes <;> simp [bind, Except.bind, pure, Except.pure]
  simp only [hgraph, checkNodes_eq_error_iff .nil, List.append_nil]

/-- Nodes that are sound one by one give nodes. -/
theorem exists_gives_iff {ds : List DocumentNode} :
    (∃ ns, List.Forall₂ DocumentNode.Gives ds ns) ↔ ∀ d ∈ ds, d.Sound := by
  simp only [DocumentNode.sound_iff]
  induction ds with
  | nil => simp
  | cons d ds ih =>
    rw [List.forall_mem_cons, ← ih]
    constructor
    · rintro ⟨_, ⟨⟩⟩
      next hn hns => exact ⟨⟨_, hn⟩, _, hns⟩
    · rintro ⟨⟨n, hn⟩, ns, hns⟩
      exact ⟨n :: ns, .cons hn hns⟩

theorem exists_graph_iff : (∃ g, d.graph = .ok g) ↔
    (d.nodes.map (·.id)).Nodup ∧ ∀ n ∈ d.nodes, n.Sound := by
  simp only [graph_eq_ok_iff, ← exists_gives_iff]
  constructor
  · rintro ⟨g, hdistinct, hgives, -⟩
    exact ⟨hdistinct, g.nodes, hgives⟩
  · rintro ⟨hdistinct, ns, hgives⟩
    exact ⟨⟨ns, d.edges⟩, hdistinct, hgives, rfl⟩

end Document

/-- A text is accepted if it is a document whose ids differ and whose nodes are sound, and gives
just the nodes and edges of the document. Else the text is malformed, or the first node at fault is
blamed, whatever is wrong behind it. -/
theorem Graph.ofText_accepts_or_blames (s : String) :
    ((∃ g, Graph.ofText s = .ok g) ↔ ∃ d, Document.codec.ofText s = .ok d ∧
      (d.nodes.map (·.id)).Nodup ∧ ∀ n ∈ d.nodes, n.Sound) ∧
    (∀ g, Graph.ofText s = .ok g → ∃ d, Document.codec.ofText s = .ok d ∧
      List.Forall₂ DocumentNode.Gives d.nodes g.nodes ∧ g.edges = d.edges) ∧
    ∀ e, Graph.ofText s = .error e ↔
      (∃ error, Document.codec.ofText s = .error error ∧ e = .malformed error) ∨
      ∃ d, Document.codec.ofText s = .ok d ∧ ∃ before n after,
        d.nodes = before ++ n :: after ∧ (before.map (·.id)).Nodup ∧ (∀ b ∈ before, b.Sound) ∧
          n.Fault (before.map (·.id)) e := by
  cases hd : Document.codec.ofText s with
  | error error =>
    have hread : Graph.ofText s = .error (.malformed error) := by rw [Graph.ofText, hd]
    rw [hread]
    simp [eq_comm]
  | ok d =>
    have hread : Graph.ofText s = d.graph := by rw [Graph.ofText, hd]
    rw [hread]
    refine ⟨by simp [Document.exists_graph_iff], fun g hg => ?_, fun e => ?_⟩
    · exact ⟨d, rfl, (Document.graph_eq_ok_iff.1 hg).2⟩
    · simp [Document.graph_eq_error_iff]

/-- Of the second node the id is reported and not the tag, and of the third nothing. -/
example : (Graph.ofText ("\x7b\"nodes\":[[\"a\",\"note\",null,null],[\"a\",\"memo\",null,null]," ++
    "[\"b\",\"memo\",null,null]]\x7d")).map (·.edges) = .error (.duplicateId "a") := by
  decide +kernel

end CampaignRouting
