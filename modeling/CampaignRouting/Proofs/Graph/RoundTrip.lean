import CampaignRouting.Graph.Document
import CampaignRouting.Proofs.Graph.Codec
import Mathlib.Data.List.Induction

/-!
# The round trip of editor documents

A graph that has been read from texts is written as a text that gives the same graph, unless two of
its nodes share an id, as they can where graphs are put together. Then the text is refused for the
first id that is taken (`Graph.document_round_trip`).
-/

namespace CampaignRouting

open Json (Codec)

/-! ## Documents -/

theorem Edge.codec_restores (e : Edge) : Edge.codec.Restores 1 e :=
  .record (by decide) rfl
    ⟨.always rfl (.string _), .always rfl (.string _), .always rfl (.string _), trivial⟩

theorem DocumentNode.codec_restores {n : DocumentNode}
    (hdata : Codec.json.Restores Payload.maxDepth n.data) :
    DocumentNode.codec.Restores (Payload.maxDepth + 1) n := by
  have hparent : Codec.string.option.Restores Payload.maxDepth n.parent := .optionString _
  refine .record (by decide) rfl ?_
  exact ⟨.always rfl (.string _), .always rfl (.string _), .of_hidden rfl hparent,
    .always rfl hdata, trivial⟩

theorem Document.codec_restores {d : Document}
    (hnodes : ∀ n ∈ d.nodes, Codec.json.Restores Payload.maxDepth n.data) :
    Document.codec.Restores Codec.maxDepth d :=
  .record (by decide) rfl
    ⟨.always rfl (.list fun n hn => DocumentNode.codec_restores (hnodes n hn)),
      .always rfl ((Json.Codec.Restores.list fun e _ => Edge.codec_restores e).mono (by decide)),
      trivial⟩

/-- The data of the nodes of a document that has been read. -/
theorem Document.canonical_of_gives {d : Document} (h : Document.codec.Gives Codec.maxDepth d) :
    ∀ n ∈ d.nodes, n.data.Canonical Payload.maxDepth := by
  obtain ⟨⟨nodes, _, ⟨⟩⟩, rfl, hnodes, -⟩ := h.record
  rcases hnodes.or_default rfl rfl with hnodes | rfl
  · intro n hn
    obtain ⟨⟨_, _, _, data, ⟨⟩⟩, rfl, -, -, -, hdata, -⟩ := (hnodes.list n hn).record
    rcases hdata.or_default rfl rfl with hdata | rfl
    · exact hdata.json
    · exact .null
  · exact List.forall_mem_nil _

/-! ## Nodes -/

/-- A node in the form that documents keep. -/
def Node.document (n : Node) : DocumentNode := ⟨n.id, n.type.name, n.parent, n.payload.toJson⟩

theorem ofTag?_name (t : NodeType) : NodeType.ofTag? t.name = some t := by
  cases t <;> rfl

theorem DocumentNode.sound_of_check {d : DocumentNode} {n : Node}
    (hdata : d.data.Canonical Payload.maxDepth) (h : d.check = .ok n) : n.payload.Sound := by
  have hempty : (Json.object []).Canonical Payload.maxDepth := .object .nil nofun
  unfold DocumentNode.check at h
  split at h
  · cases h
  · next type _ =>
    dsimp only at h
    split at h
    · next payload hpayload =>
      cases h
      refine Payload.Sound.of_ofJson ?_ hpayload
      split
      · exact hempty
      · exact hdata
    · cases h

theorem Node.check_document {n : Node} (h : n.payload.Sound)
    (hfloats : ∀ x ∈ n.payload.floats, (Json.Number.float x).ReadsBack) :
    n.document.check = .ok n := by
  obtain ⟨ms, hms⟩ := n.payload.toJson_eq_object
  have hpayload := (Payload.ofJson_toJson h hfloats).2
  rw [hms] at hpayload
  simp only [DocumentNode.check, document, ofTag?_name, hms, type, hpayload]

theorem mem_checkNodes {seen : List String} {ds : List DocumentNode} {ns : List Node}
    (h : checkNodes seen ds = .ok ns) : ∀ n ∈ ns, ∃ d ∈ ds, d.check = .ok n := by
  induction ds generalizing seen ns with
  | nil =>
    cases h
    exact fun _ hn => absurd hn List.not_mem_nil
  | cons d ds ih =>
    rw [checkNodes] at h
    split at h
    · cases h
    · obtain ⟨n, hn, h⟩ := bind_eq_ok_iff.1 h
      obtain ⟨ns, hns, h⟩ := bind_eq_ok_iff.1 h
      cases h
      refine List.forall_mem_cons.2 ⟨⟨d, .head _, hn⟩, fun n' hn' => ?_⟩
      obtain ⟨d', hd', hcheck⟩ := ih hns n' hn'
      exact ⟨d', .tail _ hd', hcheck⟩

theorem checkNodes_cons {seen : List String} {n : Node} (hid : n.id ∉ seen)
    (hcheck : n.document.check = .ok n) (ds : List DocumentNode) :
    checkNodes seen (n.document :: ds) = (checkNodes (n.id :: seen) ds).map (n :: ·) := by
  have hid : n.document.id ∉ seen := hid
  rw [checkNodes, if_neg hid, hcheck]
  cases hrest : checkNodes (n.document.id :: seen) ds <;> exact hrest ▸ rfl

/-- Nodes are read back up to the first one whose id is taken. -/
theorem checkNodes_append {ns : List Node} (hcheck : ∀ n ∈ ns, n.document.check = .ok n)
    (seen : List String) (hdistinct : (ns.map (·.id) ++ seen).Nodup) (rest : List DocumentNode) :
    checkNodes seen (ns.map Node.document ++ rest) =
      (checkNodes ((ns.map (·.id)).reverse ++ seen) rest).map (ns ++ ·) := by
  induction ns generalizing seen with
  | nil =>
    show checkNodes seen rest = (checkNodes seen rest).map id
    cases checkNodes seen rest <;> rfl
  | cons n ns ih =>
    obtain ⟨hn, hcheck⟩ := List.forall_mem_cons.1 hcheck
    obtain ⟨hnew, hrest⟩ := List.nodup_cons.1 hdistinct
    have hid : n.id ∉ seen := fun hmem => hnew (List.mem_append_right _ hmem)
    have hdistinct : (ns.map (·.id) ++ n.id :: seen).Nodup := List.perm_middle.nodup_iff.2 hdistinct
    rw [List.map_cons, List.cons_append, checkNodes_cons hid hn, ih hcheck _ hdistinct,
      List.map_cons, List.reverse_cons, List.append_assoc, List.singleton_append]
    cases checkNodes ((ns.map (·.id)).reverse ++ n.id :: seen) rest <;> rfl

namespace Graph

/-- The graphs that texts give, and what is put together of them. -/
inductive FromTexts : Graph → Prop
  | text {s : String} {g : Graph} (h : Graph.ofText s = .ok g) : FromTexts g
  | append {g h : Graph} : FromTexts g → FromTexts h → FromTexts (g ++ h)

def floats (g : Graph) : List Float := g.nodes.flatMap (·.payload.floats)

theorem FromTexts.sound {g : Graph} (h : g.FromTexts) : ∀ n ∈ g.nodes, n.payload.Sound := by
  induction h with
  | @text s g h =>
    unfold Graph.ofText at h
    split at h
    · next d hd =>
      obtain ⟨ns, hns, h⟩ := bind_eq_ok_iff.1 h
      cases h
      have hdata := Document.canonical_of_gives (.of_ofText hd)
      intro n hn
      obtain ⟨dn, hdn, hcheck⟩ := mem_checkNodes hns n hn
      exact dn.sound_of_check (hdata dn hdn) hcheck
    · cases h
  | append _ _ ihg ihh => exact List.forall_mem_append.2 ⟨ihg, ihh⟩

/-- The first element of a list that has the name of one before it. -/
theorem exists_first_repeat {α : Type} {name : α → String} {l : List α}
    (h : ¬(l.map name).Nodup) : ∃ before a after, l = before ++ a :: after ∧
      (before.map name).Nodup ∧ name a ∈ before.map name := by
  induction l using List.reverseRecOn with
  | nil => exact absurd .nil h
  | append_singleton l a ih =>
    by_cases hl : (l.map name).Nodup
    · refine ⟨l, a, [], rfl, hl, ?_⟩
      by_contra hnew
      refine h ?_
      rw [List.map_append]
      exact hl.append (List.nodup_singleton _) (by simpa using hnew)
    · obtain ⟨before, b, after, rfl, hbefore, hb⟩ := ih hl
      exact ⟨before, b, after ++ [a], by simp, hbefore, hb⟩

theorem graph_document (g : Graph) :
    g.document.graph = (checkNodes [] (g.nodes.map Node.document)).map (⟨·, g.edges⟩) := by
  show (do return Graph.mk (← checkNodes [] (g.nodes.map Node.document)) g.edges) = _
  cases checkNodes [] (g.nodes.map Node.document) <;> rfl

/-- A graph is read back if its ids differ, and else the first id that is taken is reported. -/
theorem document_round_trip {g : Graph} (h : g.FromTexts)
    (hfloats : ∀ x ∈ g.floats, (Json.Number.float x).ReadsBack) :
    ((g.nodes.map (·.id)).Nodup → Graph.ofText g.toText = .ok g) ∧
    (¬(g.nodes.map (·.id)).Nodup → ∃ before n after, g.nodes = before ++ n :: after ∧
      (before.map (·.id)).Nodup ∧ n.id ∈ before.map (·.id) ∧
      Graph.ofText g.toText = .error (.duplicateId n.id)) := by
  have hnode : ∀ n ∈ g.nodes, ∀ x ∈ n.payload.floats, (Json.Number.float x).ReadsBack :=
    fun n hn x hx => hfloats x (List.mem_flatMap.2 ⟨n, hn, hx⟩)
  have hcheck : ∀ n ∈ g.nodes, n.document.check = .ok n := fun n hn =>
    Node.check_document (h.sound n hn) (hnode n hn)
  have hdata : ∀ d ∈ g.document.nodes, Codec.json.Restores Payload.maxDepth d.data :=
    List.forall_mem_map.2 fun n hn => (Payload.ofJson_toJson (h.sound n hn) (hnode n hn)).1
  have hread : Graph.ofText g.toText = g.document.graph := by
    have hdocument : Document.codec.ofText g.toText = .ok g.document :=
      (Document.codec_restores hdata).ofText_toText
    rw [Graph.ofText, hdocument]
  rw [hread, graph_document]
  constructor
  · intro hdistinct
    have hnodes := checkNodes_append hcheck [] (by simpa using hdistinct) []
    rw [List.append_nil] at hnodes
    rw [hnodes]
    show Except.ok (Graph.mk (g.nodes ++ []) g.edges) = _
    rw [List.append_nil]
  · intro hrepeat
    obtain ⟨before, n, after, hg, hbefore, hn⟩ := exists_first_repeat hrepeat
    refine ⟨before, n, after, hg, hbefore, hn, ?_⟩
    have hcheck : ∀ n ∈ before, n.document.check = .ok n := fun n hn =>
      hcheck n (hg ▸ List.mem_append_left _ hn)
    have hnodes := checkNodes_append hcheck [] (by simpa using hbefore)
      ((n :: after).map Node.document)
    have htaken : n.document.id ∈ (before.map (·.id)).reverse ++ [] := by
      simpa [Node.document] using hn
    rw [hg, List.map_append, hnodes, List.map_cons, checkNodes, if_pos htaken]
    rfl

/-- A segment with one rule, in the short form of lists. -/
def citySegment : String :=
  "\x7b\"nodes\":[[\"s\",\"segment\",null,[\"\",\"\",5,null,[[\"r\",\"city\",\"in\",[1.5]]]]]]\x7d"

/-- The segment is read back; put together with itself, its id is taken. -/
theorem document_round_trip_citySegment : ∃ g, Graph.ofText citySegment = .ok g ∧
    Graph.ofText g.toText = .ok g ∧
    Graph.ofText (g ++ g).toText = .error (.duplicateId "s") := by
  have hread : ((Graph.ofText citySegment).map fun g => (g.nodes.map (·.id), g.floats)) =
      .ok (["s"], [5.0, 1.5]) := by decide +kernel
  obtain ⟨g, hg, h⟩ := map_eq_ok_iff.1 hread
  obtain ⟨hids, hfloats⟩ := Prod.mk.inj h
  have hback : ∀ x ∈ g.floats, (Json.Number.float x).ReadsBack := by
    rw [hfloats]
    refine List.forall_mem_cons.2 ⟨⟨'5', ['.', '0'], ?_, rfl⟩, List.forall_mem_singleton.2
      ⟨'1', ['.', '5'], ?_, rfl⟩⟩ <;> decide +kernel
  have hbackTwice : ∀ x ∈ (g ++ g).floats, (Json.Number.float x).ReadsBack := by
    have htwice : (g ++ g).floats = g.floats ++ g.floats := List.flatMap_append
    exact htwice ▸ List.forall_mem_append.2 ⟨hback, hback⟩
  have hidsTwice : (g ++ g).nodes.map (·.id) = ["s", "s"] := by
    have htwice : (g ++ g).nodes = g.nodes ++ g.nodes := rfl
    rw [htwice, List.map_append, hids]
    rfl
  obtain ⟨before, n, after, hnodes, -, -, herror⟩ :=
    (document_round_trip (.append (.text hg) (.text hg)) hbackTwice).2 (by simp [hidsTwice])
  have hn : n.id ∈ (g ++ g).nodes.map (·.id) := List.mem_map.2 ⟨n, by simp [hnodes], rfl⟩
  rw [hidsTwice] at hn
  have hid : n.id = "s" := by simpa using hn
  exact ⟨g, hg, (document_round_trip (.text hg) hback).1 (by simp [hids]), hid ▸ herror⟩

end Graph
end CampaignRouting
