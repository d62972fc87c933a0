import CampaignRouting.Proofs.Graph.Acceptance
import CampaignRouting.Proofs.Graph.RoundTrip
import CampaignRouting.Proofs.Json.Respelling
import CampaignRouting.Routing.Compile

/-!
# The spelling of documents

Editors write the members of a document in any order, know some fields by two names, tag tests in
three ways, and leave members of their own in the records. None of this is seen in the graph: a
text whose document is another one rewritten (`Document.Respelled`) gives the same graph, if the
other gives any and repeats no name in an object (`Graph.ofText_respelled`).

What may be rewritten is said record by record, in the slots. A payload is set aside as a value
before the tag of its node is looked at, so its record is met twice: what is set aside is still the
record rewritten (`NodeType.lifts_slots`), and is then read as the same payload
(`Payload.ofJson_rewritten`).
-/

namespace CampaignRouting

open Json (Codec Slot Tree)
open Json.Tree (Reordered ListOf RecordOf)

/-! ## What may be rewritten -/

def Rule.slots : List Slot :=
  ["id", "ruleType", "operator", "value", "label", "isRequired"].map .plain

def Traffic.slots : List Slot := ["defaultVariantId"].map .plain

def Segment.slots : List Slot :=
  [.plain "title", .plain "description", .plain "priority", .plain "primaryLandingPageId",
    ⟨["rules"], ListOf (RecordOf Rule.slots)⟩, .plain "translationMode", .plain "translations"]

def CompletionCriteria.slots : List Slot :=
  ["minSampleSize", "minDurationDays", "maxDurationDays"].map .plain

def Arm.slots : List Slot :=
  ["id", "name", "landingPageId", "trafficAllocation", "isControl"].map .plain

def AbTest.slots : List Slot :=
  [.plain "title", .plain "hypothesis", .plain "status", .plain "primaryMetric",
    ⟨["completionCriteria"], RecordOf CompletionCriteria.slots⟩, .plain "confidenceLevel",
    .plain "poolingPercent", ⟨["variants"], ListOf (RecordOf Arm.slots)⟩, .plain "winner"]

def Variant.slots : List Slot := ["title", "landingPageId", "trafficPercentage"].map .plain

def Note.slots : List Slot := ["text"].map .plain

def Form.slots : List Slot := ["formId", "title"].map .plain

namespace NodeType

/-- The slots of the payload of a node. -/
def slots : NodeType → List Slot
  | traffic => Traffic.slots
  | segment => Segment.slots
  | abTest => AbTest.slots
  | variant => Variant.slots
  | note => Note.slots
  | form => Form.slots

/-- Both trees are texts that are tags of the type. -/
inductive TagOf (type : NodeType) : Tree → Tree → Prop
  | text {q q' : Json.Quoted} {tag tag' : String} (htag : q.text = .ok tag)
    (hspelling : tag ∈ type.spellings) (htag' : q'.text = .ok tag')
    (hspelling' : tag' ∈ type.spellings) : TagOf type (.scalar (.string q)) (.scalar (.string q'))

end NodeType

/-- A node of some type is rewritten: its tag into one of the same type, its payload as one of this
type. -/
def DocumentNode.slots (type : NodeType) : List Slot :=
  [.plain "id", ⟨["type", "kind"], type.TagOf⟩, ⟨["parentId", "parentNode"], Reordered⟩,
    ⟨["data", "payload"], RecordOf type.slots⟩]

/-- The node is written in another way that its type allows. -/
def DocumentNode.Rewritten (t t' : Tree) : Prop := ∃ type, RecordOf (slots type) t t'

def Edge.slots : List Slot :=
  [.plain "id", ⟨["source", "sourceNodeId"], Reordered⟩, ⟨["target", "targetNodeId"], Reordered⟩]

def Document.slots : List Slot :=
  [⟨["nodes"], ListOf DocumentNode.Rewritten⟩, ⟨["edges"], ListOf (RecordOf Edge.slots)⟩]

/-- The document is written in another way, node by node and edge by edge. -/
def Document.Rewritten : Tree → Tree → Prop := RecordOf Document.slots

/-! ## Operands of rules -/

namespace RuleValue

theorem mapM_eq_of_forall₂ {α β : Type} {f : α → Option β} {l l' : List α}
    (h : List.Forall₂ (fun a a' => f a = f a') l l') : l.mapM f = l'.mapM f := by
  induction h with
  | nil => rfl
  | cons ha _ ih => rw [List.mapM_cons, List.mapM_cons, ha, ih]

/-- Operands have no members, so they cannot be told apart by their order. -/
theorem ofTree?_reordered {t t' : Tree} (h : t.Reordered t') : ofTree? t = ofTree? t' := by
  cases h with
  | scalar | absent | object => rfl
  | list close hitems =>
    have htexts := mapM_eq_of_forall₂ (f := text?) (hitems.imp fun t t' h => by cases h <;> rfl)
    have hnumbers := mapM_eq_of_forall₂ (f := number?) (hitems.imp fun t t' h => by cases h <;> rfl)
    rw [ofTree?, ofTree?, htexts, hnumbers]

theorem codec_respects : codec.Respects Reordered (· = ·) := by
  refine .of_eq fun source t t' v hR hdistinct hread => ?_
  obtain ⟨_, hcheck, hv⟩ := bind_eq_ok_iff.1 hread
  obtain ⟨w, hw, -⟩ := bind_eq_ok_iff.1 hcheck
  rw [ofTree?_reordered hR] at hv
  have hw' := Codec.json_respects_reordered.read_eq hR hdistinct hw
  exact bind_eq_ok_iff.2 ⟨(), bind_eq_ok_iff.2 ⟨w, hw', rfl⟩, hv⟩

end RuleValue

/-! ## Payloads -/

section
open Json.Codec Json.Fields.Respects

theorem optionString_respects : Codec.string.option.Respects Reordered (· = ·) :=
  string_respects.option Reordered.keepsScalars

theorem Rule.codec_respects : Rule.codec.Respects (RecordOf Rule.slots) (· = ·) :=
  .record_eq (by decide) <|
    cons_eq rfl string_respects <|
    cons_eq rfl (enum_respects _ _) <|
    cons_eq rfl (enum_respects _ _) <|
    cons_eq rfl (RuleValue.codec_respects.option Reordered.keepsScalars) <|
    cons_eq rfl string_respects <|
    cons_eq rfl (bool_respects.option Reordered.keepsScalars) nil_eq

theorem Traffic.codec_respects : Traffic.codec.Respects (RecordOf Traffic.slots) (· = ·) :=
  .record_eq (by decide) <| cons_eq rfl optionString_respects nil_eq

theorem Segment.codec_respects : Segment.codec.Respects (RecordOf Segment.slots) (· = ·) :=
  .record_eq (by decide) <|
    cons_eq rfl string_respects <|
    cons_eq rfl string_respects <|
    cons_eq rfl float_respects <|
    cons_eq rfl optionString_respects <|
    cons_eq rfl Rule.codec_respects.list_eq <|
    cons_eq rfl (enum_respects _ _) <|
    cons_eq rfl sortedMap_json_respects nil_eq

theorem CompletionCriteria.codec_respects :
    CompletionCriteria.codec.Respects (RecordOf CompletionCriteria.slots) (· = ·) :=
  .record_eq (by decide) <|
    cons_eq rfl (((natural_respects _ _).map _ _).option Reordered.keepsScalars) <|
    cons_eq rfl (((natural_respects _ _).map _ _).option Reordered.keepsScalars) <|
    cons_eq rfl (((natural_respects _ _).map _ _).option Reordered.keepsScalars) nil_eq

theorem Arm.codec_respects : Arm.codec.Respects (RecordOf Arm.slots) (· = ·) :=
  .record_eq (by decide) <|
    cons_eq rfl string_respects <|
    cons_eq rfl string_respects <|
    cons_eq rfl optionString_respects <|
    cons_eq rfl float_respects <|
    cons_eq rfl bool_respects nil_eq

theorem AbTest.codec_respects : AbTest.codec.Respects (RecordOf AbTest.slots) (· = ·) :=
  .record_eq (by decide) <|
    cons_eq rfl string_respects <|
    cons_eq rfl string_respects <|
    cons_eq rfl (enum_respects _ _) <|
    cons_eq rfl optionString_respects <|
    cons_eq rfl (CompletionCriteria.codec_respects.option (RecordOf.keepsScalars _)) <|
    cons_eq rfl (((natural_respects _ _).map _ _).refine _ _) <|
    cons_eq rfl float_respects <|
    cons_eq rfl Arm.codec_respects.list_eq <|
    cons_eq rfl optionString_respects nil_eq

theorem Variant.codec_respects : Variant.codec.Respects (RecordOf Variant.slots) (· = ·) :=
  .record_eq (by decide) <|
    cons_eq rfl string_respects <|
    cons_eq rfl optionString_respects <|
    cons_eq rfl (float_respects.option Reordered.keepsScalars) nil_eq

theorem Note.codec_respects : Note.codec.Respects (RecordOf Note.slots) (· = ·) :=
  .record_eq (by decide) <| cons_eq rfl string_respects nil_eq

theorem Form.codec_respects : Form.codec.Respects (RecordOf Form.slots) (· = ·) :=
  .record_eq (by decide) <| cons_eq rfl optionString_respects <| cons_eq rfl string_respects nil_eq

end

/-- A payload is read alike from values that are rewritten into each other. -/
theorem Payload.ofJson_rewritten {type : NodeType} {data data' : Json} {p : Payload}
    (h : RecordOf type.slots (.ofJson data) (.ofJson data'))
    (hdistinct : (Tree.ofJson data).Distinct)
    (hread : Payload.ofJson type data = .ok p) : Payload.ofJson type data' = .ok p := by
  have hvalue {α : Type} {c : Codec α} {make : α → Payload}
      (hc : c.Respects (RecordOf type.slots) (· = ·))
      (hread : (c.ofValue data).map make = .ok p) : (c.ofValue data').map make = .ok p := by
    obtain ⟨a, ha, hp⟩ := map_eq_ok_iff.1 hread
    exact map_eq_ok_iff.2 ⟨a, hc.read_eq h hdistinct ha, hp⟩
  cases type with
  | traffic => exact hvalue Traffic.codec_respects hread
  | segment => exact hvalue Segment.codec_respects hread
  | abTest => exact hvalue AbTest.codec_respects hread
  | variant => exact hvalue Variant.codec_respects hread
  | note => exact hvalue Note.codec_respects hread
  | form => exact hvalue Form.codec_respects hread

/-! ## Values of payloads -/

theorem lifts_plain (names : List String) :
    ∀ slot ∈ names.map Slot.plain, Tree.Lifts slot.Rewrites :=
  List.forall_mem_map.2 fun _ _ => Json.Tree.lifts_reordered

theorem lifts_recordOf_plain (names : List String) : Tree.Lifts (RecordOf (names.map .plain)) :=
  Json.Tree.lifts_recordOf (lifts_plain names) (List.forall_mem_map.2 fun _ _ => rfl)

/-- What is set aside of a rewritten payload is rewritten alike. -/
theorem NodeType.lifts_slots (type : NodeType) : Tree.Lifts (RecordOf type.slots) := by
  have hplain := Json.Tree.lifts_reordered
  cases type with
  | traffic | variant | note | form => exact lifts_recordOf_plain _
  | segment =>
    refine Json.Tree.lifts_recordOf ?_ (by decide)
    have hrules : Tree.Lifts (ListOf (RecordOf Rule.slots)) := (lifts_recordOf_plain _).listOf
    simp [slots, Segment.slots, Slot.plain, hplain, hrules]
  | abTest =>
    refine Json.Tree.lifts_recordOf ?_ (by decide)
    have hcriteria : Tree.Lifts (RecordOf CompletionCriteria.slots) := lifts_recordOf_plain _
    have harms : Tree.Lifts (ListOf (RecordOf Arm.slots)) := (lifts_recordOf_plain _).listOf
    simp [slots, AbTest.slots, Slot.plain, hplain, hcriteria, harms]

/-! ## Nodes and edges -/

section
open Json.Codec Json.Fields.Respects

theorem Edge.codec_respects : Edge.codec.Respects (RecordOf Edge.slots) (· = ·) :=
  .record_eq (by decide) <|
    cons_eq rfl string_respects <|
    cons_eq rfl string_respects <|
    cons_eq rfl string_respects nil_eq

/-- The tags of one type are read as such. -/
theorem NodeType.tag_respects (type : NodeType) : Codec.string.Respects type.TagOf
    fun tag tag' => tag ∈ type.spellings ∧ tag' ∈ type.spellings := by
  rintro source _ _ a ⟨htag, hspelling, htag', hspelling'⟩ - hread
  obtain rfl := Except.ok.inj (htag.symm.trans (Json.Quoted.read_eq_ok_iff.1 hread))
  exact ⟨_, Json.Quoted.read_eq_ok_iff.2 htag', hspelling, hspelling'⟩

/-- The nodes differ in the spelling of the tag and in what is rewritten in the data. -/
structure DocumentNode.Alike (d d' : DocumentNode) : Prop where
  id : d.id = d'.id
  parent : d.parent = d'.parent
  tagAndData : ∃ type : NodeType, d.type ∈ type.spellings ∧ d'.type ∈ type.spellings ∧
    RecordOf type.slots (.ofJson d.data) (.ofJson d'.data)

/-- A node that is written in another way is read as one that is alike. -/
theorem DocumentNode.codec_respects :
    DocumentNode.codec.Respects DocumentNode.Rewritten DocumentNode.Alike := by
  rintro source t t' d ⟨type, hR⟩ hdistinct hread
  have hnull : RecordOf type.slots (.ofJson .null) (.ofJson .null) := .scalar _
  have hdefault : ∀ v ∈ some Json.null, RecordOf type.slots (.ofJson v) (.ofJson v) := by
    rintro _ ⟨⟩
    exact hnull
  have hrecord : DocumentNode.codec.Respects (RecordOf (slots type)) Alike := by
    refine .record ?_ (cons_and rfl string_respects nofun nofun <|
      cons_and rfl type.tag_respects nofun nofun <|
      cons_and rfl optionString_respects (fun _ _ => rfl) (fun _ _ => rfl) <|
      cons_and rfl type.lifts_slots hdefault hdefault nil_eq) ?_
    · show ["id", "type", "kind", "parentId", "parentNode", "data", "payload"].Nodup
      decide
    · rintro _ _ ⟨hid, ⟨htag, htag'⟩, hparent, hdata, -⟩
      exact ⟨hid, hparent, type, htag, htag', hdata⟩
  exact hrecord hR hdistinct hread

/-- A document that is written in another way gives nodes that are alike, and the same edges. -/
theorem Document.codec_respects : Document.codec.Respects Document.Rewritten
    fun d d' => List.Forall₂ DocumentNode.Alike d.nodes d'.nodes ∧ d.edges = d'.edges := by
  refine .record (by decide) (cons_and rfl DocumentNode.codec_respects.list ?_ ?_ <|
    cons_and rfl Edge.codec_respects.list_eq (fun _ _ => rfl) (fun _ _ => rfl) nil_eq) ?_
  · rintro _ ⟨⟩
    exact .nil
  · rintro _ ⟨⟩
    exact .nil
  · rintro _ _ ⟨hnodes, hedges, -⟩
    exact ⟨hnodes, hedges⟩

end

/-! ## Documents -/

namespace DocumentNode

variable {d d' : DocumentNode}

theorem ofJson_eq_null_iff {v : Json} : Tree.ofJson v = .scalar (.word .null) ↔ v = .null := by
  cases v with
  | bool b => cases b <;> simp [Tree.ofJson]
  | null | number | string | array | object => simp [Tree.ofJson]

/-- Missing data stay missing, and the payload without any is rewritten into itself. -/
theorem payloadData_rewritten {slots : List Slot}
    (h : RecordOf slots (.ofJson d.data) (.ofJson d'.data)) :
    RecordOf slots (.ofJson d.payloadData) (.ofJson d'.payloadData) := by
  -- Both have no data or neither has: nothing but `null` may be written for `null`.
  have hnull : d.data = .null ↔ d'.data = .null := by
    rw [← ofJson_eq_null_iff, ← ofJson_eq_null_iff]
    exact RecordOf.keepsScalars _ h _
  have hpayload {d : DocumentNode} (hd : d.data ≠ .null) : d.payloadData = d.data := by
    unfold payloadData
    split
    · contradiction
    · rfl
  by_cases hd : d.data = .null
  · have hempty : RecordOf slots (.ofJson (.object [])) (.ofJson (.object [])) :=
      .object _ .nil .nil .nil
    simpa only [payloadData, hd, hnull.1 hd] using hempty
  · rwa [hpayload hd, hpayload (mt hnull.2 hd)]

/-- Data that have been read repeat no key. -/
theorem distinct_payloadData {k : Nat} (h : d.data.Fits k) :
    (Tree.ofJson d.payloadData).Distinct := by
  unfold payloadData
  split
  · exact .object .nil nofun
  · exact h.distinct_ofJson

/-- Nodes that are alike give the same node of a graph. -/
theorem Alike.gives (h : d.Alike d') {k : Nat} (hfits : d.data.Fits k) {n : Node}
    (hn : d.Gives n) : d'.Gives n := by
  obtain ⟨type, htag, htag', hdata⟩ := h.tagAndData
  obtain rfl : n.type = type := Option.some.inj <|
    (NodeType.ofTag?_of_mem_spellings hn.tag).symm.trans (NodeType.ofTag?_of_mem_spellings htag)
  have hpayload := Payload.ofJson_rewritten (payloadData_rewritten hdata)
    (distinct_payloadData hfits) hn.payload
  exact ⟨hn.id.trans h.id, hn.parent.trans h.parent, htag', hpayload⟩

end DocumentNode

/-- Documents of like nodes describe the same graph. -/
theorem Document.graph_of_alike {d d' : Document} {g : Graph} {k : Nat}
    (hnodes : List.Forall₂ DocumentNode.Alike d.nodes d'.nodes) (hedges : d.edges = d'.edges)
    (hfits : ∀ n ∈ d.nodes, n.data.Fits k) (h : d.graph = .ok g) : d'.graph = .ok g := by
  obtain ⟨hdistinct, hgives, hg⟩ := graph_eq_ok_iff.1 h
  have hids : d.nodes.map (·.id) = d'.nodes.map (·.id) := by
    rw [← List.forall₂_eq_eq_eq, List.forall₂_map_left_iff, List.forall₂_map_right_iff]
    exact hnodes.imp fun _ _ h => h.id
  have hgives' := forall₂_transport_same (Q := DocumentNode.Gives) hnodes hgives
    fun n hn _ _ halike hm => halike.gives (hfits n hn) hm
  exact graph_eq_ok_iff.2 ⟨hids ▸ hdistinct, hgives', hg.trans hedges⟩

/-- The documents of two texts are rewritten into each other, and neither text goes on behind its
document unless both do. -/
structure Document.Respelled (s s' : String) : Prop where
  tree : Document.Rewritten (Tree.ofText s).1 (Tree.ofText s').1
  rest : (Tree.ofText s').2 = (Tree.ofText s).2

namespace Graph

/-- However the document of a graph is spelled, it gives the graph. -/
theorem ofText_respelled {s s' : String} {g : Graph} (h : Graph.ofText s = .ok g)
    (hdistinct : (Tree.ofText s).1.Distinct) (hs : Document.Respelled s s') :
    ∃ g', Graph.ofText s' = .ok g' ∧ g' = g ∧ g'.toText = g.toText ∧
      ∀ settings, (RoutingTable.compile g' settings).map RoutingTable.toText =
        (RoutingTable.compile g settings).map RoutingTable.toText := by
  unfold Graph.ofText at h
  split at h
  · next d hd =>
    obtain ⟨d', hd', hnodes, hedges⟩ :=
      Document.codec_respects.ofText hs.tree hs.rest hdistinct hd
    have hcanonical := Document.canonical_of_gives (.of_ofText hd)
    have hgraph : d'.graph = .ok g :=
      Document.graph_of_alike hnodes hedges (fun n hn => (hcanonical n hn).fits) h
    refine ⟨g, ?_, rfl, rfl, fun _ => rfl⟩
    rw [Graph.ofText, hd']
    exact hgraph
  · cases h

/-- A test with an arm that the editor has coloured, and an edge. -/
def colouredTest : Json :=
  .object [
    ("nodes", .array [.object [
      ("id", .string "headline"), ("type", .string "ab-test"), ("selected", .bool true),
      ("data", .object [
        ("title", .string "Headline"),
        ("variants", .array [.object [
          ("id", .string "a"), ("isControl", .bool true), ("colour", .string "red")]])])]]),
    ("edges", .array [.object [
      ("id", .string "e"), ("source", .string "headline"), ("target", .string "a")]])]

/-- The same test without colours, in other words. -/
def plainTest : Json :=
  .object [
    ("edges", .array [.object [
      ("targetNodeId", .string "a"), ("sourceNodeId", .string "headline"), ("id", .string "e")]]),
    ("nodes", .array [.object [
      ("payload", .object [
        ("variants", .array [.object [("isControl", .bool true), ("id", .string "a")]]),
        ("title", .string "Headline")]),
      ("kind", .string "abTest"), ("id", .string "headline")]])]

theorem colouredTest_distinct : (Tree.ofJson colouredTest).Distinct := by
  refine .object (by decide) (List.forall_mem_cons.2 ⟨?_, List.forall_mem_singleton.2 ?_⟩)
  · refine .list (List.forall_mem_singleton.2 (.object (by decide) ?_))
    refine List.forall_mem_cons.2 ⟨.scalar _, List.forall_mem_cons.2 ⟨.scalar _,
      List.forall_mem_cons.2 ⟨.scalar _, List.forall_mem_singleton.2 ?_⟩⟩⟩
    refine .object (by decide) (List.forall_mem_cons.2 ⟨.scalar _, List.forall_mem_singleton.2 ?_⟩)
    refine .list (List.forall_mem_singleton.2 (.object (by decide) ?_))
    exact List.forall_mem_cons.2 ⟨.scalar _, List.forall_mem_cons.2 ⟨.scalar _,
      List.forall_mem_singleton.2 (.scalar _)⟩⟩
  · refine .list (List.forall_mem_singleton.2 (.object (by decide) ?_))
    exact List.forall_mem_cons.2 ⟨.scalar _, List.forall_mem_cons.2 ⟨.scalar _,
      List.forall_mem_singleton.2 (.scalar _)⟩⟩

/-- A member of one field goes by another of its names. -/
theorem change_ofString {slots : List Slot} {slot : Slot} {name name' : String} {t t' : Tree}
    (i j j' : Nat) (hslot : slots[i]? = some slot) (hname : slot.names[j]? = some name)
    (hname' : slot.names[j']? = some name') (h : slot.Rewrites t t') :
    Tree.Change slots (.ofString name, t) (some (.ofString name', t')) :=
  .known (List.mem_of_getElem? hslot) rfl (List.mem_of_getElem? hname) rfl
    (List.mem_of_getElem? hname') h

theorem recordOf_reversed {slots : List Slot} {ms ms' : List (Json.Quoted × Tree)}
    {os : List (Option (Json.Quoted × Tree))} {close : Json.Close}
    (changes : List.Forall₂ (Tree.Change slots) ms os) (order : os.reduceOption.reverse = ms') :
    RecordOf slots (.object ms close) (.object ms' close) :=
  .object close (.refl _) changes (order ▸ List.reverse_perm _)

theorem colouredTest_rewritten :
    Document.Rewritten (.ofJson colouredTest) (.ofJson plainTest) := by
  have hscalar (s : Json.Scalar) : Reordered (.scalar s) (.scalar s) := .scalar s
  refine recordOf_reversed
    (.cons (change_ofString 0 0 0 rfl rfl rfl
      (ListOf.list .bracket (.cons ⟨.abTest, ?node⟩ .nil))) <|
    .cons (change_ofString 1 0 0 rfl rfl rfl
      (ListOf.list .bracket (.cons ?edge .nil))) .nil) rfl
  case node =>
    refine recordOf_reversed
      (.cons (change_ofString 0 0 0 rfl rfl rfl (hscalar _)) <|
      .cons (change_ofString 1 0 1 rfl rfl rfl
        (NodeType.TagOf.text rfl (by decide) rfl (by decide))) <|
      .cons (.dropped rfl (by decide)) <|
      .cons (change_ofString 3 0 1 rfl rfl rfl ?payload) .nil) rfl
    case payload =>
      refine recordOf_reversed
        (.cons (change_ofString 0 0 0 rfl rfl rfl (hscalar _)) <|
        .cons (change_ofString 7 0 0 rfl rfl rfl
          (ListOf.list .bracket (.cons ?arm .nil))) .nil) rfl
      case arm =>
        exact recordOf_reversed
          (.cons (change_ofString 0 0 0 rfl rfl rfl (hscalar _)) <|
          .cons (change_ofString 4 0 0 rfl rfl rfl (hscalar _)) <|
          .cons (.dropped rfl (by decide)) .nil) rfl
  case edge =>
    exact recordOf_reversed
      (.cons (change_ofString 0 0 0 rfl rfl rfl (hscalar _)) <|
      .cons (change_ofString 1 0 1 rfl rfl rfl (hscalar _)) <|
      .cons (change_ofString 2 0 1 rfl rfl rfl (hscalar _)) .nil) rfl

theorem ofText_respelled_colouredTest : ∃ g, Graph.ofText colouredTest.compact = .ok g ∧
    g.nodes.map (·.id) = ["headline"] ∧ Graph.ofText plainTest.compact = .ok g := by
  have hread : (Graph.ofText colouredTest.compact).map (fun g => g.nodes.map (·.id)) =
      .ok ["headline"] := by decide +kernel
  obtain ⟨g, hg, hids⟩ := map_eq_ok_iff.1 hread
  have hcoloured : Tree.ofText colouredTest.compact = (.ofJson colouredTest, false) :=
    Tree.ofText_print Json.Spacing.blank_compact _ nofun
  have hplain : Tree.ofText plainTest.compact = (.ofJson plainTest, false) :=
    Tree.ofText_print Json.Spacing.blank_compact _ nofun
  have hdistinct : (Tree.ofText colouredTest.compact).1.Distinct :=
    hcoloured ▸ colouredTest_distinct
  have hrespelled : Document.Respelled colouredTest.compact plainTest.compact :=
    ⟨by rw [hcoloured, hplain]; exact colouredTest_rewritten, by rw [hcoloured, hplain]⟩
  obtain ⟨g', hg', rfl, -⟩ := ofText_respelled hg hdistinct hrespelled
  exact ⟨g', hg, hids, hg'⟩

end Graph
end CampaignRouting
