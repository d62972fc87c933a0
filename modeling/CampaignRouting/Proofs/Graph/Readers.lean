import CampaignRouting.Graph.Document
import CampaignRouting.Proofs.Json.Reading

/-!
# Two ways to read a graph

A text is read as a document that is checked once the whole text has been read (`Graph.ofText`), or
as a value whose codec checks documents while it reads (`Graph.codec`). The second way meets what is
wrong with a document before what may stand behind it, and wraps the fault in an error of its own.
Still both accept the same texts, give the same graphs, and say the same of a document that is no
graph (`Graph.readers_agree`).
-/

namespace CampaignRouting

namespace Json.Codec

variable {α β : Type} {c : Codec α} {f : α → Except Error β} {g : β → α} {s : String}

/-- A text is refused for its value, or for what follows the value. -/
theorem ofText_eq_error_iff {e : Error} : c.ofText s = .error e ↔
    c.read (.text maxDepth) (Tree.ofText s).1 = .error e ∨
      (∃ a, c.read (.text maxDepth) (Tree.ofText s).1 = .ok a) ∧ (Tree.ofText s).2 = true ∧
        e = .malformed .trailingCharacters := by
  rw [ofText]
  cases Tree.ofText s with
  | mk t more =>
    dsimp only
    cases c.read (.text maxDepth) t <;> cases more <;>
      simp [bind, Except.bind, pure, Except.pure, throw, throwThe, MonadExceptOf.throw, eq_comm]

theorem read_refine (source : Source) (t : Tree) :
    (c.refine f g).read source t = c.read source t >>= f := rfl

/-- Where the text is read, only the meaning of what was read is left to find. -/
theorem ofText_refine_of_ok {a : α} (h : c.ofText s = .ok a) :
    (c.refine f g).ofText s = f a := by
  obtain ⟨hread, hmore⟩ := ofText_eq_ok_iff.1 h
  have hrefine : (c.refine f g).read (.text maxDepth) (Tree.ofText s).1 = f a := by
    rw [read_refine, hread]
    rfl
  cases hf : f a with
  | ok b => exact ofText_eq_ok_iff.2 ⟨hrefine.trans hf, hmore⟩
  | error e => exact ofText_eq_error_iff.2 (.inl (hrefine.trans hf))

/-- A text that is refused stays refused. The error is another one only if there is no meaning to
what stands before the end of the value. -/
theorem ofText_refine_of_error {e : Error} (h : c.ofText s = .error e) :
    (c.refine f g).ofText s = .error e ∨
      e = .malformed .trailingCharacters ∧
        ∃ a e', f a = .error e' ∧ (c.refine f g).ofText s = .error e' := by
  rcases ofText_eq_error_iff.1 h with hread | ⟨⟨a, hread⟩, hmore, rfl⟩
  · refine .inl (ofText_eq_error_iff.2 (.inl ?_))
    rw [read_refine, hread]
    rfl
  · have hrefine : (c.refine f g).read (.text maxDepth) (Tree.ofText s).1 = f a := by
      rw [read_refine, hread]
      rfl
    cases hf : f a with
    | ok b => exact .inl (ofText_eq_error_iff.2 (.inr ⟨⟨b, hrefine.trans hf⟩, hmore, rfl⟩))
    | error e' =>
      exact .inr ⟨rfl, a, e', hf, ofText_eq_error_iff.2 (.inl (hrefine.trans hf))⟩

end Json.Codec

namespace Graph

variable {s : String} {d : Document}

theorem ofText_of_document (h : Document.codec.ofText s = .ok d) : Graph.ofText s = d.graph := by
  rw [Graph.ofText, h]

theorem ofText_of_no_document {f : Json.Error} (h : Document.codec.ofText s = .error f) :
    Graph.ofText s = .error (.malformed f) := by
  rw [Graph.ofText, h]

theorem codec_ofText_of_document (h : Document.codec.ofText s = .ok d) :
    codec.ofText s = d.graph.mapError fun e => .unsupported e.message :=
  Json.Codec.ofText_refine_of_ok h

/-- A text that is no document is refused as such, unless it begins with a document that is no
graph. -/
theorem codec_ofText_of_no_document {f : Json.Error} (h : Document.codec.ofText s = .error f) :
    codec.ofText s = .error f ∨ f = .malformed .trailingCharacters ∧
      ∃ (d : Document) (e : GraphError), d.graph = .error e ∧
        codec.ofText s = .error (.unsupported e.message) := by
  refine (Json.Codec.ofText_refine_of_error h).imp id ?_
  rintro ⟨hf, d, e', hd, hcodec⟩
  cases hgraph : d.graph with
  | ok g =>
    rw [hgraph] at hd
    cases hd
  | error e =>
    rw [hgraph] at hd
    cases hd
    exact ⟨hf, d, e, hgraph, hcodec⟩

/-- Both ways of reading accept the same texts and give the same graphs. Of a document that is no
graph both say the same, and a text that is no document both refuse. -/
theorem readers_agree (s : String) :
    (∀ g, Graph.ofText s = .ok g ↔ codec.ofText s = .ok g) ∧
    (∀ d e, Document.codec.ofText s = .ok d → d.graph = .error e →
      Graph.ofText s = .error e ∧ ∃ f, codec.ofText s = .error f ∧ f.message = e.message) ∧
    ∀ f, Document.codec.ofText s = .error f → Graph.ofText s = .error (.malformed f) ∧
      (codec.ofText s = .error f ∨ f = .malformed .trailingCharacters ∧
        ∃ (d : Document) (e : GraphError), d.graph = .error e ∧
          codec.ofText s = .error (.unsupported e.message)) := by
  refine ⟨fun g => ?_, fun d e hd he => ?_, fun f hf => ?_⟩
  · cases hd : Document.codec.ofText s with
    | ok d =>
      rw [ofText_of_document hd, codec_ofText_of_document hd]
      cases d.graph <;> simp [Except.mapError]
    | error f =>
      rw [ofText_of_no_document hd]
      rcases codec_ofText_of_no_document hd with hcodec | ⟨-, d, e, -, hcodec⟩ <;> simp [hcodec]
  · refine ⟨(ofText_of_document hd).trans he, .unsupported e.message, ?_, rfl⟩
    rw [codec_ofText_of_document hd, he]
    rfl
  · exact ⟨ofText_of_no_document hf, codec_ofText_of_no_document hf⟩

/-- Two notes with one id. -/
def twoNotes : String :=
  "\x7b\"nodes\":[[\"a\",\"note\",null,null],[\"a\",\"note\",null,null]]\x7d"

/-- Both say that the id is taken. With a comma behind the notes, reading stops at the comma. -/
theorem readers_agree_twoNotes :
    (∃ f, Graph.ofText twoNotes = .error (.duplicateId "a") ∧ codec.ofText twoNotes = .error f ∧
      f.message = "Node id 'a' appears more than once") ∧
    Graph.ofText (twoNotes ++ ",") = .error (.malformed (.malformed .trailingCharacters)) := by
  have hread : ((Document.codec.ofText twoNotes).map fun d => d.graph.map (·.edges)) =
      .ok (.error (.duplicateId "a")) := by decide +kernel
  have htrailing : ((Document.codec.ofText (twoNotes ++ ",")).map (·.edges)) =
      .error (.malformed .trailingCharacters) := by decide +kernel
  obtain ⟨d, hd, hgraph⟩ := map_eq_ok_iff.1 hread
  obtain ⟨hofText, f, hcodec, hmessage⟩ :=
    (readers_agree twoNotes).2.1 d _ hd (map_eq_error_iff.1 hgraph)
  exact ⟨⟨f, hofText, hcodec, hmessage⟩,
    ((readers_agree _).2.2 _ (map_eq_error_iff.1 htrailing)).1⟩

end Graph
end CampaignRouting
