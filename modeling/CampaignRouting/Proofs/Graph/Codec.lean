import CampaignRouting.Graph.Codec
import CampaignRouting.Proofs.Json.Record

/-!
# Payloads that are read back

A payload that has been read is sound: what its rules compare with and what its translations hold
are values that a text can give (`Payload.Sound.of_ofJson`). A sound payload whose floating-point
numbers read back is stored and read as the same payload (`Payload.ofJson_toJson`).
-/

namespace CampaignRouting

open Json (Codec)

/-! ## Floating-point numbers -/

def Json.Number.float? : Json.Number → Option Float
  | .float x => some x
  | .integer _ => none

/-- The number reads back, whatever number it is, if it does where it is a floating-point one. -/
theorem Json.Number.readsBack_of_floats {ns : List Json.Number} (hrange : ∀ n ∈ ns, n.InRange)
    (hfloats : ∀ x ∈ ns.filterMap float?, (float x).ReadsBack) : ∀ n ∈ ns, n.ReadsBack := by
  intro n hn
  cases n with
  | integer i => exact .integer (hrange _ hn)
  | float x => exact hfloats x (List.mem_filterMap.2 ⟨_, hn, rfl⟩)

/-- The floating-point numbers of a value. -/
def Json.floats (v : Json) : List Float := v.numbers.filterMap Number.float?

namespace RuleValue

/-- The numbers of an operand. -/
def numberList : RuleValue → List Json.Number
  | number n => [n]
  | numbers l => l
  | bool _ | text _ | texts _ => []

/-- The floating-point numbers of an operand. -/
def floats (v : RuleValue) : List Float := v.numberList.filterMap Json.Number.float?

/-- The operand is one that can be read: an empty list would be a list of texts. -/
structure Sound (v : RuleValue) : Prop where
  inRange : ∀ n ∈ v.numberList, n.InRange
  ne_empty : v ≠ .numbers []

end RuleValue

def Rule.floats (r : Rule) : List Float := r.value.elim [] RuleValue.floats

/-- The operand, if there is one, is of a form that is read. -/
def Rule.Sound (r : Rule) : Prop := ∀ v, r.value = some v → v.Sound

namespace Segment

def floats (s : Segment) : List Float :=
  s.priority :: (s.rules.flatMap Rule.floats ++ s.translations.entries.flatMap (·.2.floats))

/-- In a document that may nest 127 deep, 122 levels are left for a translation. -/
structure Sound (s : Segment) : Prop where
  rules : ∀ r ∈ s.rules, r.Sound
  translations : ∀ e ∈ s.translations.entries, e.2.Canonical 122

end Segment

def AbTest.floats (p : AbTest) : List Float := p.poolingPercent :: p.arms.map (·.allocation)

namespace Payload

def floats : Payload → List Float
  | segment p => p.floats
  | abTest p => p.floats
  | variant p => p.share.toList
  | traffic _ | note _ | form _ => []

def Sound : Payload → Prop
  | segment p => p.Sound
  | traffic _ | abTest _ | variant _ | note _ | form _ => True

end Payload

/-! ## Operands of rules -/

section
variable {α β : Type} {f : α → Option β}

theorem mapM_map_eq_some {g : β → α} {l : List β} (h : ∀ b ∈ l, f (g b) = some b) :
    (l.map g).mapM f = some l := by
  induction l with
  | nil => rfl
  | cons b l ih =>
    obtain ⟨hb, hl⟩ := List.forall_mem_cons.1 h
    rw [List.map_cons, List.mapM_cons, hb, ih hl]
    rfl

theorem exists_of_mapM_eq_some {l : List α} {bs : List β} (h : l.mapM f = some bs) :
    ∀ b ∈ bs, ∃ a ∈ l, f a = some b := by
  induction l generalizing bs with
  | nil =>
    cases h
    exact nofun
  | cons a l ih =>
    rw [List.mapM_cons] at h
    obtain ⟨b, hb, h⟩ := Option.bind_eq_some_iff.1 h
    obtain ⟨bs, hbs, h⟩ := Option.bind_eq_some_iff.1 h
    cases h
    refine List.forall_mem_cons.2 ⟨⟨a, .head _, hb⟩, fun b' hb' => ?_⟩
    obtain ⟨a', ha', hf⟩ := ih hbs b' hb'
    exact ⟨a', .tail _ ha', hf⟩

end

namespace RuleValue

/-- A list of numbers that are not texts has been read from numbers, at least one. -/
theorem Sound.of_items {source : Json.Source} {k : Nat} {ts : List Json.Tree}
    {l : List Json.Number} (hitems : ∀ t ∈ ts, Json.Tree.Readable source k t)
    (htexts : ts.mapM text? = none) (hnumbers : ts.mapM number? = some l) : (numbers l).Sound where
  inRange n hn := by
    obtain ⟨t, ht, hnumber⟩ := exists_of_mapM_eq_some hnumbers n hn
    unfold number? at hnumber
    split at hnumber <;> cases hnumber
    exact (hitems _ ht).number
  ne_empty := by
    rintro ⟨⟩
    cases ts with
    | nil => cases htexts
    | cons t ts =>
      rw [List.mapM_cons] at hnumbers
      obtain ⟨_, -, hnumbers⟩ := Option.bind_eq_some_iff.1 hnumbers
      obtain ⟨_, -, hnumbers⟩ := Option.bind_eq_some_iff.1 hnumbers
      cases hnumbers

/-- An operand that is read is never an empty list of numbers, which is read as one of texts. -/
theorem Sound.of_gives {k : Nat} {v : RuleValue} (h : codec.Gives k v) : v.Sound := by
  obtain ⟨source, t, hreadable, hread⟩ := h
  obtain ⟨_, hcheck, hread⟩ := bind_eq_ok_iff.1 hread
  have hv : ofTree? t = some v := by
    cases ht : ofTree? t with
    | none => rw [ht] at hread; cases hread
    | some w => rw [ht] at hread; exact congrArg some (Except.ok.inj hread)
  unfold ofTree? at hv
  split at hv
  · cases hv
    exact ⟨nofun, nofun⟩
  · cases hv
    exact ⟨nofun, nofun⟩
  · cases hv
    exact ⟨List.forall_mem_singleton.2 hreadable.number, nofun⟩
  · obtain ⟨s, -, rfl⟩ := Option.map_eq_some_iff.1 hv
    exact ⟨nofun, nofun⟩
  · rcases Option.or_eq_some_iff.1 hv with hv | ⟨htexts, hv⟩
    · obtain ⟨l, -, rfl⟩ := Option.map_eq_some_iff.1 hv
      exact ⟨nofun, nofun⟩
    · obtain ⟨l, hl, rfl⟩ := Option.map_eq_some_iff.1 hv
      obtain ⟨_, htoJson, -⟩ := bind_eq_ok_iff.1 hcheck
      rw [Json.Tree.toJson] at htoJson
      obtain ⟨inner, henter, -⟩ := bind_eq_ok_iff.1 htoJson
      obtain ⟨j, -, hitems⟩ := hreadable.items henter
      exact .of_items hitems (Option.map_eq_none_iff.1 htexts) hl
  · cases hv

/-- There are no objects in operands, so nothing to rearrange. -/
theorem toJson_rearranged {f : Json → Json} (hf : Json.Rearrangement f) (v : RuleValue) :
    f v.toJson = v.toJson := by
  cases v with
  | bool b => exact hf.bool b
  | number n => exact hf.number n
  | text s => exact hf.string s
  | texts l =>
    rw [toJson, hf.array, List.map_map]
    exact congrArg _ (List.map_congr_left fun s _ => hf.string s)
  | numbers l =>
    rw [toJson, hf.array, List.map_map]
    exact congrArg _ (List.map_congr_left fun n _ => hf.number n)

theorem toJson_fits (v : RuleValue) : v.toJson.Fits 1 := by
  cases v with
  | bool b => exact .bool b
  | number n => exact .number n
  | text s => exact .string s
  | texts l => exact .array (List.forall_mem_map.2 fun s _ => .string s)
  | numbers l => exact .array (List.forall_mem_map.2 fun n _ => .number n)

theorem numbers_toJson (v : RuleValue) : v.toJson.numbers = v.numberList := by
  cases v with
  | bool | number | text => rfl
  | texts l =>
    rw [toJson, Json.numbers_array, List.flatMap_map]
    simp [Json.numbers, numberList]
  | numbers l =>
    rw [toJson, Json.numbers_array, List.flatMap_map]
    simp [Json.numbers, numberList]

/-- An operand is read back, but for an empty list of numbers. -/
theorem ofTree?_toJson {v : RuleValue} (h : v ≠ .numbers []) :
    ofTree? (Json.Tree.ofJson v.toJson) = some v := by
  cases v with
  | bool b => cases b <;> rfl
  | number | text => rfl
  | texts l =>
    have htexts : (l.map fun s => Json.Tree.scalar (.string (.ofString s))).mapM text? = some l :=
      mapM_map_eq_some fun _ _ => rfl
    simp only [toJson, Json.Tree.ofJson, Json.Tree.ofItems_eq_map, List.map_map, ofTree?,
      Function.comp_def, htexts]
    rfl
  | numbers l =>
    have hnumbers : (l.map fun n => Json.Tree.scalar (.number n)).mapM number? = some l :=
      mapM_map_eq_some fun _ _ => rfl
    have htexts : (l.map fun n => Json.Tree.scalar (.number n)).mapM text? = none := by
      cases l with
      | nil => exact absurd rfl h
      | cons n l => rw [List.map_cons, List.mapM_cons]; rfl
    simp only [toJson, Json.Tree.ofJson, Json.Tree.ofItems_eq_map, List.map_map, ofTree?,
      Function.comp_def, htexts, hnumbers]
    rfl

/-- A sound operand is restored if its numbers are. -/
theorem codec_restores {v : RuleValue} (h : v.Sound)
    (hfloats : ∀ x ∈ v.floats, (Json.Number.float x).ReadsBack) : codec.Restores 1 v where
  fits := v.toJson_fits
  legible := v.numbers_toJson ▸ Json.Number.readsBack_of_floats h.inRange hfloats
  read {source f} hsource hf := by
    have hread := Json.Tree.toJson_rearranged .id v.toJson_fits hsource
    rw [id] at hread
    have hwrite : f (codec.write v) = v.toJson := toJson_rearranged hf v
    rw [hwrite]
    simp only [codec, Json.Tree.check, hread, ofTree?_toJson h.ne_empty, bind, Except.bind]
    rfl

end RuleValue

/-! ## Payloads -/

theorem Rule.value_restores {r : Rule} (h : r.Sound)
    (hfloats : ∀ x ∈ r.floats, (Json.Number.float x).ReadsBack) :
    (Codec.option RuleValue.codec).Restores 1 r.value := by
  refine .option (fun v hv => RuleValue.codec_restores (h v hv) ?_) nofun
  simpa [Rule.floats, hv] using hfloats

theorem RuleType.codec_restores {k : Nat} (t : RuleType) : RuleType.codec.Restores k t :=
  .enum (by cases t <;> rfl)

theorem RuleOperator.codec_restores {k : Nat} (o : RuleOperator) :
    RuleOperator.codec.Restores k o :=
  .enum (by cases o <;> rfl)

theorem TranslationMode.codec_restores {k : Nat} (m : TranslationMode) :
    TranslationMode.codec.Restores k m :=
  .enum (by cases m <;> rfl)

/-- A rule is restored if its operand is. -/
theorem Rule.codec_restores {r : Rule} (h : r.Sound)
    (hfloats : ∀ x ∈ r.floats, (Json.Number.float x).ReadsBack) : Rule.codec.Restores 2 r := by
  refine .record (by decide) rfl ?_
  exact ⟨.always rfl (.string _), .always rfl (RuleType.codec_restores _),
    .always rfl (RuleOperator.codec_restores _), .always rfl (Rule.value_restores h hfloats),
    .always rfl (.string _), .always rfl (.option (fun _ _ => .bool _) nofun), trivial⟩

theorem Traffic.codec_restores (p : Traffic) : Traffic.codec.Restores 1 p :=
  .record (by decide) rfl ⟨.always rfl (.optionString _), trivial⟩

/-- A segment is restored whose rules and translations are sound; these may nest deep. -/
theorem Segment.codec_restores {p : Segment} (h : p.Sound)
    (hfloats : ∀ x ∈ p.floats, (Json.Number.float x).ReadsBack) :
    Segment.codec.Restores 124 p := by
  obtain ⟨hpriority, hfloats⟩ := List.forall_mem_cons.1 hfloats
  obtain ⟨hruleFloats, htranslationFloats⟩ := List.forall_mem_append.1 hfloats
  have hrules : Rule.codec.list.Restores 3 p.rules := .list fun r hr =>
    Rule.codec_restores (h.rules r hr) fun x hx =>
      hruleFloats x (List.mem_flatMap.2 ⟨r, hr, hx⟩)
  have htranslations : Codec.json.sortedMap.Restores 123 p.translations := .sortedMap fun e he =>
    have hcanonical := h.translations e he
    .json hcanonical.fits hcanonical.sorted_eq <| Json.Number.readsBack_of_floats hcanonical.inRange
      fun x hx => htranslationFloats x (List.mem_flatMap.2 ⟨e, he, hx⟩)
  refine .record (by decide) rfl ?_
  exact ⟨.always rfl (.string _), .always rfl (.string _), .always rfl (.float hpriority),
    .always rfl (.optionString _), .always rfl (hrules.mono (by decide)),
    .always rfl (TranslationMode.codec_restores _), .always rfl htranslations, trivial⟩

theorem CompletionCriteria.codec_restores (p : CompletionCriteria) :
    CompletionCriteria.codec.Restores 1 p :=
  .record (by decide) rfl
    ⟨.always rfl (.option (fun _ _ => .uint64 _) nofun),
      .always rfl (.option (fun _ _ => .uint32 _) nofun),
      .always rfl (.option (fun _ _ => .uint32 _) nofun), trivial⟩

theorem Arm.codec_restores {a : Arm} (h : (Json.Number.float a.allocation).ReadsBack) :
    Arm.codec.Restores 1 a :=
  .record (by decide) rfl
    ⟨.always rfl (.string _), .always rfl (.string _), .always rfl (.optionString _),
      .always rfl (.float h), .always rfl (.bool _), trivial⟩

/-- A test is restored with its arms. -/
theorem AbTest.codec_restores {p : AbTest}
    (hfloats : ∀ x ∈ p.floats, (Json.Number.float x).ReadsBack) : AbTest.codec.Restores 3 p := by
  obtain ⟨hpooling, harmFloats⟩ := List.forall_mem_cons.1 hfloats
  have harms : Arm.codec.list.Restores 2 p.arms := .list fun a ha =>
    Arm.codec_restores (harmFloats _ (List.mem_map.2 ⟨a, ha, rfl⟩))
  have hcriteria : (Codec.option CompletionCriteria.codec).Restores 2 p.completionCriteria :=
    .option (fun c _ => (CompletionCriteria.codec_restores c).mono (by decide)) nofun
  refine .record (by decide) rfl ?_
  exact ⟨.always rfl (.string _), .always rfl (.string _),
    .always rfl (.enum (by cases p.status <;> rfl)), .always rfl (.optionString _),
    .always rfl hcriteria,
    .always rfl (.refine (.uint8 _) (by cases p.confidence <;> rfl)),
    .always rfl (.float hpooling), .always rfl harms, .always rfl (.optionString _), trivial⟩

theorem Variant.codec_restores {p : Variant}
    (hfloats : ∀ x ∈ p.share, (Json.Number.float x).ReadsBack) : Variant.codec.Restores 1 p :=
  .record (by decide) rfl
    ⟨.always rfl (.string _), .always rfl (.optionString _),
      .always rfl (.option (fun x hx => .float (hfloats x hx)) nofun), trivial⟩

theorem Note.codec_restores (p : Note) : Note.codec.Restores 1 p :=
  .record (by decide) rfl ⟨.always rfl (.string _), trivial⟩

theorem Form.codec_restores (p : Form) : Form.codec.Restores 1 p :=
  .record (by decide) rfl ⟨.always rfl (.optionString _), .always rfl (.string _), trivial⟩

namespace Payload

variable {p : Payload}

/-- How deep a payload may nest in a document. -/
def maxDepth : Nat := 124

/-- What a payload is stored as is restored as a value, and as a payload of its kind. -/
theorem stored {α : Type} {c : Codec α} {a : α} {k : Nat} (h : c.Restores k a) (hk : k ≤ maxDepth)
    (make : α → Payload) :
    Codec.json.Restores maxDepth (c.write a).sorted ∧
      (c.ofValue (c.write a).sorted).map make = .ok (make a) :=
  ⟨(h.mono hk).sorted_json, congrArg _ h.ofValue_sorted⟩

/-- The stored form of a payload is read as the payload, and so it is from within a document. -/
theorem ofJson_toJson (h : p.Sound) (hfloats : ∀ x ∈ p.floats, (Json.Number.float x).ReadsBack) :
    Codec.json.Restores maxDepth p.toJson ∧ Payload.ofJson p.type p.toJson = .ok p := by
  cases p with
  | traffic p => exact stored (Traffic.codec_restores p) (by decide) .traffic
  | segment p => exact stored (Segment.codec_restores h hfloats) le_rfl .segment
  | abTest p => exact stored (AbTest.codec_restores hfloats) (by decide) .abTest
  | variant p =>
    refine stored (Variant.codec_restores fun x hx => hfloats x ?_) (by decide) .variant
    exact Option.mem_toList.2 hx
  | note p => exact stored (Note.codec_restores p) (by decide) .note
  | form p => exact stored (Form.codec_restores p) (by decide) .form

theorem toJson_eq_object (p : Payload) : ∃ ms, p.toJson = .object ms := by
  cases p <;> exact ⟨_, rfl⟩

end Payload

/-! ## Where payloads come from -/

theorem Rule.Sound.of_gives {k : Nat} {r : Rule} (h : Rule.codec.Gives k r) : r.Sound := by
  obtain ⟨⟨_, _, _, value, _, _, ⟨⟩⟩, rfl, -, -, -, hvalue, -⟩ := h.record
  intro v hv
  cases hv
  rcases hvalue.or_default rfl rfl with hvalue | hvalue
  · exact .of_gives hvalue.option
  · cases hvalue

theorem Segment.Sound.of_gives {p : Segment} (h : Segment.codec.Gives Payload.maxDepth p) :
    p.Sound := by
  obtain ⟨⟨_, _, _, _, rules, _, translations, ⟨⟩⟩, rfl, hfields⟩ := h.record
  obtain ⟨-, -, -, -, hrules, -, htranslations, -⟩ := hfields
  constructor
  · rcases hrules.or_default rfl rfl with hrules | rfl
    · exact fun r hr => .of_gives (hrules.list r hr)
    · exact List.forall_mem_nil _
  · rcases htranslations.or_default rfl rfl with htranslations | rfl
    · exact fun e he => (htranslations.sortedMap e he).json
    · exact List.forall_mem_nil _

/-- A payload that is read is sound. -/
theorem Payload.Sound.of_ofJson {type : NodeType} {data : Json} {p : Payload}
    (hdata : data.Canonical Payload.maxDepth) (h : Payload.ofJson type data = .ok p) :
    p.Sound := by
  cases type with
  | segment =>
    obtain ⟨s, hs, rfl⟩ := map_eq_ok_iff.1 h
    exact Segment.Sound.of_gives (.of_ofValue hdata hs)
  | traffic | abTest | variant | note | form =>
    obtain ⟨_, -, rfl⟩ := map_eq_ok_iff.1 h
    trivial

end CampaignRouting
