import CampaignRouting.Graph.Document
import CampaignRouting.Proofs.Graph.Codec
import CampaignRouting.Proofs.Json.Place

/-!
# Reading the values of rules

A rule compares with a `Json.Operand`, and what is read of one is written as the same value
(`RuleValue.option_ofValue_eq_ok_iff`). In a document, the value of a rule has its `RulePlace`.
-/

namespace CampaignRouting

open Json (Codec Frame Source Tree)

/-! ## Operands -/

section
variable {α β : Type} {f : α → Option β} {g : β → α}

theorem mapM_eq_some_iff (h : ∀ a b, f a = some b ↔ a = g b) {l : List α} {bs : List β} :
    l.mapM f = some bs ↔ l = bs.map g := by
  constructor
  · intro hl
    induction l generalizing bs with
    | nil =>
      cases hl
      rfl
    | cons a l ih =>
      rw [List.mapM_cons] at hl
      obtain ⟨b, hb, hl⟩ := Option.bind_eq_some_iff.1 hl
      obtain ⟨bs, hbs, hl⟩ := Option.bind_eq_some_iff.1 hl
      cases hl
      rw [List.map_cons, (h a b).1 hb, ih hbs]
  · rintro rfl
    exact mapM_map_eq_some fun b _ => (h (g b) b).2 rfl

end

/-- The values that a rule may compare with. -/
inductive Json.Operand : Json → Prop
  | bool (b : Bool) : Operand (.bool b)
  | number (n : Json.Number) : Operand (.number n)
  | string (s : String) : Operand (.string s)
  | strings (l : List String) : Operand (.array (l.map .string))
  | numbers (l : List Json.Number) : Operand (.array (l.map .number))

theorem exists_mapM_eq_ok {ε α β : Type} {g : α → Except ε β} {l : List α}
    (h : ∀ a ∈ l, ∃ b, g a = .ok b) : ∃ bs, l.mapM g = .ok bs := by
  induction l with
  | nil => exact ⟨[], rfl⟩
  | cons a l ih =>
    obtain ⟨⟨b, hb⟩, hl⟩ := List.forall_mem_cons.1 h
    obtain ⟨bs, hbs⟩ := ih hl
    exact ⟨b :: bs, by rw [List.mapM_cons, hb, hbs]; rfl⟩

/-- Every value can be read once more. -/
theorem Json.Tree.exists_toJson_ofJson (v : Json) : ∃ w, (ofJson v).toJson .value = .ok w := by
  induction v using Json.induction with
  | bool b => cases b <;> exact ⟨_, rfl⟩
  | null | number _ | string _ => exact ⟨_, rfl⟩
  | array vs ih =>
    obtain ⟨ws, hws⟩ := exists_mapM_eq_ok ih
    refine ⟨.array ws, toJson_list_eq_ok_iff.2 ⟨.value, ws, rfl, ?_, rfl, rfl⟩⟩
    rw [← mapM_eq_ok_iff_forall₂, ofItems_eq_map, List.mapM_map]
    exact hws
  | object ms ih =>
    obtain ⟨es, hes⟩ : ∃ es, toJsonMembers .value (ofMembers ms) = .ok es := by
      rw [toJsonMembers_eq_mapM, ofMembers_eq_map, List.mapM_map]
      refine exists_mapM_eq_ok fun m hm => ?_
      obtain ⟨w, hw⟩ := ih m hm
      exact ⟨(m.1, w), bind_eq_ok_iff.2 ⟨m.1, rfl, bind_eq_ok_iff.2 ⟨w, hw, rfl⟩⟩⟩
    exact ⟨_, toJson_object_eq_ok_iff.2 ⟨.value, es, rfl, hes, rfl, rfl⟩⟩

namespace RuleValue

theorem toJson_operand (r : RuleValue) : r.toJson.Operand := by
  cases r with
  | bool b => exact .bool b
  | number n => exact .number n
  | text s => exact .string s
  | texts l => exact .strings l
  | numbers l => exact .numbers l

theorem text?_ofJson_eq_some_iff (v : Json) (s : String) :
    text? (.ofJson v) = some s ↔ v = .string s := by
  cases v <;> simp [Json.Tree.ofJson, text?, Json.Quoted.ofString, Except.toOption]

theorem number?_ofJson_eq_some_iff (v : Json) (n : Json.Number) :
    number? (.ofJson v) = some n ↔ v = .number n := by
  cases v <;> simp [Json.Tree.ofJson, number?]

/-- Of several operands that are written alike only the first is read. -/
theorem ofTree?_ofJson_eq_some_iff {v : Json} {r : RuleValue} :
    ofTree? (.ofJson v) = some r ↔ r.toJson = v ∧ r ≠ .numbers [] := by
  constructor
  · intro h
    cases v with
    | null => cases h
    | bool b => cases b <;> cases h <;> exact ⟨rfl, by rintro ⟨⟩⟩
    | number | string =>
      cases h
      exact ⟨rfl, by rintro ⟨⟩⟩
    | object => cases h
    | array vs =>
      rw [Json.Tree.ofJson, Json.Tree.ofItems_eq_map, ofTree?, List.mapM_map, List.mapM_map] at h
      rcases Option.or_eq_some_iff.1 h with h | ⟨htexts, h⟩
      · obtain ⟨l, hl, rfl⟩ := Option.map_eq_some_iff.1 h
        rw [(mapM_eq_some_iff text?_ofJson_eq_some_iff).1 hl]
        exact ⟨rfl, by rintro ⟨⟩⟩
      · obtain ⟨l, hl, rfl⟩ := Option.map_eq_some_iff.1 h
        obtain rfl := (mapM_eq_some_iff number?_ofJson_eq_some_iff).1 hl
        refine ⟨rfl, ?_⟩
        rintro ⟨⟩
        cases htexts
  · rintro ⟨rfl, hne⟩
    exact ofTree?_toJson hne

theorem codec_ofValue (v : Json) : codec.ofValue v =
    match ofTree? (.ofJson v) with
    | some r => .ok r
    | none => .error (.noMatchingShape "RuleValue") := by
  obtain ⟨w, hw⟩ := Json.Tree.exists_toJson_ofJson v
  simp only [Codec.ofValue, codec, Json.Tree.check, hw, bind, Except.bind]
  cases ofTree? (.ofJson v) <;> rfl

/-- A value is read as an operand exactly if the operand is written so. -/
theorem codec_ofValue_eq_ok_iff {v : Json} {r : RuleValue} :
    codec.ofValue v = .ok r ↔ r.toJson = v ∧ r ≠ .numbers [] := by
  rw [← ofTree?_ofJson_eq_some_iff, codec_ofValue]
  cases ofTree? (.ofJson v) <;> simp

/-- What is read of a value is written as this value. -/
theorem option_ofValue_eq_ok_iff {v : Json} {o : Option RuleValue} :
    codec.option.ofValue v = .ok o ↔ codec.option.write o = v ∧ o ≠ some (.numbers []) := by
  by_cases hv : v = .null
  · subst hv
    cases o with
    | none => exact ⟨fun _ => ⟨rfl, nofun⟩, fun _ => rfl⟩
    | some r => exact ⟨nofun, fun h => by cases r <;> cases h.1⟩
  · rw [Codec.ofValue, Codec.option_read_ofJson hv, ← Codec.ofValue, map_eq_ok_iff]
    cases o with
    | none => exact ⟨fun ⟨_, _, h⟩ => (nomatch h), fun h => absurd h.1.symm hv⟩
    | some r => simp only [Option.some.injEq, exists_eq_right, codec_ofValue_eq_ok_iff, Ne]; rfl

/-- What operands are written as are the values of five forms. -/
theorem exists_toJson_iff {v : Json} :
    (∃ r : RuleValue, r.toJson = v ∧ r ≠ .numbers []) ↔ v.Operand := by
  constructor
  · rintro ⟨r, rfl, -⟩
    exact r.toJson_operand
  · intro hv
    cases hv with
    | bool b => exact ⟨.bool b, rfl, nofun⟩
    | number n => exact ⟨.number n, rfl, nofun⟩
    | string s => exact ⟨.text s, rfl, nofun⟩
    | strings l => exact ⟨.texts l, rfl, nofun⟩
    | numbers l =>
      cases l with
      | nil => exact ⟨.texts [], rfl, nofun⟩
      | cons n l => exact ⟨.numbers (n :: l), rfl, nofun⟩

/-- A value fits some shape exactly if it is of one of the forms. -/
theorem isSome_ofTree?_iff {v : Json} : (ofTree? (.ofJson v)).isSome = true ↔ v.Operand := by
  simp only [Option.isSome_iff_exists, ofTree?_ofJson_eq_some_iff, exists_toJson_iff]

instance (v : Json) : Decidable v.Operand := decidable_of_iff _ isSome_ofTree?_iff

theorem exists_write_iff {v : Json} :
    (∃ o, codec.option.write o = v ∧ o ≠ some (.numbers [])) ↔ v = .null ∨ v.Operand := by
  constructor
  · rintro ⟨o, rfl, -⟩
    cases o with
    | none => exact .inl rfl
    | some r => exact .inr r.toJson_operand
  · rintro (rfl | hv)
    · exact ⟨none, rfl, nofun⟩
    · obtain ⟨r, hr, hne⟩ := exists_toJson_iff.2 hv
      exact ⟨some r, hr, mt Option.some.inj hne⟩

/-- Whatever else a value may be, the error is the same. -/
theorem option_ofValue_of_not {v : Json} (h : ¬(v = .null ∨ v.Operand)) :
    codec.option.ofValue v = .error (.noMatchingShape "RuleValue") := by
  obtain ⟨hnull, hoperand⟩ := not_or.1 h
  have hnone : ofTree? (.ofJson v) = none :=
    Option.not_isSome_iff_eq_none.1 (mt isSome_ofTree?_iff.1 hoperand)
  rw [Codec.ofValue, Codec.option_read_ofJson hnull, ← Codec.ofValue, codec_ofValue, hnone]
  rfl

end RuleValue
end CampaignRouting
