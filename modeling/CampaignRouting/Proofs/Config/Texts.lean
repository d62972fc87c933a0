import CampaignRouting.Proofs.Config.Precedence
import CampaignRouting.Proofs.Decimal.Literal
import CampaignRouting.Proofs.Publish.Keys

/-!
# Texts from the environment

A text in the environment is read as a truth value or a number where it spells one, and written out
again for a setting that is a text. It arrives as it was only if it is spelled as it is written
(`Environment.Verbatim`), so `007` arrives as `7`. All other texts arrive unchanged, and what
arrives is what all keys begin with (`EngineConfig.load_text`).
-/

namespace CampaignRouting

namespace Environment

open Decimal (FitsInt64 StartsNumber floatOf? integerOf?)

/-- A text in small letters. -/
def lowered (s : String) : String := String.ofList (s.toList.map lower)

def truthWord (b : Bool) : String := if b then "true" else "false"

/-- What a text stands for. -/
inductive Spells (s : String) : Json → Prop
  | truth (b : Bool) (word : lowered s = truthWord b) : Spells s (.bool b)
  | integer {i : Int} (spelled : integerOf? s = some i) (fits : FitsInt64 i) :
      Spells s (.number (.integer i))
  | number {x : Float} (large : ∀ i, integerOf? s = some i → ¬FitsInt64 i)
      (spelled : floatOf? s = some x) : Spells s (.number (.float x))
  | text (noTruth : ∀ b, lowered s ≠ truthWord b) (noNumber : floatOf? s = none) :
      Spells s (.string s)

/-- A text is spelled as what it stands for is written. -/
inductive Verbatim (s : String) : Prop
  | truth (b : Bool) (word : s = truthWord b)
  | integer (l : Json.Integral) (fits : FitsInt64 l.value) (noMinusZero : l.text ≠ ['-', '0'])
      (digits : s.toList = l.text)
  | number {x : Float} (large : ∀ i, integerOf? s = some i → ¬FitsInt64 i)
      (spelled : floatOf? s = some x) (shortest : Decimal.plain.render x = s)
  | text (noTruth : ∀ b, lowered s ≠ truthWord b) (noNumber : floatOf? s = none)

variable {s : String} {v : Json}

/-! ## What a text stands for -/

instance (c : Char) : Decidable (StartsNumber c) := by unfold StartsNumber; infer_instance

theorem lower_of_startsNumber {c : Char} (h : StartsNumber c) : lower c = c := by
  rcases h with hdigit | rfl | rfl | rfl
  · obtain ⟨hlt, hchar⟩ := Json.digitChar_of_isDigit hdigit
    rw [← hchar]
    exact (by decide : ∀ d < 10, lower (Nat.digitChar d) = Nat.digitChar d) _ hlt
  · rfl
  · rfl
  · rfl

/-- No number starts like a truth value, and no word for one is as long. -/
theorem floatOf?_of_truthWord {b : Bool} (h : lowered s = truthWord b) : floatOf? s = none := by
  have hlower : s.toList.map lower = (truthWord b).toList := by
    rw [← h, lowered, String.toList_ofList]
  refine Decimal.floatOf?_eq_none (fun c hc hstart => ?_) fun hword => ?_
  · have hhead : (truthWord b).toList.head? = some c := by
      rw [← hlower, List.head?_map, hc, Option.map_some, lower_of_startsNumber hstart]
    cases b <;> cases hhead <;> exact absurd hstart (by decide)
  · have hlength := congrArg List.length hlower
    rw [List.length_map] at hlength
    have hwords : ∀ w ∈ ["inf", "infinity", "nan"], w.toList.length ≠ (truthWord b).toList.length :=
      by cases b <;> decide
    refine hwords _ hword ?_
    rw [String.toList_ofList, List.length_map, hlength]

theorem spells_scalar (s : String) : Spells s (scalar s) := by
  have hother (hlarge : ∀ i, integerOf? s = some i → ¬FitsInt64 i)
      (htruth : ∀ b, lowered s ≠ truthWord b) : Spells s (scalar.floatOrText s) := by
    unfold scalar.floatOrText
    split
    · next x hx => exact .number hlarge hx
    · next hx => exact .text htruth hx
  unfold scalar
  dsimp only
  split
  · next htrue => exact .truth true htrue
  · next htrue =>
    split
    · next hfalse => exact .truth false hfalse
    · next hfalse =>
      have htruth : ∀ b, lowered s ≠ truthWord b := by
        intro b
        cases b with
        | true => exact htrue
        | false => exact hfalse
      split
      · next i hi =>
        split
        · next hfits => exact .integer hi hfits
        · next hfits => exact hother (fun j hj => Option.some.inj (hi.symm.trans hj) ▸ hfits) htruth
      · next hi => exact hother (fun i h => nomatch hi.symm.trans h) htruth

/-- A text stands for one value only. -/
theorem Spells.unique {w : Json} (hv : Spells s v) (hw : Spells s w) : v = w := by
  cases hv <;> cases hw <;> grind [floatOf?_of_truthWord, Decimal.integerOf?_eq_none, truthWord]

/-- The value of a text is the one that it spells. -/
theorem scalar_eq (h : Spells s v) : scalar s = v := (spells_scalar s).unique h

/-! ## What arrives -/

theorem asText?_integer {i : Int} (h : FitsInt64 i) :
    (Json.number (.integer i)).asText? = some (toString i) := by
  simp only [Json.asText?, Json.Number.settled, if_pos h]

/-- Something arrives of every text. -/
theorem exists_asText?_scalar (s : String) : ∃ t, (scalar s).asText? = some t := by
  have hspells := spells_scalar s
  generalize scalar s = v at hspells
  cases hspells with
  | truth b _ => exact ⟨_, rfl⟩
  | integer _ hfits => exact ⟨_, asText?_integer hfits⟩
  | number _ _ => exact ⟨_, rfl⟩
  | text _ _ => exact ⟨_, rfl⟩

/-- A text arrives unchanged if and only if it is verbatim. -/
theorem asText?_scalar_eq_iff : (scalar s).asText? = some s ↔ Verbatim s := by
  constructor
  · intro h
    have hspells := spells_scalar s
    generalize scalar s = v at h hspells
    cases hspells with
    | truth b _ => exact .truth b (Option.some.inj h).symm
    | @integer i hspelled hfits =>
      rw [asText?_integer hfits, Option.some.injEq] at h
      refine .integer (.ofInt i) (by rwa [Json.Integral.value_ofInt])
        (Json.Integral.text_ofInt_ne i) ?_
      rw [Json.Integral.text_ofInt, h]
    | number hlarge hspelled => exact .number hlarge hspelled (Option.some.inj h)
    | text htruth hnumber => exact .text htruth hnumber
  · intro h
    cases h with
    | truth b hword =>
      have hlowered : lowered s = truthWord b := by
        rw [hword]
        cases b <;> decide
      rw [scalar_eq (.truth b hlowered), hword]
      rfl
    | integer l hfits hzero hdigits =>
      have htext : (toString l.value).toList = s.toList := (l.text_value hzero).trans hdigits.symm
      rw [scalar_eq (.integer (Decimal.integerOf?_of_integral l hdigits) hfits),
        asText?_integer hfits, String.toList_inj.1 htext]
    | number hlarge hspelled hshortest =>
      rw [scalar_eq (.number hlarge hspelled)]
      exact congrArg some hshortest
    | text htruth hnumber => rw [scalar_eq (.text htruth hnumber), Json.asText?]

/-- A text that neither starts like a number nor is a word for a truth value or a number is
verbatim. -/
theorem Verbatim.of_start (hstart : ∀ c ∈ s.toList.head?, ¬StartsNumber c)
    (hword : lowered s ∉ ["true", "false"])
    (hnumber : String.ofList (s.toList.map Char.toLower) ∉ ["inf", "infinity", "nan"]) :
    Verbatim s := by
  refine .text (fun b hb => hword ?_) (Decimal.floatOf?_eq_none hstart hnumber)
  rw [hb]
  cases b <;> decide

/-! ## Loading -/

/-- Of the variables that concern the program, by how their names begin, only that of a setting is
set. -/
structure SetsJust (env : Environment) (s : Setting) (text : String) : Prop where
  mem : (s.variableName, text) ∈ env
  only : ∀ v ∈ env, start <+: v.1.toList.map lower → v = (s.variableName, text)

variable {env : Environment} {text : String}

theorem start_variableName (s : Setting) : start <+: s.variableName.toList.map lower := by
  cases s <;> decide

theorem SetsJust.setsOnlySettings {s : Setting} (h : env.SetsJust s text) :
    env.SetsOnlySettings :=
  fun v hv hstart => ⟨s, congrArg Prod.fst (h.only v hv hstart)⟩

theorem SetsJust.text? {s : Setting} (h : env.SetsJust s text) (s' : Setting) :
    env.text? s'.variableName = if s' = s then some text else none := by
  unfold Environment.text?
  cases hlookup : env.reverse.lookup s'.variableName with
  | some text' =>
    obtain ⟨before, after, henv, -⟩ := List.lookup_eq_some_iff.1 hlookup
    have hmem : (s'.variableName, text') ∈ env := List.mem_reverse.1 (henv ▸ by simp)
    have heq := Prod.mk.inj (h.only _ hmem (start_variableName s'))
    rw [if_pos (Setting.variableName_inj.1 heq.1), heq.2]
  | none =>
    have hne : s' ≠ s := by
      rintro rfl
      have hnone := List.lookup_eq_none_iff.1 hlookup _ (List.mem_reverse.2 h.mem)
      simp at hnone
    rw [if_neg hne]

/-- One setting is what its variable says, the others keep their defaults. -/
theorem SetsJust.load_eq_ok_iff {s : Setting} (h : env.SetsJust s text)
    {formats : List ConfigFormat} {read : String → Except FileError String} {c : EngineConfig} :
    EngineConfig.load read none env formats = .ok c ↔
      s.convert (scalar text) = some (s.get c) ∧ ∀ s' ≠ s, s'.get c = s'.get .default := by
  have hfile : WellFormedFile formats read none (.object []) := ⟨.nothing, nofun, nofun⟩
  have hsaid (s' : Setting) :
      s'.said (.object []) env = if s' = s then some (scalar text) else none := by
    rw [Setting.said, h.text?]
    split <;> rfl
  rw [hfile.load_eq_ok_iff h.setsOnlySettings]
  simp only [hsaid]
  constructor
  · intro hall
    have hs := hall s
    rw [if_pos rfl] at hs
    refine ⟨hs, fun s' hne => ?_⟩
    have hdefault := hall s'
    rw [if_neg hne] at hdefault
    exact (Option.some.inj hdefault).symm
  · rintro ⟨hs, hothers⟩ s'
    by_cases heq : s' = s
    · subst heq
      rw [if_pos rfl]
      exact hs
    · rw [if_neg heq, hothers s' heq]
      rfl

end Environment

open Environment (Verbatim)

namespace Target

theorem Kind.exists_mark_eq (k : Kind) : ∃ word, k.mark = ":" ++ word := by
  cases k with
  | preview => exact ⟨"preview:", rfl⟩
  | production => exact ⟨"route:", rfl⟩
  | customDomain => exact ⟨"domain:", rfl⟩

/-- Every key begins with the prefix and a colon. -/
theorem exists_key_eq (config : PublishConfig) (t : Target) :
    ∃ rest, t.key config = config.keyPrefix ++ ":" ++ rest := by
  obtain ⟨word, hword⟩ := t.kind.exists_mark_eq
  refine ⟨word ++ t.place, ?_⟩
  rw [key_eq, hword]
  simp only [String.append_assoc]

end Target

variable {read : String → Except FileError String} {env : Environment} {text : String}

/-- What arrives of a text in the environment. Loading never fails for the text of the prefix of
keys or of the marker of place holders, and leaves the other settings at their defaults. The text
arrives unchanged if and only if it is verbatim; all keys begin with the prefix that arrives and a
colon. -/
theorem EngineConfig.load_text :
    (env.SetsJust .keyPrefix text → ∃ c, load read none env = .ok c ∧
      c.validation = .default ∧ c.publish.writeTimeout = PublishConfig.default.writeTimeout ∧
      (c.publish.keyPrefix = text ↔ Verbatim text) ∧
      ∀ target : Target, ∃ rest, target.key c.publish = c.publish.keyPrefix ++ ":" ++ rest) ∧
    (env.SetsJust .placeholderMarker text → ∃ c, load read none env = .ok c ∧
      c.validation.minHypothesisChars = ValidationConfig.default.minHypothesisChars ∧
      c.publish = .default ∧ (c.validation.placeholderMarker = text ↔ Verbatim text)) := by
  obtain ⟨arrived, harrived⟩ := Environment.exists_asText?_scalar text
  have hverbatim : arrived = text ↔ Verbatim text := by
    rw [← Environment.asText?_scalar_eq_iff, harrived, Option.some.injEq]
  constructor
  · intro h
    let c : EngineConfig := ⟨.default, { PublishConfig.default with keyPrefix := arrived }⟩
    have hload : load read none env = .ok c := by
      refine h.load_eq_ok_iff.2 ⟨harrived, fun s' hne => ?_⟩
      cases s' with
      | keyPrefix => exact absurd rfl hne
      | _ => rfl
    exact ⟨c, hload, rfl, rfl, hverbatim, Target.exists_key_eq c.publish⟩
  · intro h
    let c : EngineConfig :=
      ⟨{ ValidationConfig.default with placeholderMarker := arrived }, .default⟩
    have hload : load read none env = .ok c := by
      refine h.load_eq_ok_iff.2 ⟨harrived, fun s' hne => ?_⟩
      cases s' with
      | placeholderMarker => exact absurd rfl hne
      | _ => rfl
    exact ⟨c, hload, rfl, rfl, hverbatim⟩

theorem EngineConfig.load_text_shop :
    let read : String → Except FileError String := fun _ => .error .notFound
    let env : Environment := [("HOME", "/home"), ("ROUTEGRAPH__PUBLISH__KEY_PREFIX", "shop-7")]
    let env' : Environment := [("ROUTEGRAPH__VALIDATION__PLACEHOLDER_MARKER", "Draft")]
    (env.SetsJust .keyPrefix "shop-7" ∧ ∃ c, load read none env = .ok c ∧
      c.publish.keyPrefix = "shop-7" ∧
      ∀ target : Target, ∃ rest, target.key c.publish = "shop-7" ++ ":" ++ rest) ∧
    env'.SetsJust .placeholderMarker "Draft" ∧ ∃ c, load read none env' = .ok c ∧
      c.validation.placeholderMarker = "Draft" := by
  intro read env env'
  have henv : env.SetsJust .keyPrefix "shop-7" := by
    refine ⟨.tail _ (.head _), List.forall_mem_cons.2 ⟨fun h => absurd h (by decide), ?_⟩⟩
    exact List.forall_mem_singleton.2 fun _ => rfl
  have henv' : env'.SetsJust .placeholderMarker "Draft" :=
    ⟨.head _, List.forall_mem_singleton.2 fun _ => rfl⟩
  obtain ⟨c, hc, -, -, hkey, hkeys⟩ := (@load_text read env _).1 henv
  obtain ⟨c', hc', -, -, hmarker⟩ := (@load_text read env' _).2 henv'
  have hshop : c.publish.keyPrefix = "shop-7" :=
    hkey.2 (.of_start (by simp [Decimal.StartsNumber]) (by decide) (by decide))
  refine ⟨⟨henv, c, hc, hshop, hshop ▸ hkeys⟩, henv', c', hc', ?_⟩
  exact hmarker.2 (.of_start (by simp [Decimal.StartsNumber]) (by decide) (by decide))

/-- A prefix of digits loses the zeros in front, and all keys begin with the number that is left. -/
theorem EngineConfig.load_leadingZeros :
    let read : String → Except FileError String := fun _ => .error .notFound
    let env : Environment := [("ROUTEGRAPH__PUBLISH__KEY_PREFIX", "007")]
    let config : PublishConfig := { PublishConfig.default with keyPrefix := "7" }
    env.SetsJust .keyPrefix "007" ∧ load read none env = .ok ⟨.default, config⟩ ∧
    (Target.preview "c").key config = "7:preview:c" ∧
    ¬∃ c, load read none env = .ok c ∧ c.publish.keyPrefix = "007" := by
  intro read env config
  have hload : load read none env = .ok ⟨.default, config⟩ := by decide +kernel
  refine ⟨⟨.head _, List.forall_mem_singleton.2 fun _ => rfl⟩, hload, by decide, ?_⟩
  rintro ⟨c, hc, hkey⟩
  cases hload.symm.trans hc
  exact absurd hkey (by decide)

end CampaignRouting
