import CampaignRouting.Proofs.Json.Integer

/-!
# Numbers that stand alone

An integer is read from what is written for it, and from no other text without a plus sign and a
needless zero (`Decimal.integerOf?_of_integral`, `Json.Integral.ofInt`). A text that spells an
integer spells a floating-point number too (`Decimal.isSome_floatOf?`), and one that neither starts
like a number nor is a word for one spells none (`Decimal.floatOf?_eq_none`).
-/

namespace CampaignRouting

/-! ## Integers -/

namespace Json.Integral

open Number (head?_toDigits digitsValue_toDigits)

/-- The literal of an integer. -/
def ofInt (i : Int) : Integral where
  negative := i < 0
  digits := Nat.toDigits 10 i.natAbs
  ne_nil := Nat.toDigits_ne_nil
  isDigit _ hc := Nat.isDigit_of_mem_toDigits (by decide) (by decide) hc
  leading h := by
    rcases Nat.eq_zero_or_pos i.natAbs with hzero | hpos
    · rw [hzero]
      rfl
    · exact absurd h (head?_toDigits hpos)

theorem value_ofInt (i : Int) : (ofInt i).value = i := by
  have hdigits : Decimal.digitsValue (ofInt i).digits = i.natAbs := digitsValue_toDigits _
  have hnegative : (ofInt i).negative = decide (i < 0) := rfl
  rw [value, hdigits, hnegative]
  by_cases h : i < 0
  · rw [if_pos (decide_eq_true h)]
    omega
  · rw [if_neg (mt of_decide_eq_true h)]
    omega

theorem text_ofInt_ne (i : Int) : (ofInt i).text ≠ ['-', '0'] := by
  intro htext
  have hvalue := value_ofInt i
  unfold text at htext
  unfold value at hvalue
  split at htext
  · next hnegative =>
    have hdigits : (ofInt i).digits = ['0'] := (List.cons.inj htext).2
    have hi : i < 0 := of_decide_eq_true hnegative
    have hzero : Decimal.digitsValue ['0'] = 0 := rfl
    rw [if_pos hnegative, hdigits, hzero] at hvalue
    omega
  · have hdigit := (ofInt i).isDigit '-' (htext ▸ List.mem_cons_self)
    exact absurd hdigit (by decide)

/-- An integer is written in the digits of its literal. -/
theorem text_ofInt (i : Int) : (ofInt i).text = (toString i).toList := by
  have htext := (ofInt i).text_value (text_ofInt_ne i)
  rw [value_ofInt] at htext
  exact htext.symm

end Json.Integral

namespace Decimal

variable {s : String} {cs : List Char}

theorem readSign_of_head (h : ∀ c ∈ cs.head?, c ≠ '-' ∧ c ≠ '+') : readSign cs = (false, cs) := by
  unfold readSign
  split
  · exact absurd rfl (h '-' rfl).1
  · exact absurd rfl (h '+' rfl).2
  · rfl

/-- A literal is read as its value. -/
theorem integerOf?_of_integral (l : Json.Integral) (h : s.toList = l.text) :
    integerOf? s = some l.value := by
  have hdigits : l.digits ≠ [] ∧ l.digits.all Char.isDigit :=
    ⟨l.ne_nil, List.all_eq_true.2 l.isDigit⟩
  have hsign : readSign l.text = (l.negative, l.digits) := by
    unfold Json.Integral.text
    cases hnegative : l.negative with
    | true => rfl
    | false =>
      refine readSign_of_head fun c hc => ?_
      have hdigit := l.isDigit c (List.mem_of_mem_head? hc)
      constructor <;> rintro rfl <;> exact absurd hdigit (by decide)
  rw [integerOf?, h, hsign]
  exact if_pos hdigits

/-! ## Numbers -/

theorem isSome_literalOf? {negative : Bool} (hne : cs ≠ []) (h : cs.all Char.isDigit) :
    (literalOf? negative cs).isSome := by
  have hwhole : cs.takeWhile Char.isDigit = cs :=
    List.takeWhile_eq_self_iff.2 (List.all_eq_true.1 h)
  have hrest : cs.dropWhile Char.isDigit = [] :=
    List.dropWhile_eq_nil_iff.2 (List.all_eq_true.1 h)
  simp [literalOf?, hwhole, hrest, hne, exponentOf?]

/-- An integer is a number. -/
theorem isSome_floatOf? {i : Int} (h : integerOf? s = some i) : (floatOf? s).isSome := by
  unfold integerOf? at h
  dsimp only at h
  split at h
  · next hdigits =>
    unfold floatOf?
    dsimp only
    split
    · rfl
    · split
      · rfl
      · rw [Option.isSome_map]
        exact isSome_literalOf? hdigits.1 hdigits.2
  · cases h

/-- What the sign, the first digit or the point of a number can be. -/
def StartsNumber (c : Char) : Prop := c.isDigit = true ∨ c = '-' ∨ c = '+' ∨ c = '.'

/-- A text that starts otherwise and is no word for a number spells none. -/
theorem floatOf?_eq_none (hstart : ∀ c ∈ s.toList.head?, ¬StartsNumber c)
    (hword : String.ofList (s.toList.map Char.toLower) ∉ ["inf", "infinity", "nan"]) :
    floatOf? s = none := by
  have hsign : readSign s.toList = (false, s.toList) := readSign_of_head fun c hc =>
    ⟨fun h => hstart c hc (.inr (.inl h)), fun h => hstart c hc (.inr (.inr (.inl h)))⟩
  have hliteral : literalOf? false s.toList = none := by
    unfold literalOf?
    cases hcs : s.toList with
    | nil => rfl
    | cons c cs =>
      have hc : ¬StartsNumber c := hstart c (by rw [hcs]; rfl)
      have hdigit : c.isDigit = false := Bool.eq_false_iff.2 fun h => hc (.inl h)
      have hpoint : c ≠ '.' := fun h => hc (.inr (.inr (.inr h)))
      simp [hdigit, hpoint]
  simp only [List.mem_cons, List.not_mem_nil, or_false, not_or] at hword
  simp [floatOf?, hsign, hword, hliteral]

/-- What is no number is no integer either. -/
theorem integerOf?_eq_none (h : floatOf? s = none) : integerOf? s = none := by
  cases hi : integerOf? s with
  | none => rfl
  | some i =>
    have hsome := isSome_floatOf? hi
    rw [h] at hsome
    cases hsome

end Decimal
end CampaignRouting
