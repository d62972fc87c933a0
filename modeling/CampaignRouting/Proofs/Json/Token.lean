import CampaignRouting.Json.Printer
import CampaignRouting.Json.Token
import Mathlib.Data.List.TakeWhile

/-!
# Reading printed words

Numbers and quoted texts are read back from their printed form, whatever follows them, as long as it
does not go on with the number. For integers this is proved (`Number.ReadsBack.integer`); that the
shortest decimal of a floating-point number is read as this number is a property of the number
itself, `Number.ReadsBack`.
-/

namespace CampaignRouting

section
variable {ε α β : Type}

/-- Two readers in a row succeed exactly if the first does, and the second on what it gives. -/
theorem bind_eq_ok_iff {x : Except ε α} {f : α → Except ε β} {b : β} :
    x >>= f = .ok b ↔ ∃ a, x = .ok a ∧ f a = .ok b := by
  cases x with
  | ok a => exact ⟨fun h => ⟨a, rfl, h⟩, fun ⟨_, ha, h⟩ => Except.ok.inj ha ▸ h⟩
  | error e => exact ⟨nofun, fun ⟨_, ha, _⟩ => nomatch ha⟩

theorem map_eq_ok_iff {x : Except ε α} {f : α → β} {b : β} :
    x.map f = .ok b ↔ ∃ a, x = .ok a ∧ f a = b := by
  cases x with
  | ok a => simp [Except.map]
  | error e => simp [Except.map]

theorem map_eq_error_iff {x : Except ε α} {f : α → β} {e : ε} :
    x.map f = .error e ↔ x = .error e := by
  cases x <;> simp [Except.map]

end

namespace Json

/-- What may stand behind a value: the end of the text, a blank, or a character that separates or
closes. -/
def Delimits (rest : List Char) : Prop :=
  ∀ c ∈ rest.head?, isSpace c = true ∨ c = ',' ∨ c = ']' ∨ c = '\x7d'

theorem Delimits.nil : Delimits [] := nofun

theorem Delimits.comma (cs : List Char) : Delimits (',' :: cs) := by simp [Delimits]

theorem Delimits.bracket (cs : List Char) : Delimits (']' :: cs) := by simp [Delimits]

theorem Delimits.brace (cs : List Char) : Delimits ('\x7d' :: cs) := by simp [Delimits]

/-- Blanks may come before what ends a number. -/
theorem Delimits.blanks {bs cs : List Char} (h : Delimits cs) (hbs : ∀ c ∈ bs, isSpace c = true) :
    Delimits (bs ++ cs) := by
  cases bs with
  | nil => exact h
  | cons b bs =>
    intro c hc
    cases hc
    exact .inl (hbs b (.head _))

theorem isSpace_iff {c : Char} :
    isSpace c = true ↔ c = ' ' ∨ c = '\t' ∨ c = '\n' ∨ c = '\r' := by
  simp [isSpace, or_assoc]

/-- What ends a number does not go on with it. -/
theorem Delimits.head {c : Char} {cs : List Char} (h : Delimits (c :: cs)) :
    c.isDigit = false ∧ c ≠ '.' ∧ c ≠ 'e' ∧ c ≠ 'E' := by
  rcases h c rfl with hspace | rfl | rfl | rfl
  · rcases isSpace_iff.1 hspace with rfl | rfl | rfl | rfl <;> decide
  all_goals decide

/-! ## Numbers

A number that is read to the end of a text is read in the same way before a delimiter. -/

variable {cs ds rest r : List Char}

/-- The digits of a text are the same if something follows that ends a number. -/
theorem Delimits.takeWhile_append (h : Delimits rest) (cs : List Char) :
    (cs ++ rest).takeWhile Char.isDigit = cs.takeWhile Char.isDigit ∧
      (cs ++ rest).dropWhile Char.isDigit = cs.dropWhile Char.isDigit ++ rest := by
  induction cs with
  | nil =>
    cases rest with
    | nil => exact ⟨rfl, rfl⟩
    | cons c rest => simp [h.head.1]
  | cons c cs ih => by_cases hc : c.isDigit <;> simp [hc, ih]

theorem Delimits.readDigits_append (h : Delimits rest) (hr : readDigits cs = .ok (ds, r)) :
    readDigits (cs ++ rest) = .ok (ds, r ++ rest) := by
  obtain ⟨htake, hdrop⟩ := h.takeWhile_append cs
  unfold readDigits at hr ⊢
  rw [htake, hdrop]
  cases htaken : cs.takeWhile Char.isDigit with
  | nil => cases hdropped : cs.dropWhile Char.isDigit <;> simp [htaken, hdropped] at hr
  | cons d ds' =>
    rw [htaken] at hr
    cases hr
    rfl

theorem readWhole_of_ne_zero {c : Char} (h : c ≠ '0') (cs : List Char) :
    readWhole (c :: cs) = readDigits (c :: cs) := by
  unfold readWhole
  split
  · next heq => exact absurd (List.cons.inj heq).1 h
  · rfl

theorem readFraction_of_head (h : cs.head? ≠ some '.') : readFraction cs = .ok ([], cs) := by
  unfold readFraction
  split
  · exact absurd rfl h
  · rfl

/-- The power of ten behind its letter. -/
def readPower (cs : List Char) : Except Fault (Option Int × List Char) := do
  let (ds, rest) ← readDigits (Decimal.readSign cs).2
  return (some (if (Decimal.readSign cs).1 then -(Decimal.digitsValue ds : Int)
    else Decimal.digitsValue ds), rest)

theorem readExponent_cons (c : Char) (cs : List Char) :
    readExponent (c :: cs) =
      if c = 'e' ∨ c = 'E' then readPower cs else .ok (none, c :: cs) := rfl

theorem readExponent_of_head (he : cs.head? ≠ some 'e') (hE : cs.head? ≠ some 'E') :
    readExponent cs = .ok (none, cs) := by
  cases cs with
  | nil => rfl
  | cons c cs =>
    have hc : ¬(c = 'e' ∨ c = 'E') := by simpa using And.intro he hE
    rw [readExponent_cons, if_neg hc]

theorem Delimits.readWhole_append (h : Delimits rest) (hr : readWhole cs = .ok (ds, r)) :
    readWhole (cs ++ rest) = .ok (ds, r ++ rest) := by
  cases cs with
  | nil => cases hr
  | cons c cs =>
    by_cases hc : c = '0'
    · subst hc
      cases cs with
      | nil =>
        cases hr
        cases rest with
        | nil => rfl
        | cons c rest => simp [readWhole, h.head.1]
      | cons c cs =>
        cases hd : c.isDigit with
        | true => simp [readWhole, hd] at hr
        | false =>
          simp only [readWhole, hd, Bool.false_eq_true, if_false] at hr
          cases hr
          simp [readWhole, hd]
    · rw [readWhole_of_ne_zero hc] at hr
      rw [List.cons_append, readWhole_of_ne_zero hc]
      exact h.readDigits_append hr

theorem Delimits.readFraction_append (h : Delimits rest) (hr : readFraction cs = .ok (ds, r)) :
    readFraction (cs ++ rest) = .ok (ds, r ++ rest) := by
  by_cases hdot : cs.head? = some '.'
  · obtain ⟨cs, rfl⟩ := List.head?_eq_some_iff.1 hdot
    have hr : readDigits cs = .ok (ds, r) := hr
    exact h.readDigits_append hr
  · rw [readFraction_of_head hdot] at hr
    cases hr
    refine readFraction_of_head ?_
    cases cs with
    | nil => cases rest with
      | nil => simp
      | cons c rest => simpa using h.head.2.1
    | cons c cs => exact hdot

theorem Delimits.readPower_append {e : Option Int} (h : Delimits rest)
    (hr : readPower cs = .ok (e, r)) : readPower (cs ++ rest) = .ok (e, r ++ rest) := by
  obtain ⟨⟨ds, _⟩, hdigits, hpure⟩ := bind_eq_ok_iff.1 hr
  cases hpure
  have hsign : (Decimal.readSign (cs ++ rest)).1 = (Decimal.readSign cs).1 ∧
      (Decimal.readSign (cs ++ rest)).2 = (Decimal.readSign cs).2 ++ rest := by
    cases cs with
    | nil => cases hdigits
    | cons c cs => unfold Decimal.readSign; grind
  refine bind_eq_ok_iff.2 ⟨(ds, r ++ rest), ?_, by rw [hsign.1]; rfl⟩
  rw [hsign.2]
  exact h.readDigits_append hdigits

theorem Delimits.readExponent_append {e : Option Int} (h : Delimits rest)
    (hr : readExponent cs = .ok (e, r)) : readExponent (cs ++ rest) = .ok (e, r ++ rest) := by
  cases cs with
  | nil =>
    cases hr
    cases rest with
    | nil => rfl
    | cons c rest =>
      exact readExponent_of_head (by simpa using h.head.2.2.1) (by simpa using h.head.2.2.2)
  | cons c cs =>
    rw [readExponent_cons] at hr
    rw [List.cons_append, readExponent_cons]
    split at hr
    · rw [if_pos ‹_›]
      exact h.readPower_append hr
    · rw [if_neg ‹_›]
      cases hr
      rfl

/-- A number is read alike with or without what follows it. -/
theorem Delimits.readNumber_append {negative : Bool} {s : Scalar} (h : Delimits rest)
    (hr : readNumber negative cs = .ok (s, r)) :
    readNumber negative (cs ++ rest) = .ok (s, r ++ rest) := by
  unfold readNumber at hr ⊢
  obtain ⟨⟨whole, r₁⟩, hwhole, hr⟩ := bind_eq_ok_iff.1 hr
  obtain ⟨⟨fraction, r₂⟩, hfraction, hr⟩ := bind_eq_ok_iff.1 hr
  obtain ⟨⟨exponent, r₃⟩, hexponent, hr⟩ := bind_eq_ok_iff.1 hr
  cases hr
  refine bind_eq_ok_iff.2 ⟨_, h.readWhole_append hwhole, ?_⟩
  refine bind_eq_ok_iff.2 ⟨_, h.readFraction_append hfraction, ?_⟩
  exact bind_eq_ok_iff.2 ⟨_, h.readExponent_append hexponent, rfl⟩

theorem readWord_ne_number (w : Word) (es cs : List Char) (n : Number) :
    (readWord w es cs).1 ≠ .number n := by
  fun_induction readWord w es cs <;> simp_all

/-- Only a sign or a digit begins a number. -/
theorem readScalar_eq_number_iff {c : Char} {n : Number} :
    readScalar c cs = (.number n, r) ↔
      c = '-' ∧ readNumber true cs = .ok (.number n, r) ∨
      c.isDigit = true ∧ readNumber false (c :: cs) = .ok (.number n, r) := by
  unfold readScalar
  split
  case h_1 | h_2 | h_3 =>
    refine iff_of_false (fun h => readWord_ne_number _ _ _ n (congrArg Prod.fst h)) ?_
    simp
  case h_4 => simp
  case h_5 =>
    by_cases hminus : c = '-'
    · subst hminus
      cases readNumber true cs <;> simp
    · cases hdigit : c.isDigit with
      | false => simp [hminus]
      | true => cases readNumber false (c :: cs) <;> simp [hminus]

/-- The number at the head of a text is read alike with or without what follows it. -/
theorem Delimits.readScalar_append {c : Char} {n : Number} (h : Delimits rest)
    (hr : readScalar c cs = (.number n, r)) :
    readScalar c (cs ++ rest) = (.number n, r ++ rest) := by
  rw [readScalar_eq_number_iff] at hr ⊢
  rcases hr with ⟨hc, hr⟩ | ⟨hc, hr⟩
  · exact .inl ⟨hc, h.readNumber_append hr⟩
  · have hnumber := h.readNumber_append hr
    exact .inr ⟨hc, hnumber⟩

namespace Number

/-- The number is one that a text can give. -/
def InRange : Number → Prop
  | integer i => -0x8000000000000000 ≤ i ∧ i < UInt64.size
  | float _ => True

/-- The text of the number is read, to its end, as the number. -/
def ReadsBack (n : Number) : Prop :=
  ∃ c cs, n.text.toList = c :: cs ∧ readScalar c cs = (.number n, [])

/-- A literal that is read as an integer is one that fits 64 bits. -/
theorem InRange.of_numberOf {l : Decimal.Literal} {integral : Bool} {n : Number}
    (h : numberOf l integral = .number n) : n.InRange := by
  unfold numberOf at h
  dsimp only at h
  split at h
  · next hneg =>
    cases h
    exact ⟨by omega, by simp only [UInt64.size]; omega⟩
  · split at h
    · next hpos =>
      cases h
      exact ⟨by omega, by have := hpos.2.2; omega⟩
    · split at h
      · cases h
      · cases h
        trivial

theorem InRange.of_readNumber {negative : Bool} {cs r : List Char} {n : Number}
    (h : readNumber negative cs = .ok (.number n, r)) : n.InRange := by
  unfold readNumber at h
  obtain ⟨_, -, h⟩ := bind_eq_ok_iff.1 h
  obtain ⟨_, -, h⟩ := bind_eq_ok_iff.1 h
  obtain ⟨_, -, h⟩ := bind_eq_ok_iff.1 h
  exact .of_numberOf (congrArg Prod.fst (Except.ok.inj h))

theorem InRange.of_readScalar {c : Char} {cs r : List Char} {n : Number}
    (h : readScalar c cs = (.number n, r)) : n.InRange :=
  (readScalar_eq_number_iff.1 h).elim (fun h => .of_readNumber h.2) fun h => .of_readNumber h.2

/-! ### Integers -/

/-- The digits of a positive number do not begin with a zero. -/
theorem head?_toDigits {n : Nat} (h : 0 < n) : (Nat.toDigits 10 n).head? ≠ some '0' := by
  induction n using Nat.strongRecOn with
  | _ n ih =>
    by_cases hn : n < 10
    · rw [Nat.toDigits_of_lt_base hn]
      exact (by decide : ∀ n < 10, 0 < n → [Nat.digitChar n].head? ≠ some '0') n hn h
    · have hhead := ih (n / 10) (by omega) (by omega)
      rw [Nat.toDigits_of_base_le (by decide) (by omega)]
      cases h : Nat.toDigits 10 (n / 10) with
      | nil => exact absurd h Nat.toDigits_ne_nil
      | cons c cs =>
        rw [h] at hhead
        exact hhead

theorem readWhole_toDigits (n : Nat) :
    readWhole (Nat.toDigits 10 n) = .ok (Nat.toDigits 10 n, []) := by
  have hdigit : ∀ c ∈ Nat.toDigits 10 n, c.isDigit = true :=
    fun c hc => Nat.isDigit_of_mem_toDigits (by decide) (by decide) hc
  have hdigits : readDigits (Nat.toDigits 10 n) = .ok (Nat.toDigits 10 n, []) := by
    rw [readDigits, List.takeWhile_eq_self_iff.2 hdigit, List.dropWhile_eq_nil_iff.2 hdigit]
    cases h : Nat.toDigits 10 n with
    | nil => exact absurd h Nat.toDigits_ne_nil
    | cons c cs => rfl
  cases n with
  | zero => rfl
  | succ n =>
    cases h : Nat.toDigits 10 (n + 1) with
    | nil => exact absurd h Nat.toDigits_ne_nil
    | cons c cs =>
      have hhead := head?_toDigits n.succ_pos
      rw [h, List.head?_cons, Ne, Option.some.injEq] at hhead
      rw [readWhole_of_ne_zero hhead, ← h]
      exact hdigits

theorem readNumber_toDigits (negative : Bool) (n : Nat) :
    readNumber negative (Nat.toDigits 10 n) =
      .ok (numberOf ⟨negative, Nat.toDigits 10 n, [], 0⟩ true, []) := by
  rw [readNumber, readWhole_toDigits]
  rfl

/-- The digits that are written of a number are those of its value. -/
theorem digitsValue_toDigits (n : Nat) : Decimal.digitsValue (Nat.toDigits 10 n) = n := by
  rw [Decimal.digitsValue, ← Nat.ofDigitChars_eq_foldl, Nat.ofDigitChars_ten_toDigits]

/-- Every integer that fits is read back from its digits. -/
theorem ReadsBack.integer {i : Int} (h : (integer i).InRange) : (integer i).ReadsBack := by
  cases i with
  | ofNat n =>
    have hnumber : readNumber false (Nat.toDigits 10 n) = .ok (.number (.integer n), []) := by
      have hn : n < UInt64.size := Int.ofNat_lt.1 h.2
      simp [readNumber_toDigits, numberOf, digitsValue_toDigits, hn]
    cases hd : Nat.toDigits 10 n with
    | nil => exact absurd hd Nat.toDigits_ne_nil
    | cons c cs =>
      have hc : c.isDigit = true :=
        Nat.isDigit_of_mem_toDigits (b := 10) (n := n) (by decide) (by decide) (hd ▸ .head _)
      refine ⟨c, cs, ?_, readScalar_eq_number_iff.2 (.inr ⟨hc, hd ▸ hnumber⟩)⟩
      rw [← hd]
      exact String.toList_ofList
  | negSucc n =>
    have hnumber : readNumber true (Nat.toDigits 10 (n + 1)) =
        .ok (.number (.integer (Int.negSucc n)), []) := by
      have hn : n + 1 ≤ 0x8000000000000000 := by
        have := h.1
        omega
      simp [readNumber_toDigits, numberOf, digitsValue_toDigits, hn, Int.negSucc_eq]
    refine ⟨'-', Nat.toDigits 10 (n + 1), ?_, readScalar_eq_number_iff.2 (.inl ⟨rfl, hnumber⟩)⟩
    exact (String.toList_append ..).trans (by simp [Nat.repr])

theorem isNaN_or_isInf {x : Float} (h : x.isFinite = false) :
    x.isNaN = true ∨ x.isInf = true := by
  revert h
  show x.toModel.unpack.isFinite = false →
    x.toModel.unpack.isNaN = true ∨ x.toModel.unpack.isInf = true
  generalize x.toModel.unpack = u
  cases u with
  | notANumber => exact fun _ => .inl rfl
  | infinity s => exact fun _ => .inr rfl
  | zero | finite => exact fun h => Bool.noConfusion (show true = false from h)

/-- Neither the infinities nor the number that is none read back. -/
theorem ReadsBack.isFinite {x : Float} (h : (float x).ReadsBack) : x.isFinite = true := by
  obtain ⟨c, cs, htext, hread⟩ := h
  rw [readScalar_eq_number_iff] at hread
  by_contra hx
  have hcases := isNaN_or_isInf (Bool.eq_false_iff.2 hx)
  rw [text, Decimal.Layout.render] at htext
  by_cases hnan : x.isNaN = true
  · have hword : "NaN".toList = ['N', 'a', 'N'] := rfl
    rw [if_pos hnan, hword] at htext
    cases htext
    simp at hread
  · have hinf : x.isInf = true := hcases.resolve_left hnan
    have hminus : readNumber true ['i', 'n', 'f'] = .error .invalidNumber := rfl
    rw [if_neg hnan, if_pos hinf, String.toList_ofList] at htext
    split at htext <;> cases htext <;> simp [hminus] at hread

end Number

/-! ## Quoted texts -/

/-- The piece that stands for a character between quotes. -/
def Piece.ofChar (c : Char) : Piece :=
  if (shortEscape? c).isNone ∧ c.toNat < 0x20 then .unit c.toNat else .char c

theorem unitValue?_hexPair {n : Nat} (h : n < 0x20) :
    unitValue? '0' '0' (Nat.digitChar (n / 16 % 16)) (Nat.digitChar (n % 16)) = some n :=
  (by decide : ∀ n < 0x20, unitValue? '0' '0' (Nat.digitChar (n / 16 % 16))
    (Nat.digitChar (n % 16)) = some n) n h

theorem readPieces_plain {c : Char} (hquote : c ≠ '"') (hslash : c ≠ '\\') (cs : List Char) :
    readPieces (c :: cs) =
      if c.toNat < 0x20 then ([], .control, [])
      else (.char c :: (readPieces cs).1, (readPieces cs).2) := by
  rw [readPieces]
  · exact hquote
  all_goals intros; exact hslash ‹_›

/-- A character is read back from its escape. -/
theorem readPieces_escape (c : Char) (cs : List Char) :
    readPieces (escape c ++ cs) = (.ofChar c :: (readPieces cs).1, (readPieces cs).2) := by
  by_cases hshort : (shortEscape? c).isSome
  · unfold shortEscape? at hshort
    split at hshort <;> first | rfl | cases hshort
  · have hnone : shortEscape? c = none := by simpa using hshort
    have hplain : c ≠ '"' ∧ c ≠ '\\' := by
      constructor <;> rintro rfl <;> cases hnone
    rw [escape, hnone]
    by_cases hcontrol : c.toNat < 0x20
    · simp only [hcontrol, if_true, hexPair, List.cons_append, List.nil_append, readPieces,
        unitValue?_hexPair hcontrol, Piece.ofChar, hnone]
      rfl
    · simp [hcontrol, readPieces_plain hplain.1 hplain.2, Piece.ofChar]

/-- A text is read back up to its closing quote, and no further. -/
theorem readPieces_flatMap_escape (s rest : List Char) :
    readPieces (s.flatMap escape ++ '"' :: rest) = (s.map .ofChar, .closed, rest) := by
  induction s with
  | nil => rfl
  | cons c s ih => rw [List.flatMap_cons, List.append_assoc, readPieces_escape, ih, List.map_cons]

theorem assemble_char (e : Ending) (c : Char) (ps : List Piece) :
    assemble e (.char c :: ps) = (assemble e ps).map (c :: ·) := by
  rw [assemble]
  cases assemble e ps <;> rfl

/-- An escape that is no surrogate stands for a character, whatever follows it. -/
theorem assemble_unit (e : Ending) {n : Nat} (hlow : isLow n = false) (hhigh : isHigh n = false)
    (ps : List Piece) : assemble e (.unit n :: ps) = (assemble e ps).map (Char.ofNat n :: ·) := by
  match ps with
  | [] => cases hf : e.fault? <;> simp [assemble, hlow, hhigh, hf, Except.map]
  | .char d :: ps =>
    rw [assemble_char, assemble]
    simp only [hlow, hhigh, Bool.false_eq_true, if_false]
    cases assemble e ps <;> rfl
  | .unit m :: ps =>
    rw [assemble]
    simp only [hlow, hhigh, Bool.false_eq_true, if_false]
    cases assemble e (.unit m :: ps) <;> rfl

theorem assemble_ofChar (e : Ending) (c : Char) (ps : List Piece) :
    assemble e (.ofChar c :: ps) = (assemble e ps).map (c :: ·) := by
  unfold Piece.ofChar
  split
  · next h =>
    have hlow : isLow c.toNat = false := by
      have := h.2
      simp only [isLow, decide_eq_false_iff_not]
      omega
    have hhigh : isHigh c.toNat = false := by
      have := h.2
      simp only [isHigh, decide_eq_false_iff_not]
      omega
    rw [assemble_unit e hlow hhigh, Char.ofNat_toNat]
  · exact assemble_char e c ps

/-- The pieces that stand for characters are put together to the text. -/
theorem assemble_map_ofChar (s : List Char) : assemble .closed (s.map .ofChar) = .ok s := by
  induction s with
  | nil => rfl
  | cons c s ih => rw [List.map_cons, assemble_ofChar, ih, Except.map]

/-- A quoted text is read back to its closing quote. -/
theorem readQuoted_flatMap_escape (s : String) (rest : List Char) :
    readQuoted (s.toList.flatMap escape ++ '"' :: rest) = (.ofString s, rest) := by
  simp only [readQuoted, readPieces_flatMap_escape, assemble_map_ofChar, Except.map,
    String.ofList_toList]
  rfl

/-! ## Tokens -/

theorem readToken_quote (cs : List Char) :
    readToken '"' cs = (.scalar (.string (readQuoted cs).1), (readQuoted cs).2) := rfl

/-- A sign or a digit is no blank and no bracket. -/
theorem readToken_number {c : Char} (h : c = '-' ∨ c.isDigit = true) (cs : List Char) :
    isSpace c = false ∧
      readToken c cs = (.scalar (readScalar c cs).1, (readScalar c cs).2) := by
  rcases h with rfl | h
  · exact ⟨rfl, rfl⟩
  · constructor
    · refine Bool.eq_false_iff.2 fun hspace => ?_
      rcases isSpace_iff.1 hspace with rfl | rfl | rfl | rfl <;> cases h
    · unfold readToken
      split <;> first | rfl | cases h

end Json
end CampaignRouting
