import CampaignRouting.Json.Codec
import CampaignRouting.Proofs.Json.Tree
import Mathlib.Data.List.Forall2

/-!
# What is read

The tree of a text has only numbers that a text can give (`Tree.sound_ofText`). A reader is given
such a tree, or the tree of a value that has been read (`Tree.Readable`), and the values that it
keeps are canonical (`Tree.Readable.canonical`). Conversely a value that fits is read from its tree,
whatever the order of its members, and comes out sorted (`Tree.toJson_rearranged`).
-/

namespace CampaignRouting

section
variable {ε α β : Type}

/-- Where every item is read, so is the list. -/
theorem mapM_eq_ok {g : α → Except ε β} {h : α → β} {l : List α} (hl : ∀ a ∈ l, g a = .ok (h a)) :
    l.mapM g = .ok (l.map h) := by
  induction l with
  | nil => rfl
  | cons a l ih =>
    obtain ⟨ha, hl⟩ := List.forall_mem_cons.1 hl
    rw [List.mapM_cons, ha, ih hl]
    rfl

/-- A list is read exactly if its items are, one by one. -/
theorem mapM_eq_ok_iff_forall₂ {g : α → Except ε β} {l : List α} {bs : List β} :
    l.mapM g = .ok bs ↔ List.Forall₂ (fun a b => g a = .ok b) l bs := by
  induction l generalizing bs with
  | nil =>
    rw [List.forall₂_nil_left_iff]
    exact ⟨fun h => (Except.ok.inj h).symm, fun h => h ▸ rfl⟩
  | cons a l ih =>
    rw [List.mapM_cons, List.forall₂_cons_left_iff, bind_eq_ok_iff]
    refine exists_congr fun b => ?_
    rw [bind_eq_ok_iff]
    constructor
    · rintro ⟨hb, bs', hbs', h⟩
      cases h
      exact ⟨bs', hb, ih.1 hbs', rfl⟩
    · rintro ⟨bs', hb, hbs', rfl⟩
      exact ⟨hb, bs', ih.2 hbs', rfl⟩

theorem exists_of_forall₂_right {R : α → β → Prop} {l : List α} {bs : List β}
    (h : List.Forall₂ R l bs) : ∀ b ∈ bs, ∃ a ∈ l, R a b := by
  induction h with
  | nil => exact nofun
  | cons hab _ ih =>
    refine List.forall_mem_cons.2 ⟨⟨_, .head _, hab⟩, fun b hb => ?_⟩
    obtain ⟨a, ha, hR⟩ := ih b hb
    exact ⟨a, .tail _ ha, hR⟩

theorem exists_of_mapM_eq_ok {g : α → Except ε β} {l : List α} {bs : List β}
    (h : l.mapM g = .ok bs) : ∀ b ∈ bs, ∃ a ∈ l, g a = .ok b :=
  exists_of_forall₂_right (mapM_eq_ok_iff_forall₂.1 h)

end

namespace Json

variable {cs mid rest : List Char} {ts us : List Token} {t : Token}

/-- A number is one that a text can give. -/
def Token.InRange : Token → Prop
  | .scalar (.number n) => n.InRange
  | _ => True

theorem Token.InRange.of_readToken {c : Char} (h : readToken c cs = (t, rest)) : t.InRange := by
  unfold readToken at h
  split at h
  case h_7 =>
    cases hs : readScalar c cs with
    | mk s r =>
      rw [hs] at h
      cases h
      cases s with
      | number n => exact Number.InRange.of_readScalar hs
      | _ => trivial
  all_goals cases h; trivial

/-- All integers of a text fit 64 bits. -/
theorem inRange_tokensWithin (fuel : Nat) (cs : List Char) :
    ∀ t ∈ tokensWithin fuel cs, t.InRange := by
  induction fuel generalizing cs with
  | zero => exact List.forall_mem_nil _
  | succ fuel ih =>
    rw [tokensWithin]
    split
    · exact List.forall_mem_nil _
    · next c cs _ =>
      have hhead : (readToken c cs).1.InRange := .of_readToken rfl
      dsimp only
      split
      · simpa using hhead
      · exact List.forall_mem_cons.2 ⟨hhead, ih _⟩

namespace Tree

/-- The numbers of the tree are numbers that a text can give. -/
inductive Sound : Tree → Prop
  | scalar {s : Scalar} (inRange : ∀ n, s = .number n → n.InRange) : Sound (.scalar s)
  | list {ts : List Tree} {close : Close} (items : ∀ t ∈ ts, Sound t) : Sound (.list ts close)
  | object {ms : List (Quoted × Tree)} {close : Close} (members : ∀ m ∈ ms, Sound m.2) :
    Sound (.object ms close)
  | absent (fault : Fault) : Sound (.absent fault)

/-- The tokens that are left over, if any, have numbers in range. -/
def LeftInRange (left : Option (List Token)) : Prop := ∀ us, left = some us → ∀ t ∈ us, t.InRange

theorem LeftInRange.none : LeftInRange none := fun _ h => nomatch h

theorem LeftInRange.some (h : ∀ t ∈ us, t.InRange) : LeftInRange (some us) := fun _ hus =>
  Option.some.inj hus ▸ h

/-! The three functions that grow trees call each other with less fuel. What each of them needs to
know of the others has a name, and one induction on the fuel gives all three. -/

/-- What grows from tokens whose numbers are in range is sound, and leaves such tokens over. -/
def GrowSound (fuel : Nat) : Prop := ∀ ts : List Token, (∀ t ∈ ts, t.InRange) →
  (grow fuel ts).1.Sound ∧ LeftInRange (grow fuel ts).2

/-- Items are grown as sound trees. -/
def GrowItemsSound (fuel : Nat) : Prop := ∀ ts : List Token, (∀ t ∈ ts, t.InRange) →
  (∀ t ∈ (growItems fuel ts).1, t.Sound) ∧ LeftInRange (growItems fuel ts).2.2

/-- Members are grown as sound trees. -/
def GrowMembersSound (fuel : Nat) : Prop := ∀ (key : Quoted) (ts : List Token),
  (∀ t ∈ ts, t.InRange) →
    (∀ m ∈ (growMembers fuel key ts).1, m.2.Sound) ∧ LeftInRange (growMembers fuel key ts).2.2

theorem Sound.stray : Sound (.scalar .stray) := .scalar fun _ h => by cases h

theorem GrowSound.succ {fuel : Nat} (hitems : GrowItemsSound fuel)
    (hmembers : GrowMembersSound fuel) : GrowSound (fuel + 1) := by
  intro ts h
  cases ts with
  | nil => exact ⟨.absent _, .none⟩
  | cons t ts =>
    obtain ⟨ht, hts⟩ := List.forall_mem_cons.1 h
    cases t with
    | scalar s =>
      refine ⟨.scalar fun n hn => ?_, ?_⟩
      · subst hn
        exact ht
      · simp only [grow]
        split
        · exact .none
        · exact .some hts
    | openList =>
      simp only [grow]
      split
      · exact ⟨.list (List.forall_mem_nil _), .none⟩
      · exact ⟨.list (List.forall_mem_nil _), .some (List.forall_mem_cons.1 hts).2⟩
      · exact ⟨.list (hitems ts hts).1, (hitems ts hts).2⟩
    | openObject =>
      simp only [grow]
      split
      · exact ⟨.object (List.forall_mem_nil _), .none⟩
      · exact ⟨.object (List.forall_mem_nil _), .some (List.forall_mem_cons.1 hts).2⟩
      · next key ts =>
        have hts := (List.forall_mem_cons.1 hts).2
        exact ⟨.object (hmembers key ts hts).1, (hmembers key ts hts).2⟩
      · exact ⟨.object (List.forall_mem_nil _), .none⟩
    | closeList | closeObject | comma | colon => exact ⟨.stray, .none⟩

theorem GrowItemsSound.succ {fuel : Nat} (hgrow : GrowSound fuel) (hitems : GrowItemsSound fuel) :
    GrowItemsSound (fuel + 1) := by
  intro ts h
  obtain ⟨hitem, hleft⟩ := hgrow ts h
  simp only [growItems]
  split
  · next heq =>
    rw [heq] at hitem
    exact ⟨List.forall_mem_singleton.2 hitem, .none⟩
  · next item us heq =>
    rw [heq] at hitem hleft
    have hus := hleft us rfl
    have hone : ∀ t ∈ [item], t.Sound := List.forall_mem_singleton.2 hitem
    split
    case h_2 => exact ⟨hone, .some (List.forall_mem_cons.1 hus).2⟩
    case h_5 =>
      obtain ⟨htail, hleft⟩ := hitems _ (List.forall_mem_cons.1 hus).2
      exact ⟨List.forall_mem_cons.2 ⟨hitem, htail⟩, hleft⟩
    all_goals exact ⟨hone, .none⟩

theorem GrowMembersSound.succ {fuel : Nat} (hgrow : GrowSound fuel)
    (hmembers : GrowMembersSound fuel) : GrowMembersSound (fuel + 1) := by
  intro key ts h
  simp only [growMembers]
  split
  · next ts =>
    obtain ⟨hvalue, hleft⟩ := hgrow ts (List.forall_mem_cons.1 h).2
    split
    · next heq =>
      rw [heq] at hvalue
      exact ⟨List.forall_mem_singleton.2 hvalue, .none⟩
    · next value us heq =>
      rw [heq] at hvalue hleft
      have hus := hleft us rfl
      have hone : ∀ m ∈ [(key, value)], m.2.Sound := List.forall_mem_singleton.2 hvalue
      split
      case h_2 => exact ⟨hone, .some (List.forall_mem_cons.1 hus).2⟩
      case h_5 =>
        have hus := (List.forall_mem_cons.1 (List.forall_mem_cons.1 hus).2).2
        obtain ⟨htail, hleft⟩ := hmembers _ _ hus
        exact ⟨List.forall_mem_cons.2 ⟨hvalue, htail⟩, hleft⟩
      all_goals exact ⟨hone, .none⟩
  · exact ⟨List.forall_mem_singleton.2 (.absent _), .none⟩
  · exact ⟨List.forall_mem_singleton.2 (.absent _), .none⟩

/-- Trees, items and members are sound together, by induction on the fuel. -/
theorem sound_grow (fuel : Nat) :
    GrowSound fuel ∧ GrowItemsSound fuel ∧ GrowMembersSound fuel := by
  induction fuel with
  | zero =>
    exact ⟨fun _ _ => ⟨.absent _, .none⟩, fun _ _ => ⟨List.forall_mem_nil _, .none⟩,
      fun _ _ _ => ⟨List.forall_mem_nil _, .none⟩⟩
  | succ fuel ih =>
    obtain ⟨hgrow, hitems, hmembers⟩ := ih
    exact ⟨.succ hitems hmembers, .succ hgrow hitems, .succ hgrow hmembers⟩

/-- The tree of a text is sound. -/
theorem sound_ofText (s : String) : (ofText s).1.Sound :=
  ((sound_grow (2 * (tokens s.toList).length + 1)).1 (tokens s.toList)
    (inRange_tokensWithin _ _)).1

/-! ## Any value -/

theorem toJsonItems_eq_mapM (source : Source) (ts : List Tree) :
    toJsonItems source ts = ts.mapM (toJson source) := by
  induction ts with
  | nil => rfl
  | cons t ts ih => rw [toJsonItems, ih, List.mapM_cons]

theorem toJsonMembers_eq_mapM (source : Source) (ms : List (Quoted × Tree)) :
    toJsonMembers source ms = ms.mapM fun m => do return (← m.1.read, ← m.2.toJson source) := by
  induction ms with
  | nil => rfl
  | cons m ms ih =>
    rw [toJsonMembers, ih, List.mapM_cons]
    simp

theorem ofItems_eq_map (vs : List Json) : ofItems vs = vs.map ofJson := by
  induction vs with
  | nil => rfl
  | cons v vs ih => rw [ofItems, ih, List.map_cons]

theorem ofMembers_eq_map (ms : List (String × Json)) :
    ofMembers ms = ms.map fun m => (.ofString m.1, ofJson m.2) := by
  induction ms with
  | nil => rfl
  | cons m ms ih => rw [ofMembers, ih, List.map_cons]

end Tree

/-- Lists and objects may nest `k` deep. -/
def Source.Has (k : Nat) : Source → Prop
  | text room => k ≤ room
  | value | buffered => True

/-- There is room inside for one level less. -/
theorem Source.Has.enter {source : Source} {k : Nat} (h : source.Has (k + 1)) :
    ∃ inner, source.enter = .ok inner ∧ inner.Has k := by
  cases source with
  | text room =>
    obtain ⟨room, rfl⟩ := Nat.exists_eq_add_one.2 (Nat.zero_lt_of_lt h)
    exact ⟨_, rfl, Nat.le_of_succ_le_succ h⟩
  | value | buffered => exact ⟨_, rfl, trivial⟩

theorem Source.Has.mono {source : Source} {k l : Nat} (h : source.Has l) (hkl : k ≤ l) :
    source.Has k := by
  cases source with
  | text room => exact hkl.trans h
  | value | buffered => trivial

namespace Tree

/-- Reading minds neither the order of the members nor where the tree comes from. -/
theorem toJson_rearranged {f : Json → Json} (hf : Rearrangement f) {v : Json} {k : Nat}
    (h : v.Fits k) {source : Source} (hsource : source.Has k) :
    (ofJson (f v)).toJson source = .ok v.sorted := by
  induction h generalizing source with
  | null => rw [hf.null]; rfl
  | bool b => rw [hf.bool]; cases b <;> rfl
  | number n => rw [hf.number]; rfl
  | string s => rw [hf.string]; rfl
  | @array k vs _ ih =>
    obtain ⟨inner, henter, hinner⟩ := hsource.enter
    have hitems : toJsonItems inner ((vs.map f).map ofJson) = .ok (vs.map sorted) := by
      rw [toJsonItems_eq_mapM, List.map_map, List.mapM_map]
      exact mapM_eq_ok fun v hv => ih v hv hinner
    rw [hf.array, ofJson, ofItems_eq_map, toJson, henter, sorted_array]
    simp only [bind, Except.bind, hitems]
    rfl
  | @object k ms hdistinct _ ih =>
    obtain ⟨inner, henter, hinner⟩ := hsource.enter
    obtain ⟨ms', hperm, hobject⟩ := hf.object _ hdistinct
    have hmembers : toJsonMembers inner (ofMembers (ms'.map fun m => (m.1, f m.2))) =
        .ok (ms'.map fun m => (m.1, m.2.sorted)) := by
      rw [toJsonMembers_eq_mapM, ofMembers_eq_map, List.map_map, List.mapM_map]
      refine mapM_eq_ok fun m hm => ?_
      simp only [Function.comp_apply, Quoted.read, Quoted.ofString, ih m (hperm.subset hm) hinner]
      rfl
    -- Distinct keys are kept in ascending order, whatever order they come in.
    have hsorted : SortedMap.ofList (ms'.map fun m => (m.1, m.2.sorted)) =
        ⟨(sortedKeys ms).map fun m => (m.1, m.2.sorted),
          List.pairwise_map.2 (ascending_sortedKeys ms)⟩ :=
      SortedMap.ofList_perm ((hperm.trans (sortedKeys_perm hdistinct).symm).map _)
    rw [hobject, ofJson, toJson, henter, sorted_object]
    simp only [bind, Except.bind, hmembers, hsorted]
    rfl

/-- A value that is kept from a text has no more levels than the text may open. -/
theorem Sound.canonical {t : Tree} (h : t.Sound) {k : Nat} {v : Json}
    (hread : t.toJson (.text k) = .ok v) : v.Canonical k := by
  induction h generalizing k v with
  | @scalar s hnumber =>
    cases s with
    | word w => cases w <;> cases hread <;> constructor
    | number n =>
      cases hread
      exact .number (hnumber n rfl)
    | string q =>
      obtain ⟨s, -, rfl⟩ := map_eq_ok_iff.1 hread
      exact .string s
    | brokenWord | hugeNumber | brokenNumber | stray => cases hread
  | absent => cases hread
  | @list ts close _ ih =>
    rw [toJson] at hread
    obtain ⟨inner, henter, hread⟩ := bind_eq_ok_iff.1 hread
    obtain ⟨vs, hitems, hread⟩ := bind_eq_ok_iff.1 hread
    obtain ⟨_, -, hread⟩ := bind_eq_ok_iff.1 hread
    cases hread
    cases k with
    | zero => cases henter
    | succ k =>
      cases henter
      rw [toJsonItems_eq_mapM] at hitems
      refine .array fun v hv => ?_
      obtain ⟨t, ht, hread⟩ := exists_of_mapM_eq_ok hitems v hv
      exact ih t ht hread
  | @object ms close _ ih =>
    rw [toJson] at hread
    obtain ⟨inner, henter, hread⟩ := bind_eq_ok_iff.1 hread
    obtain ⟨vs, hmembers, hread⟩ := bind_eq_ok_iff.1 hread
    obtain ⟨_, -, hread⟩ := bind_eq_ok_iff.1 hread
    cases hread
    cases k with
    | zero => cases henter
    | succ k =>
      cases henter
      rw [toJsonMembers_eq_mapM] at hmembers
      refine .object (SortedMap.ascending _) fun m hm => ?_
      obtain ⟨t, ht, hread⟩ := exists_of_mapM_eq_ok hmembers m (SortedMap.mem_of_mem_ofList hm)
      obtain ⟨_, -, hread⟩ := bind_eq_ok_iff.1 hread
      obtain ⟨v, hv, hread⟩ := bind_eq_ok_iff.1 hread
      cases hread
      exact ih t ht hv

/-- What a reader is given: the tree of a text in which `k` levels may be opened, or that of a value
that has been read and has at most `k` levels. -/
inductive Readable : Source → Nat → Tree → Prop
  | text {k : Nat} {t : Tree} (sound : t.Sound) : Readable (.text k) k t
  | value {k : Nat} {v : Json} (canonical : v.Canonical k) : Readable .value k (ofJson v)

namespace Readable

variable {source inner : Source} {k : Nat}

/-- A value that is read is in the form that it would be written in. -/
theorem canonical {t : Tree} {v : Json} (h : Readable source k t)
    (hread : t.toJson source = .ok v) : v.Canonical k := by
  cases h with
  | text hsound => exact hsound.canonical hread
  | @value k w hw =>
    have hsame : (ofJson w).toJson .value = .ok w.sorted :=
      toJson_rearranged .id hw.fits trivial
    rw [hread, hw.sorted_eq] at hsame
    exact Except.ok.inj hsame ▸ hw

theorem number {n : Number} (h : Readable source k (.scalar (.number n))) : n.InRange := by
  cases hread : (Tree.scalar (.number n)).toJson source with
  | error e => cases hread
  | ok v =>
    cases hread
    cases h.canonical rfl with
    | number hn => exact hn

theorem items {ts : List Tree} {close : Close} (h : Readable source k (.list ts close))
    (henter : source.enter = .ok inner) : ∃ j, k = j + 1 ∧ ∀ t ∈ ts, Readable inner j t := by
  generalize ht : Tree.list ts close = t at h
  cases h with
  | text hsound =>
    subst ht
    cases k with
    | zero => cases henter
    | succ k =>
      cases henter
      cases hsound with
      | list hitems => exact ⟨k, rfl, fun t ht => .text (hitems t ht)⟩
  | value hcanonical =>
    cases henter
    cases hcanonical <;> cases ht
    next hitems =>
      refine ⟨_, rfl, ?_⟩
      rw [ofItems_eq_map]
      exact List.forall_mem_map.2 fun v hv => .value (hitems v hv)

theorem members {ms : List (Quoted × Tree)} {close : Close}
    (h : Readable source k (.object ms close)) (henter : source.enter = .ok inner) :
    ∃ j, k = j + 1 ∧ ∀ m ∈ ms, Readable inner j m.2 := by
  generalize ht : Tree.object ms close = t at h
  cases h with
  | text hsound =>
    subst ht
    cases k with
    | zero => cases henter
    | succ k =>
      cases henter
      cases hsound with
      | object hmembers => exact ⟨k, rfl, fun m hm => .text (hmembers m hm)⟩
  | value hcanonical =>
    cases henter
    cases hcanonical <;> cases ht
    next hmembers =>
      refine ⟨_, rfl, ?_⟩
      rw [ofMembers_eq_map]
      exact List.forall_mem_map.2 fun m hm => .value (hmembers m hm)

end Readable
end Tree

/-! ## Texts -/

/-- A text is read exactly if its tree is, and nothing follows. -/
theorem Codec.ofText_eq_ok_iff {α : Type} {c : Codec α} {s : String} {a : α} :
    c.ofText s = .ok a ↔
      c.read (.text maxDepth) (Tree.ofText s).1 = .ok a ∧ (Tree.ofText s).2 = false := by
  rw [ofText]
  cases Tree.ofText s with
  | mk t more =>
    dsimp only
    cases c.read (.text maxDepth) t <;> cases more <;>
      simp [bind, Except.bind, pure, Except.pure, throw, throwThe, MonadExceptOf.throw]

end Json
end CampaignRouting
