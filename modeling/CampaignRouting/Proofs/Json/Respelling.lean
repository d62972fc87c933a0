import CampaignRouting.Proofs.Json.Record
import CampaignRouting.Proofs.Json.Reordering
import Mathlib.Data.List.ReduceOption

/-!
# The spelling of records

A record's object may be written in many ways: its members in any order, each under any name that
its field goes by, and without members that no field knows. What may be rewritten in the fields of a
record is said by its slots (`Slot`), and `Tree.RecordOf` says it of its trees. If each field
respects what its slot allows, so does the record (`Codec.Respects.record`): one member is read
alike wherever it stands (`Fields.takeMember_comm`) and however it is spelled
(`Fields.Respects.takeMember`), and so are all of them.
-/

namespace CampaignRouting

/-- Steps that may be taken in either order may be taken in any. -/
theorem foldlM_of_perm {ε α σ : Type} {step : σ → α → Except ε σ}
    (hcomm : ∀ s a b s₁ s₂, step s a = .ok s₁ → step s₁ b = .ok s₂ →
      ∃ s₁', step s b = .ok s₁' ∧ step s₁' a = .ok s₂)
    {l l' : List α} (h : l.Perm l') {s s' : σ} (hl : l.foldlM step s = .ok s') :
    l'.foldlM step s = .ok s' := by
  induction h generalizing s with
  | nil => exact hl
  | cons a _ ih =>
    rw [List.foldlM_cons] at hl ⊢
    obtain ⟨s₁, ha, hl⟩ := bind_eq_ok_iff.1 hl
    exact bind_eq_ok_iff.2 ⟨s₁, ha, ih hl⟩
  | swap a b l =>
    simp only [List.foldlM_cons] at hl ⊢
    obtain ⟨s₁, hb, hl⟩ := bind_eq_ok_iff.1 hl
    obtain ⟨s₂, ha, hl⟩ := bind_eq_ok_iff.1 hl
    obtain ⟨s₁', ha', hb'⟩ := hcomm _ _ _ _ _ hb ha
    exact bind_eq_ok_iff.2 ⟨s₁', ha', bind_eq_ok_iff.2 ⟨s₂, hb', hl⟩⟩
  | trans _ _ ih₁ ih₂ => exact ih₂ (ih₁ hl)

namespace Json

/-- A field as those see it who write a record: the names it goes by, and what may be written for
what. -/
structure Slot where
  names : List String
  Rewrites : Tree → Tree → Prop

/-- A field of one name, in whose values only the order of members is free. -/
def Slot.plain (name : String) : Slot := ⟨[name], Tree.Reordered⟩

namespace Tree

/-- What may become of a member of a record's object. -/
inductive Change (slots : List Slot) : Quoted × Tree → Option (Quoted × Tree) → Prop
  /-- The member of a field goes by any name of the field. -/
  | known {slot : Slot} {key key' : Quoted} {name name' : String} {value value' : Tree}
    (hslot : slot ∈ slots) (hkey : key.text = .ok name) (hname : name ∈ slot.names)
    (hkey' : key'.text = .ok name') (hname' : name' ∈ slot.names)
    (hvalue : slot.Rewrites value value') : Change slots (key, value) (some (key', value'))
  | unknown {key : Quoted} {name : String} {value value' : Tree} (hkey : key.text = .ok name)
    (hname : ∀ slot ∈ slots, name ∉ slot.names) (hvalue : Reordered value value') :
    Change slots (key, value) (some (key, value'))
  /-- A member that belongs to no field is left out. -/
  | dropped {key : Quoted} {name : String} {value : Tree} (hkey : key.text = .ok name)
    (hname : ∀ slot ∈ slots, name ∉ slot.names) : Change slots (key, value) none

/-- The values of the first fields, one after the other. -/
inductive ValuesOf : List Slot → List Tree → List Tree → Prop
  | nil {slots : List Slot} : ValuesOf slots [] []
  | cons {slot : Slot} {slots : List Slot} {t t' : Tree} {ts ts' : List Tree}
    (ht : slot.Rewrites t t') (hts : ValuesOf slots ts ts') :
    ValuesOf (slot :: slots) (t :: ts) (t' :: ts')

/-- A record in another spelling. Where it is given as the list of its values, no names are
written. -/
inductive RecordOf (slots : List Slot) : Tree → Tree → Prop
  | scalar (s : Scalar) : RecordOf slots (.scalar s) (.scalar s)
  | list {items items' : List Tree} (close : Close) (h : ValuesOf slots items items') :
    RecordOf slots (.list items close) (.list items' close)
  | object {ms ns ms' : List (Quoted × Tree)} {os : List (Option (Quoted × Tree))} (close : Close)
    (order : ms.Perm ns) (changes : List.Forall₂ (Change slots) ns os)
    (order' : ms'.Perm os.reduceOption) : RecordOf slots (.object ms close) (.object ms' close)

theorem RecordOf.keepsScalars (slots : List Slot) : KeepsScalars (RecordOf slots) := by
  rintro _ _ (_ | _ | _) s <;> simp

/-! ## Skipping -/

theorem skippedItemsFault?_eq_none_iff {ts : List Tree} :
    skippedItemsFault? ts = none ↔ ∀ t ∈ ts, t.skippedFault? = none := by
  induction ts with
  | nil => simp [skippedItemsFault?]
  | cons t ts ih => rw [skippedItemsFault?, Option.or_eq_none_iff, ih, List.forall_mem_cons]

theorem skippedMembersFault?_eq_none_iff {ms : List (Quoted × Tree)} :
    skippedMembersFault? ms = none ↔ ∀ m ∈ ms, m.1.stop = none ∧ m.2.skippedFault? = none := by
  induction ms with
  | nil => simp [skippedMembersFault?]
  | cons m ms ih =>
    rw [skippedMembersFault?, Option.or_eq_none_iff, Option.or_eq_none_iff, ih,
      List.forall_mem_cons, and_assoc]

/-- A value that can be skipped can be skipped in any order. -/
theorem Reordered.skippedFault? {t t' : Tree} (h : t.Reordered t')
    (ht : t.skippedFault? = none) : t'.skippedFault? = none := by
  revert ht
  refine h.induction (P := fun t t' => t.skippedFault? = none → t'.skippedFault? = none)
    (fun _ => id) (fun _ => id) ?_ ?_
  · intro items items' close hitems ht
    rw [Tree.skippedFault?, Option.or_eq_none_iff, skippedItemsFault?_eq_none_iff] at ht ⊢
    refine ⟨fun t' ht' => ?_, ht.2⟩
    obtain ⟨t, hmem, hstep⟩ := exists_of_forall₂_right hitems t' ht'
    exact hstep (ht.1 t hmem)
  · intro ms ns ms' close order hmembers ht
    rw [Tree.skippedFault?, Option.or_eq_none_iff, skippedMembersFault?_eq_none_iff] at ht ⊢
    refine ⟨fun m' hm' => ?_, ht.2⟩
    obtain ⟨m, hmem, hkey, hstep⟩ := exists_of_forall₂_right hmembers m' hm'
    obtain ⟨hstop, hvalue⟩ := ht.1 m (order.symm.subset hmem)
    exact ⟨hkey ▸ hstop, hstep hvalue⟩

end Tree

namespace Fields

variable {β σ : Type} {source : Source}

/-! ## One member -/

/-- Reads a member into its field, or skips it. -/
def takeMember (fields : Fields β σ) (source : Source) (found : σ) (m : Quoted × Tree) :
    Except Error σ := do
  let name ← m.1.read
  match fields.readMember? source name m.2 found with
  | some r => r
  | none =>
    checkFault m.2.skippedFault?
    return found

theorem readMembers_eq_foldlM (fields : Fields β σ) (ms : List (Quoted × Tree)) (found : σ) :
    fields.readMembers source ms found = ms.foldlM (fields.takeMember source) found := by
  induction ms generalizing found with
  | nil => rfl
  | cons m ms ih =>
    obtain ⟨key, value⟩ := m
    rw [readMembers, List.foldlM_cons, takeMember]
    simp only [bind_assoc]
    congr
    funext name
    cases fields.readMember? source name value found with
    | some r => simp [ih]
    | none => simp [ih]

theorem readMember?_cons_eq_ok_iff {α : Type} {f : Field α} {rest : Fields β σ} {name : String}
    {value : Tree} {found found' : Option α × σ} :
    (cons f rest).readMember? source name value found = some (.ok found') ↔
      (f.AnswersTo name ∧ found.1 = none ∧ ∃ a, f.codec.read source value = .ok a ∧
        (some a, found.2) = found') ∨
      (¬f.AnswersTo name ∧ ∃ others, rest.readMember? source name value found.2 =
        some (.ok others) ∧ (found.1, others) = found') := by
  obtain ⟨x?, others⟩ := found
  rw [readMember?]
  split
  · next h =>
    cases x? with
    | some a => simp [h]
    | none => simp [h, map_eq_ok_iff]
  · next h => simp [h, map_eq_ok_iff]

theorem takeMember_eq_ok_iff {fields : Fields β σ} {found found' : σ} {m : Quoted × Tree} :
    fields.takeMember source found m = .ok found' ↔ ∃ name, m.1.text = .ok name ∧
      (fields.readMember? source name m.2 found = some (.ok found') ∨
        (¬fields.Knows name ∧ m.2.skippedFault? = none ∧ found' = found)) := by
  simp only [takeMember, bind_eq_ok_iff, Quoted.read_eq_ok_iff]
  refine exists_congr fun name => and_congr_right fun _ => ?_
  cases hmember : fields.readMember? source name m.2 found with
  | some r =>
    have hknown : fields.Knows name := by
      by_contra hknown
      cases (readMember?_eq_none_iff.2 hknown).symm.trans hmember
    simp [hknown]
  | none =>
    have hunknown := readMember?_eq_none_iff.1 hmember
    constructor
    · intro h
      obtain ⟨_, hskip, h⟩ := bind_eq_ok_iff.1 h
      cases h
      exact .inr ⟨hunknown, checkFault_eq_ok_iff.1 hskip, rfl⟩
    · rintro (h | ⟨-, hskip, rfl⟩)
      · cases h
      · exact bind_eq_ok_iff.2 ⟨(), checkFault_eq_ok_iff.2 hskip, rfl⟩

/-- Two members may be read in either order: they belong to two fields, or one of them to none. -/
theorem readMember?_comm {fields : Fields β σ} {a b : String} {s t : Tree} {found f₁ f₂ : σ}
    (ha : fields.readMember? source a s found = some (.ok f₁))
    (hb : fields.readMember? source b t f₁ = some (.ok f₂)) :
    ∃ f₁', fields.readMember? source b t found = some (.ok f₁') ∧
      fields.readMember? source a s f₁' = some (.ok f₂) := by
  induction fields with
  | nil => cases ha
  | cons f rest ih =>
    rw [readMember?_cons_eq_ok_iff] at ha hb
    simp only [readMember?_cons_eq_ok_iff]
    rcases ha with ⟨hfa, hnone, x, hx, rfl⟩ | ⟨hfa, others, hothers, rfl⟩
    · rcases hb with ⟨-, hsome, -⟩ | ⟨hfb, others, hothers, rfl⟩
      · cases hsome
      · exact ⟨_, .inr ⟨hfb, others, hothers, rfl⟩, .inl ⟨hfa, hnone, x, hx, rfl⟩⟩
    · rcases hb with ⟨hfb, hnone, x, hx, rfl⟩ | ⟨hfb, others', hothers', rfl⟩
      · exact ⟨_, .inl ⟨hfb, hnone, x, hx, rfl⟩, .inr ⟨hfa, others, hothers, rfl⟩⟩
      · obtain ⟨o, ho, ho'⟩ := ih hothers hothers'
        exact ⟨_, .inr ⟨hfb, o, ho, rfl⟩, .inr ⟨hfa, others', ho', rfl⟩⟩

theorem takeMember_comm {fields : Fields β σ} {found f₁ f₂ : σ} {m n : Quoted × Tree}
    (hm : fields.takeMember source found m = .ok f₁) (hn : fields.takeMember source f₁ n = .ok f₂) :
    ∃ f₁', fields.takeMember source found n = .ok f₁' ∧
      fields.takeMember source f₁' m = .ok f₂ := by
  simp only [takeMember_eq_ok_iff] at hm hn ⊢
  obtain ⟨a, ha, hm⟩ := hm
  obtain ⟨b, hb, hn⟩ := hn
  rcases hm with hm | ⟨hunknown, hskip, rfl⟩
  · rcases hn with hn | ⟨hunknown, hskip, rfl⟩
    · obtain ⟨f₁', hn', hm'⟩ := readMember?_comm hm hn
      exact ⟨f₁', ⟨b, hb, .inl hn'⟩, a, ha, .inl hm'⟩
    · exact ⟨found, ⟨b, hb, .inr ⟨hunknown, hskip, rfl⟩⟩, a, ha, .inl hm⟩
  · exact ⟨f₂, ⟨b, hb, hn⟩, a, ha, .inr ⟨hunknown, hskip, rfl⟩⟩

theorem readMembers_of_perm {fields : Fields β σ} {ms ms' : List (Quoted × Tree)} {found found' : σ}
    (h : ms.Perm ms') (hread : fields.readMembers source ms found = .ok found') :
    fields.readMembers source ms' found = .ok found' := by
  have hcomm : ∀ f m n f₁ f₂, fields.takeMember source f m = .ok f₁ →
      fields.takeMember source f₁ n = .ok f₂ → _ := fun _ _ _ _ _ => takeMember_comm
  rw [readMembers_eq_foldlM] at hread ⊢
  exact foldlM_of_perm hcomm h hread

/-! ## Fields that respect their slots

Next to a relation of the values of all fields, one of what has been found of them is needed while
the members are being read. -/

inductive Respects : {β σ : Type} → Fields β σ → List Slot → (β → β → Prop) → (σ → σ → Prop) → Prop
  | nil {S : Unit → Unit → Prop} (h : S () ()) : Respects .nil [] S fun _ _ => True
  | cons {α β σ : Type} {field : Field α} {fields : Fields β σ} {slot : Slot} {slots : List Slot}
    {S : α → α → Prop} {T : β → β → Prop} {F : σ → σ → Prop} {U : α × β → α × β → Prop}
    (names : slot.names = field.name :: field.aliases)
    (codec : field.codec.Respects slot.Rewrites S) (missing : ∀ a ∈ field.ifMissing, S a a)
    (short : ∀ a ∈ field.ifShort, S a a) (rest : Respects fields slots T F)
    (pair : ∀ a a' b b', S a a' → T b b' → U (a, b) (a', b')) :
    Respects (.cons field fields) (slot :: slots) U fun f g => Option.Rel S f.1 g.1 ∧ F f.2 g.2

namespace Respects

variable {fields : Fields β σ} {slots : List Slot} {S : β → β → Prop} {F : σ → σ → Prop}

theorem noneFound (h : fields.Respects slots S F) : F fields.noneFound fields.noneFound := by
  induction h with
  | nil => trivial
  | cons _ _ _ _ _ _ ih => exact ⟨.none, ih⟩

theorem knows_iff (h : fields.Respects slots S F) {name : String} :
    fields.Knows name ↔ ∃ slot ∈ slots, name ∈ slot.names := by
  induction h with
  | nil => simp [Knows]
  | cons names _ _ _ _ _ ih => simp [Knows, Field.AnswersTo, names, ih]

theorem not_knows (h : fields.Respects slots S F) {name : String}
    (hname : ∀ slot ∈ slots, name ∉ slot.names) : ¬fields.Knows name := by
  rw [h.knows_iff]
  rintro ⟨slot, hslot, hmem⟩
  exact hname slot hslot hmem

theorem readMember? (h : fields.Respects slots S F) (apart : (slots.flatMap Slot.names).Nodup)
    {found found' g : σ} (hg : F found g) {slot : Slot} (hslot : slot ∈ slots) {name name' : String}
    (hname : name ∈ slot.names) (hname' : name' ∈ slot.names) {value value' : Tree}
    (hvalue : slot.Rewrites value value') (hdistinct : value.Distinct)
    (hread : fields.readMember? source name value found = some (.ok found')) :
    ∃ g', fields.readMember? source name' value' g = some (.ok g') ∧ F found' g' := by
  induction h with
  | nil => cases hslot
  | @cons α β σ field fields slot₀ slots S T F U names codec _ _ rest _ ih =>
    have hanswers (n : String) : field.AnswersTo n ↔ n ∈ slot₀.names := by
      rw [names, List.mem_cons, Field.AnswersTo]
    rw [List.flatMap_cons, List.nodup_append'] at apart
    obtain ⟨-, hrest, hapart⟩ := apart
    obtain ⟨x?, others⟩ := found
    obtain ⟨y?, others'⟩ := g
    obtain ⟨hxy, hothers⟩ := hg
    simp only [readMember?_cons_eq_ok_iff] at hread ⊢
    -- The first field answers to all names of its slot, and to none of the others.
    rcases List.mem_cons.1 hslot with rfl | hslot
    · rcases hread with ⟨-, rfl, a, ha, rfl⟩ | ⟨hfirst, -⟩
      · obtain ⟨a', ha', hS⟩ := codec hvalue hdistinct ha
        cases hxy
        exact ⟨_, .inl ⟨(hanswers name').2 hname', rfl, a', ha', rfl⟩, .some hS, hothers⟩
      · exact absurd ((hanswers name).2 hname) hfirst
    · have hlater {n : String} (hn : n ∈ slot.names) : ¬field.AnswersTo n := fun h =>
        hapart ((hanswers n).1 h) (List.mem_flatMap.2 ⟨slot, hslot, hn⟩)
      rcases hread with ⟨hfirst, -⟩ | ⟨-, o, ho, rfl⟩
      · exact absurd hfirst (hlater hname)
      · obtain ⟨o', ho', hF⟩ := ih hrest hothers hslot ho
        exact ⟨_, .inr ⟨hlater hname', o', ho', rfl⟩, hxy, hF⟩

/-- A member that is kept is taken alike, however it is spelled. -/
theorem takeMember (h : fields.Respects slots S F) (apart : (slots.flatMap Slot.names).Nodup)
    {found found' g : σ} (hg : F found g) {m m' : Quoted × Tree}
    (hchange : Tree.Change slots m (some m')) (hdistinct : m.2.Distinct)
    (hread : fields.takeMember source found m = .ok found') :
    ∃ g', fields.takeMember source g m' = .ok g' ∧ F found' g' := by
  simp only [takeMember_eq_ok_iff] at hread ⊢
  obtain ⟨name, hname, hread⟩ := hread
  cases hchange with
  | @known slot key key' _ name' value value' hslot hkey hmem hkey' hmem' hvalue =>
    obtain rfl := Except.ok.inj (hkey.symm.trans hname)
    rcases hread with hread | ⟨hunknown, -⟩
    · obtain ⟨g', hg', hF⟩ := h.readMember? apart hg hslot hmem hmem' hvalue hdistinct hread
      exact ⟨g', ⟨name', hkey', .inl hg'⟩, hF⟩
    · exact absurd (h.knows_iff.2 ⟨slot, hslot, hmem⟩) hunknown
  | @unknown key _ value value' hkey hunknown hvalue =>
    obtain rfl := Except.ok.inj (hkey.symm.trans hname)
    have hunknown := h.not_knows hunknown
    rcases hread with hread | ⟨-, hskip, rfl⟩
    · cases (readMember?_eq_none_iff.2 hunknown).symm.trans hread
    · exact ⟨g, ⟨_, hkey, .inr ⟨hunknown, hvalue.skippedFault? hskip, rfl⟩⟩, hg⟩

/-- A member that is dropped had been skipped. -/
theorem takeMember_of_dropped (h : fields.Respects slots S F) {found found' : σ}
    {m : Quoted × Tree} (hchange : Tree.Change slots m none)
    (hread : fields.takeMember source found m = .ok found') : found' = found := by
  obtain ⟨name, hname, hread⟩ := takeMember_eq_ok_iff.1 hread
  cases hchange with
  | dropped hkey hunknown =>
    obtain rfl := Except.ok.inj (hkey.symm.trans hname)
    rcases hread with hread | ⟨-, -, hfound⟩
    · cases (readMember?_eq_none_iff.2 (h.not_knows hunknown)).symm.trans hread
    · exact hfound

theorem readMembers (h : fields.Respects slots S F) (apart : (slots.flatMap Slot.names).Nodup)
    {ns : List (Quoted × Tree)} {os : List (Option (Quoted × Tree))}
    (hchanges : List.Forall₂ (Tree.Change slots) ns os) (hdistinct : ∀ m ∈ ns, m.2.Distinct)
    {found found' g : σ} (hg : F found g)
    (hread : fields.readMembers source ns found = .ok found') :
    ∃ g', fields.readMembers source os.reduceOption g = .ok g' ∧ F found' g' := by
  rw [readMembers_eq_foldlM] at hread
  simp only [readMembers_eq_foldlM]
  induction hchanges generalizing found g with
  | nil => exact ⟨g, rfl, Except.ok.inj hread ▸ hg⟩
  | @cons m o ns os hchange _ ih =>
    obtain ⟨hm, hns⟩ := List.forall_mem_cons.1 hdistinct
    rw [List.foldlM_cons] at hread
    obtain ⟨found₁, hfound₁, hread⟩ := bind_eq_ok_iff.1 hread
    cases o with
    | none =>
      have hsame : found₁ = found := h.takeMember_of_dropped hchange hfound₁
      exact ih hns (hsame ▸ hg) hread
    | some m' =>
      obtain ⟨g₁, hg₁, hF⟩ := h.takeMember apart hg hchange hm hfound₁
      obtain ⟨g', hg', hF'⟩ := ih hns hF hread
      refine ⟨g', ?_, hF'⟩
      rw [List.reduceOption_cons_of_some, List.foldlM_cons]
      exact bind_eq_ok_iff.2 ⟨g₁, hg₁, hg'⟩

theorem complete (h : fields.Respects slots S F) {found g : σ} (hg : F found g) {b : β}
    (hread : fields.complete found = .ok b) : ∃ b', fields.complete g = .ok b' ∧ S b b' := by
  induction h with
  | nil h => exact ⟨(), rfl, h⟩
  | @cons α β σ field fields slot slots S T F U _ _ missing _ _ pair ih =>
    obtain ⟨x?, others⟩ := found
    obtain ⟨y?, others'⟩ := g
    obtain ⟨hxy, hothers⟩ := hg
    have hor : Option.Rel S (x?.or field.ifMissing) (y?.or field.ifMissing) := by
      cases hxy with
      | some hS => exact .some hS
      | none =>
        cases hmissing : field.ifMissing with
        | none => exact .none
        | some a => exact .some (missing a hmissing)
    rw [Fields.complete] at hread
    split at hread
    · next a ha =>
      obtain ⟨b, hb, rfl⟩ := map_eq_ok_iff.1 hread
      obtain ⟨b', hb', hT⟩ := ih hothers hb
      rw [ha] at hor
      obtain ⟨a', ha', hS⟩ : ∃ a', y?.or field.ifMissing = some a' ∧ S a a' := by
        generalize y?.or field.ifMissing = z at hor
        cases hor with
        | some hS => exact ⟨_, rfl, hS⟩
      refine ⟨(a', b'), ?_, pair _ _ _ _ hS hT⟩
      simp [Fields.complete, ha', hb', Except.map]
    · cases hread

theorem readObject (h : fields.Respects slots S F) (apart : (slots.flatMap Slot.names).Nodup)
    {ms ns ms' : List (Quoted × Tree)} {os : List (Option (Quoted × Tree))} {close : Close}
    (horder : ms.Perm ns) (hchanges : List.Forall₂ (Tree.Change slots) ns os)
    (horder' : ms'.Perm os.reduceOption) (hdistinct : ∀ m ∈ ms, m.2.Distinct) {b : β}
    (hread : fields.readObject source ms close = .ok b) :
    ∃ b', fields.readObject source ms' close = .ok b' ∧ S b b' := by
  obtain ⟨found, hfound, hread⟩ := bind_eq_ok_iff.1 hread
  obtain ⟨_, hclose, hcomplete⟩ := bind_eq_ok_iff.1 hread
  have hdistinct : ∀ m ∈ ns, m.2.Distinct := fun m hm => hdistinct m (horder.symm.subset hm)
  obtain ⟨g, hg, hF⟩ := h.readMembers apart hchanges hdistinct h.noneFound
    (readMembers_of_perm horder hfound)
  obtain ⟨b', hb', hS⟩ := h.complete hF hcomplete
  exact ⟨b', bind_eq_ok_iff.2 ⟨g, readMembers_of_perm horder'.symm hg,
    bind_eq_ok_iff.2 ⟨(), hclose, hb'⟩⟩, hS⟩

/-- A list of values is read to its end. -/
theorem readItems (h : fields.Respects slots S F) {expected : String} {close : Close} {count : Nat}
    {items items' rest : List Tree} (hitems : Tree.ValuesOf slots items items')
    (hdistinct : ∀ t ∈ items, t.Distinct) {b : β}
    (hread : fields.readItems source expected close count items = .ok (b, rest)) :
    rest = [] ∧ ∃ b', fields.readItems source expected close count items' = .ok (b', []) ∧
      S b b' := by
  induction h generalizing count items items' rest with
  | nil h =>
    cases hitems
    cases hread
    exact ⟨rfl, (), rfl, h⟩
  | @cons α β σ field fields slot slots S T F U _ codec _ short _ pair ih =>
    obtain ⟨a, b⟩ := b
    cases hitems with
    | nil =>
      rw [Fields.readItems] at hread ⊢
      obtain ⟨_, hclose, hread⟩ := bind_eq_ok_iff.1 hread
      split at hread
      · next a' hshort =>
        obtain ⟨⟨b₁, rest₁⟩, hrest, hread⟩ := bind_eq_ok_iff.1 hread
        cases hread
        obtain ⟨rfl, b', hb', hT⟩ := ih .nil (List.forall_mem_nil _) hrest
        refine ⟨rfl, (a, b'), ?_, pair _ _ _ _ (short a hshort) hT⟩
        exact bind_eq_ok_iff.2 ⟨(), hclose, bind_eq_ok_iff.2 ⟨(b', []), hb', rfl⟩⟩
      · cases hread
    | cons ht hts =>
      obtain ⟨hhead, htail⟩ := List.forall_mem_cons.1 hdistinct
      rw [Fields.readItems] at hread
      obtain ⟨a₁, ha, hread⟩ := bind_eq_ok_iff.1 hread
      obtain ⟨⟨b₁, rest₁⟩, hrest, hread⟩ := bind_eq_ok_iff.1 hread
      cases hread
      obtain ⟨a', ha', hS⟩ := codec ht hhead ha
      obtain ⟨rfl, b', hb', hT⟩ := ih hts htail hrest
      refine ⟨rfl, (a', b'), ?_, pair _ _ _ _ hS hT⟩
      exact bind_eq_ok_iff.2 ⟨a', ha', bind_eq_ok_iff.2 ⟨(b', []), hb', rfl⟩⟩

end Respects
end Fields

/-- A record respects what its slots allow if its fields do. -/
theorem Codec.Respects.record {α β σ : Type} {type : String} {fields : Fields β σ} {make : β → α}
    {parts : α → β} {slots : List Slot} {S : β → β → Prop} {F : σ → σ → Prop} {T : α → α → Prop}
    (apart : (slots.flatMap Slot.names).Nodup) (h : fields.Respects slots S F)
    (hmake : ∀ b b', S b b' → T (make b) (make b')) :
    (Codec.record type fields make parts).Respects (Tree.RecordOf slots) T := by
  intro source t t' a hR hdistinct hread
  cases hR with
  | scalar s => cases hread
  | list close hitems =>
    obtain ⟨inner, henter, hread⟩ := bind_eq_ok_iff.1 hread
    obtain ⟨b, hb, rfl⟩ := map_eq_ok_iff.1 hread
    obtain ⟨⟨b₁, rest⟩, hrest, hb⟩ := bind_eq_ok_iff.1 hb
    obtain ⟨_, hend, hb⟩ := bind_eq_ok_iff.1 hb
    cases hb
    obtain ⟨rfl, b', hb', hS⟩ := h.readItems hitems hdistinct.item hrest
    refine ⟨make b', bind_eq_ok_iff.2 ⟨inner, henter, map_eq_ok_iff.2 ⟨b', ?_, rfl⟩⟩, hmake _ _ hS⟩
    exact bind_eq_ok_iff.2 ⟨(b', []), hb', bind_eq_ok_iff.2 ⟨(), hend, rfl⟩⟩
  | object close horder hchanges horder' =>
    obtain ⟨inner, henter, hread⟩ := bind_eq_ok_iff.1 hread
    obtain ⟨b, hb, rfl⟩ := map_eq_ok_iff.1 hread
    obtain ⟨b', hb', hS⟩ := h.readObject apart horder hchanges horder' hdistinct.value hb
    exact ⟨make b', bind_eq_ok_iff.2 ⟨inner, henter, map_eq_ok_iff.2 ⟨b', hb', rfl⟩⟩, hmake _ _ hS⟩

/-! ## Lists of fields -/

namespace Fields.Respects

variable {β σ : Type} {slots : List Slot} {F : σ → σ → Prop}

theorem cons_and {α : Type} {field : Field α} {fields : Fields β σ} {slot : Slot}
    {S : α → α → Prop} {T : β → β → Prop} (names : slot.names = field.name :: field.aliases)
    (codec : field.codec.Respects slot.Rewrites S) (missing : ∀ a ∈ field.ifMissing, S a a)
    (short : ∀ a ∈ field.ifShort, S a a) (rest : fields.Respects slots T F) :
    (Fields.cons field fields).Respects (slot :: slots) (fun b b' => S b.1 b'.1 ∧ T b.2 b'.2)
      fun f g => Option.Rel S f.1 g.1 ∧ F f.2 g.2 :=
  .cons names codec missing short rest fun _ _ _ _ => And.intro

/-! Where the values are equal field by field, they are equal. -/

theorem nil_eq : Fields.nil.Respects [] (· = ·) fun _ _ => True := .nil rfl

theorem cons_eq {α : Type} {field : Field α} {fields : Fields β σ} {slot : Slot}
    (names : slot.names = field.name :: field.aliases)
    (codec : field.codec.Respects slot.Rewrites (· = ·)) (rest : fields.Respects slots (· = ·) F) :
    (Fields.cons field fields).Respects (slot :: slots) (· = ·)
      fun f g => Option.Rel (· = ·) f.1 g.1 ∧ F f.2 g.2 :=
  .cons names codec (fun _ _ => rfl) (fun _ _ => rfl) rest fun _ _ _ _ ha hb => ha ▸ hb ▸ rfl

end Fields.Respects

theorem Codec.Respects.record_eq {α β σ : Type} {type : String} {fields : Fields β σ}
    {make : β → α} {parts : α → β} {slots : List Slot} {F : σ → σ → Prop}
    (apart : (slots.flatMap Slot.names).Nodup) (h : fields.Respects slots (· = ·) F) :
    (Codec.record type fields make parts).Respects (Tree.RecordOf slots) (· = ·) :=
  .record apart h fun _ _ => congrArg make

/-! ## Rewritten values -/

namespace Tree

variable {R : Tree → Tree → Prop} {source : Source}

/-- The values of rewritten trees are rewritten alike. -/
def Lifts (R : Tree → Tree → Prop) : Prop :=
  Codec.json.Respects R fun v v' => R (.ofJson v) (.ofJson v')

theorem lifts_reordered : Lifts Reordered := fun _ _ _ v hR hdistinct hread =>
  ⟨v, Codec.json_respects_reordered.read_eq hR hdistinct hread, .ofJson v⟩

theorem Lifts.listOf (h : Lifts R) : Lifts (ListOf R) := by
  rintro source _ _ v ⟨close, hitems⟩ hdistinct hread
  obtain ⟨inner, vs, henter, hvs, hclose, rfl⟩ := toJson_list_eq_ok_iff.1 hread
  obtain ⟨vs', hvs', hR⟩ := forall₂_transport hitems hvs
    fun t hmem t' v hR hv => h hR (hdistinct.item t hmem) hv
  refine ⟨.array vs', toJson_list_eq_ok_iff.2 ⟨inner, vs', henter, hvs', hclose, rfl⟩, ?_⟩
  simp only [ofJson, ofItems_eq_map]
  exact .list _ (List.forall₂_map_left_iff.2 (List.forall₂_map_right_iff.2 hR))

theorem exists_scalar_of_toJson {s : Scalar} {v : Json}
    (h : (Tree.scalar s).toJson source = .ok v) : ∃ s', ofJson v = .scalar s' := by
  cases s with
  | word w => cases w <;> cases h <;> exact ⟨_, rfl⟩
  | number n =>
    cases h
    exact ⟨_, rfl⟩
  | string q =>
    obtain ⟨_, -, rfl⟩ := map_eq_ok_iff.1 h
    exact ⟨_, rfl⟩
  | brokenWord | hugeNumber | brokenNumber | stray => cases h

section
variable {slots : List Slot} (values : ∀ slot ∈ slots, Lifts slot.Rewrites)
include values

theorem ValuesOf.lift {items items' : List Tree} (h : ValuesOf slots items items')
    (hdistinct : ∀ t ∈ items, t.Distinct) {vs : List Json}
    (hread : List.Forall₂ (fun t v => t.toJson source = .ok v) items vs) :
    ∃ vs', List.Forall₂ (fun t v => t.toJson source = .ok v) items' vs' ∧
      ValuesOf slots (ofItems vs) (ofItems vs') := by
  induction h generalizing vs with
  | nil =>
    cases hread
    exact ⟨[], .nil, .nil⟩
  | cons ht _ ih =>
    cases hread with
    | cons hv hvs =>
      obtain ⟨hslot, hslots⟩ := List.forall_mem_cons.1 values
      obtain ⟨hhead, htail⟩ := List.forall_mem_cons.1 hdistinct
      obtain ⟨v', hv', hR⟩ := hslot ht hhead hv
      obtain ⟨vs', hvs', hrest⟩ := ih hslots htail hvs
      exact ⟨v' :: vs', .cons hv' hvs', .cons hR hrest⟩

/-- Where each field has one name, the value of a member keeps its key. -/
theorem Change.lift (names : ∀ slot ∈ slots, slot.names.length = 1) {m m' : Quoted × Tree}
    (h : Change slots m (some m')) (hdistinct : m.2.Distinct) {e : String × Json}
    (hkey : m.1.text = .ok e.1) (hvalue : m.2.toJson source = .ok e.2) :
    ∃ v', m'.1.text = .ok e.1 ∧ m'.2.toJson source = .ok v' ∧
      Change slots (.ofString e.1, ofJson e.2) (some (.ofString e.1, ofJson v')) := by
  cases h with
  | known hslot hkey₁ hname hkey' hname' hrewritten =>
    obtain rfl := Except.ok.inj (hkey₁.symm.trans hkey)
    obtain ⟨v', hv', hR⟩ := values _ hslot hrewritten hdistinct hvalue
    obtain ⟨n, hn⟩ := List.length_eq_one_iff.1 (names _ hslot)
    rw [hn, List.mem_singleton] at hname hname'
    obtain rfl := hname'.trans hname.symm
    have hmem := hn ▸ List.mem_singleton.2 hname
    exact ⟨v', hkey', hv', .known hslot rfl hmem rfl hmem hR⟩
  | unknown hkey₁ hunknown hreordered =>
    obtain rfl := Except.ok.inj (hkey₁.symm.trans hkey)
    obtain ⟨v', hv', hR⟩ := lifts_reordered hreordered hdistinct hvalue
    exact ⟨v', hkey₁, hv', .unknown rfl hunknown hR⟩

theorem lift_changes (names : ∀ slot ∈ slots, slot.names.length = 1) {ns : List (Quoted × Tree)}
    {os : List (Option (Quoted × Tree))} (h : List.Forall₂ (Change slots) ns os)
    (hdistinct : ∀ m ∈ ns, m.2.Distinct) {es : List (String × Json)}
    (hread : List.Forall₂ (fun m e => m.1.text = .ok e.1 ∧ m.2.toJson source = .ok e.2) ns es) :
    ∃ es' os', toJsonMembers source os.reduceOption = .ok es' ∧
      (es'.map (·.1)).Sublist (es.map (·.1)) ∧
      List.Forall₂ (Change slots) (ofMembers es) os' ∧ os'.reduceOption = ofMembers es' := by
  induction h generalizing es with
  | nil =>
    cases hread
    exact ⟨[], [], rfl, .slnil, .nil, rfl⟩
  | @cons m o ns os hchange _ ih =>
    cases hread with
    | @cons _ e _ es he hes =>
      obtain ⟨hm, hns⟩ := List.forall_mem_cons.1 hdistinct
      obtain ⟨es', os', hes', hsub, hchanges, hos'⟩ := ih hns hes
      cases o with
      | none =>
        cases hchange with
        | dropped hkey hunknown =>
          obtain rfl := Except.ok.inj (hkey.symm.trans he.1)
          exact ⟨es', none :: os', hes', hsub.cons _, .cons (.dropped rfl hunknown) hchanges, hos'⟩
      | some m' =>
        obtain ⟨v', hkey', hv', hlift⟩ := hchange.lift values names hm he.1 he.2
        refine ⟨(e.1, v') :: es', some (.ofString e.1, ofJson v') :: os', ?_, hsub.cons_cons _,
          .cons hlift hchanges, ?_⟩
        · rw [toJsonMembers_eq_ok_iff, List.reduceOption_cons_of_some]
          exact .cons ⟨hkey', hv'⟩ (toJsonMembers_eq_ok_iff.1 hes')
        · rw [List.reduceOption_cons_of_some, hos', ofMembers]

theorem lifts_recordOf (names : ∀ slot ∈ slots, slot.names.length = 1) :
    Lifts (RecordOf slots) := by
  intro source t t' v hR hdistinct hread
  cases hR with
  | scalar s =>
    obtain ⟨s', hs'⟩ := exists_scalar_of_toJson hread
    have hsame : RecordOf slots (ofJson v) (ofJson v) := hs' ▸ .scalar s'
    exact ⟨v, hread, hsame⟩
  | list close hitems =>
    obtain ⟨inner, vs, henter, hvs, hclose, rfl⟩ := toJson_list_eq_ok_iff.1 hread
    obtain ⟨vs', hvs', hlift⟩ := hitems.lift values hdistinct.item hvs
    exact ⟨.array vs', toJson_list_eq_ok_iff.2 ⟨inner, vs', henter, hvs', hclose, rfl⟩,
      .list _ hlift⟩
  | @object ms ns ms' os close horder hchanges horder' =>
    obtain ⟨inner, es, henter, hes, hclose, rfl⟩ := toJson_object_eq_ok_iff.1 hread
    obtain ⟨es₁, hes₁, hperm⟩ :=
      List.perm_comp_forall₂ horder.symm (toJsonMembers_eq_ok_iff.1 hes)
    obtain ⟨es₁', os', hes₁', hsub, hlift, hos'⟩ := lift_changes values names hchanges
      (fun m hm => hdistinct.value m (horder.symm.subset hm)) hes₁
    obtain ⟨es', hes', hperm'⟩ :=
      List.perm_comp_forall₂ horder' (toJsonMembers_eq_ok_iff.1 hes₁')
    -- Both objects are kept with sorted keys. The changes relate them in the order of the text, and
    -- as no key is repeated the sorted entries are a permutation of those.
    have hkeys : (es.map (·.1)).Nodup := hdistinct.keys_nodup hes
    have hkeys' : (es'.map (·.1)).Nodup :=
      (hperm'.map _).nodup_iff.2 (hsub.nodup ((hperm.map _).nodup_iff.2 hkeys))
    refine ⟨.object (SortedMap.ofList es').entries, toJson_object_eq_ok_iff.2
      ⟨inner, es', henter, toJsonMembers_eq_ok_iff.2 hes', hclose, rfl⟩, ?_⟩
    refine @RecordOf.object slots _ (ofMembers es₁) _ os' _ ?_ hlift ?_
    · simp only [ofMembers_eq_map]
      exact ((SortedMap.entries_ofList_perm hkeys).trans hperm.symm).map _
    · rw [hos']
      simp only [ofMembers_eq_map]
      exact ((SortedMap.entries_ofList_perm hkeys').trans hperm').map _

end

end Tree
end Json
end CampaignRouting
