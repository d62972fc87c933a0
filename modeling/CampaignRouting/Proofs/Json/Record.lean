import CampaignRouting.Json.Record
import CampaignRouting.Proofs.Json.Codec

/-!
# Records that are read back

The members of a record's object are read in any order, so what has been found at some point depends
only on the names that came before: `Fields.found` says what it is, one member adds one name to it
(`Fields.readMember?_found`), and once all names have come the record is complete
(`Fields.complete_found`). Conversely every field of a record that is read comes from a part of the
tree or is a default (`Codec.Gives.record`).
-/

namespace CampaignRouting.Json

variable {α β σ : Type} {k : Nat}

namespace Field

/-- A field that is written is read back, one that is left out has its default. -/
structure Restores (f : Field α) (k : Nat) (a : α) : Prop where
  shown : f.shows a = true → f.codec.Restores k a
  hidden : f.shows a = false → f.ifMissing = some a

theorem Restores.always {f : Field α} {a : α} (hshows : f.shows a = true)
    (h : f.codec.Restores k a) : f.Restores k a where
  shown _ := h
  hidden hhidden := absurd hhidden (by simp [hshows])

/-- A field that is hidden without a value has to be one that may be missing. -/
theorem Restores.of_hidden {f : Field (Option α)} {o : Option α}
    (hmissing : f.ifMissing = some none) (h : f.codec.Restores k o) : f.hidden.Restores k o where
  shown _ := h
  hidden hshows := by
    cases o with
    | none => exact hmissing
    | some a => cases hshows

/-- The value has been read from a part of a tree, or is a default. -/
def Gives (f : Field α) (k : Nat) (a : α) : Prop :=
  f.codec.Gives k a ∨ f.ifMissing = some a ∨ f.ifShort = some a

/-- A field without a default has been read. -/
theorem Gives.of_required {f : Field α} {a : α} (h : f.Gives k a) (hmissing : f.ifMissing = none)
    (hshort : f.ifShort = none) : f.codec.Gives k a := by
  rcases h with h | h | h
  · exact h
  · exact nomatch hmissing.symm.trans h
  · exact nomatch hshort.symm.trans h

/-- A value that a field may be without has been read, if it is there. -/
theorem Gives.of_some {f : Field (Option α)} {a : α} (h : f.Gives k (some a))
    (hmissing : f.ifMissing = some none) (hshort : f.ifShort = none) :
    f.codec.Gives k (some a) := by
  rcases h with h | h | h
  · exact h
  · exact nomatch hmissing.symm.trans h
  · exact nomatch hshort.symm.trans h

/-- A field with one default has been read or has it. -/
theorem Gives.or_default {f : Field α} {a default : α} (h : f.Gives k a)
    (hmissing : f.ifMissing = some default) (hshort : f.ifShort = some default) :
    f.codec.Gives k a ∨ a = default := by
  rcases h with h | h | h
  · exact .inl h
  · exact .inr (Option.some.inj (h.symm.trans hmissing))
  · exact .inr (Option.some.inj (h.symm.trans hshort))

end Field

namespace Fields

/-- No name of a field is read into a field before it. -/
def NamesApart : {β σ : Type} → Fields β σ → Prop
  | _, _, nil => True
  | _, _, cons f rest => (∀ name ∈ rest.names, ¬f.AnswersTo name) ∧ rest.NamesApart

def decidableNamesApart : {β σ : Type} → (fields : Fields β σ) → Decidable fields.NamesApart
  | _, _, nil => inferInstanceAs (Decidable True)
  | _, _, cons f rest =>
    have := rest.decidableNamesApart
    inferInstanceAs (Decidable ((∀ name ∈ rest.names, ¬f.AnswersTo name) ∧ rest.NamesApart))

instance (fields : Fields β σ) : Decidable fields.NamesApart := fields.decidableNamesApart

/-- All fields of the record are restored. -/
def Restores : {β σ : Type} → Fields β σ → Nat → β → Prop
  | _, _, nil, _, _ => True
  | _, _, cons f rest, k, (a, b) => f.Restores k a ∧ rest.Restores k b

/-- Each value is one that the codec of its field gives. -/
def Gives : {β σ : Type} → Fields β σ → Nat → β → Prop
  | _, _, nil, _, _ => True
  | _, _, cons f rest, k, (a, b) => f.Gives k a ∧ rest.Gives k b

/-- What has been found of a record when the members with some names have been read. -/
def found (names : List String) : {β σ : Type} → Fields β σ → β → σ
  | _, _, nil, _ => ()
  | _, _, cons f rest, (a, b) => (if f.name ∈ names then some a else none, rest.found names b)

/-! ## Writing -/

theorem names_write (fields : Fields β σ) (b : β) :
    ((fields.write b).map (·.1)).Sublist fields.names := by
  induction fields with
  | nil => exact .slnil
  | cons f rest ih =>
    obtain ⟨a, b⟩ := b
    rw [write]
    split
    · exact (ih b).cons_cons _
    · exact (ih b).cons _

theorem mem_names_of_mem_write {fields : Fields β σ} {b : β} {m : String × Json}
    (hm : m ∈ fields.write b) : m.1 ∈ fields.names :=
  (fields.names_write b).subset (List.mem_map.2 ⟨m, hm, rfl⟩)

/-- Names that are apart differ. -/
theorem NamesApart.nodup {fields : Fields β σ} (h : fields.NamesApart) : fields.names.Nodup := by
  induction fields with
  | nil => exact .nil
  | cons f rest ih => exact List.nodup_cons.2 ⟨fun hmem => h.1 f.name hmem (.inl rfl), ih h.2⟩

theorem Restores.member {fields : Fields β σ} {b : β} (h : fields.Restores k b) :
    ∀ m ∈ fields.write b, m.2.Fits k ∧ ∀ n ∈ m.2.numbers, n.ReadsBack := by
  induction fields with
  | nil => exact nofun
  | cons f rest ih =>
    obtain ⟨a, b⟩ := b
    rw [write]
    split
    · next hshows =>
      have ha := h.1.shown hshows
      exact List.forall_mem_cons.2 ⟨⟨ha.fits, ha.legible⟩, ih h.2⟩
    · exact ih h.2

/-! ## Reading an object -/

/-- Some field answers to the name. -/
def Knows (name : String) : {β σ : Type} → Fields β σ → Prop
  | _, _, nil => False
  | _, _, cons f rest => f.AnswersTo name ∨ rest.Knows name

theorem knows_of_mem_names {fields : Fields β σ} {name : String} (h : name ∈ fields.names) :
    fields.Knows name := by
  induction fields with
  | nil => cases h
  | cons f rest ih => exact (List.mem_cons.1 h).imp (fun heq => .inl heq) ih

/-- A member is skipped exactly if no field answers to its name. -/
theorem readMember?_eq_none_iff {fields : Fields β σ} {source : Source} {name : String}
    {value : Tree} {found : σ} :
    fields.readMember? source name value found = none ↔ ¬fields.Knows name := by
  induction fields with
  | nil => simp [readMember?, Knows]
  | cons f rest ih =>
    rw [readMember?, Knows]
    split
    · next h => simp [h]
    · next h => simp [h, ih]

theorem noneFound_eq (fields : Fields β σ) (b : β) : fields.noneFound = fields.found [] b := by
  induction fields with
  | nil => rfl
  | cons f rest ih => exact Prod.ext rfl (ih b.2)

theorem found_cons_of_not_mem {fields : Fields β σ} {name : String} (h : name ∉ fields.names)
    (names : List String) (b : β) : fields.found (name :: names) b = fields.found names b := by
  induction fields with
  | nil => rfl
  | cons f rest ih =>
    obtain ⟨hne, hrest⟩ := not_or.1 (mt List.mem_cons.2 h)
    simp only [found, List.mem_cons, Ne.symm hne, false_or, ih hrest b.2]

/-- A member is read into its field, whichever came before it. -/
theorem readMember?_found {fields : Fields β σ} (hapart : fields.NamesApart) {b : β}
    (h : fields.Restores k b) {source : Source} (hsource : source.Has k) {f : Json → Json}
    (hf : Rearrangement f) {m : String × Json} (hm : m ∈ fields.write b) (names : List String)
    (hnew : m.1 ∉ names) :
    fields.readMember? source m.1 (.ofJson (f m.2)) (fields.found names b) =
      some (.ok (fields.found (m.1 :: names) b)) := by
  induction fields with
  | nil => cases hm
  | cons g rest ih =>
    obtain ⟨a, b⟩ := b
    obtain ⟨hothers, hapart⟩ := hapart
    have hfirst : g.name ∉ rest.names := fun hmem => hothers g.name hmem (.inl rfl)
    have hm : (g.shows a = true ∧ m = (g.name, g.codec.write a)) ∨ m ∈ rest.write b := by
      rw [write] at hm
      split at hm
      · exact (List.mem_cons.1 hm).imp (⟨‹_›, ·⟩) id
      · exact .inr hm
    -- Either the first field reads the member, or it does not answer to its name.
    rcases hm with ⟨hshows, rfl⟩ | hm
    · have hread := (h.1.shown hshows).read hsource hf
      have hanswers : g.AnswersTo g.name := .inl rfl
      simp only [readMember?, found, hanswers, hnew, hread, found_cons_of_not_mem hfirst,
        List.mem_cons, true_or, if_true, if_false]
      rfl
    · have hname : m.1 ∈ rest.names := mem_names_of_mem_write hm
      have hne : g.name ≠ m.1 := fun heq => hfirst (heq ▸ hname)
      simp only [readMember?, found, hothers m.1 hname, if_false, ih hapart h.2 hm, List.mem_cons,
        hne, false_or]
      rfl

/-- Members of a written record are found, in whatever order they come. -/
theorem readMembers_found {fields : Fields β σ} (hapart : fields.NamesApart) {b : β}
    (h : fields.Restores k b) {source : Source} (hsource : source.Has k) {f : Json → Json}
    (hf : Rearrangement f) {ms : List (String × Json)} (hms : ms ⊆ fields.write b)
    (names : List String) (hnames : (ms.map (·.1) ++ names).Nodup) :
    fields.readMembers source (Tree.ofMembers (ms.map fun m => (m.1, f m.2)))
        (fields.found names b) = .ok (fields.found ((ms.map (·.1)).reverse ++ names) b) := by
  induction ms generalizing names with
  | nil => rfl
  | cons m ms ih =>
    obtain ⟨hm, hms⟩ := List.cons_subset.1 hms
    obtain ⟨hnew, hrest⟩ := List.nodup_cons.1 hnames
    have hmember := readMember?_found hapart h hsource hf hm names
      fun hmem => hnew (List.mem_append_right _ hmem)
    have hnames : (ms.map (·.1) ++ m.1 :: names).Nodup :=
      (List.perm_middle.nodup_iff).2 hnames
    simp only [List.map_cons, Tree.ofMembers, readMembers, Quoted.read, Quoted.ofString,
      Except.mapError, hmember, bind, Except.bind]
    rw [ih hms _ hnames, List.reverse_cons, List.append_assoc]
    rfl

/-- A record is complete once all members that it was written with have been found. -/
theorem complete_found {fields : Fields β σ} {b : β} (h : fields.Restores k b)
    (names : List String) (hnames : ∀ m ∈ fields.write b, m.1 ∈ names) :
    fields.complete (fields.found names b) = .ok b := by
  induction fields with
  | nil => rfl
  | cons g rest ih =>
    obtain ⟨a, b⟩ := b
    have hfound : (if g.name ∈ names then some a else none).or g.ifMissing = some a := by
      cases hshows : g.shows a with
      | true =>
        rw [write, if_pos hshows] at hnames
        rw [if_pos (hnames _ (.head _))]
        rfl
      | false =>
        rw [h.1.hidden hshows]
        split <;> rfl
    have hrest : ∀ m ∈ rest.write b, m.1 ∈ names := by
      intro m hm
      rw [write] at hnames
      split at hnames
      · exact hnames m (.tail _ hm)
      · exact hnames m hm
    simp only [complete, found, hfound, ih h.2 hrest]
    rfl

/-- The members may come in any order. -/
theorem readObject_of_perm {fields : Fields β σ} (hapart : fields.NamesApart) {b : β}
    (h : fields.Restores k b) {source : Source} (hsource : source.Has k) {f : Json → Json}
    (hf : Rearrangement f) {ms : List (String × Json)} (hperm : ms.Perm (fields.write b)) :
    fields.readObject source (Tree.ofMembers (ms.map fun m => (m.1, f m.2))) .bracket = .ok b := by
  have hdistinct := (fields.names_write b).nodup hapart.nodup
  have hmembers := readMembers_found hapart h hsource hf hperm.subset []
    (by simpa using (hperm.map _).nodup_iff.2 hdistinct)
  have hcomplete := complete_found h ((ms.map (·.1)).reverse ++ [])
    fun m hm => by simpa using ⟨m.2, hperm.symm.subset hm⟩
  simp only [readObject, fields.noneFound_eq b, hmembers, checkFault, Close.objectFault?,
    hcomplete, bind, Except.bind]

end Fields

/-- A record is read back from its members in any order, each rearranged inside. -/
theorem Codec.read_record_of_perm {type : String} {fields : Fields β σ} {make : β → α} {b : β}
    {parts : α → β} (hapart : fields.NamesApart) (h : fields.Restores k b) {source : Source}
    (hsource : source.Has (k + 1)) {f : Json → Json} (hf : Rearrangement f)
    {ms : List (String × Json)} (hperm : ms.Perm (fields.write b)) :
    (Codec.record type fields make parts).read source
      (.object (Tree.ofMembers (ms.map fun m => (m.1, f m.2))) .bracket) = .ok (make b) := by
  obtain ⟨inner, henter, hinner⟩ := hsource.enter
  simp only [Codec.record, henter, Fields.readObject_of_perm hapart h hinner hf hperm, bind,
    Except.bind, Except.map]

/-- A record is read back if its fields are. -/
theorem Codec.Restores.record {type : String} {fields : Fields β σ} {make : β → α} {parts : α → β}
    {a : α} (hapart : fields.NamesApart) (hmake : make (parts a) = a)
    (h : fields.Restores k (parts a)) :
    (Codec.record type fields make parts).Restores (k + 1) a where
  fits := .object ((fields.names_write _).nodup hapart.nodup) fun m hm => (h.member m hm).1
  legible n hn := by
    obtain ⟨m, hm, hn⟩ := List.mem_flatMap.1 (numbers_object _ ▸ hn)
    exact (h.member m hm).2 n hn
  read {source f} hsource hf := by
    have hdistinct := (fields.names_write (parts a)).nodup hapart.nodup
    obtain ⟨ms, hperm, hobject⟩ := hf.object _ hdistinct
    have hwrite : f ((Codec.record type fields make parts).write a) =
        .object (ms.map fun m => (m.1, f m.2)) := hobject
    rw [hwrite, Tree.ofJson, read_record_of_perm hapart h hsource hf hperm, hmake]

/-! ## Where the fields of a record come from -/

namespace Fields

/-- What has been found so far comes from parts of a tree. -/
def Found : {β σ : Type} → Fields β σ → Nat → σ → Prop
  | _, _, nil, _, _ => True
  | _, _, cons f rest, k, (found, others) =>
    (∀ a, found = some a → f.codec.Gives k a) ∧ rest.Found k others

theorem Found.noneFound (fields : Fields β σ) (k : Nat) : fields.Found k fields.noneFound := by
  induction fields with
  | nil => trivial
  | cons f rest ih => exact ⟨nofun, ih⟩

theorem Found.readMember? {fields : Fields β σ} {found found' : σ} (h : fields.Found k found)
    {source : Source} {value : Tree} (hvalue : Tree.Readable source k value) {name : String}
    (hread : fields.readMember? source name value found = some (.ok found')) :
    fields.Found k found' := by
  induction fields with
  | nil => cases hread
  | cons f rest ih =>
    obtain ⟨a?, others⟩ := found
    rw [Fields.readMember?] at hread
    split at hread
    · split at hread
      · cases hread
      · obtain ⟨a, ha, rfl⟩ := map_eq_ok_iff.1 (Option.some.inj hread)
        refine ⟨fun a' ha' => ?_, h.2⟩
        cases ha'
        exact ⟨source, value, hvalue, ha⟩
    · obtain ⟨r, hr, hmap⟩ := Option.map_eq_some_iff.1 hread
      obtain ⟨others', rfl, rfl⟩ := map_eq_ok_iff.1 hmap
      exact ⟨h.1, ih h.2 hr⟩

/-- All that is found in an object is what the codecs of the fields give. -/
theorem Found.readMembers {fields : Fields β σ} {source : Source} {members : List (Quoted × Tree)}
    (hmembers : ∀ m ∈ members, Tree.Readable source k m.2) {found found' : σ}
    (h : fields.Found k found) (hread : fields.readMembers source members found = .ok found') :
    fields.Found k found' := by
  induction members generalizing found with
  | nil =>
    cases hread
    exact h
  | cons m members ih =>
    obtain ⟨hm, hmembers⟩ := List.forall_mem_cons.1 hmembers
    obtain ⟨name, -, hread⟩ := bind_eq_ok_iff.1 hread
    split at hread
    · next r hmember =>
      obtain ⟨found₁, rfl, hread⟩ := bind_eq_ok_iff.1 hread
      exact ih hmembers (h.readMember? hm hmember) hread
    · obtain ⟨_, -, hread⟩ := bind_eq_ok_iff.1 hread
      exact ih hmembers h hread

theorem Found.complete {fields : Fields β σ} {found : σ} (h : fields.Found k found) {b : β}
    (hcomplete : fields.complete found = .ok b) : fields.Gives k b := by
  induction fields with
  | nil => trivial
  | cons f rest ih =>
    obtain ⟨a?, others⟩ := found
    rw [Fields.complete] at hcomplete
    split at hcomplete
    · next a ha =>
      obtain ⟨b', hb', rfl⟩ := map_eq_ok_iff.1 hcomplete
      refine ⟨?_, ih h.2 hb'⟩
      rcases Option.or_eq_some_iff.1 ha with ha | ⟨-, ha⟩
      · exact .inl (h.1 a ha)
      · exact .inr (.inl ha)
    · cases hcomplete

theorem gives_readItems {fields : Fields β σ} {source : Source} {expected : String} {close : Close}
    {count : Nat} {items rest : List Tree} (hitems : ∀ t ∈ items, Tree.Readable source k t) {b : β}
    (hread : fields.readItems source expected close count items = .ok (b, rest)) :
    fields.Gives k b := by
  induction fields generalizing count items rest with
  | nil => trivial
  | cons f fields ih =>
    obtain ⟨a, b⟩ := b
    cases items with
    | nil =>
      rw [readItems] at hread
      obtain ⟨_, -, hread⟩ := bind_eq_ok_iff.1 hread
      split at hread
      · next a' hshort =>
        obtain ⟨⟨b', rest'⟩, hrest, hread⟩ := bind_eq_ok_iff.1 hread
        cases hread
        exact ⟨.inr (.inr hshort), ih hitems hrest⟩
      · cases hread
    | cons t items =>
      obtain ⟨ht, hitems⟩ := List.forall_mem_cons.1 hitems
      rw [readItems] at hread
      obtain ⟨a', ha, hread⟩ := bind_eq_ok_iff.1 hread
      obtain ⟨⟨b', rest'⟩, hrest, hread⟩ := bind_eq_ok_iff.1 hread
      cases hread
      exact ⟨.inl ⟨source, t, ht, ha⟩, ih hitems hrest⟩

end Fields

/-- A record is made of values that its fields give. -/
theorem Codec.Gives.record {type : String} {fields : Fields β σ} {make : β → α} {parts : α → β}
    {a : α} (h : (Codec.record type fields make parts).Gives k a) :
    ∃ b, make b = a ∧ fields.Gives (k - 1) b := by
  obtain ⟨source, t, hreadable, hread⟩ := h
  simp only [Codec.record] at hread
  split at hread
  · obtain ⟨inner, henter, hread⟩ := bind_eq_ok_iff.1 hread
    obtain ⟨b, hb, hmake⟩ := map_eq_ok_iff.1 hread
    obtain ⟨j, rfl, hmembers⟩ := hreadable.members henter
    obtain ⟨found, hfound, hb⟩ := bind_eq_ok_iff.1 hb
    obtain ⟨_, -, hb⟩ := bind_eq_ok_iff.1 hb
    exact ⟨b, hmake, ((Fields.Found.noneFound fields j).readMembers hmembers hfound).complete hb⟩
  · obtain ⟨inner, henter, hread⟩ := bind_eq_ok_iff.1 hread
    obtain ⟨b, hb, hmake⟩ := map_eq_ok_iff.1 hread
    obtain ⟨j, rfl, hitems⟩ := hreadable.items henter
    obtain ⟨⟨b', rest⟩, hb', hb⟩ := bind_eq_ok_iff.1 hb
    obtain ⟨_, -, hb⟩ := bind_eq_ok_iff.1 hb
    cases hb
    exact ⟨b, hmake, Fields.gives_readItems hitems hb'⟩
  · cases hread

end CampaignRouting.Json
