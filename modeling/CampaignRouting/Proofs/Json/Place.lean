import CampaignRouting.Proofs.Json.Respelling

/-!
# One value among others

A `Frame` is a list or an object in which one value is left out. If it is read at all, then what is
read depends on this value alone, and just as the value is read by itself: this holds of a record
whose field the value is (`Fields.At.record_read_fill`), of a list (`Codec.list_read_fill`), and
where any value is kept (`Tree.toJson_fill`), in which case the value is kept in a frame of its own.
A field with a default may be left out, and what is read is as if the default had been given
(`Fields.At.record_read_bare`).
-/

namespace CampaignRouting

namespace Json

/-! ## Frames -/

/-- A list or an object in which one value is left out. -/
inductive Frame where
  | item (before after : List Tree) (close : Close)
  | member (before : List (Quoted × Tree)) (key : Quoted) (after : List (Quoted × Tree))
    (close : Close)

namespace Frame

def fill (t : Tree) : Frame → Tree
  | item before after close => .list (before ++ t :: after) close
  | member before key after close => .object (before ++ (key, t) :: after) close

/-- Without the value; where it has a key, without that as well. -/
def bare : Frame → Tree
  | item before after close => .list (before ++ after) close
  | member before _ after close => .object (before ++ after) close

/-- The value is that of a field: in a list by its position, in an object by one of the names of the
field, none of which comes again. -/
def Leads (names : List String) (position : Nat) : Frame → Prop
  | item before _ _ => before.length = position
  | member _ key after _ => (∃ name ∈ names, key.text = .ok name) ∧
    ∀ m ∈ after, ∀ name ∈ names, m.1.text ≠ .ok name

/-- Without the value, the field is not there at all. -/
def Omits (names : List String) : Frame → Prop
  | item _ after _ => after = []
  | member before _ after _ => ∀ m ∈ before ++ after, ∀ name ∈ names, m.1.text ≠ .ok name

end Frame

/-! ## Fields of a record -/

namespace Fields

variable {α β σ : Type} {source : Source} {f : Field α}

/-- A field stands at a position among the others; `put` sets its value, and `found` sets whether it
has been found, and with which value. -/
inductive At (f : Field α) : {β σ : Type} → Fields β σ → Nat → (put : α → β → β) →
    (found : Option α → σ → σ) → Prop
  | head {β σ : Type} (rest : Fields β σ) :
    At f (.cons f rest) 0 (fun a b => (a, b.2)) fun o s => (o, s.2)
  | tail {γ β σ : Type} (g : Field γ) {rest : Fields β σ} {position : Nat} {put : α → β → β}
    {found : Option α → σ → σ} (apart : ∀ name ∈ f.name :: f.aliases, ¬g.AnswersTo name)
    (h : At f rest position put found) :
    At f (.cons g rest) (position + 1) (fun a b => (b.1, put a b.2)) fun o s => (s.1, found o s.2)

theorem readMembers_append (fields : Fields β σ) (ms ns : List (Quoted × Tree)) (x : σ) :
    fields.readMembers source (ms ++ ns) x =
      fields.readMembers source ms x >>= fields.readMembers source ns := by
  rw [readMembers_eq_foldlM, readMembers_eq_foldlM, List.foldlM_append]
  exact bind_congr fun y => (readMembers_eq_foldlM fields ns y).symm

namespace At

variable {fields : Fields β σ} {position : Nat} {put : α → β → β} {found : Option α → σ → σ}

theorem found_noneFound (h : fields.At f position put found) :
    found none fields.noneFound = fields.noneFound := by
  induction h with
  | head rest => rfl
  | tail g apart h ih => exact Prod.ext rfl ih

theorem found_found (h : fields.At f position put found) (o o' : Option α) (x : σ) :
    found o (found o' x) = found o x := by
  induction h with
  | head rest => rfl
  | tail g apart h ih => exact Prod.ext rfl (ih x.2)

/-- A member is read into its field whatever has been found elsewhere. -/
theorem readMember?_of_mem (h : fields.At f position put found) {name : String}
    (hname : name ∈ f.name :: f.aliases) (x : σ) :
    (∀ t, fields.readMember? source name t x =
      some ((f.codec.read source t).map fun a => found (some a) x)) ∨
    ∀ t, fields.readMember? source name t x = some (.error (.duplicateField f.name)) := by
  induction h with
  | head rest =>
    have hanswers : f.AnswersTo name := List.mem_cons.1 hname
    obtain ⟨o, others⟩ := x
    cases o with
    | none => exact .inl fun t => by simp [readMember?, hanswers]
    | some a => exact .inr fun t => by simp [readMember?, hanswers]
  | tail g apart h ih =>
    refine (ih x.2).imp (fun hread t => ?_) fun hread t => ?_
    · rw [readMember?, if_neg (apart name hname), hread]
      cases f.codec.read source t <;> rfl
    · rw [readMember?, if_neg (apart name hname), hread]
      rfl

/-- A member of another field is read alike, whether or not this one has been found. -/
theorem readMember?_found (h : fields.At f position put found) {name : String}
    (hname : name ∉ f.name :: f.aliases) (t : Tree) (o o' : Option α) (x : σ) :
    fields.readMember? source name t (found o x) =
      (fields.readMember? source name t (found o' x)).map (·.map (found o)) := by
  induction h with
  | head rest =>
    have hanswers : ¬f.AnswersTo name := mt List.mem_cons.2 hname
    simp only [readMember?, if_neg hanswers]
    cases rest.readMember? source name t x.2 with
    | none => rfl
    | some r => cases r <;> rfl
  | @tail _ _ _ g rest _ _ found _ h ih =>
    simp only [readMember?]
    split
    · cases x.1.isSome with
      | true => rfl
      | false => cases g.codec.read source t <;> simp [Except.map, h.found_found]
    · rw [ih x.2]
      cases rest.readMember? source name t (found o' x.2) with
      | none => rfl
      | some r => cases r <;> rfl

/-- Members of other fields do not look at what this one holds. -/
theorem takeMember_found (h : fields.At f position put found) {m : Quoted × Tree}
    (hm : ∀ name ∈ f.name :: f.aliases, m.1.text ≠ .ok name) (o o' : Option α) (x : σ) :
    fields.takeMember source (found o x) m =
      (fields.takeMember source (found o' x) m).map (found o) := by
  rw [takeMember, takeMember]
  cases hkey : m.1.read with
  | error e => rfl
  | ok name =>
    have hname : name ∉ f.name :: f.aliases := fun hmem =>
      hm name hmem (Quoted.read_eq_ok_iff.1 hkey)
    have hread : fields.readMember? source name m.2 (found o x) = _ :=
      h.readMember?_found hname m.2 o o' x
    simp only [bind, Except.bind, hread]
    cases fields.readMember? source name m.2 (found o' x) with
    | some r => cases r <;> rfl
    | none =>
      cases checkFault m.2.skippedFault? with
      | error e => rfl
      | ok _ => exact congrArg Except.ok (h.found_found o o' x).symm

/-- Members of other fields are read alike, whether or not this one has been found. -/
theorem readMembers_found (h : fields.At f position put found) {ms : List (Quoted × Tree)}
    (hms : ∀ m ∈ ms, ∀ name ∈ f.name :: f.aliases, m.1.text ≠ .ok name) (o o' : Option α) (x : σ) :
    fields.readMembers source ms (found o x) =
      (fields.readMembers source ms (found o' x)).map (found o) := by
  simp only [readMembers_eq_foldlM]
  induction ms generalizing x with
  | nil => exact congrArg Except.ok (h.found_found o o' x).symm
  | cons m ms ih =>
    obtain ⟨hm, hrest⟩ := List.forall_mem_cons.1 hms
    rw [List.foldlM_cons, List.foldlM_cons, h.takeMember_found hm o o' x]
    have hsame : fields.takeMember source (found o' x) m = _ := h.takeMember_found hm o' o' x
    cases htake : fields.takeMember source (found o' x) m with
    | error e => rfl
    | ok y =>
      rw [htake] at hsame
      have hy : y = found o' y := Except.ok.inj hsame
      have hmembers := ih hrest y
      rw [← hy] at hmembers
      exact hmembers

/-- The value of a field that has been found is kept. -/
theorem complete_found (h : fields.At f position put found) (a a' : α) (x : σ) :
    fields.complete (found (some a) x) = (fields.complete (found (some a') x)).map (put a) := by
  induction h with
  | head rest =>
    simp only [complete, Option.some_or]
    cases rest.complete x.2 <;> rfl
  | @tail _ _ _ g rest _ put found _ _ ih =>
    simp only [complete]
    cases x.1.or g.ifMissing with
    | none => rfl
    | some c =>
      simp only [ih x.2]
      cases rest.complete (found (some a') x.2) <;> rfl

/-- A field that is missing counts as its default. -/
theorem complete_missing (h : fields.At f position put found) {a : α} (ha : f.ifMissing = some a)
    (x : σ) : fields.complete (found none x) = fields.complete (found (some a) x) := by
  induction h with
  | head rest => simp only [complete, ha, Option.none_or, Option.some_or]
  | tail g apart h ih => simp only [complete, ih x.2]

/-- An object that is read is read up to the field's member, and from there on. -/
theorem exists_of_readObject (h : fields.At f position put found)
    {before after : List (Quoted × Tree)} {key : Quoted} {name : String} {close : Close} {t₀ : Tree}
    {b₀ : β} (hkey : key.text = .ok name) (hname : name ∈ f.name :: f.aliases)
    (hafter : ∀ m ∈ after, ∀ name ∈ f.name :: f.aliases, m.1.text ≠ .ok name)
    (hread : fields.readObject source (before ++ (key, t₀) :: after) close = .ok b₀) :
    ∃ x y, fields.readMembers source before fields.noneFound = .ok x ∧
      (∀ t, fields.readMembers source ((key, t) :: after) x =
        (f.codec.read source t).bind fun a => fields.readMembers source after (found (some a) x)) ∧
      (∀ o, fields.readMembers source after (found o x) = .ok (found o y)) ∧
      close.objectFault? = none ∧ ∀ a, fields.complete (found (some a) y) = .ok (put a b₀) := by
  obtain ⟨z, hmembers, hread⟩ := bind_eq_ok_iff.1 hread
  obtain ⟨_, hclose, hcomplete⟩ := bind_eq_ok_iff.1 hread
  rw [readMembers_append] at hmembers
  obtain ⟨x, hx, hmembers⟩ := bind_eq_ok_iff.1 hmembers
  have hkey : key.read = .ok name := Quoted.read_eq_ok_iff.2 hkey
  have hmember : (∀ t, fields.readMember? source name t x = _) ∨ _ := h.readMember?_of_mem hname x
  rcases hmember with hmember | hmember
  · have hcons (t : Tree) : fields.readMembers source ((key, t) :: after) x =
        (f.codec.read source t).bind fun a =>
          fields.readMembers source after (found (some a) x) := by
      simp only [readMembers, hkey, bind, Except.bind, hmember t]
      cases f.codec.read source t <;> rfl
    rw [hcons] at hmembers
    obtain ⟨a₀, ha₀, hafter₀⟩ := bind_eq_ok_iff.1 hmembers
    have hall (o : Option α) : fields.readMembers source after (found o x) = .ok (found o z) := by
      rw [h.readMembers_found hafter o (some a₀) x, hafter₀]
      rfl
    have hz : found (some a₀) z = z := Except.ok.inj ((hall (some a₀)).symm.trans hafter₀)
    refine ⟨x, z, hx, hcons, hall, checkFault_eq_ok_iff.1 hclose, fun a => ?_⟩
    rw [h.complete_found a a₀, hz, hcomplete]
    rfl
  · simp only [readMembers, hkey, bind, Except.bind, hmember t₀] at hmembers
    cases hmembers

/-- With another value for its member, only the field of a record differs. -/
theorem readObject_fill (h : fields.At f position put found)
    {before after : List (Quoted × Tree)} {key : Quoted} {name : String} {close : Close} {t₀ : Tree}
    {b₀ : β} (hkey : key.text = .ok name) (hname : name ∈ f.name :: f.aliases)
    (hafter : ∀ m ∈ after, ∀ name ∈ f.name :: f.aliases, m.1.text ≠ .ok name)
    (hread : fields.readObject source (before ++ (key, t₀) :: after) close = .ok b₀) (t : Tree) :
    fields.readObject source (before ++ (key, t) :: after) close =
      (f.codec.read source t).map fun a => put a b₀ := by
  obtain ⟨x, y, hx, hcons, hall, hclose, hcomplete⟩ :=
    h.exists_of_readObject hkey hname hafter hread
  rw [readObject, readMembers_append, hx]
  simp only [bind, Except.bind, hcons, hall, hclose, checkFault]
  cases f.codec.read source t with
  | error e => rfl
  | ok a => exact hcomplete a

/-- Where a field with a default is left out, it has its default. -/
theorem readObject_bare (h : fields.At f position put found)
    {before after : List (Quoted × Tree)} {key : Quoted} {name : String} {close : Close} {t₀ : Tree}
    {b₀ : β} (hkey : key.text = .ok name) (hname : name ∈ f.name :: f.aliases)
    (hother : ∀ m ∈ before ++ after, ∀ name ∈ f.name :: f.aliases, m.1.text ≠ .ok name) {a : α}
    (ha : f.ifMissing = some a)
    (hread : fields.readObject source (before ++ (key, t₀) :: after) close = .ok b₀) :
    fields.readObject source (before ++ after) close = .ok (put a b₀) := by
  obtain ⟨hbefore, hafter⟩ := List.forall_mem_append.1 hother
  obtain ⟨x, y, hx, -, hall, hclose, hcomplete⟩ :=
    h.exists_of_readObject hkey hname hafter hread
  have hnone : found none x = x := by
    have hsame : fields.readMembers source before (found none fields.noneFound) = _ :=
      h.readMembers_found hbefore none none fields.noneFound
    rw [h.found_noneFound, hx] at hsame
    exact (Except.ok.inj hsame).symm
  have hrest := hall none
  rw [hnone] at hrest
  rw [readObject, readMembers_append, hx]
  simp only [bind, Except.bind, hrest, hclose, checkFault, h.complete_missing ha, hcomplete]

/-- With another value in its place, only the field of a record differs. -/
theorem readItems_fill (h : fields.At f position put found) {expected : String} {close : Close}
    {count : Nat} {before after rest : List Tree} {t₀ : Tree} {b₀ : β}
    (hposition : before.length = position)
    (hread : fields.readItems source expected close count (before ++ t₀ :: after) = .ok (b₀, rest))
    (t : Tree) :
    fields.readItems source expected close count (before ++ t :: after) =
      (f.codec.read source t).map fun a => (put a b₀, rest) := by
  induction h generalizing count before with
  | head fields =>
    obtain rfl := List.length_eq_zero_iff.1 hposition
    rw [List.nil_append, readItems] at hread ⊢
    obtain ⟨a₀, -, hread⟩ := bind_eq_ok_iff.1 hread
    obtain ⟨⟨b, items⟩, hb, hread⟩ := bind_eq_ok_iff.1 hread
    cases hread
    cases f.codec.read source t with
    | error e => rfl
    | ok a => exact bind_eq_ok_iff.2 ⟨a, rfl, bind_eq_ok_iff.2 ⟨_, hb, rfl⟩⟩
  | tail g apart h ih =>
    cases before with
    | nil => cases hposition
    | cons item before =>
      rw [List.cons_append, readItems] at hread ⊢
      obtain ⟨c, hc, hread⟩ := bind_eq_ok_iff.1 hread
      obtain ⟨⟨b, items⟩, hb, hread⟩ := bind_eq_ok_iff.1 hread
      cases hread
      have hrest := ih (Nat.succ.inj hposition) hb
      simp only [bind, Except.bind, hc, hrest]
      cases f.codec.read source t <;> rfl

/-- Where a list of values ends before a field with a default, the field has its default. -/
theorem readItems_bare (h : fields.At f position put found) {expected : String} {close : Close}
    {count : Nat} {before rest : List Tree} {t₀ : Tree} {b₀ : β}
    (hposition : before.length = position) {a : α} (ha : f.ifShort = some a)
    (hclose : close.listFault? = none)
    (hread : fields.readItems source expected close count (before ++ [t₀]) = .ok (b₀, rest)) :
    fields.readItems source expected close count before = .ok (put a b₀, rest) := by
  induction h generalizing count before with
  | head fields =>
    obtain rfl := List.length_eq_zero_iff.1 hposition
    rw [List.nil_append, readItems] at hread
    obtain ⟨a₀, -, hread⟩ := bind_eq_ok_iff.1 hread
    obtain ⟨⟨b, items⟩, hb, hread⟩ := bind_eq_ok_iff.1 hread
    cases hread
    simp only [readItems, hclose, checkFault, ha, bind, Except.bind, hb]
    rfl
  | tail g apart h ih =>
    cases before with
    | nil => cases hposition
    | cons item before =>
      rw [List.cons_append, readItems] at hread
      obtain ⟨c, hc, hread⟩ := bind_eq_ok_iff.1 hread
      obtain ⟨⟨b, items⟩, hb, hread⟩ := bind_eq_ok_iff.1 hread
      cases hread
      rw [readItems]
      exact bind_eq_ok_iff.2 ⟨c, hc, bind_eq_ok_iff.2 ⟨_, ih (Nat.succ.inj hposition) hb, rfl⟩⟩

/-! ## Records -/

section
variable {γ : Type} {type : String} {make : β → γ} {parts : γ → β} (set : α → γ → γ)
  {frame : Frame} {t₀ : Tree} {c₀ : γ}

/-- A record is read as its field is, the other fields being as they were. -/
theorem record_read_fill (h : fields.At f position put found)
    (hset : ∀ a b, make (put a b) = set a (make b))
    (hframe : frame.Leads (f.name :: f.aliases) position)
    (hread : (Codec.record type fields make parts).read source (frame.fill t₀) = .ok c₀) :
    ∃ inner a₀, source.enter = .ok inner ∧ f.codec.read inner t₀ = .ok a₀ ∧ set a₀ c₀ = c₀ ∧
      ∀ t, (Codec.record type fields make parts).read source (frame.fill t) =
        (f.codec.read inner t).map fun a => set a c₀ := by
  -- how the value in the frame is read follows from how any is
  suffices hfill : ∃ inner, source.enter = .ok inner ∧
      ∀ t, (Codec.record type fields make parts).read source (frame.fill t) =
        (f.codec.read inner t).map fun a => set a c₀ by
    obtain ⟨inner, henter, hall⟩ := hfill
    obtain ⟨a₀, ha₀, hset₀⟩ := map_eq_ok_iff.1 ((hall t₀).symm.trans hread)
    exact ⟨inner, a₀, henter, ha₀, hset₀, hall⟩
  cases frame with
  | item before after close =>
    obtain ⟨inner, henter, hread⟩ := bind_eq_ok_iff.1 hread
    obtain ⟨b₀, hb₀, rfl⟩ := map_eq_ok_iff.1 hread
    obtain ⟨⟨b, rest⟩, hitems, hread⟩ := bind_eq_ok_iff.1 hb₀
    obtain ⟨_, hend, hread⟩ := bind_eq_ok_iff.1 hread
    cases hread
    refine ⟨inner, henter, fun t => ?_⟩
    have hfill := h.readItems_fill hframe hitems t
    simp only [Codec.record, Frame.fill, henter, readList, bind, Except.bind, hfill]
    cases f.codec.read inner t with
    | error e => rfl
    | ok a =>
      simp only [Except.map, hend]
      exact congrArg Except.ok (hset a b₀)
  | member before key after close =>
    obtain ⟨⟨name, hname, hkey⟩, hafter⟩ := hframe
    obtain ⟨inner, henter, hread⟩ := bind_eq_ok_iff.1 hread
    obtain ⟨b₀, hb₀, rfl⟩ := map_eq_ok_iff.1 hread
    refine ⟨inner, henter, fun t => ?_⟩
    have hfill := h.readObject_fill hkey hname hafter hb₀ t
    simp only [Codec.record, Frame.fill, henter, bind, Except.bind, hfill]
    cases f.codec.read inner t with
    | error e => rfl
    | ok a => exact congrArg Except.ok (hset a b₀)

theorem checkEnd_eq_ok_iff {size : Nat} {items : List Tree} {close : Close} :
    checkEnd source size items close = .ok () ↔ items = [] ∧ close = .bracket := by
  cases source <;> cases items <;> cases close <;> simp [checkEnd]

/-- Without the member the record has the default for the field. -/
theorem record_read_bare (h : fields.At f position put found)
    (hset : ∀ a b, make (put a b) = set a (make b))
    (hframe : frame.Leads (f.name :: f.aliases) position)
    (homits : frame.Omits (f.name :: f.aliases)) {a : α} (hmissing : f.ifMissing = some a)
    (hshort : f.ifShort = some a)
    (hread : (Codec.record type fields make parts).read source (frame.fill t₀) = .ok c₀) :
    (Codec.record type fields make parts).read source frame.bare = .ok (set a c₀) := by
  cases frame with
  | item before after close =>
    obtain rfl : after = [] := homits
    obtain ⟨inner, henter, hread⟩ := bind_eq_ok_iff.1 hread
    obtain ⟨b₀, hb₀, rfl⟩ := map_eq_ok_iff.1 hread
    obtain ⟨⟨b, rest⟩, hitems, hread⟩ := bind_eq_ok_iff.1 hb₀
    obtain ⟨_, hend, hread⟩ := bind_eq_ok_iff.1 hread
    cases hread
    obtain ⟨rfl, rfl⟩ := checkEnd_eq_ok_iff.1 hend
    have hbare := h.readItems_bare hframe hshort rfl hitems
    refine bind_eq_ok_iff.2 ⟨inner, henter, map_eq_ok_iff.2 ⟨put a b₀, ?_, hset a b₀⟩⟩
    rw [List.append_nil]
    exact bind_eq_ok_iff.2 ⟨_, hbare, bind_eq_ok_iff.2 ⟨(), hend, rfl⟩⟩
  | member before key after close =>
    obtain ⟨⟨name, hname, hkey⟩, -⟩ := hframe
    obtain ⟨inner, henter, hread⟩ := bind_eq_ok_iff.1 hread
    obtain ⟨b₀, hb₀, rfl⟩ := map_eq_ok_iff.1 hread
    exact bind_eq_ok_iff.2 ⟨inner, henter, map_eq_ok_iff.2
      ⟨put a b₀, h.readObject_bare hkey hname homits hmissing hb₀, hset a b₀⟩⟩

end

end At
end Fields

/-! ## Lists -/

section
variable {ε α β : Type} {g : α → Except ε β} {before after : List α} {bs as : List β}

theorem mapM_append_eq_ok_iff : (before ++ after).mapM g = .ok bs ↔
    ∃ bs₁ bs₂, before.mapM g = .ok bs₁ ∧ after.mapM g = .ok bs₂ ∧ bs = bs₁ ++ bs₂ := by
  rw [List.mapM_append]
  constructor
  · intro h
    obtain ⟨bs₁, h₁, h⟩ := bind_eq_ok_iff.1 h
    obtain ⟨bs₂, h₂, h⟩ := bind_eq_ok_iff.1 h
    cases h
    exact ⟨bs₁, bs₂, h₁, h₂, rfl⟩
  · rintro ⟨bs₁, bs₂, h₁, h₂, rfl⟩
    exact bind_eq_ok_iff.2 ⟨bs₁, h₁, bind_eq_ok_iff.2 ⟨bs₂, h₂, rfl⟩⟩

/-- What becomes of the items around one of them does not depend on it. -/
theorem exists_mapM_around {a₀ : α} (h : (before ++ a₀ :: after).mapM g = .ok bs) :
    ∃ bs₁ b₀ bs₂, bs = bs₁ ++ b₀ :: bs₂ ∧ before.mapM g = .ok bs₁ ∧ g a₀ = .ok b₀ ∧
      after.mapM g = .ok bs₂ ∧
      ∀ a, (before ++ a :: after).mapM g = (g a).map fun b => bs₁ ++ b :: bs₂ := by
  obtain ⟨bs₁, bs', h₁, h', rfl⟩ := mapM_append_eq_ok_iff.1 h
  rw [List.mapM_cons] at h'
  obtain ⟨b₀, hb₀, h'⟩ := bind_eq_ok_iff.1 h'
  obtain ⟨bs₂, h₂, h'⟩ := bind_eq_ok_iff.1 h'
  cases h'
  refine ⟨bs₁, b₀, bs₂, rfl, h₁, hb₀, h₂, fun a => ?_⟩
  rw [List.mapM_append, h₁, List.mapM_cons, h₂]
  cases g a <;> rfl

theorem length_of_mapM {l : List α} (h : l.mapM g = .ok bs) : bs.length = l.length :=
  (mapM_eq_ok_iff_forall₂.1 h).length_eq.symm

end

/-- A list is read as its item is, the other items being as they were. -/
theorem Codec.list_read_fill {α : Type} {c : Codec α} {source : Source} {frame : Frame} {i : Nat}
    {t₀ : Tree} {as₀ : List α} (hframe : frame.Leads [] i)
    (hread : c.list.read source (frame.fill t₀) = .ok as₀) :
    ∃ inner a₀, source.enter = .ok inner ∧ c.read inner t₀ = .ok a₀ ∧ as₀[i]? = some a₀ ∧
      ∀ t, c.list.read source (frame.fill t) = (c.read inner t).map (as₀.set i) := by
  cases frame with
  | item before after close =>
    obtain rfl : before.length = i := hframe
    obtain ⟨inner, henter, hread⟩ := bind_eq_ok_iff.1 hread
    obtain ⟨as, has, hread⟩ := bind_eq_ok_iff.1 hread
    obtain ⟨_, hclose, hread⟩ := bind_eq_ok_iff.1 hread
    cases hread
    obtain ⟨as₁, a₁, as₂, rfl, hbefore, hitem, -, hall⟩ := exists_mapM_around has
    have hlength := length_of_mapM hbefore
    have hset (a : α) : (as₁ ++ a₁ :: as₂).set before.length a = as₁ ++ a :: as₂ := by
      simp [← hlength]
    refine ⟨inner, a₁, henter, hitem, by simp [← hlength], fun t => ?_⟩
    simp only [Codec.list, Frame.fill, henter, hall, bind, Except.bind]
    cases c.read inner t with
    | error e => rfl
    | ok a =>
      simp only [Except.map, hclose, hset]
      rfl
  | member => cases hread

/-! ## Any value -/

namespace Tree

variable {source : Source}

theorem ofItems_append (vs ws : List Json) : ofItems (vs ++ ws) = ofItems vs ++ ofItems ws := by
  simp only [ofItems_eq_map, List.map_append]

theorem ofMembers_append (ms ns : List (String × Json)) :
    ofMembers (ms ++ ns) = ofMembers ms ++ ofMembers ns := by
  simp only [ofMembers_eq_map, List.map_append]

theorem forall_mem_ofMembers_iff {es : List (String × Json)} {name : String} :
    (∀ m ∈ ofMembers es, m.1.text ≠ .ok name) ↔ name ∉ es.map (·.1) := by
  rw [ofMembers_eq_map, List.forall_mem_map, List.mem_map]
  simp only [Quoted.ofString, ne_eq, Except.ok.injEq, not_exists, not_and]

theorem key_notMem_of_toJsonMembers {ms : List (Quoted × Tree)} {es : List (String × Json)}
    {name : String} (h : toJsonMembers source ms = .ok es) (hms : ∀ m ∈ ms, m.1.text ≠ .ok name) :
    name ∉ es.map (·.1) := by
  rw [keys_of_toJsonMembers h, List.mem_filterMap]
  rintro ⟨m, hm, hname⟩
  refine hms m hm ?_
  cases htext : m.1.text with
  | error fault => simp [htext, Except.toOption] at hname
  | ok s => simpa [htext, Except.toOption] using hname

/-- With another item in its place, only that item of a list differs. -/
theorem toJson_item_fill {before after : List Tree} {close : Close} {t₀ : Tree} {v₀ : Json}
    (h : (list (before ++ t₀ :: after) close).toJson source = .ok v₀) :
    ∃ inner vs₁ vs₂, source.enter = .ok inner ∧ vs₁.length = before.length ∧
      (∀ t, (list (before ++ t :: after) close).toJson source =
        (t.toJson inner).map fun v => .array (vs₁ ++ v :: vs₂)) ∧
      (after = [] → vs₂ = [] ∧ (list before close).toJson source = .ok (.array vs₁)) := by
  obtain ⟨inner, henter, h⟩ := bind_eq_ok_iff.1 h
  obtain ⟨vs, hvs, h⟩ := bind_eq_ok_iff.1 h
  obtain ⟨_, hclose, -⟩ := bind_eq_ok_iff.1 h
  rw [toJsonItems_eq_mapM] at hvs
  obtain ⟨vs₁, v₁, vs₂, -, hbefore, -, hafter, hall⟩ := exists_mapM_around hvs
  refine ⟨inner, vs₁, vs₂, henter, length_of_mapM hbefore, fun t => ?_, ?_⟩
  · simp only [toJson, henter, toJsonItems_eq_mapM, hall, bind, Except.bind]
    cases t.toJson inner with
    | error e => rfl
    | ok v =>
      simp only [Except.map, hclose]
      rfl
  · rintro rfl
    cases hafter
    rw [← toJsonItems_eq_mapM] at hbefore
    exact ⟨rfl, bind_eq_ok_iff.2 ⟨inner, henter, bind_eq_ok_iff.2 ⟨vs₁, hbefore,
      bind_eq_ok_iff.2 ⟨(), hclose, rfl⟩⟩⟩⟩

/-- With another value for a name, only that member of an object differs. -/
theorem toJson_member_fill {before after : List (Quoted × Tree)} {key : Quoted} {name : String}
    {close : Close} {t₀ : Tree} {v₀ : Json} (hkey : key.text = .ok name)
    (hafter : ∀ m ∈ after, m.1.text ≠ .ok name)
    (h : (object (before ++ (key, t₀) :: after) close).toJson source = .ok v₀) :
    ∃ inner es₁ es₂, source.enter = .ok inner ∧ name ∉ es₂.map (·.1) ∧
      (∀ t, (object (before ++ (key, t) :: after) close).toJson source =
        (t.toJson inner).map fun v => .object (es₁ ++ (name, v) :: es₂)) ∧
      ((∀ m ∈ before, m.1.text ≠ .ok name) → name ∉ es₁.map (·.1) ∧
        (object (before ++ after) close).toJson source = .ok (.object (es₁ ++ es₂))) := by
  obtain ⟨inner, henter, h⟩ := bind_eq_ok_iff.1 h
  obtain ⟨es, hes, h⟩ := bind_eq_ok_iff.1 h
  obtain ⟨_, hclose, -⟩ := bind_eq_ok_iff.1 h
  rw [toJsonMembers_eq_mapM] at hes
  obtain ⟨es₁, _, es₂, -, hes₁, -, hes₂, hall⟩ := exists_mapM_around hes
  rw [← toJsonMembers_eq_mapM] at hes₁ hes₂
  have hname := key_notMem_of_toJsonMembers hes₂ hafter
  obtain ⟨before', after', hentries, hbare⟩ := SortedMap.exists_entries_ofList es₁ hname
  obtain ⟨hbefore', hafter'⟩ := SortedMap.key_notMem_of_entries (hentries .null)
  refine ⟨inner, before', after', henter, hafter', fun t => ?_, fun hbefore => ⟨hbefore', ?_⟩⟩
  · have hread : key.read = .ok name := Quoted.read_eq_ok_iff.2 hkey
    have hmembers : toJsonMembers inner (before ++ (key, t) :: after) =
        (t.toJson inner).map fun v => es₁ ++ (name, v) :: es₂ := by
      rw [toJsonMembers_eq_mapM, hall, hread]
      cases t.toJson inner <;> rfl
    simp only [toJson, henter, hmembers, bind, Except.bind]
    cases t.toJson inner with
    | error e => rfl
    | ok v =>
      simp only [Except.map, hclose, hentries]
      rfl
  · rw [← hbare (key_notMem_of_toJsonMembers hes₁ hbefore)]
    refine bind_eq_ok_iff.2 ⟨inner, henter, bind_eq_ok_iff.2 ⟨es₁ ++ es₂, ?_,
      bind_eq_ok_iff.2 ⟨(), hclose, rfl⟩⟩⟩
    rw [toJsonMembers_eq_mapM] at hes₁ hes₂ ⊢
    exact mapM_append_eq_ok_iff.2 ⟨es₁, es₂, hes₁, hes₂, rfl⟩

/-- A value around another is kept as that is. Where a name leads to the one in the text, it does so
in what is kept. -/
theorem toJson_fill {frame : Frame} {names : List String} {position : Nat} {t₀ : Tree} {v₀ : Json}
    (hnames : ∀ a ∈ names, ∀ b ∈ names, a = b) (hframe : frame.Leads names position)
    (h : (frame.fill t₀).toJson source = .ok v₀) :
    ∃ (inner : Source) (kept : Frame) (f : Json → Json), source.enter = .ok inner ∧
      kept.Leads names position ∧ (∀ v, ofJson (f v) = kept.fill (ofJson v)) ∧
      (∀ t, (frame.fill t).toJson source = (t.toJson inner).map f) ∧
      (frame.Omits names → kept.Omits names ∧
        ∃ v, frame.bare.toJson source = .ok v ∧ ofJson v = kept.bare) := by
  cases frame with
  | item before after close =>
    obtain ⟨inner, vs₁, vs₂, henter, hlength, hall, hbare⟩ := toJson_item_fill h
    refine ⟨inner, .item (ofItems vs₁) (ofItems vs₂) .bracket, _, henter, ?_, fun v => ?_, hall,
      fun homits => ?_⟩
    · rw [Frame.Leads, ofItems_eq_map, List.length_map, hlength]
      exact hframe
    · rw [ofJson, ofItems_append, ofItems]
      rfl
    · obtain rfl : after = [] := homits
      obtain ⟨rfl, hread⟩ := hbare rfl
      refine ⟨rfl, .array vs₁, ?_, ?_⟩
      · rwa [Frame.bare, List.append_nil]
      · rw [Frame.bare, ofItems, List.append_nil, ofJson]
  | member before key after close =>
    obtain ⟨⟨name, hname, hkey⟩, hafter⟩ := hframe
    obtain ⟨inner, es₁, es₂, henter, hes₂, hall, hbare⟩ :=
      toJson_member_fill hkey (fun m hm => hafter m hm name hname) h
    refine ⟨inner, .member (ofMembers es₁) (.ofString name) (ofMembers es₂) .bracket, _, henter,
      ⟨⟨name, hname, rfl⟩, fun m hm other hother => ?_⟩, fun v => ?_, hall, fun homits => ?_⟩
    · rw [hnames other hother name hname]
      exact forall_mem_ofMembers_iff.2 hes₂ m hm
    · rw [ofJson, ofMembers_append, ofMembers]
      rfl
    · obtain ⟨hes₁, hread⟩ :=
        hbare fun m hm => homits m (List.mem_append_left _ hm) name hname
      refine ⟨fun m hm other hother => ?_, _, hread, by rw [ofJson, ofMembers_append]; rfl⟩
      rw [hnames other hother name hname]
      rcases List.mem_append.1 hm with hm | hm
      · exact forall_mem_ofMembers_iff.2 hes₁ m hm
      · exact forall_mem_ofMembers_iff.2 hes₂ m hm

end Tree
end Json
end CampaignRouting
