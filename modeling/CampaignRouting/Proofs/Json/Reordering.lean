import CampaignRouting.Proofs.Json.Reading

/-!
# The order of members

`Tree.Reordered` says of two trees that they differ in the order of the members of their objects
only. As long as no object repeats a name (`Tree.Distinct`), a reader does not tell such trees
apart. For the readers of this project that is said in general terms: `c.Respects R S` says that
trees that `R` relates are read by `c` as values that `S` relates, if the first is read at all.
-/

namespace CampaignRouting

section
variable {α α' β β' : Type}

/-- What follows from `P` for related elements follows for related lists. -/
theorem forall₂_transport {R : α → α' → Prop} {S : β → β' → Prop} {P : α → β → Prop}
    {Q : α' → β' → Prop} {l : List α} {l' : List α'} {bs : List β} (hR : List.Forall₂ R l l')
    (hP : List.Forall₂ P l bs)
    (h : ∀ a ∈ l, ∀ a' b, R a a' → P a b → ∃ b', Q a' b' ∧ S b b') :
    ∃ bs', List.Forall₂ Q l' bs' ∧ List.Forall₂ S bs bs' := by
  induction hR generalizing bs with
  | nil =>
    cases hP
    exact ⟨[], .nil, .nil⟩
  | cons ha _ ih =>
    cases hP with
    | cons hb hP =>
      obtain ⟨hhead, htail⟩ := List.forall_mem_cons.1 h
      obtain ⟨b', hQ, hS⟩ := hhead _ _ ha hb
      obtain ⟨bs', hQs, hSs⟩ := ih hP htail
      exact ⟨b' :: bs', .cons hQ hQs, .cons hS hSs⟩

theorem forall₂_transport_same {R : α → α' → Prop} {P : α → β → Prop} {Q : α' → β → Prop}
    {l : List α} {l' : List α'} {bs : List β} (hR : List.Forall₂ R l l') (hP : List.Forall₂ P l bs)
    (h : ∀ a ∈ l, ∀ a' b, R a a' → P a b → Q a' b) : List.Forall₂ Q l' bs := by
  obtain ⟨bs', hQ, heq⟩ := forall₂_transport (S := (· = ·)) (Q := Q) hR hP
    fun a ha a' b hR hP => ⟨b, h a ha a' b hR hP, rfl⟩
  rw [List.forall₂_eq_eq_eq] at heq
  exact heq ▸ hQ

end

namespace Json

variable {source : Source} {t t' : Tree}

theorem Quoted.read_eq_ok_iff {q : Quoted} {s : String} : q.read = .ok s ↔ q.text = .ok s := by
  rw [Quoted.read]
  cases q.text <;> simp [Except.mapError]

namespace Tree

/-- No object has two members of one name. -/
inductive Distinct : Tree → Prop
  | scalar (s : Scalar) : Distinct (.scalar s)
  | absent (fault : Fault) : Distinct (.absent fault)
  | list {items : List Tree} {close : Close} (items_distinct : ∀ t ∈ items, Distinct t) :
    Distinct (.list items close)
  | object {ms : List (Quoted × Tree)} {close : Close}
    (names : (ms.filterMap (·.1.text.toOption)).Nodup) (values : ∀ m ∈ ms, Distinct m.2) :
    Distinct (.object ms close)

theorem Distinct.item {items : List Tree} {close : Close} (h : Distinct (.list items close)) :
    ∀ t ∈ items, t.Distinct := by
  cases h
  assumption

theorem Distinct.value {ms : List (Quoted × Tree)} {close : Close}
    (h : Distinct (.object ms close)) : ∀ m ∈ ms, m.2.Distinct := by
  cases h
  assumption

/-- The same tree, but for the order in which the members of its objects stand. -/
inductive Reordered : Tree → Tree → Prop
  | scalar (s : Scalar) : Reordered (.scalar s) (.scalar s)
  | absent (fault : Fault) : Reordered (.absent fault) (.absent fault)
  | list {items items' : List Tree} (close : Close) (h : List.Forall₂ Reordered items items') :
    Reordered (.list items close) (.list items' close)
  | object {ms ns ms' : List (Quoted × Tree)} (close : Close) (order : ms.Perm ns)
    (keys : ns.map (·.1) = ms'.map (·.1))
    (values : List.Forall₂ (fun m m' => Reordered m.2 m'.2) ns ms') :
    Reordered (.object ms close) (.object ms' close)

/-- What holds of reordered lists and objects if it holds inside them holds of all reordered
trees. -/
theorem Reordered.induction {P : Tree → Tree → Prop} (h : t.Reordered t')
    (scalar : ∀ s, P (.scalar s) (.scalar s)) (absent : ∀ fault, P (.absent fault) (.absent fault))
    (list : ∀ items items' close, List.Forall₂ P items items' →
      P (.list items close) (.list items' close))
    (object : ∀ ms ns ms' close, ms.Perm ns →
      List.Forall₂ (fun m m' => m.1 = m'.1 ∧ P m.2 m'.2) ns ms' →
      P (.object ms close) (.object ms' close)) :
    P t t' := by
  refine @Reordered.rec (fun t t' _ => P t t') (fun ts ts' _ => List.Forall₂ P ts ts')
    (fun (ms ms' : List (Quoted × Tree)) _ => List.Forall₂ (fun m m' => P m.2 m'.2) ms ms')
    scalar absent (fun close _ => list _ _ close) ?_ .nil ?_ .nil ?_ _ _ h
  · intro ms ns ms' close order keys _ values
    have keys := List.forall₂_map_left_iff.1 (List.forall₂_map_right_iff.1
      (List.forall₂_eq_eq_eq ▸ keys))
    exact object _ _ _ close order (keys.mp (fun _ _ => And.intro) values)
  · exact fun _ _ ht hts => .cons ht hts
  · exact fun _ _ hm hms => .cons hm hms

/-- Related by `R`, item by item. -/
inductive ListOf (R : Tree → Tree → Prop) : Tree → Tree → Prop
  | list {items items' : List Tree} (close : Close) (h : List.Forall₂ R items items') :
    ListOf R (.list items close) (.list items' close)

/-- Trees that are related are the same as soon as one of them is a scalar. -/
def KeepsScalars (R : Tree → Tree → Prop) : Prop :=
  ∀ ⦃t t'⦄, R t t' → ∀ s, t = .scalar s ↔ t' = .scalar s

theorem Reordered.keepsScalars : KeepsScalars Reordered := by
  rintro _ _ (_ | _ | _ | _) s <;> simp

theorem Reordered.ofJson (v : Json) : (ofJson v).Reordered (ofJson v) := by
  induction v using Json.induction with
  | null => exact .scalar _
  | bool b => exact .scalar _
  | number n => exact .scalar _
  | string s => exact .scalar _
  | array vs ih =>
    rw [Tree.ofJson, ofItems_eq_map]
    refine .list _ (List.forall₂_same.2 fun t ht => ?_)
    obtain ⟨v, hv, rfl⟩ := List.mem_map.1 ht
    exact ih v hv
  | object ms ih =>
    rw [Tree.ofJson, ofMembers_eq_map]
    refine .object _ (.refl _) rfl (List.forall₂_same.2 fun m hm => ?_)
    obtain ⟨m', hm', rfl⟩ := List.mem_map.1 hm
    exact ih m' hm'

theorem filterMap_ofString (ms : List (String × Json)) :
    (ofMembers ms).filterMap (·.1.text.toOption) = ms.map (·.1) := by
  rw [ofMembers_eq_map, List.filterMap_map]
  exact List.filterMap_eq_map_iff_forall_eq_some.2 fun _ _ => rfl

end Tree

/-- The tree of a value that fits is that of a value without repeated names. -/
theorem Fits.distinct_ofJson {k : Nat} {v : Json} (h : v.Fits k) : (Tree.ofJson v).Distinct := by
  induction h with
  | null | bool | number | string => exact .scalar _
  | array _ ih =>
    rw [Tree.ofJson, Tree.ofItems_eq_map]
    exact .list (List.forall_mem_map.2 ih)
  | object distinct _ ih =>
    refine .object (Tree.filterMap_ofString _ ▸ distinct) ?_
    rw [Tree.ofMembers_eq_map]
    exact List.forall_mem_map.2 ih

theorem checkFault_eq_ok_iff {fault? : Option Fault} :
    checkFault fault? = .ok () ↔ fault? = none := by
  cases fault? <;> simp [checkFault]

/-! ## Any value -/

namespace Tree

variable {ms : List (Quoted × Tree)} {es : List (String × Json)}

theorem toJsonMembers_eq_ok_iff : toJsonMembers source ms = .ok es ↔
    List.Forall₂ (fun m e => m.1.text = .ok e.1 ∧ m.2.toJson source = .ok e.2) ms es := by
  rw [toJsonMembers_eq_mapM, mapM_eq_ok_iff_forall₂]
  refine iff_of_eq (congrArg (List.Forall₂ · ms es) ?_)
  funext m e
  simp only [bind_eq_ok_iff, Quoted.read_eq_ok_iff, eq_iff_iff]
  constructor
  · rintro ⟨k, hk, v, hv, h⟩
    cases h
    exact ⟨hk, hv⟩
  · rintro ⟨hk, hv⟩
    exact ⟨_, hk, _, hv, rfl⟩

theorem toJson_list_eq_ok_iff {items : List Tree} {close : Close} {v : Json} :
    (list items close).toJson source = .ok v ↔ ∃ inner vs, source.enter = .ok inner ∧
      List.Forall₂ (fun t v => t.toJson inner = .ok v) items vs ∧ close.listFault? = none ∧
        v = .array vs := by
  simp only [toJson, toJsonItems_eq_mapM, bind_eq_ok_iff, mapM_eq_ok_iff_forall₂]
  constructor
  · rintro ⟨inner, henter, vs, hvs, _, hclose, h⟩
    cases h
    exact ⟨inner, vs, henter, hvs, checkFault_eq_ok_iff.1 hclose, rfl⟩
  · rintro ⟨inner, vs, henter, hvs, hclose, rfl⟩
    exact ⟨inner, henter, vs, hvs, (), checkFault_eq_ok_iff.2 hclose, rfl⟩

theorem toJson_object_eq_ok_iff {close : Close} {v : Json} :
    (object ms close).toJson source = .ok v ↔ ∃ inner es, source.enter = .ok inner ∧
      toJsonMembers inner ms = .ok es ∧ close.objectFault? = none ∧
        v = .object (SortedMap.ofList es).entries := by
  simp only [toJson, bind_eq_ok_iff]
  constructor
  · rintro ⟨inner, henter, es, hes, _, hclose, h⟩
    cases h
    exact ⟨inner, es, henter, hes, checkFault_eq_ok_iff.1 hclose, rfl⟩
  · rintro ⟨inner, es, henter, hes, hclose, rfl⟩
    exact ⟨inner, henter, es, hes, (), checkFault_eq_ok_iff.2 hclose, rfl⟩

/-- The keys that are kept are the names of the members. -/
theorem keys_of_toJsonMembers (h : toJsonMembers source ms = .ok es) :
    es.map (·.1) = ms.filterMap (·.1.text.toOption) := by
  have h := toJsonMembers_eq_ok_iff.1 h
  induction h with
  | nil => rfl
  | cons hm _ ih =>
    rw [List.map_cons, List.filterMap_cons, hm.1, ih (toJsonMembers_eq_ok_iff.2 ‹_›)]
    rfl

theorem Distinct.keys_nodup {close : Close} (h : Distinct (.object ms close))
    (hes : toJsonMembers source ms = .ok es) : (es.map (·.1)).Nodup := by
  rw [keys_of_toJsonMembers hes]
  cases h
  assumption

end Tree

/-! ## Readers that respect a relation -/

namespace Codec

variable {α β : Type}

/-- Where `c` reads a tree, it reads each tree that `R` allows in its place as well, and the values
are related by `S`. -/
def Respects (c : Codec α) (R : Tree → Tree → Prop) (S : α → α → Prop) : Prop :=
  ∀ ⦃source t t' a⦄, R t t' → t.Distinct → c.read source t = .ok a →
    ∃ a', c.read source t' = .ok a' ∧ S a a'

namespace Respects

variable {c : Codec α} {R : Tree → Tree → Prop} {S : α → α → Prop}

theorem of_eq (h : ∀ ⦃source t t' a⦄, R t t' → t.Distinct → c.read source t = .ok a →
    c.read source t' = .ok a) : c.Respects R (· = ·) :=
  fun _ _ _ a hR ht hread => ⟨a, h hR ht hread, rfl⟩

theorem read_eq (h : c.Respects R (· = ·)) {a : α} (hR : R t t') (ht : t.Distinct)
    (hread : c.read source t = .ok a) : c.read source t' = .ok a := by
  obtain ⟨_, hread', rfl⟩ := h hR ht hread
  exact hread'

/-- Texts whose trees are related are read alike. -/
theorem ofText (h : c.Respects R S) {s s' : String} (htree : R (Tree.ofText s).1 (Tree.ofText s').1)
    (hrest : (Tree.ofText s').2 = (Tree.ofText s).2) (hdistinct : (Tree.ofText s).1.Distinct)
    {a : α} (hread : c.ofText s = .ok a) : ∃ a', c.ofText s' = .ok a' ∧ S a a' := by
  obtain ⟨ha, hmore⟩ := ofText_eq_ok_iff.1 hread
  obtain ⟨a', ha', hS⟩ := h htree hdistinct ha
  exact ⟨a', ofText_eq_ok_iff.2 ⟨ha', hrest.trans hmore⟩, hS⟩

end Respects

theorem json_respects_reordered : Codec.json.Respects Tree.Reordered (· = ·) := by
  refine .of_eq fun source t t' v h ht hv => ?_
  revert source v
  refine h.induction (P := fun t t' => t.Distinct → ∀ source v, t.toJson source = .ok v →
    t'.toJson source = .ok v) ?_ ?_ ?_ ?_ ht
  · exact fun _ _ _ _ hv => hv
  · exact fun _ _ _ _ hv => hv
  · intro items items' close hitems ht source v hv
    obtain ⟨inner, vs, henter, hvs, hclose, rfl⟩ := Tree.toJson_list_eq_ok_iff.1 hv
    have hvs' := forall₂_transport_same (Q := fun t v => t.toJson inner = .ok v) hitems hvs
      fun t hmem _ v hP hv => hP (ht.item t hmem) inner v hv
    exact Tree.toJson_list_eq_ok_iff.2 ⟨inner, vs, henter, hvs', hclose, rfl⟩
  · intro ms ns ms' close horder hmembers ht source v hv
    obtain ⟨inner, es, henter, hes, hclose, rfl⟩ := Tree.toJson_object_eq_ok_iff.1 hv
    -- What is kept of the members moves along with them, and sorting undoes it.
    obtain ⟨es', hes', hperm⟩ :=
      List.perm_comp_forall₂ horder.symm (Tree.toJsonMembers_eq_ok_iff.1 hes)
    have hread := forall₂_transport_same
      (Q := fun m e => m.1.text = .ok e.1 ∧ m.2.toJson inner = .ok e.2) hmembers hes'
      fun m hm _ e hP he =>
        ⟨hP.1 ▸ he.1, hP.2 (ht.value m (horder.symm.subset hm)) inner e.2 he.2⟩
    refine Tree.toJson_object_eq_ok_iff.2
      ⟨inner, es', henter, Tree.toJsonMembers_eq_ok_iff.2 hread, hclose, ?_⟩
    rw [SortedMap.ofList_eq_of_perm hperm (ht.keys_nodup hes)]

/-! ## Scalars -/

/-- What is read from scalars only does not see any order. -/
theorem Respects.of_scalar {c : Codec α}
    (list : ∀ source items close a, c.read source (.list items close) ≠ .ok a)
    (object : ∀ source ms close a, c.read source (.object ms close) ≠ .ok a)
    (absent : ∀ source fault a, c.read source (.absent fault) ≠ .ok a) :
    c.Respects Tree.Reordered (· = ·) := by
  refine .of_eq fun source t t' a hR _ hread => ?_
  cases hR with
  | scalar s => exact hread
  | absent fault => exact absurd hread (absent source fault a)
  | list => exact absurd hread (list _ _ _ _)
  | object => exact absurd hread (object _ _ _ _)

theorem string_respects : Codec.string.Respects Tree.Reordered (· = ·) :=
  .of_scalar (fun _ _ _ _ h => nomatch h) (fun _ _ _ _ h => nomatch h) fun _ _ _ h => nomatch h

theorem bool_respects : Codec.bool.Respects Tree.Reordered (· = ·) :=
  .of_scalar (fun _ _ _ _ h => nomatch h) (fun _ _ _ _ h => nomatch h) fun _ _ _ h => nomatch h

theorem float_respects : Codec.float.Respects Tree.Reordered (· = ·) :=
  .of_scalar (fun _ _ _ _ h => nomatch h) (fun _ _ _ _ h => nomatch h) fun _ _ _ h => nomatch h

theorem natural_respects (type : String) (bound : Nat) :
    (Codec.natural type bound).Respects Tree.Reordered (· = ·) :=
  .of_scalar (fun _ _ _ _ h => nomatch h) (fun _ _ _ _ h => nomatch h) fun _ _ _ h => nomatch h

section
variable {c : Codec α} {R : Tree → Tree → Prop} {S : α → α → Prop}

theorem Respects.map (h : c.Respects R (· = ·)) (f : α → β) (g : β → α) :
    (c.map f g).Respects R (· = ·) := by
  refine .of_eq fun source t t' b hR ht hread => ?_
  obtain ⟨a, ha, rfl⟩ := map_eq_ok_iff.1 hread
  exact map_eq_ok_iff.2 ⟨a, h.read_eq hR ht ha, rfl⟩

theorem Respects.refine (h : c.Respects R (· = ·)) (f : α → Except Error β) (g : β → α) :
    (c.refine f g).Respects R (· = ·) := by
  refine .of_eq fun source t t' b hR ht hread => ?_
  obtain ⟨a, ha, hb⟩ := bind_eq_ok_iff.1 hread
  exact bind_eq_ok_iff.2 ⟨a, h.read_eq hR ht ha, hb⟩

/-! ## Enumerations -/

/-- An enumeration is read from a scalar, or from an object of one member that is a scalar. -/
theorem enum_read_eq_ok {all : List α} {name : α → String} {a : α}
    (h : (Codec.enum all name).read source t = .ok a) :
    (∃ s, t = .scalar s) ∨ ∃ key s close, t = .object [(key, .scalar s)] close := by
  have hunit : ∀ {payload : Tree}, readUnit payload = .ok () → ∃ s, payload = .scalar s := by
    intro payload h
    unfold readUnit at h
    split at h
    · exact ⟨_, rfl⟩
    · cases h
  cases t with
  | scalar s => exact .inl ⟨s, rfl⟩
  | list => cases source <;> cases h
  | absent => cases source <;> cases h
  | object ms close =>
    refine .inr ?_
    simp only [enum, readVariantObject] at h
    split at h
    · obtain ⟨_, -, h⟩ := bind_eq_ok_iff.1 h
      split at h <;> cases h
    · obtain ⟨_, -, h⟩ := bind_eq_ok_iff.1 h
      obtain ⟨_, -, h⟩ := bind_eq_ok_iff.1 h
      obtain ⟨_, -, h⟩ := bind_eq_ok_iff.1 h
      obtain ⟨_, hpayload, h⟩ := bind_eq_ok_iff.1 h
      split at h
      · obtain ⟨s, rfl⟩ := hunit hpayload
        exact ⟨_, s, _, rfl⟩
      · cases h
      · cases h
    · obtain ⟨_, -, h⟩ := bind_eq_ok_iff.1 h
      obtain ⟨_, -, h⟩ := bind_eq_ok_iff.1 h
      obtain ⟨_, hpayload, -⟩ := bind_eq_ok_iff.1 h
      obtain ⟨s, rfl⟩ := hunit hpayload
      exact ⟨_, s, _, rfl⟩
    · cases h

/-- An object of one member that is a scalar is the only one of its kind. -/
theorem reordered_single {key : Quoted} {s : Scalar} {close : Close}
    (h : Tree.Reordered (.object [(key, .scalar s)] close) t') :
    t' = .object [(key, .scalar s)] close := by
  cases h with
  | object _ order keys values =>
    obtain rfl := List.singleton_perm.1 order
    obtain ⟨m', _, hm', hnil, rfl⟩ := List.forall₂_cons_left_iff.1 values
    obtain rfl := List.forall₂_nil_left_iff.1 hnil
    obtain rfl : key = m'.1 := by simpa using keys
    have hvalue := (Tree.Reordered.keepsScalars hm' s).1 rfl
    rw [← hvalue]

theorem enum_respects (all : List α) (name : α → String) :
    (Codec.enum all name).Respects Tree.Reordered (· = ·) := by
  refine .of_eq fun source t t' a hR _ hread => ?_
  rcases enum_read_eq_ok hread with ⟨s, rfl⟩ | ⟨key, s, close, rfl⟩
  · obtain rfl := (Tree.Reordered.keepsScalars hR s).1 rfl
    exact hread
  · exact reordered_single hR ▸ hread

/-! ## Containers -/

theorem option_read_eq_ok_iff {a : Option α} : c.option.read source t = .ok a ↔
    (t = .scalar (.word .null) ∧ a = none) ∨
      (t ≠ .scalar (.word .null) ∧ (∀ fault, t ≠ .scalar (.brokenWord .null fault)) ∧
        ∃ b, c.read source t = .ok b ∧ a = some b) := by
  simp only [option]
  split
  · simp [eq_comm]
  · simp
  · next hnull hbroken =>
    rw [map_eq_ok_iff]
    constructor
    · rintro ⟨b, hb, rfl⟩
      exact .inr ⟨hnull, hbroken, b, hb, rfl⟩
    · rintro (⟨h, -⟩ | ⟨-, -, b, hb, rfl⟩)
      · exact (hnull h).elim
      · exact ⟨b, hb, rfl⟩

theorem Respects.option (h : c.Respects R (· = ·)) (hR : Tree.KeepsScalars R) :
    c.option.Respects R (· = ·) := by
  refine .of_eq fun source t t' a htt' ht hread => ?_
  have hscalar := hR htt'
  rcases option_read_eq_ok_iff.1 hread with ⟨rfl, rfl⟩ | ⟨hnull, hbroken, b, hb, rfl⟩
  · exact option_read_eq_ok_iff.2 (.inl ⟨(hscalar _).1 rfl, rfl⟩)
  · refine option_read_eq_ok_iff.2 (.inr ⟨mt (hscalar _).2 hnull, fun fault => ?_, b, ?_, rfl⟩)
    · exact mt (hscalar _).2 (hbroken fault)
    · exact h.read_eq htt' ht hb

theorem list_read_eq_ok_iff {as : List α} : c.list.read source t = .ok as ↔
    ∃ items close inner, t = .list items close ∧ source.enter = .ok inner ∧
      List.Forall₂ (fun t a => c.read inner t = .ok a) items as ∧ close.listFault? = none := by
  constructor
  · intro h
    simp only [list] at h
    split at h
    · next items close =>
      obtain ⟨inner, henter, h⟩ := bind_eq_ok_iff.1 h
      obtain ⟨as', has, h⟩ := bind_eq_ok_iff.1 h
      obtain ⟨_, hclose, h⟩ := bind_eq_ok_iff.1 h
      cases h
      exact ⟨items, close, inner, rfl, henter, mapM_eq_ok_iff_forall₂.1 has,
        checkFault_eq_ok_iff.1 hclose⟩
    · cases h
  · rintro ⟨items, close, inner, rfl, henter, has, hclose⟩
    exact bind_eq_ok_iff.2 ⟨inner, henter, bind_eq_ok_iff.2 ⟨as, mapM_eq_ok_iff_forall₂.2 has,
      bind_eq_ok_iff.2 ⟨(), checkFault_eq_ok_iff.2 hclose, rfl⟩⟩⟩

theorem Respects.list (h : c.Respects R S) :
    c.list.Respects (Tree.ListOf R) (List.Forall₂ S) := by
  rintro source _ _ as ⟨close, hitems⟩ ht hread
  obtain ⟨_, _, inner, ⟨⟩, henter, has, hclose⟩ := list_read_eq_ok_iff.1 hread
  obtain ⟨as', has', hS⟩ := forall₂_transport hitems has
    fun t hmem t' a hR ha => h hR (ht.item t hmem) ha
  exact ⟨as', list_read_eq_ok_iff.2 ⟨_, close, inner, rfl, henter, has', hclose⟩, hS⟩

theorem Respects.list_eq (h : c.Respects R (· = ·)) :
    c.list.Respects (Tree.ListOf R) (· = ·) :=
  List.forall₂_eq_eq_eq ▸ h.list

end

/-- A map of any values is the object that it would be as a value. -/
theorem readEntries_json (ms : List (Quoted × Tree)) (m : SortedMap Json) :
    readEntries Codec.json source ms m = (Tree.toJsonMembers source ms).map
      fun es => es.foldl (fun m e => m.insert e.1 e.2) m := by
  induction ms generalizing m with
  | nil => rfl
  | cons member ms ih =>
    obtain ⟨key, value⟩ := member
    rw [readEntries, Tree.toJsonMembers]
    cases key.read with
    | error => rfl
    | ok k =>
      show (value.toJson source >>= _) = _
      cases value.toJson source with
      | error => rfl
      | ok v =>
        show readEntries Codec.json source ms (m.insert k v) = _
        rw [ih]
        cases Tree.toJsonMembers source ms <;> rfl

theorem sortedMap_json_read {m : SortedMap Json} (h : Codec.json.sortedMap.read source t = .ok m) :
    ∃ ms close, t = .object ms close := by
  cases t with
  | object ms close => exact ⟨ms, close, rfl⟩
  | scalar | list | absent => cases h

theorem sortedMap_json_read_iff {ms : List (Quoted × Tree)} {close : Close} {m : SortedMap Json} :
    Codec.json.sortedMap.read source (.object ms close) = .ok m ↔
      (Tree.object ms close).toJson source = .ok (.object m.entries) := by
  simp only [Tree.toJson_object_eq_ok_iff, sortedMap, bind_eq_ok_iff, readEntries_json,
    map_eq_ok_iff]
  constructor
  · rintro ⟨inner, henter, _, ⟨es, hes, rfl⟩, _, hclose, h⟩
    cases h
    exact ⟨inner, es, henter, hes, checkFault_eq_ok_iff.1 hclose, rfl⟩
  · rintro ⟨inner, es, henter, hes, hclose, h⟩
    refine ⟨inner, henter, _, ⟨es, hes, rfl⟩, (), checkFault_eq_ok_iff.2 hclose, ?_⟩
    exact congrArg _ (SortedMap.ext (Json.object.inj h).symm)

theorem sortedMap_json_respects : Codec.json.sortedMap.Respects Tree.Reordered (· = ·) := by
  refine .of_eq fun source t t' m hR ht hread => ?_
  obtain ⟨ms, close, rfl⟩ := sortedMap_json_read hread
  cases hR with
  | object _ order keys values =>
    have hvalue := sortedMap_json_read_iff.1 hread
    exact sortedMap_json_read_iff.2
      (json_respects_reordered.read_eq (.object close order keys values) ht hvalue)

end Codec
end Json
end CampaignRouting
