import CampaignRouting.Config.Layer
import CampaignRouting.Proofs.Json.Value

/-!
# Layers of settings

Laying a value that is no object at the end of a path sets the field there and leaves all others
(`field?_overlayAt`). A file with plain keys is a layer that stands for itself
(`layered_members`).
-/

namespace CampaignRouting

namespace Json

variable {v layer : Json} {ms : List (String × Json)}

/-- The field of a section. -/
def field? (v : Json) (name field : String) : Option Json :=
  (v.member? name).bind (·.member? field)

/-- The section is left out, or it is an object. -/
def IsSection (v : Json) (name : String) : Prop :=
  ∀ w, v.member? name = some w → ∃ ms, w = object ms

/-! ## Members -/

@[simp] theorem member?_object (ms : List (String × Json)) (key : String) :
    (object ms).member? key = ms.lookup key := rfl

/-- To set a member leaves all others as they are. -/
@[simp] theorem member?_withMember (v value : Json) (key k : String) :
    (v.withMember key value).member? k = if k = key then some value else v.member? k :=
  lookup_insertEntry key k value v.members

theorem overlay_of_ne_object (base : Json) (h : ∀ ms, layer ≠ object ms) :
    base.overlay layer = layer := by
  cases layer with
  | object ms => exact absurd rfl (h ms)
  | null | bool _ | number _ | string _ | array _ => simp only [overlay]

/-! ## Fields -/

/-- A scalar at a path of two names is set in its section, which is made if it is not there. -/
theorem overlayAt_field (base : Json) (name field : String) (h : ∀ ms, layer ≠ object ms) :
    overlayAt layer [.member name, .member field] base =
      base.withMember name (((base.member? name).getD (.object [])).withMember field layer) := by
  rw [overlayAt, overlayAt, overlayAt, overlay_of_ne_object _ h]

/-- One field is set; its siblings and the other sections stay as they are. -/
theorem field?_overlayAt (base : Json) (name field name' field' : String)
    (h : ∀ ms, layer ≠ object ms) :
    (overlayAt layer [.member name, .member field] base).field? name' field' =
      if name' = name ∧ field' = field then some layer else base.field? name' field' := by
  rw [overlayAt_field base name field h, field?, field?, member?_withMember]
  by_cases hname : name' = name
  · subst hname
    rw [if_pos rfl, Option.bind_some, member?_withMember]
    by_cases hfield : field' = field
    · rw [if_pos hfield, if_pos ⟨rfl, hfield⟩]
    · rw [if_neg hfield, if_neg fun h => hfield h.2]
      cases base.member? name' <;> rfl
  · rw [if_neg hname, if_neg fun h => hname h.1]

/-- A section stays one when a field is set, in it or elsewhere. -/
theorem IsSection.overlayAt {base : Json} {name : String} (hbase : base.IsSection name)
    (name' field : String) (h : ∀ ms, layer ≠ object ms) :
    (overlayAt layer [.member name', .member field] base).IsSection name := by
  intro w hw
  rw [overlayAt_field base name' field h, member?_withMember] at hw
  split at hw
  · exact ⟨_, (Option.some.inj hw).symm⟩
  · exact hbase w hw

/-! ## Layers on nothing -/

/-- A key behind all others comes last. -/
theorem insertEntry_of_forall_lt {key : String} {value : Json} (h : ∀ m ∈ ms, m.1 < key) :
    insertEntry key value ms = ms ++ [(key, value)] := by
  induction ms with
  | nil => rfl
  | cons m ms ih =>
    obtain ⟨hm, hms⟩ := List.forall_mem_cons.1 h
    have hne : key ≠ m.1 := fun heq => String.lt_irrefl _ (heq ▸ hm)
    rw [insertEntry, if_neg fun hlt => String.lt_irrefl _ (String.lt_trans hlt hm), if_neg hne,
      ih hms, List.cons_append]

theorem lookup_eq_none_of_forall_lt {key : String} (h : ∀ m ∈ ms, m.1 < key) :
    ms.lookup key = none := by
  rw [List.lookup_eq_none_iff]
  intro m hm
  have hne : key ≠ m.1 := fun heq => String.lt_irrefl _ (heq ▸ h m hm)
  simpa using hne

/-- Members in ascending order that are laid over the members before them. -/
theorem overlayMembers_append {below : List (String × Json)}
    (hascending : Ascending (below ++ ms)) (h : ∀ m ∈ ms, (object []).overlay m.2 = m.2) :
    (object below).overlayMembers ms = object (below ++ ms) := by
  induction ms generalizing below with
  | nil => rw [overlayMembers, List.append_nil]
  | cons m ms ih =>
    obtain ⟨key, w⟩ := m
    obtain ⟨hw, hms⟩ := List.forall_mem_cons.1 h
    have hlt : ∀ m ∈ below, m.1 < key := fun m hm =>
      (List.pairwise_append.1 hascending).2.2 m hm _ (.head _)
    have hassoc : below ++ (key, w) :: ms = below ++ [(key, w)] ++ ms := by simp
    rw [overlayMembers, member?_object, lookup_eq_none_of_forall_lt hlt, Option.getD_none, hw,
      withMember, members, insertEntry_of_forall_lt hlt, hassoc, ih (hassoc ▸ hascending) hms]

/-- A value whose objects are sorted stands for itself. -/
theorem overlay_of_sorted (h : v.sorted = v) : (object []).overlay v = v := by
  induction v using Json.induction with
  | object ms ih =>
    rw [sorted_object, object.injEq] at h
    have hascending : Ascending ms := by
      rw [← h]
      exact List.pairwise_map.2 (ascending_sortedKeys ms)
    rw [sortedKeys_of_ascending hascending] at h
    have hmembers : ∀ m ∈ ms, m.2.sorted = m.2 := fun m hm =>
      congrArg Prod.snd (List.map_inj_left.1 (h.trans ms.map_id.symm) m hm)
    have hlaid : ∀ m ∈ ms, (object []).overlay m.2 = m.2 :=
      fun m hm => ih m hm (hmembers m hm)
    rw [overlay]
    exact overlayMembers_append hascending hlaid
  | null | bool _ | number _ | string _ | array _ => simp only [overlay]

end Json

/-! ## Files -/

/-- A key without dots and brackets is a name. -/
def PlainKey (key : String) : Prop := '.' ∉ key.toList ∧ '[' ∉ key.toList

instance (key : String) : Decidable (PlainKey key) := by unfold PlainKey; infer_instance

/-- A plain key is the name of one member. -/
theorem keyPath_of_plain {key : String} (h : PlainKey key) : keyPath key = [.member key] := by
  have hnamed : PathStep.named? key.toList = some [.member key] ∨
      PathStep.named? key.toList = none := by
    rw [PathStep.named?, Text.split_of_notMem h.2]
    dsimp only
    split
    · exact .inl (by simp)
    · exact .inr rfl
  rw [keyPath, Text.split_of_notMem h.1]
  rcases hnamed with hnamed | hnamed <;> simp [hnamed]

/-- A file whose keys are plain is laid over the defaults as a whole. -/
theorem foldl_overlayAt_members (base : Json) {ms : List (String × Json)}
    (hplain : ∀ m ∈ ms, PlainKey m.1) :
    (ms.map fun m => (keyPath m.1, m.2)).foldl (fun base e => Json.overlayAt e.2 e.1 base) base =
      base.overlayMembers ms := by
  induction ms generalizing base with
  | nil => rw [Json.overlayMembers]; rfl
  | cons m ms ih =>
    obtain ⟨hm, hms⟩ := List.forall_mem_cons.1 hplain
    rw [List.map_cons, List.foldl_cons, ih _ hms, keyPath_of_plain hm, Json.overlayMembers,
      Json.overlayAt, Json.overlayAt]

/-- Members under plain keys are a layer that stands for itself. -/
theorem layered_members {ms : List (String × Json)} (hsorted : (Json.object ms).sorted = .object ms)
    (hplain : ∀ m ∈ ms, PlainKey m.1) :
    layered (ms.map fun m => (keyPath m.1, m.2)) = .object ms := by
  have hoverlay := Json.overlay_of_sorted hsorted
  rw [Json.overlay] at hoverlay
  exact (foldl_overlayAt_members _ hplain).trans hoverlay

end CampaignRouting
