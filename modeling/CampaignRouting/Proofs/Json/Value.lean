import CampaignRouting.Proofs.Json.Token
import CampaignRouting.Proofs.SortedMap
import Mathlib.Data.List.Perm.Basic

/-!
# JSON values that can be written and read back

`Json.Fits k v` says that `v` nests at most `k` lists and objects and that no object repeats a key.
Sorting the members of such a value only changes their order, which a reader does not mind: what a
reader may rely on is collected in `Json.Rearrangement`. Values that have been read are `Canonical`:
their objects are sorted, and their numbers are numbers that a text can give.
-/

namespace CampaignRouting

namespace Json

variable {k : Nat} {v : Json} {vs : List Json} {ms : List (String × Json)}

/-- What holds of a list or an object if it holds of all inside it holds of every value. -/
@[elab_as_elim]
theorem induction {P : Json → Prop} (null : P .null) (bool : ∀ b, P (.bool b))
    (number : ∀ n, P (.number n)) (string : ∀ s, P (.string s))
    (array : ∀ vs, (∀ v ∈ vs, P v) → P (.array vs))
    (object : ∀ ms, (∀ m ∈ ms, P m.2) → P (.object ms)) (v : Json) : P v :=
  @Json.rec P (fun vs => ∀ v ∈ vs, P v) (fun ms => ∀ m ∈ ms, P m.2) (fun m => P m.2)
    null bool number string array object
    nofun (fun _ _ hv hvs => List.forall_mem_cons.2 ⟨hv, hvs⟩)
    nofun (fun _ _ hm hms => List.forall_mem_cons.2 ⟨hm, hms⟩) (fun _ _ hv => hv) v

theorem sorted_array (vs : List Json) : (array vs).sorted = .array (vs.map sorted) := by
  have hitems : ∀ vs, sortedItems vs = vs.map sorted := by
    intro vs
    induction vs with
    | nil => rfl
    | cons v vs ih => rw [sortedItems, ih, List.map_cons]
  rw [sorted, hitems]

/-- The members in ascending order of their keys, as they are. -/
def sortedKeys (ms : List (String × Json)) : List (String × Json) :=
  ms.foldr (fun m => insertEntry m.1 m.2) []

/-- An object is sorted by its keys, and so are its members inside. -/
theorem sorted_object (ms : List (String × Json)) :
    (object ms).sorted = .object ((sortedKeys ms).map fun m => (m.1, m.2.sorted)) := by
  have hmembers : ∀ ms, sortedMembers ms = (sortedKeys ms).map fun m => (m.1, m.2.sorted) := by
    intro ms
    induction ms with
    | nil => rfl
    | cons m ms ih =>
      rw [sortedMembers, ih, insertEntry_map]
      rfl
  rw [sorted, hmembers]

theorem ascending_sortedKeys (ms : List (String × Json)) : Ascending (sortedKeys ms) := by
  induction ms with
  | nil => exact .nil
  | cons m ms ih => exact ascending_insertEntry m.1 m.2 ih

theorem sortedKeys_subset (ms : List (String × Json)) : sortedKeys ms ⊆ ms := by
  induction ms with
  | nil => exact List.Subset.refl _
  | cons m ms ih =>
    intro e he
    exact List.mem_cons.2 ((mem_insertEntry he).imp id fun h => ih h)

/-- Sorting loses no member where no key is repeated. -/
theorem sortedKeys_perm (h : (ms.map (·.1)).Nodup) : (sortedKeys ms).Perm ms := by
  induction ms with
  | nil => rfl
  | cons m ms ih =>
    obtain ⟨hm, hms⟩ := List.nodup_cons.1 h
    have hperm := ih hms
    exact (insertEntry_perm fun hmem => hm ((hperm.map _).subset hmem)).trans (hperm.cons m)

/-- A list in ascending order of its keys stays as it is. -/
theorem sortedKeys_of_ascending (h : Ascending ms) : sortedKeys ms = ms :=
  (sortedKeys_perm h.nodup).eq_of_pairwise
    (fun _ _ _ _ hab hba => absurd (String.lt_trans hab hba) (String.lt_irrefl _))
    (ascending_sortedKeys ms) h

/-! ## Depth -/

/-- At most `k` lists and objects stand inside each other, and no object repeats a key. -/
inductive Fits : Nat → Json → Prop
  | null {k : Nat} : Fits k .null
  | bool {k : Nat} (b : Bool) : Fits k (.bool b)
  | number {k : Nat} (n : Number) : Fits k (.number n)
  | string {k : Nat} (s : String) : Fits k (.string s)
  | array {k : Nat} {vs : List Json} (items : ∀ v ∈ vs, Fits k v) : Fits (k + 1) (.array vs)
  | object {k : Nat} {ms : List (String × Json)} (distinct : (ms.map (·.1)).Nodup)
      (members : ∀ m ∈ ms, Fits k m.2) : Fits (k + 1) (.object ms)

theorem Fits.mono {l : Nat} (h : v.Fits k) (hkl : k ≤ l) : v.Fits l := by
  induction h generalizing l with
  | null => exact .null
  | bool b => exact .bool b
  | number n => exact .number n
  | string s => exact .string s
  | array _ ih =>
    obtain ⟨l, rfl⟩ := Nat.exists_eq_add_of_lt hkl
    exact .array fun v hv => ih v hv (by omega)
  | object hnames _ ih =>
    obtain ⟨l, rfl⟩ := Nat.exists_eq_add_of_lt hkl
    exact .object hnames fun m hm => ih m hm (by omega)

/-- Order does not matter to depth. -/
theorem Fits.sorted (h : v.Fits k) : v.sorted.Fits k := by
  induction h with
  | null => exact .null
  | bool b => exact .bool b
  | number n => exact .number n
  | string s => exact .string s
  | array _ ih =>
    rw [sorted_array]
    exact .array (List.forall_mem_map.2 ih)
  | object hnames _ ih =>
    have hperm := sortedKeys_perm hnames
    rw [sorted_object]
    refine .object ?_ (List.forall_mem_map.2 fun m hm => ih m (hperm.subset hm))
    rw [List.map_map]
    exact (hperm.map _).nodup_iff.2 hnames

theorem sorted_array_eq_self (h : ∀ v ∈ vs, v.sorted = v) : (array vs).sorted = array vs := by
  rw [sorted_array, List.map_congr_left h, List.map_id']

theorem sorted_object_eq_self (hascending : Ascending ms) (h : ∀ m ∈ ms, m.2.sorted = m.2) :
    (object ms).sorted = object ms := by
  rw [sorted_object, sortedKeys_of_ascending hascending,
    List.map_congr_left fun m hm => congrArg (m.1, ·) (h m hm), List.map_id']

/-- To sort a value twice changes nothing. -/
theorem sorted_sorted (v : Json) : v.sorted.sorted = v.sorted := by
  induction v using Json.induction with
  | array vs ih =>
    rw [sorted_array, sorted_array, List.map_map]
    exact congrArg _ (List.map_congr_left ih)
  | object ms ih =>
    have hascending : Ascending ((sortedKeys ms).map fun m => (m.1, m.2.sorted)) :=
      List.pairwise_map.2 (ascending_sortedKeys ms)
    rw [sorted_object, sorted_object, sortedKeys_of_ascending hascending, List.map_map]
    refine congrArg _ (List.map_congr_left fun m hm => ?_)
    exact congrArg (m.1, ·) (ih m (sortedKeys_subset ms hm))
  | _ => rfl

/-! ## Numbers -/

mutual

/-- The numbers of a value, in order. -/
def numbers : Json → List Number
  | .number n => [n]
  | .array items => itemNumbers items
  | .object members => memberNumbers members
  | _ => []

def itemNumbers : List Json → List Number
  | [] => []
  | v :: vs => v.numbers ++ itemNumbers vs

def memberNumbers : List (String × Json) → List Number
  | [] => []
  | (_, v) :: ms => v.numbers ++ memberNumbers ms

end

theorem numbers_array (vs : List Json) : (array vs).numbers = vs.flatMap numbers := by
  rw [numbers]
  induction vs with
  | nil => rfl
  | cons v vs ih => rw [itemNumbers, ih, List.flatMap_cons]

theorem numbers_object (ms : List (String × Json)) :
    (object ms).numbers = ms.flatMap (·.2.numbers) := by
  rw [numbers]
  induction ms with
  | nil => rfl
  | cons m ms ih => rw [memberNumbers, ih, List.flatMap_cons]

/-- Sorting makes up no numbers. -/
theorem numbers_sorted_subset (v : Json) : v.sorted.numbers ⊆ v.numbers := by
  induction v using Json.induction with
  | array vs ih =>
    rw [sorted_array, numbers_array, numbers_array, List.flatMap_map]
    intro n hn
    obtain ⟨v, hv, hn⟩ := List.mem_flatMap.1 hn
    exact List.mem_flatMap.2 ⟨v, hv, ih v hv hn⟩
  | object ms ih =>
    rw [sorted_object, numbers_object, numbers_object, List.flatMap_map]
    intro n hn
    obtain ⟨m, hm, hn⟩ := List.mem_flatMap.1 hn
    have hm := sortedKeys_subset ms hm
    exact List.mem_flatMap.2 ⟨m, hm, ih m hm hn⟩
  | _ => exact List.Subset.refl _

/-! ## Rearrangements

A text keeps the members of an object as they are written, a payload keeps them sorted. Both are
rearrangements. -/

/-- Changes the order in which members stand in objects that do not repeat a key, and nothing
else. -/
structure Rearrangement (f : Json → Json) : Prop where
  null : f .null = .null
  bool (b : Bool) : f (.bool b) = .bool b
  number (n : Number) : f (.number n) = .number n
  string (s : String) : f (.string s) = .string s
  array (vs : List Json) : f (.array vs) = .array (vs.map f)
  object (ms : List (String × Json)) (distinct : (ms.map (·.1)).Nodup) :
    ∃ ms' : List (String × Json), ms'.Perm ms ∧
      f (.object ms) = .object (ms'.map fun m => (m.1, f m.2))

theorem Rearrangement.id : Rearrangement id where
  null := rfl
  bool _ := rfl
  number _ := rfl
  string _ := rfl
  array vs := congrArg Json.array (List.map_id vs).symm
  object _ _ := ⟨_, .refl _, congrArg Json.object (List.map_id _).symm⟩

theorem Rearrangement.sorted : Rearrangement sorted where
  null := rfl
  bool _ := rfl
  number _ := rfl
  string _ := rfl
  array := sorted_array
  object _ distinct := ⟨_, sortedKeys_perm distinct, sorted_object _⟩

/-- The members of an object that lists the entries of `l`, rearranged. -/
theorem Rearrangement.object_map {α : Type} {f : Json → Json} (hf : Rearrangement f)
    {name : α → String} (value : α → Json) {l : List α} (distinct : (l.map name).Nodup) :
    ∃ l' : List α, l'.Perm l ∧ f (.object (l.map fun a => (name a, value a))) =
      .object (l'.map fun a => (name a, f (value a))) := by
  obtain ⟨ms, hms, hobject⟩ :=
    hf.object (l.map fun a => (name a, value a)) (by rwa [List.map_map])
  -- Each member of the rearranged list comes from an entry, so the entries move along with them.
  obtain ⟨l', hl', hperm⟩ := List.perm_comp_forall₂ hms
    (List.forall₂_map_left_iff.2 (List.forall₂_same.2 fun a _ => rfl) :
      List.Forall₂ (fun m a => m = (name a, value a)) (l.map fun a => (name a, value a)) l)
  have hms' : ms = l'.map fun a => (name a, value a) :=
    List.forall₂_eq_eq_eq ▸ List.forall₂_map_right_iff.2 hl'
  exact ⟨l', hperm, by rw [hobject, hms', List.map_map]; rfl⟩

/-! ## Values that have been read -/

/-- Nests at most `k` deep, is sorted, and has only numbers that a text can give. -/
inductive Canonical : Nat → Json → Prop
  | null {k : Nat} : Canonical k .null
  | bool {k : Nat} (b : Bool) : Canonical k (.bool b)
  | number {k : Nat} {n : Number} (h : n.InRange) : Canonical k (.number n)
  | string {k : Nat} (s : String) : Canonical k (.string s)
  | array {k : Nat} {vs : List Json} (items : ∀ v ∈ vs, Canonical k v) :
    Canonical (k + 1) (.array vs)
  | object {k : Nat} {ms : List (String × Json)} (ascending : Ascending ms)
    (members : ∀ m ∈ ms, Canonical k m.2) : Canonical (k + 1) (.object ms)

theorem Canonical.mono {l : Nat} (h : v.Canonical k) (hkl : k ≤ l) : v.Canonical l := by
  induction h generalizing l with
  | null => exact .null
  | bool b => exact .bool b
  | number hn => exact .number hn
  | string s => exact .string s
  | array _ ih =>
    obtain ⟨l, rfl⟩ := Nat.exists_eq_add_of_lt hkl
    exact .array fun v hv => ih v hv (by omega)
  | object hascending _ ih =>
    obtain ⟨l, rfl⟩ := Nat.exists_eq_add_of_lt hkl
    exact .object hascending fun m hm => ih m hm (by omega)

/-- A canonical value nests no deeper than it is said to. -/
theorem Canonical.fits (h : v.Canonical k) : v.Fits k := by
  induction h with
  | null => exact .null
  | bool b => exact .bool b
  | number _ => exact .number _
  | string s => exact .string s
  | array _ ih => exact .array ih
  | object hascending _ ih => exact .object hascending.nodup ih

theorem Canonical.sorted_eq (h : v.Canonical k) : v.sorted = v := by
  induction h with
  | null | bool _ | number _ | string _ => rfl
  | array _ ih => exact sorted_array_eq_self ih
  | object hascending _ ih => exact sorted_object_eq_self hascending ih

theorem Canonical.inRange (h : v.Canonical k) : ∀ n ∈ v.numbers, n.InRange := by
  induction h with
  | null | bool _ | string _ => exact nofun
  | number hn => simpa [numbers] using hn
  | array _ ih =>
    intro n hn
    obtain ⟨v, hv, hn⟩ := List.mem_flatMap.1 (numbers_array _ ▸ hn)
    exact ih v hv n hn
  | object _ _ ih =>
    intro n hn
    obtain ⟨m, hm, hn⟩ := List.mem_flatMap.1 (numbers_object _ ▸ hn)
    exact ih m hm n hn

end Json
end CampaignRouting
