import CampaignRouting.SortedMap
import Mathlib.Data.List.Nodup

/-!
# Sorted maps as functions

A map is what it gives for each key (`ext_get?`), and its entries are the keys and values that
lookups find (`mem_entries_iff`). A map made of a list of entries whose keys differ does not depend
on their order (`ofList_perm`).
-/

namespace CampaignRouting

variable {α β : Type}

theorem lookup_insertEntry (key k : String) (value : α) (entries : List (String × α)) :
    (insertEntry key value entries).lookup k =
      if k = key then some value else entries.lookup k := by
  induction entries with
  | nil => grind [insertEntry]
  | cons e rest ih => grind [insertEntry]

/-- A new key only takes its place. -/
theorem insertEntry_perm {key : String} {value : α} {entries : List (String × α)}
    (h : key ∉ entries.map (·.1)) :
    (insertEntry key value entries).Perm ((key, value) :: entries) := by
  induction entries with
  | nil => rfl
  | cons e rest ih =>
    obtain ⟨hne, hrest⟩ : key ≠ e.1 ∧ key ∉ rest.map (·.1) := by simpa using h
    rw [insertEntry, if_neg hne]
    split
    · rfl
    · exact ((ih hrest).cons e).trans (.swap ..)

theorem insertEntry_map (f : α → β) (key : String) (value : α) (entries : List (String × α)) :
    insertEntry key (f value) (entries.map fun e => (e.1, f e.2)) =
      (insertEntry key value entries).map fun e => (e.1, f e.2) := by
  induction entries with
  | nil => rfl
  | cons e rest ih =>
    simp only [List.map_cons, insertEntry]
    split
    · rfl
    · split
      · rfl
      · rw [ih, List.map_cons]

/-- Among entries whose keys differ, a lookup finds the one with the key. -/
theorem lookup_eq_some_iff_mem {entries : List (String × α)} (h : (entries.map (·.1)).Nodup)
    {k : String} {v : α} : entries.lookup k = some v ↔ (k, v) ∈ entries := by
  induction entries with
  | nil => simp
  | cons e rest ih =>
    obtain ⟨l, u⟩ := e
    obtain ⟨hhead, hrest⟩ := List.nodup_cons.1 h
    rw [List.lookup_cons, List.mem_cons, Prod.mk.injEq]
    by_cases hk : k = l
    · subst hk
      have hnotMem : (k, v) ∉ rest := fun hmem => hhead (List.mem_map.2 ⟨_, hmem, rfl⟩)
      simp [hnotMem, eq_comm]
    · have hne : (k == l) = false := by simpa using hk
      simp [hne, ih hrest, hk]

theorem Ascending.nodup {entries : List (String × α)} (h : Ascending entries) :
    (entries.map (·.1)).Nodup :=
  List.pairwise_map.2 (h.imp fun {a b} (hlt : a.1 < b.1) heq => String.lt_irrefl _ (heq ▸ hlt))

namespace SortedMap

variable {m n : SortedMap α}

@[simp] theorem get?_empty (k : String) : (∅ : SortedMap α).get? k = none := rfl

@[simp] theorem get?_insert (m : SortedMap α) (key k : String) (value : α) :
    (m.insert key value).get? k = if k = key then some value else m.get? k :=
  lookup_insertEntry key k value m.entries

theorem mem_entries_iff {k : String} {v : α} : (k, v) ∈ m.entries ↔ m.get? k = some v :=
  (lookup_eq_some_iff_mem m.ascending.nodup).symm

/-- Maps that give the same values are equal. -/
theorem ext_get? (h : ∀ k, m.get? k = n.get? k) : m = n := by
  have hperm : m.entries.Perm n.entries := by
    refine (List.perm_ext_iff_of_nodup (List.Nodup.of_map _ m.ascending.nodup)
      (List.Nodup.of_map _ n.ascending.nodup)).2 fun ⟨k, v⟩ => ?_
    rw [mem_entries_iff, mem_entries_iff, h]
  refine SortedMap.ext (hperm.eq_of_pairwise (fun a b _ _ hab hba => ?_) m.ascending n.ascending)
  exact absurd (String.lt_trans hab hba) (String.lt_irrefl _)

/-- Two keys with one value may be set in either order. -/
theorem insert_insert_comm (m : SortedMap α) (k l : String) (value : α) :
    (m.insert k value).insert l value = (m.insert l value).insert k value :=
  ext_get? fun _ => by grind [get?_insert]

/-- Entries whose keys differ are found, and behind them what was there. -/
theorem get?_foldl_insert {entries : List (String × α)} (h : (entries.map (·.1)).Nodup)
    (m : SortedMap α) (k : String) :
    (entries.foldl (fun m e => m.insert e.1 e.2) m).get? k = (entries.lookup k).or (m.get? k) := by
  induction entries generalizing m with
  | nil => rfl
  | cons e rest ih =>
    obtain ⟨l, v⟩ := e
    obtain ⟨hhead, hrest⟩ := List.nodup_cons.1 h
    rw [List.foldl_cons, ih hrest, get?_insert, List.lookup_cons]
    by_cases hk : k = l
    · subst hk
      have hnone : rest.lookup k = none := by
        rw [List.lookup_eq_none_iff]
        intro p hp
        have hne : k ≠ p.1 := fun he => hhead (List.mem_map.2 ⟨p, hp, he.symm⟩)
        simpa using hne
      simp [hnone]
    · have hne : (k == l) = false := by simpa using hk
      simp [hk, hne]

theorem get?_ofList {entries : List (String × α)} (h : (entries.map (·.1)).Nodup) (k : String) :
    (ofList entries).get? k = entries.lookup k := by
  rw [ofList, get?_foldl_insert h, get?_empty, Option.or_none]

/-- A map can be put together from its entries in any order. -/
theorem ofList_perm {entries : List (String × α)} (h : entries.Perm m.entries) :
    ofList entries = m := by
  have hnodup : (entries.map (·.1)).Nodup := (h.map _).nodup_iff.2 m.ascending.nodup
  refine ext_get? fun k => Option.ext fun v => ?_
  rw [get?_ofList hnodup, lookup_eq_some_iff_mem hnodup, h.mem_iff, mem_entries_iff]

/-- Entries whose keys differ are those of their map. -/
theorem entries_ofList_perm {entries : List (String × α)} (h : (entries.map (·.1)).Nodup) :
    (ofList entries).entries.Perm entries := by
  refine (List.perm_ext_iff_of_nodup (.of_map _ (ofList entries).ascending.nodup)
    (.of_map _ h)).2 ?_
  rintro ⟨k, v⟩
  rw [mem_entries_iff, get?_ofList h, lookup_eq_some_iff_mem h]

theorem ofList_eq_of_perm {entries entries' : List (String × α)} (h : entries.Perm entries')
    (hkeys : (entries'.map (·.1)).Nodup) : ofList entries = ofList entries' :=
  ofList_perm (h.trans (entries_ofList_perm hkeys).symm)

/-- A map made of a list has no entries but those of the list. -/
theorem mem_of_mem_ofList {entries : List (String × α)} {e : String × α}
    (h : e ∈ (ofList entries).entries) : e ∈ entries := by
  have hfold : ∀ m : SortedMap α, e ∈ (entries.foldl (fun m e => m.insert e.1 e.2) m).entries →
      e ∈ entries ∨ e ∈ m.entries := by
    clear h
    induction entries with
    | nil => exact fun _ => .inr
    | cons e' rest ih =>
      intro m h
      rcases ih _ h with h | h
      · exact .inl (.tail _ h)
      · exact (mem_insertEntry h).imp (fun heq : e = e' => heq ▸ .head _) id
  exact (hfold ∅ h).resolve_right List.not_mem_nil

/-- An entry takes its place among the others, whatever its value is. -/
theorem exists_insertEntry_eq (key : String) (entries : List (String × α)) :
    ∃ before after, (∀ value, insertEntry key value entries = before ++ (key, value) :: after) ∧
      (key ∉ entries.map (·.1) → entries = before ++ after) := by
  induction entries with
  | nil => exact ⟨[], [], fun _ => rfl, fun _ => rfl⟩
  | cons e entries ih =>
    by_cases hlt : key < e.1
    · exact ⟨[], e :: entries, fun _ => by simp [insertEntry, hlt], fun _ => rfl⟩
    · by_cases heq : key = e.1
      · exact ⟨[], entries, fun _ => by simp [insertEntry, heq], fun h => absurd (heq ▸ .head _) h⟩
      · obtain ⟨before, after, hinsert, hsplit⟩ := ih
        refine ⟨e :: before, after, fun value => ?_, fun h => ?_⟩
        · rw [insertEntry, if_neg hlt, if_neg heq, hinsert, List.cons_append]
        · rw [hsplit (mt (.tail _) h), List.cons_append]

theorem insert_insert_comm_of_ne {k l : String} (m : SortedMap α) (v w : α) (h : k ≠ l) :
    (m.insert k v).insert l w = (m.insert l w).insert k v :=
  ext_get? fun _ => by grind [get?_insert]

theorem insert_foldl_insert {entries : List (String × α)} {key : String}
    (h : key ∉ entries.map (·.1)) (value : α) (m : SortedMap α) :
    entries.foldl (fun m e => m.insert e.1 e.2) (m.insert key value) =
      (entries.foldl (fun m e => m.insert e.1 e.2) m).insert key value := by
  induction entries generalizing m with
  | nil => rfl
  | cons e entries ih =>
    obtain ⟨hne, hrest⟩ : key ≠ e.1 ∧ key ∉ entries.map (·.1) := by simpa using h
    rw [List.foldl_cons, List.foldl_cons, insert_insert_comm_of_ne m value e.2 hne, ih hrest]

/-- The entries of a map around one whose key is not set again. -/
theorem exists_entries_ofList (before : List (String × α)) {after : List (String × α)}
    {key : String} (h : key ∉ after.map (·.1)) :
    ∃ before' after',
      (∀ value, (ofList (before ++ (key, value) :: after)).entries =
        before' ++ (key, value) :: after') ∧
      (key ∉ before.map (·.1) → (ofList (before ++ after)).entries = before' ++ after') := by
  have hofList (value : α) : ofList (before ++ (key, value) :: after) =
      (ofList (before ++ after)).insert key value := by
    rw [ofList, List.foldl_append, List.foldl_cons, insert_foldl_insert h, ← List.foldl_append,
      ofList]
  obtain ⟨before', after', hinsert, hsplit⟩ :=
    exists_insertEntry_eq key (ofList (before ++ after)).entries
  refine ⟨before', after', fun value => ?_, fun hbefore => hsplit fun hmem => ?_⟩
  · exact (congrArg entries (hofList value)).trans (hinsert value)
  · obtain ⟨e, he, hkey⟩ := List.mem_map.1 hmem
    rcases List.mem_append.1 (mem_of_mem_ofList he) with he | he
    · exact hbefore (hkey ▸ List.mem_map.2 ⟨e, he, rfl⟩)
    · exact h (hkey ▸ List.mem_map.2 ⟨e, he, rfl⟩)

theorem key_notMem_of_entries {m : SortedMap α} {before after : List (String × α)} {key : String}
    {value : α} (h : m.entries = before ++ (key, value) :: after) :
    key ∉ before.map (·.1) ∧ key ∉ after.map (·.1) := by
  have hnodup := m.ascending.nodup
  rw [h, List.map_append, List.map_cons, List.nodup_middle] at hnodup
  have hnot := (List.nodup_cons.1 hnodup).1
  simpa [not_or] using hnot

end SortedMap
end CampaignRouting
