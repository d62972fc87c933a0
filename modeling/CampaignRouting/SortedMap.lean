/-! Maps with text keys, kept as lists of entries in ascending order of their keys. The order is
part of the type, so two maps with the same entries are equal. -/

namespace CampaignRouting

variable {α β : Type}

/-- Puts an entry in its place; an entry with the same key is replaced. -/
def insertEntry (key : String) (value : α) : List (String × α) → List (String × α)
  | [] => [(key, value)]
  | (key', value') :: rest =>
    if key < key' then (key, value) :: (key', value') :: rest
    else if key = key' then (key, value) :: rest
    else (key', value') :: insertEntry key value rest

/-- Ascending order of the keys, each of which occurs once. -/
abbrev Ascending (entries : List (String × α)) : Prop := entries.Pairwise (·.1 < ·.1)

theorem mem_insertEntry {key : String} {value : α} {e : String × α} {entries : List (String × α)}
    (h : e ∈ insertEntry key value entries) : e = (key, value) ∨ e ∈ entries := by
  induction entries with
  | nil => simpa [insertEntry] using h
  | cons e' rest ih => grind [insertEntry]

theorem ascending_insertEntry (key : String) (value : α) {entries : List (String × α)}
    (h : Ascending entries) : Ascending (insertEntry key value entries) := by
  induction entries with
  | nil => simp [insertEntry]
  | cons e rest ih =>
    obtain ⟨hhead, hrest⟩ := List.pairwise_cons.1 h
    unfold insertEntry
    split
    · refine List.pairwise_cons.2 ⟨fun e' he' => ?_, h⟩
      rcases List.mem_cons.1 he' with rfl | he'
      · assumption
      · exact String.lt_trans ‹_› (hhead e' he')
    · split
      · subst key
        exact List.pairwise_cons.2 ⟨hhead, hrest⟩
      · refine List.pairwise_cons.2 ⟨fun e' he' => ?_, ih hrest⟩
        rcases mem_insertEntry he' with rfl | he'
        · have := String.not_lt.1 ‹¬key < _›
          exact Decidable.byContradiction fun hlt =>
            ‹¬key = _› (String.le_antisymm (String.not_lt.1 hlt) this)
        · exact hhead e' he'

/-- A finite map from texts. -/
structure SortedMap (α : Type) where
  entries : List (String × α)
  ascending : Ascending entries

namespace SortedMap

@[ext] theorem ext {m n : SortedMap α} (h : m.entries = n.entries) : m = n := by
  cases m; cases n; cases h; rfl

instance : EmptyCollection (SortedMap α) := ⟨⟨[], .nil⟩⟩

instance : Inhabited (SortedMap α) := ⟨∅⟩

instance [BEq α] : BEq (SortedMap α) := ⟨fun m n => m.entries == n.entries⟩

/-- Puts a value under a key, in place of one that is there. -/
def insert (m : SortedMap α) (key : String) (value : α) : SortedMap α :=
  ⟨insertEntry key value m.entries, ascending_insertEntry key value m.ascending⟩

/-- The value under a key. -/
def get? (m : SortedMap α) (key : String) : Option α := m.entries.lookup key

def keys (m : SortedMap α) : List String := m.entries.map (·.1)

def isEmpty (m : SortedMap α) : Bool := m.entries.isEmpty

/-- The map of a list of entries, the last of which counts where a key is repeated. -/
def ofList (entries : List (String × α)) : SortedMap α :=
  entries.foldl (fun m e => m.insert e.1 e.2) ∅

end SortedMap
end CampaignRouting
