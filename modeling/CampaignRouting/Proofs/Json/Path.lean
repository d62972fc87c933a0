import CampaignRouting.Proofs.Json.Value

/-!
# Paths into values

A path leads into a value by the keys of objects and the positions in lists. It leads to the same
place when the value is sorted (`at?_sorted`).
-/

namespace CampaignRouting

theorem lookup_map_snd {α β : Type} (f : α → β) (key : String) (entries : List (String × α)) :
    (entries.map fun e => (e.1, f e.2)).lookup key = (entries.lookup key).map f := by
  induction entries with
  | nil => rfl
  | cons e entries ih =>
    rw [List.map_cons, List.lookup_cons, List.lookup_cons, ih]
    cases key == e.1 <;> rfl

namespace Json

/-- A step from a value to one in it. -/
inductive Step where
  | key (name : String)
  | item (i : Nat)

/-- What stands one step into a value. -/
def step? : Json → Step → Option Json
  | .object members, .key name => members.lookup name
  | .array items, .item i => items[i]?
  | _, _ => none

@[simp] theorem step?_item (items : List Json) (i : Nat) :
    (array items).step? (.item i) = items[i]? := rfl

/-- The value that a path leads to. -/
def at? (v : Json) (path : List Step) : Option Json := path.foldlM step? v

@[simp] theorem at?_nil (v : Json) : v.at? [] = some v := rfl

@[simp] theorem at?_cons (v : Json) (s : Step) (path : List Step) :
    v.at? (s :: path) = (v.step? s).bind (·.at? path) := rfl

/-- Sorting leaves the first member with a name where it can be found. -/
theorem lookup_sortedKeys (name : String) (ms : List (String × Json)) :
    (sortedKeys ms).lookup name = ms.lookup name := by
  induction ms with
  | nil => rfl
  | cons m ms ih =>
    have hinsert : (sortedKeys (m :: ms)).lookup name =
        if name = m.1 then some m.2 else (sortedKeys ms).lookup name :=
      lookup_insertEntry m.1 name m.2 (sortedKeys ms)
    rw [hinsert, ih, List.lookup_cons]
    by_cases h : name = m.1
    · simp [h]
    · rw [if_neg h, beq_false_of_ne h]

theorem step?_sorted (v : Json) (s : Step) : v.sorted.step? s = (v.step? s).map sorted := by
  cases v with
  | array vs =>
    rw [sorted_array]
    cases s with
    | key name => rfl
    | item i => exact List.getElem?_map
  | object ms =>
    rw [sorted_object]
    cases s with
    | key name =>
      exact (lookup_map_snd sorted name _).trans (congrArg _ (lookup_sortedKeys name ms))
    | item i => rfl
  | null | bool _ | number _ | string _ => rfl

/-- A path leads to the same place in a sorted value. -/
theorem at?_sorted (v : Json) (path : List Step) :
    v.sorted.at? path = (v.at? path).map sorted := by
  induction path generalizing v with
  | nil => rfl
  | cons s path ih =>
    rw [at?_cons, at?_cons, step?_sorted]
    cases v.step? s with
    | none => rfl
    | some w => exact ih w

end Json
end CampaignRouting
