import CampaignRouting.Proofs.Json.Reordering

/-!
# How deep a text may go

Reading any value fails for the depth of a tree only if the tree goes deeper than there is room
(`Tree.toJson_text`). So a tree that spells a value in a text with room enough for it spells the
same value where there is room for its depth, and where there is not, its depth is the only fault.
-/

namespace CampaignRouting.Json

theorem bind_of_ok {ε α β : Type} {x : Except ε α} {a : α} (h : x = .ok a) (f : α → Except ε β) :
    x >>= f = f a := by
  rw [h]
  rfl

mutual

/-- How many lists and objects stand inside each other. -/
def Tree.depth : Tree → Nat
  | .scalar _ | .absent _ => 0
  | .list items _ => itemsDepth items + 1
  | .object members _ => membersDepth members + 1

def Tree.itemsDepth : List Tree → Nat
  | [] => 0
  | t :: ts => max t.depth (itemsDepth ts)

def Tree.membersDepth : List (Quoted × Tree) → Nat
  | [] => 0
  | (_, value) :: ms => max value.depth (membersDepth ms)

end

namespace Tree

/-- The outcome of reading what spells `a` but for its depth. -/
def bounded {α : Type} (room depth : Nat) (a : α) : Except Error α :=
  if depth ≤ room then .ok a else .error (.malformed .tooDeep)

/-- One level more on both sides makes no difference. -/
theorem bounded_succ {α : Type} (room depth : Nat) (a : α) :
    bounded (room + 1) (depth + 1) a = bounded room depth a := by
  simp only [bounded, Nat.add_le_add_iff_right]

/-- What goes too deep in either of two steps goes too deep. -/
theorem bounded_bind {α β : Type} {room d e : Nat} {a : α} {b : β} {f : α → Except Error β}
    (h : f a = bounded room e b) : bounded room d a >>= f = bounded room (max d e) b := by
  by_cases hd : d ≤ room
  · simp only [bounded, Nat.max_le, hd, true_and]
    exact h
  · simp only [bounded, Nat.max_le, hd, false_and]
    rfl

theorem bounded_bind_ok {α β : Type} {room d : Nat} {a : α} {b : β} {f : α → Except Error β}
    (h : f a = .ok b) : bounded room d a >>= f = bounded room d b := by
  unfold bounded
  split
  · exact h
  · rfl

mutual

/-- A value that can be read is read from a text exactly if there is room for it. -/
theorem toJson_text (room : Nat) {v : Json} : ∀ {t : Tree}, t.toJson .value = .ok v →
    t.toJson (.text room) = bounded room t.depth v
  | .scalar s, h => by
    rw [bounded, if_pos (by simp [depth]), ← h]
    cases s with
    | word w => cases w <;> rfl
    | _ => rfl
  | .absent fault, h => by cases h
  | .list items close, h => by
    obtain ⟨_, vs, ⟨⟩, hvs, hclose, rfl⟩ := toJson_list_eq_ok_iff.1 h
    rw [← mapM_eq_ok_iff_forall₂, ← toJsonItems_eq_mapM] at hvs
    cases room with
    | zero => simp [toJson, Source.enter, bounded, depth, bind, Except.bind]
    | succ room =>
      rw [depth, bounded_succ, toJson,
        bind_of_ok (show Source.enter (.text (room + 1)) = .ok (.text room) from rfl),
        toJsonItems_text room hvs]
      exact bounded_bind_ok (by rw [hclose]; rfl)
  | .object ms close, h => by
    obtain ⟨_, es, ⟨⟩, hes, hclose, rfl⟩ := toJson_object_eq_ok_iff.1 h
    cases room with
    | zero => simp [toJson, Source.enter, bounded, depth, bind, Except.bind]
    | succ room =>
      rw [depth, bounded_succ, toJson,
        bind_of_ok (show Source.enter (.text (room + 1)) = .ok (.text room) from rfl),
        toJsonMembers_text room hes]
      exact bounded_bind_ok (by rw [hclose]; rfl)

theorem toJsonItems_text (room : Nat) : ∀ {ts : List Tree} {vs : List Json},
    toJsonItems .value ts = .ok vs → toJsonItems (.text room) ts = bounded room (itemsDepth ts) vs
  | [], vs, h => by
    cases h
    rfl
  | t :: ts, vs, h => by
    obtain ⟨v, hv, h⟩ := bind_eq_ok_iff.1 h
    obtain ⟨vs, hvs, h⟩ := bind_eq_ok_iff.1 h
    cases h
    rw [toJsonItems, toJson_text room hv, toJsonItems_text room hvs, itemsDepth]
    exact bounded_bind (bounded_bind_ok rfl)

theorem toJsonMembers_text (room : Nat) :
    ∀ {ms : List (Quoted × Tree)} {es : List (String × Json)},
    toJsonMembers .value ms = .ok es →
      toJsonMembers (.text room) ms = bounded room (membersDepth ms) es
  | [], es, h => by
    cases h
    rfl
  | (key, t) :: ms, es, h => by
    obtain ⟨k, hk, h⟩ := bind_eq_ok_iff.1 h
    obtain ⟨v, hv, h⟩ := bind_eq_ok_iff.1 h
    obtain ⟨es, hes, h⟩ := bind_eq_ok_iff.1 h
    cases h
    rw [toJsonMembers, bind_of_ok hk, toJson_text room hv, toJsonMembers_text room hes,
      membersDepth]
    exact bounded_bind (bounded_bind_ok rfl)

end

end Tree
end CampaignRouting.Json
