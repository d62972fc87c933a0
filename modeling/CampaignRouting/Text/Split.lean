/-! Cutting a text at a separator. Nothing but the separators is lost. -/

namespace CampaignRouting.Text

/-- The pieces between the separators, one more than there are separators. -/
def split (sep : Char) : List Char → List (List Char)
  | [] => [[]]
  | c :: cs =>
    if c = sep then [] :: split sep cs
    else match split sep cs with
      | [] => [[c]]
      | piece :: pieces => (c :: piece) :: pieces

/-- The pieces with a separator between any two. -/
def join (sep : Char) : List (List Char) → List Char
  | [] => []
  | [piece] => piece
  | piece :: pieces => piece ++ sep :: join sep pieces

theorem split_ne_nil (sep : Char) (cs : List Char) : split sep cs ≠ [] := by
  induction cs with
  | nil => simp [split]
  | cons c cs ih => grind [split]

theorem join_split (sep : Char) (cs : List Char) : join sep (split sep cs) = cs := by
  induction cs with
  | nil => rfl
  | cons c cs ih =>
    have := split_ne_nil sep cs
    cases h : split sep cs with
    | nil => contradiction
    | cons piece pieces => cases pieces <;> by_cases hc : c = sep <;> simp_all [split, join]

theorem length_split (sep : Char) (cs : List Char) :
    (split sep cs).length = cs.count sep + 1 := by
  induction cs with
  | nil => rfl
  | cons c cs ih =>
    have := split_ne_nil sep cs
    cases h : split sep cs with
    | nil => contradiction
    | cons piece pieces => by_cases hc : c = sep <;> simp_all [split]

/-- Without a separator there is one piece. -/
theorem split_of_notMem {sep : Char} {cs : List Char} (h : sep ∉ cs) : split sep cs = [cs] := by
  have hlength := length_split sep cs
  rw [List.count_eq_zero.2 h] at hlength
  obtain ⟨piece, hpiece⟩ := List.length_eq_one_iff.1 hlength
  have hjoin := join_split sep cs
  rw [hpiece, join] at hjoin
  rw [hpiece, hjoin]

/-- The pieces as texts. -/
def splitText (sep : Char) (s : String) : List String := (split sep s.toList).map String.ofList

end CampaignRouting.Text
