/-! Blank characters, the 25 that have the Unicode property White_Space, and the text that is left
when they are taken off both ends. -/

namespace CampaignRouting.Text

/-- Closed ranges of code points, ascending. -/
def blankRanges : List (Nat × Nat) :=
  [(0x09, 0x0D), (0x20, 0x20), (0x85, 0x85), (0xA0, 0xA0), (0x1680, 0x1680), (0x2000, 0x200A),
   (0x2028, 0x2029), (0x202F, 0x202F), (0x205F, 0x205F), (0x3000, 0x3000)]

/-- Whether `c` lies in one of the ranges. -/
def inRanges (ranges : List (Nat × Nat)) (c : Char) : Bool :=
  ranges.any fun (first, last) => first ≤ c.toNat ∧ c.toNat ≤ last

/-- The character is white space. -/
def isBlank (c : Char) : Bool := inRanges blankRanges c

/-- What is left when the characters at the end that satisfy `p` are dropped. -/
def dropEndWhile (p : Char → Bool) (cs : List Char) : List Char :=
  (cs.reverse.dropWhile p).reverse

/-- What is left without the blanks at both ends. -/
def trim (cs : List Char) : List Char := dropEndWhile isBlank (cs.dropWhile isBlank)

/-- A text of blanks only; the empty text is one. -/
def AllBlank (s : String) : Prop := ∀ c ∈ s.toList, isBlank c

instance (s : String) : Decidable (AllBlank s) :=
  decidable_of_iff (s.toList.all isBlank = true) List.all_eq_true

end CampaignRouting.Text
