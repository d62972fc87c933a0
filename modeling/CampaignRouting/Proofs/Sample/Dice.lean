import CampaignRouting.Sample.Dice
import Mathlib.Data.List.Forall2

/-!
# Whatever the dice

What holds of everything that dice can come to (`Dice.Always`) is put together as the throws are:
from a step and those after it (`Always.bind`), and from the items of a list (`Always.mapM`).
-/

namespace CampaignRouting.Dice

variable {α β γ : Type} {P P' : α → Prop} {Q : β → Prop} {x : StateM Dice α}
  {f : α → StateM Dice β}

/-- The outcome has the property, whatever the dice. -/
def Always (x : StateM Dice α) (P : α → Prop) : Prop := ∀ d : Dice, P (x.run d).1

namespace Always

theorem pure {a : α} (h : P a) : Always (Pure.pure a) P := fun _ => h

theorem bind (hx : Always x P) (hf : ∀ a, P a → Always (f a) Q) : Always (x >>= f) Q :=
  fun d => hf _ (hx d) _

theorem any : Always x fun _ => True := fun _ => trivial

theorem mono (hx : Always x P) (h : ∀ a, P a → P' a) : Always x P' := fun d => h _ (hx d)

/-- What is thrown for each item of a list has to do with that item. -/
theorem mapM {R : α → β → Prop} {l : List α} (h : ∀ a ∈ l, Always (f a) (R a)) :
    Always (l.mapM f) (List.Forall₂ R l) := by
  induction l with
  | nil => exact pure .nil
  | cons a l ih =>
    obtain ⟨ha, hl⟩ := List.forall_mem_cons.1 h
    rw [List.mapM_cons]
    exact ha.bind fun b hb => (ih hl).bind fun bs hbs => pure (.cons hb hbs)

end Always

theorem always_throwBelow {sides : Nat} (h : 0 < sides) : Always (throwBelow sides) (· < sides) :=
  throwBelow_lt h

/-- Where something stands between each two items, a list of such things stands between the
lists. -/
theorem exists_between {R : α → γ → Prop} {S : γ → β → Prop} {l : List α} {bs : List β}
    (h : List.Forall₂ (fun a b => ∃ c, R a c ∧ S c b) l bs) :
    ∃ cs, List.Forall₂ R l cs ∧ List.Forall₂ S cs bs := by
  induction h with
  | nil => exact ⟨[], .nil, .nil⟩
  | cons hab _ ih =>
    obtain ⟨c, hac, hcb⟩ := hab
    obtain ⟨cs, hR, hS⟩ := ih
    exact ⟨c :: cs, .cons hac hR, .cons hcb hS⟩

end CampaignRouting.Dice
