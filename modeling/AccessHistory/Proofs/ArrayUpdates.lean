import Mathlib.Algebra.GroupWithZero.Nat
import Mathlib.Algebra.Order.BigOperators.Group.List
import Mathlib.Algebra.Order.Group.Nat

/-!
Updates of one entry of an array or a list: two of them commute if their functions do, an update
goes through a map that turns its function into another one, and it moves a sum by what it moves the
entry.
-/

set_option autoImplicit false
set_option relaxedAutoImplicit false

namespace AccessHistory

theorem modify_comm {α : Type} (xs : Array α) {f g : α → α} (h : ∀ x, f (g x) = g (f x))
    (i j : Nat) : (xs.modify i f).modify j g = (xs.modify j g).modify i f := by
  apply Array.ext_getElem?
  intro k
  simp only [Array.getElem?_modify]
  by_cases hi : i = k <;> by_cases hj : j = k <;> simp [hi, hj, h, Function.comp_def]

theorem map_modify {α β : Type} (xs : Array α) {f : α → α} {g : β → β} {m : α → β}
    (h : ∀ x, m (f x) = g (m x)) (i : Nat) : (xs.modify i f).map m = (xs.map m).modify i g := by
  apply Array.ext_getElem?
  intro k
  simp only [Array.getElem?_modify, Array.getElem?_map]
  by_cases hi : i = k <;> simp [hi, h, Function.comp_def]

/-- An update is not seen through a map that its function does not change. -/
theorem map_modify_of_keeps {α β : Type} (xs : Array α) {f : α → α} {m : α → β}
    (h : ∀ x, m (f x) = m x) (i : Nat) : (xs.modify i f).map m = xs.map m := by
  rw [map_modify xs (g := id) h]
  apply Array.ext_getElem?
  intro k
  simp [Array.getElem?_modify]

/-- What an update adds to a sum is what it adds to the entry that it is about. -/
theorem sum_map_modify {α : Type} (l : List α) (g : α → Nat) (f : α → α) (i : Nat) :
    ((l.modify i f).map g).sum + (l[i]?.map g).getD 0 =
      (l.map g).sum + (l[i]?.map (g ∘ f)).getD 0 := by
  induction l generalizing i with
  | nil => simp
  | cons x l ih =>
    cases i with
    | zero =>
      simp only [List.modify_zero_cons, List.map_cons, List.sum_cons, List.getElem?_cons_zero,
        Option.map_some, Option.getD_some, Function.comp_apply]
      omega
    | succ i =>
      have rest := ih i
      simp only [List.modify_succ_cons, List.map_cons, List.sum_cons, List.getElem?_cons_succ]
      omega

end AccessHistory
