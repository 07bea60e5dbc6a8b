import AccessHistory.Failure
import AccessHistory.Number.Word

/-!
Calculations with words and places in arrays that stop at the first step without a result: a sum
or a product past the largest word, a difference below zero, a division by zero, a place outside
the array. Each step that has a result comes to what the plain calculation comes to.
-/

set_option autoImplicit false
set_option relaxedAutoImplicit false

namespace AccessHistory

open Number (maxWord)

/-- Why a calculation stops. -/
inductive Trap where
  | overflow
  | underflow
  | outOfRange (index size : Nat)
  | fault (f : Fault)
  deriving DecidableEq

namespace Checked

variable {α β σ ε : Type}

@[simp]
theorem bind_ok (a : α) (f : α → Except ε β) : (Except.ok a >>= f) = f a := rfl

/-! ### Words -/

def add (a b : Nat) : Except Trap Nat := if a + b ≤ maxWord then .ok (a + b) else .error .overflow

def sub (a b : Nat) : Except Trap Nat := if b ≤ a then .ok (a - b) else .error .underflow

def mul (a b : Nat) : Except Trap Nat := if a * b ≤ maxWord then .ok (a * b) else .error .overflow

def div (a b : Nat) : Except Trap Nat :=
  if b = 0 then .error (.fault .zeroDivisor) else .ok (a / b)

def mod (a b : Nat) : Except Trap Nat :=
  if b = 0 then .error (.fault .zeroDivisor) else .ok (a % b)

/-- The distance of a shift, which must be less than a word is long. -/
def shift (i : Nat) : Except Trap Nat := if i < 64 then .ok i else .error .overflow

theorem add_eq {a b : Nat} (h : a + b ≤ maxWord) : add a b = .ok (a + b) := if_pos h

theorem sub_eq {a b : Nat} (h : b ≤ a) : sub a b = .ok (a - b) := if_pos h

theorem mul_eq {a b : Nat} (h : a * b ≤ maxWord) : mul a b = .ok (a * b) := if_pos h

theorem div_eq (a : Nat) {b : Nat} (h : 0 < b) : div a b = .ok (a / b) :=
  if_neg (Nat.pos_iff_ne_zero.mp h)

theorem mod_eq (a : Nat) {b : Nat} (h : 0 < b) : mod a b = .ok (a % b) :=
  if_neg (Nat.pos_iff_ne_zero.mp h)

theorem shift_eq {i : Nat} (h : i < 64) : shift i = .ok i := if_pos h

/-! ### Arrays -/

/-- A place in an array of this size. -/
def index (i size : Nat) : Except Trap (Fin size) :=
  if h : i < size then .ok ⟨i, h⟩ else .error (.outOfRange i size)

/-- Reads an entry of an array of fixed size. -/
def read {n : Nat} (xs : Vector α n) (i : Nat) : Except Trap α := do
  let i ← index i n
  .ok xs[i]

/-- Changes an entry of an array of fixed size. -/
def update {n : Nat} (xs : Vector α n) (i : Nat) (f : α → Except Trap α) :
    Except Trap (Vector α n) := do
  let i ← index i n
  let x ← f xs[i]
  .ok (xs.set i x)

theorem index_eq {i size : Nat} (h : i < size) : index i size = .ok ⟨i, h⟩ := dif_pos h

theorem read_eq {n : Nat} (xs : Vector α n) {i : Nat} (h : i < n) : read xs i = .ok xs[i] := by
  unfold read
  rw [index_eq h, bind_ok]
  rfl

theorem update_eq {n : Nat} (xs : Vector α n) {i : Nat} (h : i < n) {f : α → Except Trap α}
    {g : α → α} (changed : f xs[i] = .ok (g xs[i])) :
    ∃ ys, update xs i f = .ok ys ∧ ys.toArray = xs.toArray.modify i g := by
  have entry : (xs.set i (g xs[i])).toArray = xs.toArray.modify i g := by
    apply Array.ext_getElem?
    intro j
    have inside : i < xs.toArray.size := by rwa [xs.size_toArray]
    rw [Array.getElem?_modify, Vector.toArray_set, Array.getElem?_set]
    split
    · next here =>
      subst here
      rw [Array.getElem?_eq_getElem inside]
      rfl
    · rfl
  unfold update
  refine ⟨xs.set i (g xs[i]), ?_, entry⟩
  rw [index_eq h, bind_ok]
  change (f xs[i] >>= _) = _
  rw [changed, bind_ok]

/-! ### Loops -/

theorem mapM_eq {f : α → Except ε β} {g : α → β} {l : List α} (h : ∀ a ∈ l, f a = .ok (g a)) :
    l.mapM f = .ok (l.map g) := by
  induction l with
  | nil => rfl
  | cons a l ih =>
    have first := h a List.mem_cons_self
    have later := ih fun b member => h b (List.mem_cons_of_mem a member)
    rw [List.mapM_cons, first, later]
    rfl

theorem allM_eq {f : α → Except ε Bool} {g : α → Bool} {l : List α}
    (h : ∀ a ∈ l, f a = .ok (g a)) : l.allM f = .ok (l.all g) := by
  induction l with
  | nil => rfl
  | cons a l ih =>
    have first := h a List.mem_cons_self
    have later := ih fun b member => h b (List.mem_cons_of_mem a member)
    unfold List.allM
    rw [first, List.all_cons]
    cases g a with
    | false => rfl
    | true => exact later

/-- A loop whose steps all have a result, thanks to what it keeps true of its state and of what
is still to come. -/
theorem foldlM_eq {f : σ → α → Except ε σ} {g : σ → α → σ} (Keeps : σ → List α → Prop)
    (step : ∀ s a l, Keeps s (a :: l) → f s a = .ok (g s a) ∧ Keeps (g s a) l) {s : σ} {l : List α}
    (h : Keeps s l) : l.foldlM f s = .ok (l.foldl g s) := by
  induction l generalizing s with
  | nil => rfl
  | cons a l ih =>
    obtain ⟨stepped, kept⟩ := step s a l h
    rw [List.foldlM_cons, stepped]
    exact ih kept

/-- The sum of what is calculated for each entry of a list. -/
def total (f : α → Except Trap Nat) (l : List α) : Except Trap Nat :=
  l.foldlM (fun n a => do let m ← f a; add n m) 0

theorem le_foldl_add (g : α → Nat) (l : List α) (n : Nat) :
    n ≤ l.foldl (fun n a => n + g a) n := by
  induction l generalizing n with
  | nil => exact Nat.le_refl n
  | cons a l ih => exact Nat.le_trans (Nat.le_add_right n (g a)) (ih (n + g a))

theorem total_eq {f : α → Except Trap Nat} {g : α → Nat} {l : List α}
    (h : ∀ a ∈ l, f a = .ok (g a)) (fits : l.foldl (fun n a => n + g a) 0 ≤ maxWord) :
    total f l = .ok (l.foldl (fun n a => n + g a) 0) := by
  refine foldlM_eq (fun n l => (∀ a ∈ l, f a = .ok (g a)) ∧
    l.foldl (fun n a => n + g a) n ≤ maxWord) ?_ ⟨h, fits⟩
  rintro n a l ⟨each, kept⟩
  have so_far : n + g a ≤ maxWord := Nat.le_trans (le_foldl_add g l (n + g a)) kept
  rw [each a List.mem_cons_self, bind_ok, add_eq so_far]
  exact ⟨rfl, fun b member => each b (List.mem_cons_of_mem a member), kept⟩

end Checked

end AccessHistory
