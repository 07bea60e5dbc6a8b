/-!
Histories of whatever can be recorded in and reset. A reset forgets what was recorded before it, so
that a history comes to the records since its last reset.
-/

set_option autoImplicit false
set_option relaxedAutoImplicit false

namespace AccessHistory

/-- What no step changes, a run does not change. -/
theorem foldl_keeps {σ α β : Type} (step : σ → α → σ) (read : σ → β)
    (h : ∀ s a, read (step s a) = read s) (s : σ) (l : List α) :
    read (l.foldl step s) = read s := by
  induction l generalizing s with
  | nil => rfl
  | cons a l ih => exact (ih (step s a)).trans (h s a)

/-- What changes a counter. -/
inductive Change where
  | record (hash : UInt64)
  | reset
  deriving DecidableEq

namespace Change

def isRecord : Change → Bool
  | record _ => true
  | reset => false

variable {σ : Type}

/-- The state after a change, for whatever can be recorded in and reset. -/
def apply (record : σ → UInt64 → σ) (reset : σ → σ) (s : σ) : Change → σ
  | .record hash => record s hash
  | .reset => reset s

/-- What stays recorded through a change. -/
def keep (recorded : List UInt64) : Change → List UInt64
  | record hash => recorded ++ [hash]
  | reset => []

end Change

/-- The hashes that were recorded since the last reset, in order. -/
def sinceReset (changes : List Change) : List UInt64 := changes.foldl Change.keep []

/-- Where a reset after any records leads back to the start, a history comes to what was recorded
since its last reset. -/
theorem foldl_apply_eq {σ : Type} {record : σ → UInt64 → σ} {reset : σ → σ} {start : σ}
    (forgets : ∀ recorded : List UInt64, reset (recorded.foldl record start) = start)
    (changes : List Change) :
    changes.foldl (Change.apply record reset) start = (sinceReset changes).foldl record start := by
  have onwards (recorded : List UInt64) :
      changes.foldl (Change.apply record reset) (recorded.foldl record start) =
        (changes.foldl Change.keep recorded).foldl record start := by
    induction changes generalizing recorded with
    | nil => rfl
    | cons c changes ih =>
      rw [List.foldl_cons, List.foldl_cons, ← ih (c.keep recorded)]
      cases c with
      | record hash =>
        show _ = changes.foldl _ ((recorded ++ [hash]).foldl record start)
        rw [List.foldl_append]
        rfl
      | reset =>
        show changes.foldl _ (reset _) = changes.foldl _ start
        rw [forgets]
  exact onwards []

end AccessHistory
