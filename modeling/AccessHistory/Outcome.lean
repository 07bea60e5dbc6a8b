import AccessHistory.Environment

/-!
What a request comes to: an answer, and the states that the request left behind.
-/

set_option autoImplicit false
set_option relaxedAutoImplicit false

namespace AccessHistory

/-- What a request is answered with. -/
inductive Answer where
  | done
  | index (i : Nat)
  /-- One number for each bucket, the most recent one first. -/
  | numbers (values : List Nat)
  deriving DecidableEq, Inhabited

/-- An answer, and what the request left behind. -/
structure Outcome (σ : Type) where
  answer : Answer
  state : σ
  env : Environment

end AccessHistory
