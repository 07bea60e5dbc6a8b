import AccessHistory.Json.Token

/-!
Reading JSON documents. Tokens are taken one at a time; the containers around the place being read
are held in a list of frames, the innermost first, so that documents of any depth are read in one
pass.
-/

set_option autoImplicit false
set_option relaxedAutoImplicit false

namespace AccessHistory.Json

/-- A container that is not yet closed, with what it holds so far, the last first. -/
inductive Frame where
  | array (items : List Value)
  /-- An object whose last name still waits for its value. -/
  | object (members : List (Text × Value)) (name : Text)

/-- What the tokens so far leave to be expected. -/
inductive Expectation where
  | value (frames : List Frame)
  /-- A value, or the end of the array that was just opened. -/
  | firstItem (frames : List Frame)
  /-- A name, or the end of the object that was just opened. -/
  | firstName (frames : List Frame)
  | name (members : List (Text × Value)) (frames : List Frame)
  /-- The colon after a name. -/
  | colon (members : List (Text × Value)) (name : Text) (frames : List Frame)
  /-- A comma or an end, after a complete value. -/
  | done (v : Value) (frames : List Frame)

namespace Expectation

/-- What a token leaves to be expected where a value may start. -/
def startValue (frames : List Frame) : Token → Option Expectation
  | .scalar v => some (.done v frames)
  | .string text => some (.done (.string text) frames)
  | .openArray => some (.firstItem frames)
  | .openObject => some (.firstName frames)
  | _ => none

/-- What a token leaves to be expected after a complete value. -/
def continueAfter (v : Value) : List Frame → Token → Option Expectation
  | .array items :: frames, .comma => some (.value (.array (v :: items) :: frames))
  | .array items :: frames, .closeArray => some (.done (.array (v :: items).reverse) frames)
  | .object members key :: frames, .comma => some (.name ((key, v) :: members) frames)
  | .object members key :: frames, .closeObject =>
    some (.done (.object ((key, v) :: members).reverse) frames)
  | _, _ => none

def take (e : Expectation) (t : Token) : Option Expectation :=
  match e, t with
  | .value frames, t => startValue frames t
  | .firstItem frames, .closeArray => some (.done (.array []) frames)
  | .firstItem frames, t => startValue (.array [] :: frames) t
  | .firstName frames, .closeObject => some (.done (.object []) frames)
  | .firstName frames, .string key => some (.colon [] key frames)
  | .name members frames, .string key => some (.colon members key frames)
  | .colon members key frames, .colon => some (.value (.object members key :: frames))
  | .done v frames, t => continueAfter v frames t
  | _, _ => none

def complete? : Expectation → Option Value
  | .done v [] => some v
  | _ => none

end Expectation

def Value.ofTokens? (ts : List Token) : Option Value :=
  (ts.foldlM Expectation.take (.value [])).bind Expectation.complete?

/-- The value that a text writes, with nothing but blanks around it. -/
def Value.parse? (text : String) : Option Value :=
  (tokens? text.toList).bind Value.ofTokens?

end AccessHistory.Json
