import AccessHistory.Decimal.Layout
import AccessHistory.Json.Value

/-!
Writing JSON documents, without blanks.
-/

set_option autoImplicit false
set_option relaxedAutoImplicit false

namespace AccessHistory.Json

/-- A number: an integer by its digits, any other in the layout of documents. -/
def Number.render (n : Number) : String :=
  if n.isInteger then (if n.negative then "-" else "") ++ toString n.decimal.digits
  else Decimal.Layout.document.writeDecimal n.negative n.decimal

def unitDigits (code : Nat) : List Char :=
  let digits := Nat.toDigits 16 code
  List.replicate (4 - digits.length) '0' ++ digits

/-- One character inside quotation marks: quotes, backslashes and controls are escaped. -/
def escape (c : Char) : List Char :=
  match c with
  | '"' => ['\\', '"']
  | '\\' => ['\\', '\\']
  | '\x08' => ['\\', 'b']
  | '\x0c' => ['\\', 'f']
  | '\n' => ['\\', 'n']
  | '\r' => ['\\', 'r']
  | '\t' => ['\\', 't']
  | c => if c.toNat < 0x20 then '\\' :: 'u' :: unitDigits c.toNat else [c]

/-- A string between quotation marks. A string without a text is written as the empty one. -/
def renderText (text : Text) : String :=
  String.ofList ('"' :: ((text.getD "").toList.flatMap escape ++ ['"']))

namespace Value

mutual

def render : Value → String
  | .null => "null"
  | .bool b => if b then "true" else "false"
  | .number n => n.render
  | .string text => renderText text
  | .array items => "[" ++ ",".intercalate (renderItems items) ++ "]"
  | .object members => "\x7b" ++ ",".intercalate (renderMembers members) ++ "\x7d"

def renderItems : List Value → List String
  | [] => []
  | v :: items => render v :: renderItems items

def renderMembers : List (Text × Value) → List String
  | [] => []
  | (key, v) :: members => (renderText key ++ ":" ++ render v) :: renderMembers members

end

end Value

end AccessHistory.Json
