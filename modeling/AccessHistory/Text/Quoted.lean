import AccessHistory.Text.Hidden

/-!
Quoted text: a text between quotation marks in which every character can be told apart by eye.
-/

set_option autoImplicit false
set_option relaxedAutoImplicit false

namespace AccessHistory.Text

/-- One character inside quotation marks: quotes, backslashes and the common controls behind a
backslash, other characters without a shape by their code point, and all else as it is. -/
def escape (c : Char) : List Char :=
  match c with
  | '"' => ['\\', '"']
  | '\\' => ['\\', '\\']
  | '\n' => ['\\', 'n']
  | '\t' => ['\\', 't']
  | '\r' => ['\\', 'r']
  | '\x00' => ['\\', '0']
  | c =>
    if isHidden c then '\\' :: 'u' :: '{' :: (Nat.toDigits 16 c.toNat ++ ['}'])
    else [c]

def quote (text : String) : String :=
  String.ofList ('"' :: (text.toList.flatMap escape ++ ['"']))

end AccessHistory.Text
