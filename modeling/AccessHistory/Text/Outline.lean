import AccessHistory.Text.Quoted

/-!
Outlines: the parts of a value, by name, for a reader who looks into it. An outline is a small
tree, and its text form is one line.
-/

set_option autoImplicit false
set_option relaxedAutoImplicit false

namespace AccessHistory.Text

inductive Outline where
  | word (text : String)
  | quoted (text : String)
  | list (items : List Outline)
  | tagged (name : String) (part : Outline)
  | record (name : String) (parts : List (String × Outline))

namespace Outline

def ofNat (n : Nat) : Outline := .word (toString n)

def ofBool (b : Bool) : Outline := .word (if b then "true" else "false")

/-- Writes texts one after the other, with a comma between two. -/
def commaSeparated (texts : List String) : String := ", ".intercalate texts

mutual

def render : Outline → String
  | .word text => text
  | .quoted text => quote text
  | .list items => "[" ++ commaSeparated (renderItems items) ++ "]"
  | .tagged name part => name ++ "(" ++ render part ++ ")"
  | .record name parts => name ++ " \x7b " ++ commaSeparated (renderParts parts) ++ " \x7d"

def renderItems : List Outline → List String
  | [] => []
  | item :: items => render item :: renderItems items

def renderParts : List (String × Outline) → List String
  | [] => []
  | (name, part) :: parts => (name ++ ": " ++ render part) :: renderParts parts

end

end Outline

end AccessHistory.Text
