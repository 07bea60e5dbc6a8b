import AccessHistory.Json.Value

/-!
The tokens of JSON documents. Reading a token leaves a shorter text, so that a document is cut into
tokens in one pass.
-/

set_option autoImplicit false
set_option relaxedAutoImplicit false

namespace AccessHistory.Json

/-- A token: a mark, or a value without parts. Strings stand apart because they may be names. -/
inductive Token where
  | openArray
  | closeArray
  | openObject
  | closeObject
  | comma
  | colon
  | scalar (v : Value)
  | string (text : Text)
  deriving Inhabited

namespace Token

def isBlank (c : Char) : Bool := c == ' ' || c == '\t' || c == '\n' || c == '\r'

/-! ### Numbers -/

def ofDigits (digits : List Char) : Nat :=
  digits.foldl (fun n c => 10 * n + (c.toNat - '0'.toNat)) 0

def readDigits (s : List Char) : Option (List Char × List Char) :=
  if (s.takeWhile Char.isDigit).isEmpty then none
  else some (s.takeWhile Char.isDigit, s.dropWhile Char.isDigit)

/-- Digits before the point have no zero before others. -/
def isWholePart (digits : List Char) : Bool := digits.length == 1 || digits.head? != some '0'

def readFraction (s : List Char) : Option (Option (List Char) × List Char) :=
  match s with
  | '.' :: r => (readDigits r).map fun (digits, r) => (some digits, r)
  | _ => some (none, s)

def readPower (s : List Char) : Option (Int × List Char) :=
  match s with
  | '-' :: r => (readDigits r).map fun (digits, r) => (-(ofDigits digits : Int), r)
  | '+' :: r => (readDigits r).map fun (digits, r) => ((ofDigits digits : Int), r)
  | _ => (readDigits s).map fun (digits, r) => ((ofDigits digits : Int), r)

def readExponent (s : List Char) : Option (Option Int × List Char) :=
  match s with
  | 'e' :: r => (readPower r).map fun (power, r) => (some power, r)
  | 'E' :: r => (readPower r).map fun (power, r) => (some power, r)
  | _ => some (none, s)

def numberOf (negative : Bool) (whole : List Char) (fraction : Option (List Char))
    (exponent : Option Int) : Number :=
  let places := fraction.getD []
  { negative
    decimal := ⟨ofDigits (whole ++ places), exponent.getD 0 - places.length⟩
    isInteger := fraction.isNone && exponent.isNone }

def readUnsigned (negative : Bool) (s : List Char) : Option (Number × List Char) :=
  (readDigits s).bind fun (whole, r) =>
    if isWholePart whole then
      (readFraction r).bind fun (fraction, r) =>
        (readExponent r).map fun (exponent, r) => (numberOf negative whole fraction exponent, r)
    else none

/-! ### Strings -/

/-- A piece of a string: a character, or a code unit that was escaped by number. -/
inductive Piece where
  | char (c : Char)
  | unit (code : Nat)

def hexDigit? (c : Char) : Option Nat :=
  if c.isDigit then some (c.toNat - '0'.toNat)
  else if 'a' ≤ c ∧ c ≤ 'f' then some (c.toNat - 'a'.toNat + 10)
  else if 'A' ≤ c ∧ c ≤ 'F' then some (c.toNat - 'A'.toNat + 10)
  else none

def unitOf? (a b c d : Char) : Option Nat := do
  let a ← hexDigit? a
  let b ← hexDigit? b
  let c ← hexDigit? c
  let d ← hexDigit? d
  some (((a * 16 + b) * 16 + c) * 16 + d)

/-- The character behind a backslash that stands for one character. -/
def unescape? (c : Char) : Option Char :=
  match c with
  | '"' => some '"'
  | '\\' => some '\\'
  | '/' => some '/'
  | 'b' => some '\x08'
  | 'f' => some '\x0c'
  | 'n' => some '\n'
  | 'r' => some '\r'
  | 't' => some '\t'
  | _ => none

/-- The pieces of a string up to its closing quotation mark, and what follows that. -/
def readPieces : List Char → Option (List Piece × List Char)
  | [] => none
  | '"' :: r => some ([], r)
  | '\\' :: 'u' :: a :: b :: c :: d :: r =>
    match unitOf? a b c d, readPieces r with
    | some code, some (pieces, r) => some (.unit code :: pieces, r)
    | _, _ => none
  | '\\' :: e :: r =>
    match unescape? e, readPieces r with
    | some c, some (pieces, r) => some (.char c :: pieces, r)
    | _, _ => none
  | c :: r =>
    if c == '\\' || c.toNat < 0x20 then none
    else
      match readPieces r with
      | some (pieces, r) => some (.char c :: pieces, r)
      | none => none

def IsHigh (code : Nat) : Prop := 0xd800 ≤ code ∧ code < 0xdc00

def IsLow (code : Nat) : Prop := 0xdc00 ≤ code ∧ code < 0xe000

instance (code : Nat) : Decidable (IsHigh code) := inferInstanceAs (Decidable (_ ∧ _))
instance (code : Nat) : Decidable (IsLow code) := inferInstanceAs (Decidable (_ ∧ _))

/-- The characters of pieces. Halves of a pair must be adjacent, the high one first. -/
def joinPieces : List Piece → Option (List Char)
  | [] => some []
  | .char c :: r => (joinPieces r).map (c :: ·)
  | .unit code :: .unit code' :: r =>
    if IsHigh code then
      if IsLow code' then
        (joinPieces r).map (Char.ofNat (0x10000 + (code - 0xd800) * 0x400 + (code' - 0xdc00)) :: ·)
      else none
    else if IsLow code then none
    else (joinPieces (.unit code' :: r)).map (Char.ofNat code :: ·)
  | .unit code :: r =>
    if IsHigh code ∨ IsLow code then none
    else (joinPieces r).map (Char.ofNat code :: ·)

def textOf (pieces : List Piece) : Text := (joinPieces pieces).map String.ofList

/-! ### Tokens -/

def strip? (word : List Char) (s : List Char) : Option (List Char) :=
  if word.isPrefixOf s then some (s.drop word.length) else none

/-- The token that starts with a character, and what follows it. -/
def next? (c : Char) (r : List Char) : Option (Token × List Char) :=
  match c with
  | '[' => some (.openArray, r)
  | ']' => some (.closeArray, r)
  | '{' => some (.openObject, r)
  | '}' => some (.closeObject, r)
  | ',' => some (.comma, r)
  | ':' => some (.colon, r)
  | '"' => (readPieces r).map fun (pieces, r) => (.string (textOf pieces), r)
  | 'n' => (strip? "ull".toList r).map fun r => (.scalar .null, r)
  | 't' => (strip? "rue".toList r).map fun r => (.scalar (.bool true), r)
  | 'f' => (strip? "alse".toList r).map fun r => (.scalar (.bool false), r)
  | '-' => (readUnsigned true r).map fun (n, r) => (.scalar (.number n), r)
  | c => (readUnsigned false (c :: r)).map fun (n, r) => (.scalar (.number n), r)

/-! ### Nothing is read twice -/

theorem length_readDigits {s r digits : List Char} (h : readDigits s = some (digits, r)) :
    r.length < s.length := by
  unfold readDigits at h
  split at h
  · cases h
  · next hd =>
    cases h
    have hl := congrArg List.length (List.takeWhile_append_dropWhile (p := Char.isDigit) (l := s))
    rw [List.length_append] at hl
    have : 0 < (s.takeWhile Char.isDigit).length :=
      List.length_pos_iff.mpr fun hn => hd (by rw [hn]; rfl)
    omega

theorem length_readFraction {s r : List Char} {fraction : Option (List Char)}
    (h : readFraction s = some (fraction, r)) : r.length ≤ s.length := by
  unfold readFraction at h
  split at h
  · obtain ⟨x, hx, he⟩ := Option.map_eq_some_iff.mp h
    cases he
    exact Nat.le_succ_of_le (Nat.le_of_lt (length_readDigits hx))
  · cases h
    exact Nat.le_refl _

theorem length_readPower {s r : List Char} {power : Int} (h : readPower s = some (power, r)) :
    r.length ≤ s.length := by
  unfold readPower at h
  split at h
  all_goals
    obtain ⟨x, hx, he⟩ := Option.map_eq_some_iff.mp h
    cases he
    have := length_readDigits hx
    grind

theorem length_readExponent {s r : List Char} {exponent : Option Int}
    (h : readExponent s = some (exponent, r)) : r.length ≤ s.length := by
  unfold readExponent at h
  split at h
  · obtain ⟨x, hx, he⟩ := Option.map_eq_some_iff.mp h
    cases he
    exact Nat.le_succ_of_le (length_readPower hx)
  · obtain ⟨x, hx, he⟩ := Option.map_eq_some_iff.mp h
    cases he
    exact Nat.le_succ_of_le (length_readPower hx)
  · cases h
    exact Nat.le_refl _

theorem length_readUnsigned {negative : Bool} {s r : List Char} {n : Number}
    (h : readUnsigned negative s = some (n, r)) : r.length < s.length := by
  obtain ⟨⟨whole, r₁⟩, hw, h⟩ := Option.bind_eq_some_iff.mp h
  dsimp only at h
  split at h
  · obtain ⟨⟨fraction, r₂⟩, hf, h⟩ := Option.bind_eq_some_iff.mp h
    obtain ⟨⟨exponent, r₃⟩, he, h⟩ := Option.map_eq_some_iff.mp h
    cases h
    have h₁ := length_readDigits hw
    have h₂ := length_readFraction hf
    have h₃ := length_readExponent he
    dsimp only at h₂ h₃ ⊢
    omega
  · cases h

theorem length_readPieces {s r : List Char} {pieces : List Piece}
    (h : readPieces s = some (pieces, r)) : r.length < s.length := by
  fun_induction readPieces s generalizing pieces r with
  | case1 => cases h
  | case2 => cases h; exact Nat.lt_succ_self _
  | case3 =>
    rename_i ih
    cases h
    have := ih ‹_›
    simp only [List.length_cons]
    omega
  | case4 => cases h
  | case5 =>
    rename_i ih
    cases h
    have := ih ‹_›
    simp only [List.length_cons]
    omega
  | case6 => cases h
  | case7 => cases h
  | case8 =>
    rename_i ih
    cases h
    have := ih ‹_›
    simp only [List.length_cons]
    omega
  | case9 => cases h

theorem length_strip {word s r : List Char} (h : strip? word s = some r) :
    r.length ≤ s.length := by
  unfold strip? at h
  split at h
  · cases h
    simp
  · cases h

/-- What follows a token is no longer than what followed its first character. -/
theorem length_next {c : Char} {r rest : List Char} {t : Token} (h : next? c r = some (t, rest)) :
    rest.length ≤ r.length := by
  unfold next? at h
  split at h
  all_goals first
    | cases h; exact Nat.le_refl _
    | obtain ⟨x, hx, he⟩ := Option.map_eq_some_iff.mp h
      cases he
      first
        | exact Nat.le_of_lt (length_readPieces hx)
        | exact length_strip hx
        | exact Nat.le_of_lt (length_readUnsigned hx)
        | exact Nat.lt_succ_iff.mp (length_readUnsigned hx)

end Token

def tokens? (s : List Char) : Option (List Token) :=
  match s with
  | [] => some []
  | c :: r =>
    if Token.isBlank c then tokens? r
    else
      match _h : Token.next? c r with
      | none => none
      | some (t, rest) => (tokens? rest).map (t :: ·)
termination_by s.length
decreasing_by
  · simp
  · have := Token.length_next ‹_›
    simp only [List.length_cons]
    omega

end AccessHistory.Json
