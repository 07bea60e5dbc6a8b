import AccessHistory.Json.Reader
import AccessHistory.Proofs.NumberTexts
import Mathlib

/-!
Documents that were written are read back. The text of a value is cut into the tokens of the value,
whatever follows it; and reading these tokens leaves the value complete, whatever container it is in.
-/

set_option autoImplicit false
set_option relaxedAutoImplicit false

namespace AccessHistory.Json

open Token

variable {r : List Char}

/-! ### Strings -/

/-- Controls without a short form are escaped by four digits. -/
theorem unitDigits_of_control : ∀ code : Fin 32,
    unitDigits code = ['0', '0', (code.val / 16).digitChar, (code.val % 16).digitChar] ∧
      unitOf? '0' '0' (code.val / 16).digitChar (code.val % 16).digitChar = some code.val := by
  decide +kernel

theorem readPieces_unit {code : Nat} (control : code < 32) (r : List Char) :
    readPieces ('\\' :: 'u' :: (unitDigits code ++ r)) =
      (readPieces r).map fun (pieces, r) => (.unit code :: pieces, r) := by
  obtain ⟨digits, read⟩ := unitDigits_of_control ⟨code, control⟩
  simp only at digits read
  rw [digits]
  simp only [List.cons_append, List.nil_append, readPieces, read]
  cases readPieces r <;> rfl

theorem readPieces_escaped {e c : Char} (h : unescape? e = some c) (r : List Char) :
    readPieces ('\\' :: e :: r) =
      (readPieces r).map fun (pieces, r) => (.char c :: pieces, r) := by
  rw [readPieces, h]
  · cases readPieces r <;> rfl
  · rintro a b c d rest rfl -
    cases h

theorem readPieces_plain {c : Char} (quote : c ≠ '"') (backslash : c ≠ '\\')
    (visible : ¬ c.toNat < 0x20) (r : List Char) :
    readPieces (c :: r) = (readPieces r).map fun (pieces, r) => (.char c :: pieces, r) := by
  rw [readPieces, if_neg (by simp [backslash, visible])]
  · cases readPieces r <;> rfl
  · exact quote
  · rintro a b c d rest rfl
    exact absurd rfl backslash
  · rintro e rest rfl
    exact absurd rfl backslash

theorem joinPieces_unit {code : Nat} (low : code < 0xd800) (pieces : List Piece) :
    joinPieces (.unit code :: pieces) = (joinPieces pieces).map (Char.ofNat code :: ·) := by
  have not_high : ¬ IsHigh code := fun h => by have := h.1; omega
  have not_low : ¬ IsLow code := fun h => by have := h.1; omega
  cases pieces with
  | nil => simp [joinPieces, not_high, not_low]
  | cons piece pieces => cases piece <;> simp [joinPieces, not_high, not_low]

/-- Each character of a string is written so that it is read as one piece, which stands for it. -/
theorem exists_piece (c : Char) : ∃ piece,
    (∀ r, readPieces (escape c ++ r) =
      (readPieces r).map fun (pieces, r) => (piece :: pieces, r)) ∧
    ∀ pieces, joinPieces (piece :: pieces) = (joinPieces pieces).map (c :: ·) := by
  unfold escape
  split
  case h_8 quote backslash _ _ _ _ _ =>
    split
    · next control =>
      refine ⟨.unit c.toNat, readPieces_unit control, fun pieces => ?_⟩
      rw [joinPieces_unit (by omega), Char.ofNat_toNat]
    · next visible =>
      exact ⟨.char c, readPieces_plain quote backslash visible, fun pieces => rfl⟩
  all_goals exact ⟨.char _, readPieces_escaped rfl, fun pieces => rfl⟩

theorem exists_pieces (s : List Char) : ∃ pieces,
    (∀ r, readPieces (s.flatMap escape ++ '"' :: r) = some (pieces, r)) ∧
      joinPieces pieces = some s := by
  induction s with
  | nil => exact ⟨[], fun r => by rw [List.flatMap_nil, List.nil_append, readPieces], rfl⟩
  | cons c s ih =>
    obtain ⟨pieces, read, join⟩ := ih
    obtain ⟨piece, read_one, join_one⟩ := exists_piece c
    refine ⟨piece :: pieces, fun r => ?_, ?_⟩
    · rw [List.flatMap_cons, List.append_assoc, read_one, read, Option.map_some]
    · rw [join_one, join, Option.map_some]

/-! ### Tokens -/

theorem tokens?_of_next {c : Char} {rest : List Char} {t : Token} (visible : isBlank c = false)
    (h : next? c r = some (t, rest)) : tokens? (c :: r) = (tokens? rest).map (t :: ·) := by
  rw [tokens?, if_neg (by simp [visible])]
  split
  · next missed =>
    rw [missed] at h
    cases h
  · next found =>
    rw [found] at h
    cases h
    rfl

theorem tokens?_renderText (s : String) (r : List Char) :
    tokens? ((renderText (some s)).toList ++ r) = (tokens? r).map (.string (some s) :: ·) := by
  obtain ⟨pieces, read, join⟩ := exists_pieces s.toList
  rw [renderText, String.toList_ofList, List.cons_append, List.append_assoc]
  refine tokens?_of_next rfl ?_
  rw [next?, List.singleton_append, Option.getD_some, read]
  simp only [Option.map_some, textOf, join, String.ofList_toList]

theorem isBlank_of_digit {c : Char} (h : c.isDigit = true) : isBlank c = false := by
  simp only [isBlank, Bool.or_eq_false_iff, beq_eq_false_iff_ne]
  refine ⟨⟨⟨?_, ?_⟩, ?_⟩, ?_⟩ <;>
    rintro rfl <;> cases h

theorem next?_of_digit {c : Char} (h : c.isDigit = true) :
    next? c r = (readUnsigned false (c :: r)).map fun (n, r) => (.scalar (.number n), r) := by
  unfold next?
  split <;> first | rfl | cases h

theorem tokens?_renderNumber {n : Number} (writable : n.IsWritable) (ends : EndsNumber r) :
    tokens? (n.render.toList ++ r) = (tokens? r).map (.scalar (.number n.reread) :: ·) := by
  have valid := Number.isValid_literal writable
  have read := readUnsigned_text valid ends n.negative
  rw [Number.number_literal writable] at read
  rw [Number.toList_render, Number.signText, List.append_assoc]
  cases sign : n.negative with
  | true =>
    rw [sign] at read
    refine tokens?_of_next rfl ?_
    change next? '-' (n.literal.text ++ r) = _
    rw [next?, read]
    rfl
  | false =>
    rw [sign] at read
    obtain ⟨c, whole, start⟩ := List.exists_cons_of_ne_nil valid.whole.some_digit
    have digit := valid.whole.all c (start ▸ List.mem_cons_self)
    rw [Literal.text, start, List.cons_append, List.cons_append] at read
    rw [if_neg Bool.false_ne_true, List.nil_append, Literal.text, start, List.cons_append,
      List.cons_append]
    refine tokens?_of_next (isBlank_of_digit digit) ?_
    rw [next?_of_digit digit, read]
    rfl

/-! ### Values -/

namespace Value

mutual

/-- The tokens that a value is written as. -/
def tokens : Value → List Token
  | .null => [.scalar .null]
  | .bool b => [.scalar (.bool b)]
  | .number n => [.scalar (.number n.reread)]
  | .string text => [.string text]
  | .array items => .openArray :: (itemTokens items ++ [.closeArray])
  | .object members => .openObject :: (memberTokens members ++ [.closeObject])

def itemTokens : List Value → List Token
  | [] => []
  | [v] => tokens v
  | v :: w :: items => tokens v ++ .comma :: itemTokens (w :: items)

def memberTokens : List (Text × Value) → List Token
  | [] => []
  | [(key, v)] => .string key :: .colon :: tokens v
  | (key, v) :: next :: members =>
    .string key :: .colon :: (tokens v ++ .comma :: memberTokens (next :: members))

end

mutual

/-- Strings have a text, and numbers a form that is read. -/
def IsWritable : Value → Prop
  | .number n => n.IsWritable
  | .string text => text.isSome
  | .array items => AreWritable items
  | .object members => MembersWritable members
  | _ => True

def AreWritable : List Value → Prop
  | [] => True
  | v :: items => IsWritable v ∧ AreWritable items

def MembersWritable : List (Text × Value) → Prop
  | [] => True
  | (key, v) :: members => key.isSome ∧ IsWritable v ∧ MembersWritable members

end

mutual

/-- The value with its numbers as they are read. -/
def reread : Value → Value
  | .number n => .number n.reread
  | .array items => .array (rereadItems items)
  | .object members => .object (rereadMembers members)
  | v => v

def rereadItems : List Value → List Value
  | [] => []
  | v :: items => reread v :: rereadItems items

def rereadMembers : List (Text × Value) → List (Text × Value)
  | [] => []
  | (key, v) :: members => (key, reread v) :: rereadMembers members

end

theorem membersWritable_iff {members : List (Text × Value)} : MembersWritable members ↔
    ∀ member ∈ members, member.1.isSome ∧ member.2.IsWritable := by
  induction members with
  | nil => simp [MembersWritable]
  | cons member members ih =>
    rw [MembersWritable, ih, List.forall_mem_cons, and_assoc]

theorem rereadMembers_eq_map (members : List (Text × Value)) :
    rereadMembers members = members.map fun member => (member.1, member.2.reread) := by
  induction members with
  | nil => rfl
  | cons member members ih => rw [rereadMembers, ih, List.map_cons]

end Value

/-- What follows a value neither belongs to it nor is read with it. -/
theorem endsNumber_cons {c : Char} (h : c = ',' ∨ c = ']' ∨ c = '}') (r : List Char) :
    EndsNumber (c :: r) := by
  rintro _ ⟨⟩
  rcases h with rfl | rfl | rfl <;> decide

namespace Value

theorem tokens?_member {v : Value} (s : String)
    (read : tokens? (v.render.toList ++ r) = (tokens? r).map (v.tokens ++ ·)) :
    tokens? ((renderText (some s) ++ ":" ++ v.render).toList ++ r) =
      (tokens? r).map ((.string (some s) :: .colon :: v.tokens) ++ ·) := by
  rw [String.toList_append, String.toList_append, List.append_assoc, List.append_assoc,
    tokens?_renderText]
  change Option.map _ (tokens? (':' :: (_ ++ r))) = _
  rw [tokens?_of_next (t := .colon) rfl rfl, read]
  cases tokens? r <;> rfl

mutual

theorem tokens?_render {r : List Char} (v : Value) (writable : v.IsWritable) (ends : EndsNumber r) :
    tokens? (v.render.toList ++ r) = (tokens? r).map (v.tokens ++ ·) := by
  match v with
  | .null => exact tokens?_of_next rfl rfl
  | .bool b => cases b <;> exact tokens?_of_next rfl rfl
  | .number n => exact tokens?_renderNumber writable ends
  | .string text =>
    obtain ⟨s, rfl⟩ := Option.isSome_iff_exists.mp writable
    exact tokens?_renderText s r
  | .array items =>
    have inside := tokens?_renderItems items writable (endsNumber_cons (.inr (.inl rfl)) r)
    rw [render, String.toList_append, String.toList_append, List.append_assoc, List.append_assoc]
    refine (tokens?_of_next (t := .openArray) rfl rfl).trans ?_
    change Option.map _ (tokens? (_ ++ ']' :: r)) = _
    rw [inside, tokens?_of_next (t := .closeArray) rfl rfl]
    cases tokens? r <;> simp [tokens]
  | .object members =>
    have inside := tokens?_renderMembers members writable (endsNumber_cons (.inr (.inr rfl)) r)
    rw [render, String.toList_append, String.toList_append, List.append_assoc, List.append_assoc]
    refine (tokens?_of_next (t := .openObject) rfl rfl).trans ?_
    change Option.map _ (tokens? (_ ++ '}' :: r)) = _
    rw [inside, tokens?_of_next (t := .closeObject) rfl rfl]
    cases tokens? r <;> simp [tokens]

theorem tokens?_renderItems {r : List Char} (items : List Value) (writable : AreWritable items)
    (ends : EndsNumber r) :
    tokens? ((",".intercalate (renderItems items)).toList ++ r) =
      (tokens? r).map (itemTokens items ++ ·) := by
  match items with
  | [] => simp [renderItems, itemTokens]
  | [v] =>
    rw [renderItems, renderItems, String.intercalate_singleton, itemTokens]
    exact tokens?_render v writable.1 ends
  | v :: w :: items =>
    obtain ⟨first, others⟩ := writable
    have later := tokens?_renderItems (w :: items) others ends
    rw [renderItems] at later ⊢
    rw [renderItems, String.intercalate_cons_cons, String.toList_append, String.toList_append,
      List.append_assoc, List.append_assoc]
    refine (tokens?_render v first (endsNumber_cons (.inl rfl) _)).trans ?_
    change Option.map _ (tokens? (',' :: (_ ++ r))) = _
    rw [tokens?_of_next (t := .comma) rfl rfl, later]
    cases tokens? r <;> simp [itemTokens]

theorem tokens?_renderMembers {r : List Char} (members : List (Text × Value))
    (writable : MembersWritable members) (ends : EndsNumber r) :
    tokens? ((",".intercalate (renderMembers members)).toList ++ r) =
      (tokens? r).map (memberTokens members ++ ·) := by
  match members with
  | [] => simp [renderMembers, memberTokens]
  | [(key, v)] =>
    obtain ⟨s, rfl⟩ := Option.isSome_iff_exists.mp writable.1
    rw [renderMembers, renderMembers, String.intercalate_singleton, memberTokens]
    exact tokens?_member s (tokens?_render v writable.2.1 ends)
  | (key, v) :: (key', w) :: members =>
    obtain ⟨named, first, others⟩ := writable
    obtain ⟨s, rfl⟩ := Option.isSome_iff_exists.mp named
    have later := tokens?_renderMembers ((key', w) :: members) others ends
    rw [renderMembers] at later ⊢
    rw [renderMembers, String.intercalate_cons_cons, String.toList_append, String.toList_append,
      List.append_assoc, List.append_assoc]
    refine (tokens?_member s (tokens?_render v first (endsNumber_cons (.inl rfl) _))).trans ?_
    change Option.map _ (tokens? (',' :: (_ ++ r))) = _
    rw [tokens?_of_next (t := .comma) rfl rfl, later]
    cases tokens? r <;> simp [memberTokens]

end

/-! ### Reading tokens -/

/-- Where an array was opened, its first value is read as any other. -/
theorem foldlM_firstItem (v : Value) (items : List Value) (frames : List Frame) (ts : List Token) :
    (itemTokens (v :: items) ++ ts).foldlM Expectation.take (.firstItem frames) =
      (itemTokens (v :: items) ++ ts).foldlM Expectation.take (.value (.array [] :: frames)) := by
  cases items <;> cases v <;> rfl

theorem foldlM_firstName (member : Text × Value) (members : List (Text × Value))
    (frames : List Frame) (ts : List Token) :
    (memberTokens (member :: members) ++ ts).foldlM Expectation.take (.firstName frames) =
      (memberTokens (member :: members) ++ ts).foldlM Expectation.take (.name [] frames) := by
  cases members <;> rfl

mutual

theorem foldlM_tokens (v : Value) (frames : List Frame) (ts : List Token) :
    (v.tokens ++ ts).foldlM Expectation.take (.value frames) =
      ts.foldlM Expectation.take (.done v.reread frames) := by
  match v with
  | .null => rfl
  | .bool b => rfl
  | .number n => rfl
  | .string text => rfl
  | .array [] => rfl
  | .array (v :: items) =>
    change (itemTokens (v :: items) ++ [Token.closeArray] ++ ts).foldlM Expectation.take
      (.firstItem frames) = _
    rw [List.append_assoc, foldlM_firstItem]
    exact foldlM_itemTokens (v :: items) (List.cons_ne_nil v items) [] frames ts
  | .object [] => rfl
  | .object (member :: members) =>
    change (memberTokens (member :: members) ++ [Token.closeObject] ++ ts).foldlM Expectation.take
      (.firstName frames) = _
    rw [List.append_assoc, foldlM_firstName]
    exact foldlM_memberTokens (member :: members) (List.cons_ne_nil member members) [] frames ts

theorem foldlM_itemTokens (items : List Value) (some_item : items ≠ []) (before : List Value)
    (frames : List Frame) (ts : List Token) :
    (itemTokens items ++ .closeArray :: ts).foldlM Expectation.take
        (.value (.array before :: frames)) =
      ts.foldlM Expectation.take (.done (.array (before.reverse ++ rereadItems items)) frames) := by
  match items with
  | [v] =>
    rw [itemTokens, foldlM_tokens, rereadItems, rereadItems, ← List.reverse_cons]
    rfl
  | v :: w :: items =>
    have later := foldlM_itemTokens (w :: items) (List.cons_ne_nil w items) (v.reread :: before)
      frames ts
    rw [itemTokens, List.append_assoc, foldlM_tokens]
    refine later.trans ?_
    rw [List.reverse_cons, List.append_assoc]
    rfl

theorem foldlM_memberTokens (members : List (Text × Value)) (some_member : members ≠ [])
    (before : List (Text × Value)) (frames : List Frame) (ts : List Token) :
    (memberTokens members ++ .closeObject :: ts).foldlM Expectation.take (.name before frames) =
      ts.foldlM Expectation.take
        (.done (.object (before.reverse ++ rereadMembers members)) frames) := by
  match members with
  | [(key, v)] =>
    rw [memberTokens]
    refine (foldlM_tokens v (.object before key :: frames) _).trans ?_
    rw [rereadMembers, rereadMembers, ← List.reverse_cons]
    rfl
  | (key, v) :: next :: members =>
    have later := foldlM_memberTokens (next :: members) (List.cons_ne_nil next members)
      ((key, v.reread) :: before) frames ts
    rw [memberTokens, List.cons_append, List.cons_append, List.append_assoc]
    refine (foldlM_tokens v (.object before key :: frames) _).trans ?_
    refine later.trans ?_
    rw [List.reverse_cons, List.append_assoc]
    rfl

end

/-- A document that was written is read back, with its numbers in the form in which they are
read. -/
theorem parse?_render (v : Value) (writable : v.IsWritable) :
    Value.parse? v.render = some v.reread := by
  have cut := tokens?_render (r := []) v writable (by rintro c ⟨⟩)
  have taken := foldlM_tokens v [] []
  rw [List.append_nil] at cut taken
  rw [parse?, cut, tokens?, Option.map_some, List.append_nil, Option.bind_some, ofTokens?, taken]
  rfl

end Value

end AccessHistory.Json
