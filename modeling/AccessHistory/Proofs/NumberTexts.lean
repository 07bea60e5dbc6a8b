import AccessHistory.Json.Printer
import AccessHistory.Json.Token
import Mathlib

/-!
Numbers as they are written and read. The text of a number is its digits, a fraction and an exponent;
reading that text gives these parts back; and the parts that are written denote the number that was
meant, in another form only where a whole number is given a point.
-/

set_option autoImplicit false
set_option relaxedAutoImplicit false

namespace AccessHistory.Json

open Token
open Decimal (digitCount zeros)

/-! ### Digits -/

structure IsDigits (s : List Char) : Prop where
  some_digit : s ≠ []
  all : ∀ c ∈ s, c.isDigit = true

/-- What follows a number does not go on with it. -/
def EndsNumber (r : List Char) : Prop :=
  ∀ c ∈ r.head?, c.isDigit = false ∧ c ≠ '.' ∧ c ≠ 'e' ∧ c ≠ 'E'

variable {s r : List Char} {n : Nat}

theorem readDigits_append (digits : IsDigits s) (stop : ∀ c ∈ r.head?, c.isDigit = false) :
    readDigits (s ++ r) = some (s, r) := by
  have rest : r.takeWhile Char.isDigit = [] ∧ r.dropWhile Char.isDigit = r := by
    cases r with
    | nil => exact ⟨rfl, rfl⟩
    | cons c r =>
      have none_more := stop c rfl
      exact ⟨List.takeWhile_cons_of_neg (by simp [none_more]),
        List.dropWhile_cons_of_neg (by simp [none_more])⟩
  have taken : (s ++ r).takeWhile Char.isDigit = s := by
    rw [List.takeWhile_append_of_pos digits.all, rest.1, List.append_nil]
  have dropped : (s ++ r).dropWhile Char.isDigit = r := by
    rw [List.dropWhile_append_of_pos digits.all, rest.2]
  rw [readDigits, taken, dropped, if_neg]
  simpa using digits.some_digit

theorem isDigits_toDigits (n : Nat) : IsDigits (Nat.toDigits 10 n) :=
  ⟨Nat.toDigits_ne_nil, fun _ h => Nat.isDigit_of_mem_toDigits (by decide) (by decide) h⟩

theorem IsDigits.append {t : List Char} (hs : IsDigits s) (ht : ∀ c ∈ t, c.isDigit = true) :
    IsDigits (s ++ t) :=
  ⟨List.append_ne_nil_of_left_ne_nil hs.some_digit t, fun c h =>
    (List.mem_append.mp h).elim (hs.all c) (ht c)⟩

theorem IsDigits.take {k : Nat} (h : IsDigits s) (some_taken : 0 < k) : IsDigits (s.take k) where
  some_digit := by
    rw [Ne, List.take_eq_nil_iff]
    exact fun none_taken => none_taken.elim (Nat.ne_of_gt some_taken) h.some_digit
  all c mem := h.all c (List.mem_of_mem_take mem)

theorem IsDigits.drop {k : Nat} (h : IsDigits s) (some_left : k < s.length) :
    IsDigits (s.drop k) where
  some_digit := by
    rw [Ne, List.drop_eq_nil_iff]
    omega
  all c mem := h.all c (List.mem_of_mem_drop mem)

theorem isDigit_of_mem_zeros {c : Char} (h : c ∈ zeros n) : c.isDigit = true := by
  rw [List.eq_of_mem_replicate h]
  rfl

theorem ofDigits_eq (s : List Char) : ofDigits s = Nat.ofDigitChars 10 s 0 := rfl

theorem ofDigits_toDigits (n : Nat) : ofDigits (Nat.toDigits 10 n) = n :=
  Nat.ofDigitChars_ten_toDigits

theorem ofDigits_append_zeros (s : List Char) (k : Nat) :
    ofDigits (s ++ zeros k) = ofDigits s * 10 ^ k := by
  rw [ofDigits_eq, Nat.ofDigitChars_append, zeros, Nat.ofDigitChars_replicate_zero, Nat.mul_comm]
  rfl

theorem ofDigits_zeros_append (s : List Char) (k : Nat) : ofDigits (zeros k ++ s) = ofDigits s := by
  rw [ofDigits_eq, Nat.ofDigitChars_append, zeros, Nat.ofDigitChars_replicate_zero, Nat.mul_zero]
  rfl

/-- Only zero is written with a leading zero. -/
theorem head?_toDigits_ne (h : n ≠ 0) : (Nat.toDigits 10 n).head? ≠ some '0' := by
  induction n using Nat.strongRecOn with
  | ind n ih =>
    rcases Nat.lt_or_ge n 10 with short | long
    · rw [Nat.toDigits_of_lt_base short]
      simpa using h
    · rw [Nat.toDigits_of_base_le (by decide) long, List.head?_append_of_ne_nil _ Nat.toDigits_ne_nil]
      exact ih (n / 10) (by omega) (by omega)

theorem isWholePart_of_head? (h : s.head? ≠ some '0') : isWholePart s = true := by
  rw [isWholePart, bne_iff_ne.mpr h, Bool.or_true]

theorem isWholePart_take {k : Nat} (plain : isWholePart s = true) (some_taken : 0 < k) :
    isWholePart (s.take k) = true := by
  rw [isWholePart, Bool.or_eq_true, beq_iff_eq, bne_iff_ne] at plain ⊢
  obtain ⟨k, rfl⟩ := Nat.exists_eq_succ_of_ne_zero (Nat.ne_of_gt some_taken)
  cases s with
  | nil => exact plain
  | cons c s =>
    refine plain.imp_left fun single => ?_
    obtain rfl := List.eq_nil_of_length_eq_zero (Nat.succ.inj single)
    simp

theorem isWholePart_toDigits (n : Nat) : isWholePart (Nat.toDigits 10 n) = true := by
  by_cases zero : n = 0
  · rw [zero]
    rfl
  · exact isWholePart_of_head? (head?_toDigits_ne zero)

/-! ### Literals -/

/-- The parts of a number's text after its sign. -/
structure Literal where
  whole : List Char
  fraction : Option (List Char) := none
  power : Option Int := none

namespace Literal

def text (l : Literal) : List Char :=
  l.whole ++ (l.fraction.elim [] ('.' :: ·) ++ l.power.elim [] fun p => 'e' :: (toString p).toList)

structure IsValid (l : Literal) : Prop where
  whole : IsDigits l.whole
  plain : isWholePart l.whole = true
  fraction : ∀ places ∈ l.fraction, IsDigits places

def number (l : Literal) (negative : Bool) : Number := numberOf negative l.whole l.fraction l.power

end Literal

theorem readPower_of_digit {c : Char} (h : c.isDigit = true) :
    readPower (c :: s) =
      (readDigits (c :: s)).map fun (digits, r) => ((ofDigits digits : Int), r) := by
  unfold readPower
  split
  · next same =>
    cases same
    cases h
  · next same =>
    cases same
    cases h
  · rfl

theorem readPower_toString (power : Int) (stop : ∀ c ∈ r.head?, c.isDigit = false) :
    readPower ((toString power).toList ++ r) = some (power, r) := by
  cases power with
  | ofNat k =>
    have digits : (toString (Int.ofNat k)).toList = Nat.toDigits 10 k := Nat.toList_repr
    have read := readDigits_append (isDigits_toDigits k) stop
    rw [digits]
    obtain ⟨c, rest, start⟩ := List.exists_cons_of_ne_nil (Nat.toDigits_ne_nil (b := 10) (n := k))
    have digit := (isDigits_toDigits k).all c (start ▸ List.mem_cons_self)
    rw [start, List.cons_append, readPower_of_digit digit, ← List.cons_append, ← start, read]
    simp only [Option.map_some, ofDigits_toDigits]
    rfl
  | negSucc k =>
    have digits : (toString (Int.negSucc k)).toList = '-' :: Nat.toDigits 10 (k + 1) := by
      change ("-" ++ (k + 1).repr).toList = _
      rw [String.toList_append, Nat.toList_repr]
      rfl
    rw [digits, List.cons_append, readPower, readDigits_append (isDigits_toDigits _) stop]
    simp only [Option.map_some, ofDigits_toDigits]
    rfl

theorem readFraction_of_ne (h : ∀ c ∈ r.head?, c ≠ '.') : readFraction r = some (none, r) := by
  unfold readFraction
  split
  · exact absurd rfl (h '.' rfl)
  · rfl

theorem readExponent_of_ne (h : ∀ c ∈ r.head?, c ≠ 'e' ∧ c ≠ 'E') :
    readExponent r = some (none, r) := by
  unfold readExponent
  split
  · exact absurd rfl (h 'e' rfl).1
  · exact absurd rfl (h 'E' rfl).2
  · rfl

/-- The exponent of a literal as it is written. -/
def powerText (power : Option Int) : List Char := power.elim [] fun p => 'e' :: (toString p).toList

theorem readExponent_powerText (ends : EndsNumber r) (power : Option Int) :
    readExponent (powerText power ++ r) = some (power, r) := by
  cases power with
  | none => exact readExponent_of_ne fun c h => (ends c h).2.2
  | some p =>
    rw [powerText, Option.elim_some, List.cons_append, readExponent,
      readPower_toString p fun c h => (ends c h).1]
    rfl

theorem head?_powerText (ends : EndsNumber r) (power : Option Int) :
    ∀ c ∈ (powerText power ++ r).head?, c.isDigit = false ∧ c ≠ '.' := by
  cases power with
  | none => exact fun c h => ⟨(ends c h).1, (ends c h).2.1⟩
  | some p =>
    rintro c ⟨⟩
    decide

/-- The fraction of a literal as it is written. -/
def fractionText (fraction : Option (List Char)) : List Char := fraction.elim [] ('.' :: ·)

theorem readFraction_fractionText {fraction : Option (List Char)}
    (places : ∀ t ∈ fraction, IsDigits t) (stop : ∀ c ∈ r.head?, c.isDigit = false ∧ c ≠ '.') :
    readFraction (fractionText fraction ++ r) = some (fraction, r) := by
  cases fraction with
  | none => exact readFraction_of_ne fun c h => (stop c h).2
  | some t =>
    rw [fractionText, Option.elim_some, List.cons_append, readFraction,
      readDigits_append (places t rfl) fun c h => (stop c h).1]
    rfl

theorem head?_fractionText (stop : ∀ c ∈ r.head?, c.isDigit = false)
    (fraction : Option (List Char)) :
    ∀ c ∈ (fractionText fraction ++ r).head?, c.isDigit = false := by
  cases fraction with
  | none => exact stop
  | some t =>
    rintro c ⟨⟩
    decide

/-- The parts of a number are read back. -/
theorem readUnsigned_text {l : Literal} (valid : l.IsValid) (ends : EndsNumber r)
    (negative : Bool) : readUnsigned negative (l.text ++ r) = some (l.number negative, r) := by
  obtain ⟨whole, fraction, power⟩ := l
  obtain ⟨digits, plain, places⟩ := valid
  have after_point := head?_powerText ends power
  have after_whole := head?_fractionText (fun c h => (after_point c h).1) fraction
  have point := readFraction_fractionText places after_point
  have exponent := readExponent_powerText ends power
  change readUnsigned negative (whole ++ (fractionText fraction ++ powerText power) ++ r) = _
  rw [List.append_assoc, List.append_assoc, readUnsigned, readDigits_append digits after_whole]
  simp only [Option.bind_some, plain, if_true, point, exponent, Option.map_some, Literal.number]

/-! ### The text of a number -/

namespace Number

/-- Integers have no exponent, and zero no positive one. -/
structure IsWritable (n : Number) : Prop where
  integer : n.isInteger = true → n.decimal.exponent = 0
  zero : n.decimal.digits = 0 → n.decimal.exponent ≤ 0

/-- The number that is read where one was written: whole numbers up to sixteen digits get a point and
a zero, and keep their value. -/
def reread (n : Number) : Number :=
  if n.isInteger = false ∧ 0 ≤ n.decimal.exponent ∧
      digitCount n.decimal.digits + n.decimal.exponent ≤ 16 then
    { n with decimal := ⟨n.decimal.digits * 10 ^ (n.decimal.exponent.toNat + 1), -1⟩ }
  else n

/-- The parts of the text that a number is written as. -/
def literal (n : Number) : Literal :=
  let digits := Nat.toDigits 10 n.decimal.digits
  let point : Int := digits.length + n.decimal.exponent
  if n.isInteger then ⟨digits, none, none⟩
  else if n.decimal.digits = 0 ∨ -5 ≤ point - 1 ∧ point - 1 ≤ 15 then
    if 0 ≤ n.decimal.exponent then
      ⟨digits ++ zeros n.decimal.exponent.toNat, some ['0'], none⟩
    else if 0 < point then ⟨digits.take point.toNat, some (digits.drop point.toNat), none⟩
    else ⟨['0'], some (zeros (-point).toNat ++ digits), none⟩
  else
    ⟨digits.take 1, if digits.drop 1 = [] then none else some (digits.drop 1), some (point - 1)⟩

def signText (n : Number) : List Char := if n.negative then ['-'] else []

theorem toList_render (n : Number) : n.render.toList = n.signText ++ n.literal.text := by
  rw [render, literal, signText]
  by_cases integer : n.isInteger = true
  · rw [if_pos integer]
    simp only [if_pos integer, Literal.text]
    cases n.negative <;> simp [Nat.toList_repr]
  · rw [if_neg integer, Decimal.Layout.writeDecimal, String.toList_ofList]
    simp only [if_neg integer, Decimal.Layout.document, Decimal.Layout.writePositional,
      Decimal.writeScientific, Bool.or_eq_true, Bool.and_eq_true, decide_eq_true_eq]
    generalize Nat.toDigits 10 n.decimal.digits = digits
    have sign (body : List Char) : (if n.negative = true then '-' :: body else body) =
        (if n.negative = true then ['-'] else []) ++ body := by
      split <;> rfl
    rw [sign]
    congr 1
    split_ifs with range whole before single
    · simp [Literal.text]
    · simp [Literal.text]
    · simp [Literal.text]
    · simp only [single]
      simp [Literal.text]
    · obtain ⟨c, rest, places⟩ := List.exists_cons_of_ne_nil single
      simp only [places]
      simp [Literal.text]

variable {n : Number}

theorem isValid_literal (writable : n.IsWritable) : n.literal.IsValid := by
  have digits := isDigits_toDigits n.decimal.digits
  have plain := isWholePart_toDigits n.decimal.digits
  have some_digit := List.length_pos_iff.mpr digits.some_digit
  simp only [literal]
  split_ifs with integer range whole before single
  · exact ⟨digits, plain, by simp⟩
  · refine ⟨digits.append fun c => isDigit_of_mem_zeros, ?_, ?_⟩
    · by_cases zero : n.decimal.digits = 0
      · have none_added : n.decimal.exponent.toNat = 0 := by
          have := writable.zero zero
          omega
        rw [none_added, zeros, List.replicate_zero, List.append_nil]
        exact plain
      · refine isWholePart_of_head? ?_
        rw [List.head?_append_of_ne_nil _ digits.some_digit]
        exact head?_toDigits_ne zero
    · rintro places ⟨⟩
      exact ⟨by simp, by simp⟩
  · refine ⟨digits.take (by omega), isWholePart_take plain (by omega), ?_⟩
    rintro places ⟨⟩
    exact digits.drop (by omega)
  · refine ⟨⟨by simp, by simp⟩, rfl, ?_⟩
    rintro places ⟨⟩
    refine ⟨by simp [digits.some_digit], fun c h => ?_⟩
    exact (List.mem_append.mp h).elim isDigit_of_mem_zeros (digits.all c)
  · exact ⟨digits.take Nat.one_pos, isWholePart_take plain Nat.one_pos, by simp⟩
  · refine ⟨digits.take Nat.one_pos, isWholePart_take plain Nat.one_pos, ?_⟩
    rintro places ⟨⟩
    rw [List.drop_eq_nil_iff] at single
    exact digits.drop (by omega)

theorem reread_eq_self (h : n.isInteger = true ∨ n.decimal.exponent < 0 ∨
    16 < digitCount n.decimal.digits + n.decimal.exponent) : n.reread = n := by
  refine if_neg ?_
  rintro ⟨other, whole, short⟩
  rcases h with integer | negative | long
  · rw [integer] at other
    cases other
  · omega
  · omega

/-- A literal denotes a number if its digits, its exponent and its form are the number's. -/
theorem number_eq {l : Literal} {negative : Bool} (sign : negative = n.negative)
    (digits : ofDigits (l.whole ++ l.fraction.getD []) = n.decimal.digits)
    (exponent : l.power.getD 0 - (l.fraction.getD []).length = n.decimal.exponent)
    (form : (l.fraction.isNone && l.power.isNone) = n.isInteger) : l.number negative = n := by
  rw [Literal.number, numberOf, sign, digits, exponent, form]

/-- Numbers that are written as whole numbers have at most sixteen digits before the point. -/
theorem digitCount_add_exponent_le (writable : n.IsWritable)
    (range : n.decimal.digits = 0 ∨
      -5 ≤ (Nat.toDigits 10 n.decimal.digits).length + n.decimal.exponent - 1 ∧
        (Nat.toDigits 10 n.decimal.digits).length + n.decimal.exponent - 1 ≤ 15) :
    digitCount n.decimal.digits + n.decimal.exponent ≤ 16 := by
  rcases range with zero | ⟨-, most⟩
  · have one : digitCount n.decimal.digits = 1 := by
      rw [zero]
      rfl
    have := writable.zero zero
    omega
  · rw [digitCount]
    omega

/-- What is written denotes the number, or the same value with a point. -/
theorem number_literal (writable : n.IsWritable) : n.literal.number n.negative = n.reread := by
  have written := ofDigits_toDigits n.decimal.digits
  have some_digit := List.length_pos_iff.mpr (isDigits_toDigits n.decimal.digits).some_digit
  have parts (k : Nat) := List.take_append_drop k (Nat.toDigits 10 n.decimal.digits)
  simp only [literal]
  split_ifs with integer range whole before single
  · rw [reread_eq_self (.inl integer)]
    refine number_eq rfl ?_ ?_ ?_
    · simp [written]
    · simp [writable.integer integer]
    · simp [integer]
  · have value := ofDigits_append_zeros (Nat.toDigits 10 n.decimal.digits)
      (n.decimal.exponent.toNat + 1)
    rw [zeros, List.replicate_succ', ← zeros, written] at value
    have short := digitCount_add_exponent_le writable range
    rw [reread, if_pos ⟨Bool.eq_false_of_not_eq_true integer, whole, short⟩]
    refine number_eq rfl ?_ ?_ ?_
    · simp [value]
    · simp
    · simp [integer]
  · rw [reread_eq_self (.inr (.inl (by omega)))]
    refine number_eq rfl ?_ ?_ ?_
    · simp [parts, written]
    · simp
      omega
    · simp [integer]
  · rw [reread_eq_self (.inr (.inl (by omega)))]
    refine number_eq rfl ?_ ?_ ?_
    · have value := ofDigits_zeros_append (Nat.toDigits 10 n.decimal.digits)
        ((-((Nat.toDigits 10 n.decimal.digits).length + n.decimal.exponent)).toNat + 1)
      rw [zeros, List.replicate_succ, ← zeros, written] at value
      exact value
    · simp [zeros]
      omega
    · simp [integer]
  · rw [reread_eq_self (by rw [digitCount]; omega)]
    refine number_eq rfl ?_ ?_ ?_
    · have all := parts 1
      rw [single] at all
      simp [all, written]
    · have one := List.drop_eq_nil_iff.mp single
      simp
      omega
    · simp [integer]
  · rw [reread_eq_self (by rw [digitCount]; omega)]
    refine number_eq rfl ?_ ?_ ?_
    · rw [Option.getD_some, parts, written]
    · simp
      omega
    · simp [integer]

end Number

end AccessHistory.Json
