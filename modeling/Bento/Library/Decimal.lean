import Mathlib.Algebra.Ring.Nat
import Mathlib.Data.List.DropRight
import Mathlib.Tactic.Tauto

/-! Decimal text of a fixed width, and the order of texts read byte by byte. Fields
of one width sort as their numbers do, so a record written most significant field
first sorts as its fields do. A number written without its trailing zeros does not:
the character that follows it is then compared with a digit. -/

namespace Bento.Library.Decimal
open List Nat

/-- Texts are compared character by character. All characters written here are
ASCII, for which this is the order of the encoded bytes. -/
abbrev Text := List Char

instance : LawfulBEq Text := inferInstance

/-- The characters with Unicode's property White_Space. -/
def isWhitespace (char : Char) : Bool :=
  char ∈ [' ', '\x85', '\xa0', '\u1680', '\u2028', '\u2029', '\u202f', '\u205f', '\u3000'] ||
    '\t' ≤ char && char ≤ '\r' || '\u2000' ≤ char && char ≤ '\u200a'

def trim (text : Text) : Text := (text.dropWhile isWhitespace).rdropWhile isWhitespace

def splitOnce (char : Char) : Text → Option (Text × Text)
  | [] => none
  | first :: rest =>
    if first = char then some ([], rest) else (splitOnce char rest).map fun (left, right) => (first :: left, right)

variable {char : Char} {a b width value : Nat}

theorem splitOnce_append {left : Text} (absent : char ∉ left) (right : Text) :
    splitOnce char (left ++ char :: right) = some (left, right) := by
  induction left with
  | nil => simp [splitOnce]
  | cons first left ih =>
    have other : first ≠ char := fun same => absent (same ▸ mem_cons_self)
    have rest : char ∉ left := fun listed => absent (mem_cons_of_mem first listed)
    simp [splitOnce, other, ih rest]

theorem splitOnce_eq_none {text : Text} (absent : char ∉ text) : splitOnce char text = none := by
  induction text with
  | nil => rfl
  | cons first text ih =>
    have other : first ≠ char := fun same => absent (same ▸ mem_cons_self)
    have rest : char ∉ text := fun listed => absent (mem_cons_of_mem first listed)
    simp [splitOnce, other, ih rest]

def rsplitOnce (char : Char) (text : Text) : Option (Text × Text) :=
  (splitOnce char text.reverse).map fun (right, left) => (left.reverse, right.reverse)

theorem rsplitOnce_append {right : Text} (absent : char ∉ right) (left : Text) :
    rsplitOnce char (left ++ char :: right) = some (left, right) := by
  have split := splitOnce_append (fun listed => absent (List.mem_reverse.mp listed)) left.reverse
  simp [rsplitOnce, split]

def hexByte (byte : UInt8) : Text := [(byte.toNat / 16).digitChar, (byte.toNat % 16).digitChar]

def pad : Nat → Nat → Text
  | 0, _ => []
  | width + 1, value => Nat.digitChar (value / 10 ^ width % 10) :: pad width (value % 10 ^ width)

def integer : Int → Text
  | .ofNat value => Nat.toDigits 10 value
  | .negSucc value => '-' :: Nat.toDigits 10 (value + 1)

def trimmed : Nat → Nat → Text
  | 0, _ => []
  | width + 1, value =>
    if value = 0 then [] else Nat.digitChar (value / 10 ^ width % 10) :: trimmed width (value % 10 ^ width)

def isDigit (char : Char) : Bool := '0' ≤ char && char ≤ '9'

def isHexDigit (char : Char) : Bool := isDigit char || ('a' ≤ char && char ≤ 'f') || ('A' ≤ char && char ≤ 'F')

def digitValue (char : Char) : Nat := char.toNat - '0'.toNat

def read : Nat → Text → Option Nat
  | total, [] => some total
  | total, char :: rest => if isDigit char then read (total * 10 + digitValue char) rest else none

def unsigned (limit : Nat) (text : Text) : Option Nat :=
  let digits := if text.head? = some '+' then text.tail else text
  if digits = [] then none else (read 0 digits).filter (· ≤ limit)

/-- Reads the digits after the point as a number of units of `10 ^ -width`. Digits
finer than the unit are dropped. -/
def readFraction : Nat → Text → Option Nat
  | _, [] => some 0
  | 0, char :: rest => if isDigit char then readFraction 0 rest else none
  | width + 1, char :: rest =>
    if isDigit char then (readFraction width rest).map (digitValue char * 10 ^ width + ·) else none

@[simp] theorem length_pad (width value : Nat) : (pad width value).length = width := by
  induction width generalizing value with
  | zero => rfl
  | succ width ih => simp [pad, ih]

theorem append_lt_append {first last : Text} (same : first.length = last.length) (rest tail : Text) :
    first ++ rest < last ++ tail ↔ first < last ∨ first = last ∧ rest < tail := by
  induction first generalizing last with
  | nil =>
    cases last with
    | nil => simp
    | cons => simp at same
  | cons char first ih =>
    cases last with
    | nil => simp at same
    | cons other last =>
      have shorter : first.length = last.length := by simpa using same
      simp only [cons_append, cons_lt_cons_iff, ih shorter, List.cons.injEq]
      tauto

theorem digit_table : ∀ a b : Fin 10, (Nat.digitChar a < Nat.digitChar b ↔ a < b) ∧
    (Nat.digitChar a = Nat.digitChar b ↔ a = b) := by decide

theorem digitChar_lt (first : a < 10) (last : b < 10) : Nat.digitChar a < Nat.digitChar b ↔ a < b :=
  (digit_table ⟨a, first⟩ ⟨b, last⟩).1

theorem digitChar_inj (first : a < 10) (last : b < 10) : Nat.digitChar a = Nat.digitChar b ↔ a = b := by
  simpa using (digit_table ⟨a, first⟩ ⟨b, last⟩).2

theorem leading (first : a < 10 ^ (width + 1)) (last : b < 10 ^ (width + 1)) :
    a / 10 ^ width < 10 ∧ b / 10 ^ width < 10 ∧
    (a < b ↔ a / 10 ^ width < b / 10 ^ width ∨ a / 10 ^ width = b / 10 ^ width ∧ a % 10 ^ width < b % 10 ^ width) := by
  have positive : 0 < 10 ^ width := Nat.pow_pos (by decide)
  have small (value : Nat) (bound : value < 10 ^ (width + 1)) : value / 10 ^ width < 10 := by
    apply Nat.div_lt_of_lt_mul
    rwa [Nat.pow_succ] at bound
  refine ⟨small a first, small b last, ?_⟩
  have left := Nat.div_add_mod a (10 ^ width)
  have right := div_add_mod b (10 ^ width)
  have leftBound := mod_lt a positive
  have rightBound := mod_lt b positive
  constructor
  · intro below
    rcases Nat.lt_trichotomy (a / 10 ^ width) (b / 10 ^ width) with less | same | more
    · exact Or.inl less
    · refine Or.inr ⟨same, ?_⟩
      rw [same] at left
      omega
    · have := Nat.div_le_div_right (c := 10 ^ width) (Nat.le_of_lt below)
      omega
  · rintro (less | ⟨same, rest⟩)
    · exact lt_of_div_lt_div less
    · rw [same] at left
      omega

theorem pad_lt_pad (first : a < 10 ^ width) (last : b < 10 ^ width) : pad width a < pad width b ↔ a < b := by
  induction width generalizing a b with
  | zero =>
    simp only [Nat.pow_zero, lt_one_iff] at first last
    simp [first, last, pad]
  | succ width ih =>
    have positive : 0 < 10 ^ width := Nat.pow_pos (by decide)
    obtain ⟨small, other, order⟩ := leading first last
    simp only [pad, cons_lt_cons_iff, mod_eq_of_lt small, mod_eq_of_lt other,
      digitChar_lt small other, digitChar_inj small other, ih (mod_lt a positive) (mod_lt b positive)]
    exact order.symm

theorem pad_inj (first : a < 10 ^ width) (last : b < 10 ^ width) : pad width a = pad width b ↔ a = b := by
  refine ⟨fun same => ?_, fun same => same ▸ rfl⟩
  have below := pad_lt_pad first last
  have above := pad_lt_pad last first
  rw [same] at below above
  simp only [List.lt_irrefl, false_iff] at below above
  omega

def CutShort (width a b : Nat) : Prop :=
  a ≠ b ∧ (trimmed width a <+: trimmed width b ∨ trimmed width b <+: trimmed width a)

instance (width a b : Nat) : Decidable (CutShort width a b) := inferInstanceAs (Decidable (_ ∧ (_ ∨ _)))

theorem digit_below {stop : Char} (after : '9' < stop) {digit : Nat} (small : digit < 10) :
    Nat.digitChar digit < stop ∧ ¬ stop < Nat.digitChar digit ∧ stop ≠ Nat.digitChar digit := by
  have table : ∀ digit : Fin 10, Nat.digitChar digit ≤ '9' := by decide
  have bound := table ⟨digit, small⟩
  simp only [Char.lt_def, Char.le_def, UInt32.lt_iff_toNat_lt, UInt32.le_iff_toNat_le] at *
  refine ⟨by omega, by omega, ?_⟩
  intro same
  rw [same] at after
  omega

theorem cutShort_succ (some : a ≠ 0) (any : b ≠ 0) (small : a / 10 ^ width < 10) (other : b / 10 ^ width < 10) :
    CutShort (width + 1) a b ↔
      a / 10 ^ width = b / 10 ^ width ∧ CutShort width (a % 10 ^ width) (b % 10 ^ width) := by
  have left := div_add_mod a (10 ^ width)
  have right := div_add_mod b (10 ^ width)
  simp only [CutShort, trimmed, some, any, if_false, mod_eq_of_lt small, mod_eq_of_lt other,
    cons_prefix_cons, digitChar_inj small other, digitChar_inj other small]
  constructor
  · rintro ⟨differ, ⟨same, cut⟩ | ⟨same, cut⟩⟩
    · refine ⟨same, fun rest => differ ?_, Or.inl cut⟩
      rw [← left, ← right, same, rest]
    · refine ⟨same.symm, fun rest => differ ?_, Or.inr cut⟩
      rw [← left, ← right, same, rest]
  · rintro ⟨same, differ, cut⟩
    refine ⟨fun equal => differ (by rw [equal]), ?_⟩
    exact cut.imp (fun found => ⟨same, found⟩) (fun found => ⟨same.symm, found⟩)

/-- Fractions that are followed by a character above every digit sort as their
numbers do, except that a fraction cut short sorts after the longer one. -/
theorem trimmed_lt_trimmed {stop : Char} (after : '9' < stop) (first : a < 10 ^ width) (last : b < 10 ^ width) :
    trimmed width a ++ [stop] < trimmed width b ++ [stop] ↔ if CutShort width a b then b < a else a < b := by
  induction width generalizing a b with
  | zero =>
    simp only [Nat.pow_zero, lt_one_iff] at first last
    simp [first, last, trimmed, CutShort]
  | succ width ih =>
    have positive : 0 < 10 ^ width := Nat.pow_pos (by decide)
    obtain ⟨small, other, order⟩ := leading first last
    obtain ⟨_, _, reverse⟩ := leading last first
    have below := digit_below after small
    have above := digit_below after other
    have rest := ih (mod_lt a positive) (mod_lt b positive)
    by_cases empty : a = 0
    · subst a
      by_cases none : b = 0
      · simp [none, CutShort]
      · have cut : CutShort (width + 1) 0 b := ⟨Ne.symm none, Or.inl (by simp [trimmed])⟩
        simp [cut, trimmed, none, mod_eq_of_lt other, cons_lt_cons_iff, above, -List.not_lt]
    by_cases none : b = 0
    · subst b
      have cut : CutShort (width + 1) a 0 := ⟨empty, Or.inr (by simp [trimmed])⟩
      simp [cut, trimmed, empty, mod_eq_of_lt small, cons_lt_cons_iff, below, Nat.pos_of_ne_zero empty]
    -- Both fractions have a first digit: a difference there decides both orders
    -- and excludes a cut; equal digits leave the claim to the digits after them.
    simp only [trimmed, empty, none, if_false, cons_append, cons_lt_cons_iff, mod_eq_of_lt small,
      mod_eq_of_lt other, digitChar_lt small other, digitChar_inj small other, rest]
    have cut := cutShort_succ empty none small other
    rcases Nat.lt_trichotomy (a / 10 ^ width) (b / 10 ^ width) with less | same | more
    · have excluded : ¬ CutShort (width + 1) a b := fun found => by have := (cut.mp found).1; omega
      simp [excluded, order, less]
    · simp only [same, Nat.lt_irrefl, true_and, false_or] at cut order reverse ⊢
      simp only [cut, order, reverse]
    · have excluded : ¬ CutShort (width + 1) a b := fun found => by have := (cut.mp found).1; omega
      simp only [excluded, if_false, order]
      omega

theorem digit_read : ∀ digit : Fin 10, isDigit (Nat.digitChar digit) = true ∧
    digitValue (Nat.digitChar digit) = digit := by decide

theorem read_pad (bound : value < 10 ^ width) (total : Nat) :
    read total (pad width value) = some (total * 10 ^ width + value) := by
  induction width generalizing value total with
  | zero =>
    simp only [Nat.pow_zero, lt_one_iff] at bound
    simp [pad, read, bound]
  | succ width ih =>
    have positive : 0 < 10 ^ width := Nat.pow_pos (by decide)
    obtain ⟨small, -⟩ := leading bound bound
    obtain ⟨digit, worth⟩ := digit_read ⟨_, small⟩
    simp only at digit worth
    simp only [pad, read, mod_eq_of_lt small, digit, worth, if_true, ih (mod_lt value positive)]
    have split := div_add_mod value (10 ^ width)
    rw [Nat.add_mul, Nat.mul_assoc, Nat.pow_succ', Nat.add_assoc, Nat.mul_comm (value / _), split]

theorem read_of_digits {text : Text} (digits : ∀ char ∈ text, char.isDigit = true) (total : Nat) :
    read total text = some (Nat.ofDigitChars 10 text total) := by
  induction text generalizing total with
  | nil => rfl
  | cons char text ih =>
    have first : isDigit char = true := digits char mem_cons_self
    have rest : ∀ char ∈ text, char.isDigit = true := fun char listed => digits char (mem_cons_of_mem _ listed)
    simp only [read, first, if_true, ih rest, Nat.ofDigitChars, foldl_cons, digitValue, Nat.mul_comm]

theorem read_toDigits (value : Nat) : read 0 (Nat.toDigits 10 value) = some value := by
  rw [read_of_digits fun char listed => isDigit_of_mem_toDigits (by decide) (by decide) listed]
  rw [ofDigitChars_toDigits (by decide) (by decide)]

theorem readFraction_trimmed (bound : value < 10 ^ width) : readFraction width (trimmed width value) = some value := by
  induction width generalizing value with
  | zero =>
    simp only [Nat.pow_zero, lt_one_iff] at bound
    simp [trimmed, readFraction, bound]
  | succ width ih =>
    by_cases empty : value = 0
    · simp [trimmed, readFraction, empty]
    have positive : 0 < 10 ^ width := Nat.pow_pos (by decide)
    obtain ⟨small, -⟩ := leading bound bound
    obtain ⟨digit, worth⟩ := digit_read ⟨_, small⟩
    simp only at digit worth
    have split := div_add_mod value (10 ^ width)
    simp [trimmed, empty, readFraction, mod_eq_of_lt small, digit, worth, ih (mod_lt value positive),
      Nat.mul_comm (value / _), split]

theorem trimmed_digits (width value : Nat) : ∀ char ∈ trimmed width value, isDigit char = true := by
  induction width generalizing value with
  | zero => simp [trimmed]
  | succ width ih =>
    simp only [trimmed]
    split
    · simp
    · rintro char (_ | ⟨_, member⟩)
      · exact (digit_read ⟨_, mod_lt _ (by decide)⟩).1
      · exact ih _ char member

theorem trimmed_eq_nil (bound : value < 10 ^ width) : trimmed width value = [] ↔ value = 0 := by
  refine ⟨fun empty => ?_, fun zero => by cases width <;> simp [trimmed, zero]⟩
  have back := readFraction_trimmed bound
  rw [empty] at back
  simpa [readFraction] using back.symm

end Bento.Library.Decimal
