import Bento.Library.Decimal
import Mathlib.Data.List.Basic

/-! Percent encoding of the UTF-8 bytes of a text. A percent sign that two hexadecimal
digits do not follow stands for itself when a text is decoded, so what is encoded has to
encode its own percent signs. -/

namespace Bento.Library.Percent
open Decimal List

def hexDigit (value : Nat) : Char := (Nat.digitChar value).toUpper

def hexValue (char : Char) : Option Nat :=
  if '0' ≤ char ∧ char ≤ '9' then some (char.toNat - '0'.toNat)
  else if 'A' ≤ char ∧ char ≤ 'F' then some (char.toNat - 'A'.toNat + 10)
  else if 'a' ≤ char ∧ char ≤ 'f' then some (char.toNat - 'a'.toNat + 10)
  else none

def encodeByte (byte : UInt8) : Text := ['%', hexDigit (byte.toNat / 16), hexDigit (byte.toNat % 16)]

def encodeChar (set : Char → Bool) (char : Char) : Text :=
  if set char ∨ '\x7f' < char then (String.utf8EncodeChar char).flatMap encodeByte else [char]

def encode (set : Char → Bool) (text : Text) : Text := text.flatMap (encodeChar set)

def escaped (char : Char) : Text → Option UInt8
  | high :: low :: _ =>
    if char = '%' then
      (hexValue high).bind fun high => (hexValue low).map fun low => UInt8.ofNat (16 * high + low)
    else none
  | _ => none

def decodeFrom : Nat → Text → List UInt8
  | _, [] => []
  | skip + 1, _ :: rest => decodeFrom skip rest
  | 0, char :: rest =>
    match escaped char rest with
    | some byte => byte :: decodeFrom 2 rest
    | none => String.utf8EncodeChar char ++ decodeFrom 0 rest

def decode (text : Text) : Option Text := (decodeFrom 0 text).toByteArray.utf8Decode?.map Array.toList

theorem hexValue_hexDigit {value : Nat} (small : value < 16) : hexValue (hexDigit value) = some value := by
  revert value
  decide

theorem halves_lt (byte : UInt8) : byte.toNat / 16 < 16 ∧ byte.toNat % 16 < 16 := by
  have bound := byte.toNat_lt
  omega

theorem escaped_hexDigits (byte : UInt8) (rest : Text) :
    escaped '%' (hexDigit (byte.toNat / 16) :: hexDigit (byte.toNat % 16) :: rest) = some byte := by
  have whole : 16 * (byte.toNat / 16) + byte.toNat % 16 = byte.toNat := Nat.div_add_mod _ _
  simp only [escaped, if_true, hexValue_hexDigit (halves_lt byte).1, hexValue_hexDigit (halves_lt byte).2,
    Option.bind_some, Option.map_some, whole, UInt8.ofNat_toNat]

theorem decodeFrom_encodeByte (byte : UInt8) (rest : Text) :
    decodeFrom 0 (encodeByte byte ++ rest) = byte :: decodeFrom 0 rest := by
  unfold encodeByte
  simp only [cons_append, nil_append, decodeFrom, escaped_hexDigits]

theorem decodeFrom_encodeBytes (bytes : List UInt8) (rest : Text) :
    decodeFrom 0 (bytes.flatMap encodeByte ++ rest) = bytes ++ decodeFrom 0 rest := by
  induction bytes with
  | nil => rfl
  | cons byte bytes ih =>
    rw [flatMap_cons, append_assoc, decodeFrom_encodeByte, ih, cons_append]

theorem escaped_other {char : Char} (other : char ≠ '%') (rest : Text) : escaped char rest = none := by
  unfold escaped
  split
  · rw [if_neg other]
  · rfl

variable {set : Char → Bool}

theorem decodeFrom_encodeChar (percent : set '%' = true) (char : Char) (rest : Text) :
    decodeFrom 0 (encodeChar set char ++ rest) = String.utf8EncodeChar char ++ decodeFrom 0 rest := by
  unfold encodeChar
  split
  next => exact decodeFrom_encodeBytes _ rest
  next kept =>
    have other : char ≠ '%' := fun same => kept (.inl (same ▸ percent))
    simp only [cons_append, nil_append, decodeFrom, escaped_other other]

theorem decode_encode (percent : set '%' = true) (text : Text) : decode (encode set text) = some text := by
  have bytes : decodeFrom 0 (encode set text) = text.flatMap String.utf8EncodeChar := by
    induction text with
    | nil => rfl
    | cons char text ih =>
      have step := decodeFrom_encodeChar percent char (encode set text)
      rw [ih] at step
      exact step
  have read : text.utf8Encode.utf8Decode? = some text.toArray := List.utf8Decode?_utf8Encode
  unfold decode
  rw [bytes]
  exact congrArg (Option.map Array.toList) read

theorem mem_encode {char : Char} {text : Text} (listed : char ∈ encode set text) :
    char = '%' ∨ (∃ value < 16, char = hexDigit value) ∨ set char = false ∧ char ≤ '\x7f' := by
  obtain ⟨source, -, member⟩ := List.mem_flatMap.mp listed
  unfold encodeChar at member
  split at member
  next =>
    obtain ⟨byte, -, member⟩ := List.mem_flatMap.mp member
    simp only [encodeByte, mem_cons, not_mem_nil, or_false] at member
    rcases member with sign | high | low
    · exact .inl sign
    · exact .inr (.inl ⟨_, (halves_lt byte).1, high⟩)
    · exact .inr (.inl ⟨_, (halves_lt byte).2, low⟩)
  next kept =>
    obtain ⟨unlisted, small⟩ := not_or.mp kept
    rw [List.mem_singleton.mp member]
    exact .inr (.inr ⟨Bool.eq_false_iff.mpr unlisted, Char.not_lt.mp small⟩)

end Bento.Library.Percent
