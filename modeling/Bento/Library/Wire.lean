import Mathlib.Algebra.Ring.Nat
import Mathlib.Data.List.Basic

/-! Bytes on a stream: words of four bytes, most significant first, and frames that begin with
their own length. A reader that takes a stream piece by piece has a part of a frame in hand
and the rest still to come. -/

namespace Bento.Library.Wire
open List

abbrev Bytes := List UInt8

def word (value : UInt32) : Bytes :=
  [.ofNat (value.toNat / 2 ^ 24), .ofNat (value.toNat / 2 ^ 16), .ofNat (value.toNat / 2 ^ 8), .ofNat value.toNat]

def ofWord (bytes : Bytes) : UInt32 := .ofNat ((bytes.take 4).foldl (fun total byte => total * 256 + byte.toNat) 0)

@[simp] theorem length_word (value : UInt32) : (word value).length = 4 := rfl

@[simp] theorem ofWord_word (value : UInt32) (rest : Bytes) : ofWord (word value ++ rest) = value := by
  have bound := value.toNat_lt
  apply UInt32.toNat_inj.mp
  simp only [ofWord, word, cons_append, nil_append, take_succ_cons, take_zero, foldl_cons,
    foldl_nil, UInt8.toNat_ofNat', UInt32.toNat_ofNat']
  omega

@[simp] theorem drop_word (value : UInt32) {count : Nat} (past : 4 ≤ count) (rest : Bytes) :
    (word value ++ rest).drop count = rest.drop (count - 4) := by
  rw [drop_append, drop_eq_nil_of_le past]
  rfl

theorem word_ofWord_drop {bytes : Bytes} {count : Nat} (long : count + 4 ≤ bytes.length) :
    word (ofWord (bytes.drop count)) ++ bytes.drop (count + 4) = bytes.drop count := by
  have more : 4 ≤ (bytes.drop count).length := by rw [length_drop]; omega
  rw [← drop_drop]
  generalize bytes.drop count = rest at more
  rcases rest with _ | ⟨a, _ | ⟨b, _ | ⟨c, _ | ⟨d, rest⟩⟩⟩⟩
  case cons.cons.cons.cons =>
    have first := a.toNat_lt
    have second := b.toNat_lt
    have third := c.toNat_lt
    have fourth := d.toNat_lt
    simp [word, ofWord, ← UInt8.toNat_inj]
    omega
  all_goals simp at more

theorem ofWord_append {front : Bytes} (long : 4 ≤ front.length) (rest : Bytes) :
    ofWord (front ++ rest) = ofWord front := by
  unfold ofWord
  rw [take_append_of_le_length long]

structure Framed (frame : Bytes) : Prop where
  long : 4 ≤ frame.length
  counted : (ofWord frame).toNat = frame.length

def takeFrame (stream : Bytes) : Option (Bytes × Bytes) :=
  if 4 ≤ stream.length ∧ (ofWord stream).toNat ≤ stream.length then
    some (stream.take (ofWord stream).toNat, stream.drop (ofWord stream).toNat)
  else none

variable {frame : Bytes}

theorem takeFrame_append (framed : Framed frame) (rest : Bytes) : takeFrame (frame ++ rest) = some (frame, rest) := by
  have counted : (ofWord (frame ++ rest)).toNat = frame.length := by rw [ofWord_append framed.long, framed.counted]
  have long := framed.long
  unfold takeFrame
  rw [if_pos ⟨by rw [length_append]; omega, by rw [counted, length_append]; omega⟩, counted, take_left, drop_left]

theorem takeFrame_part (framed : Framed frame) {part left : Bytes} (split : part ++ left = frame) (more : left ≠ []) :
    takeFrame part = none := by
  unfold takeFrame
  apply if_neg
  rintro ⟨long, whole⟩
  have counted := framed.counted
  rw [← split, ofWord_append long, length_append] at counted
  have := List.length_pos_iff.mpr more
  omega

section
variable {got stream rest : Bytes} {count : Nat}

theorem length_take_more (got : Bytes) (available : count ≤ stream.length) :
    (got ++ stream.take count).length = got.length + count := by
  rw [length_append, length_take, Nat.min_eq_left available]

theorem eq_frame (split : got ++ stream = frame ++ rest) (whole : got.length = frame.length) :
    got = frame ∧ stream = rest :=
  append_inj split whole

theorem ofWord_got (framed : Framed frame) (split : got ++ stream = frame ++ rest) (long : 4 ≤ got.length) :
    (ofWord got).toNat = frame.length := by
  rw [← framed.counted, ← ofWord_append framed.long rest, ← split, ofWord_append long]

end

end Bento.Library.Wire
