import Bento.Library.Decimal

/-! IPv4 addresses: which of their leading bits agree, and their dotted text. A prefix
of `bits` bits covers the addresses that agree with it on those bits. -/

namespace Bento.Library.Ipv4
open Decimal BitVec List Nat

abbrev Addr := BitVec 32

def agree (bits : Nat) (first last : Addr) : Bool := first >>> (32 - bits) = last >>> (32 - bits)

def mask (bits : Nat) : Addr := BitVec.allOnes 32 <<< (32 - bits)

variable {bits : Nat} {first last : Addr}

theorem agree_iff : agree bits first last = true ↔ first.toNat / 2 ^ (32 - bits) = last.toNat / 2 ^ (32 - bits) := by
  simp only [agree, decide_eq_true_eq, ← toNat_inj, toNat_ushiftRight, shiftRight_eq_div_pow]

@[simp] theorem agree_refl (bits : Nat) (address : Addr) : agree bits address address = true := by
  simp [agree]

theorem agree_comm : agree bits first last = agree bits last first := by
  simp [agree, eq_comm]

theorem agree_trans {middle : Addr} (early : agree bits first middle = true)
    (late : agree bits middle last = true) : agree bits first last = true := by
  rw [agree_iff] at *
  exact early.trans late

theorem agree_of_le {more : Nat} (fewer : bits ≤ more) (same : agree more first last = true) :
    agree bits first last = true := by
  rw [agree_iff] at *
  have split : 2 ^ (32 - bits) = 2 ^ (32 - more) * 2 ^ ((32 - bits) - (32 - more)) := by
    rw [← Nat.pow_add]
    congr 1
    omega
  rw [split, ← Nat.div_div_eq_div_mul, ← Nat.div_div_eq_div_mul, same]

theorem getElem_and_mask {address : Addr} {index : Nat} (inside : index < 32) :
    (address &&& mask bits)[index] = (address[index] && decide (32 - bits ≤ index)) := by
  simp only [mask, getElem_and, getElem_shiftLeft, getElem_allOnes, Bool.and_true]
  by_cases low : index < 32 - bits
  · have short : ¬ 32 - bits ≤ index := by omega
    simp only [low, short, decide_true, decide_false, Bool.not_true, Bool.and_false]
  · have long : 32 - bits ≤ index := by omega
    simp only [low, long, decide_true, decide_false, Bool.not_false, Bool.and_true]

theorem and_mask_eq_iff : first &&& mask bits = last &&& mask bits ↔ agree bits first last = true := by
  simp only [agree, decide_eq_true_eq]
  constructor
  · intro same
    apply eq_of_getElem_eq
    intro index inside
    simp only [getElem_ushiftRight]
    by_cases within : 32 - bits + index < 32
    · have bit : (first &&& mask bits)[32 - bits + index] = (last &&& mask bits)[32 - bits + index] := by rw [same]
      rw [getElem_and_mask within, getElem_and_mask within] at bit
      simpa [BitVec.getLsbD_eq_getElem within] using bit
    · simp [BitVec.getLsbD_of_ge _ _ (Nat.le_of_not_lt within)]
  · intro same
    apply eq_of_getElem_eq
    intro index inside
    rw [getElem_and_mask inside, getElem_and_mask inside]
    by_cases high : 32 - bits ≤ index
    · have bit := congrArg (fun value : Addr => value.getLsbD (index - (32 - bits))) same
      simp only [BitVec.getLsbD_ushiftRight, Nat.add_sub_cancel' high] at bit
      simpa [high, getLsbD_eq_getElem inside] using bit
    · simp [high]

theorem toNat_and_mask (bits : Nat) (address : Addr) :
    (address &&& mask bits).toNat = address.toNat / 2 ^ (32 - bits) * 2 ^ (32 - bits) := by
  have shifted : address &&& mask bits = address >>> (32 - bits) <<< (32 - bits) := by
    apply BitVec.eq_of_getElem_eq
    intro index inside
    rw [getElem_and_mask inside, getElem_shiftLeft]
    by_cases high : 32 - bits ≤ index
    · simp [high, Nat.not_lt.mpr high, getLsbD_eq_getElem inside]
    · simp [high, Nat.lt_of_not_le high]
  have bound : address.toNat / 2 ^ (32 - bits) * 2 ^ (32 - bits) < 2 ^ 32 :=
    Nat.lt_of_le_of_lt (div_mul_le_self _ _) address.isLt
  rw [shifted, BitVec.toNat_shiftLeft, BitVec.toNat_ushiftRight, Nat.shiftRight_eq_div_pow, Nat.shiftLeft_eq,
    mod_eq_of_lt bound]

theorem agree_and_mask (bits : Nat) (address : Addr) : agree bits (address &&& mask bits) address = true := by
  rw [← and_mask_eq_iff, BitVec.and_assoc, BitVec.and_self]

def octets (address : Addr) : List Nat :=
  [address.toNat / 2 ^ 24, address.toNat / 2 ^ 16 % 256, address.toNat / 2 ^ 8 % 256, address.toNat % 256]

def text (address : Addr) : Text := List.intercalate ['.'] ((octets address).map (Nat.toDigits 10))

def octet (part : Text) : Option Nat :=
  if part = [] || 3 < part.length || (1 < part.length && part.head? = some '0') then none
  else (read 0 part).filter (· ≤ 255)

def parse (source : Text) : Option Addr :=
  match (source.splitOn '.').mapM octet with
  | some [first, second, third, fourth] =>
    some (BitVec.ofNat 32 (first * 2 ^ 24 + second * 2 ^ 16 + third * 2 ^ 8 + fourth))
  | _ => none

theorem octet_table : ∀ value : Fin 256, octet (Nat.toDigits 10 value) = some value.val := by
  decide +kernel

theorem octet_toDigits {value : Nat} (small : value < 256) : octet (Nat.toDigits 10 value) = some value :=
  octet_table ⟨value, small⟩

theorem not_mem_toDigits {char : Char} (other : char.isDigit = false) (value : Nat) : char ∉ Nat.toDigits 10 value := by
  intro member
  have digit := isDigit_of_mem_toDigits (by decide) (by decide) member
  rw [other] at digit
  cases digit

theorem octets_lt (address : Addr) : ∀ value ∈ octets address, value < 256 := by
  have bound := address.isLt
  simp only [octets, mem_cons, not_mem_nil, or_false]
  intro value listed
  omega

theorem parse_text (address : Addr) : parse (text address) = some address := by
  have parts : (text address).splitOn '.' = (octets address).map (Nat.toDigits 10) := by
    apply splitOn_intercalate
    · intro part listed
      obtain ⟨value, -, same⟩ := List.mem_map.mp listed
      rw [← same]
      exact not_mem_toDigits (by decide) value
    · simp [octets]
  have small := octets_lt address
  simp only [octets, mem_cons, not_mem_nil, or_false, forall_eq_or_imp, forall_eq] at small
  obtain ⟨first, second, third, fourth⟩ := small
  have whole : address.toNat / 2 ^ 24 * 2 ^ 24 + address.toNat / 2 ^ 16 % 256 * 2 ^ 16 +
      address.toNat / 2 ^ 8 % 256 * 2 ^ 8 + address.toNat % 256 = address.toNat := by
    have bound := address.isLt
    omega
  simp only [parse, parts, octets, map_cons, map_nil, mapM_cons, mapM_nil, octet_toDigits first,
    octet_toDigits second, octet_toDigits third, octet_toDigits fourth, Option.pure_def, Option.bind_eq_bind,
    Option.bind_some, whole, ofNat_toNat, setWidth_eq]

end Bento.Library.Ipv4
