import Bento.Library.Ipv4

/-! IPv4 prefixes as the network code writes, reads and masks them, and the private range with
the `/24` of each user in it. -/

namespace Bento.Network
open Library Library.Decimal Ipv4

abbrev Ipv4Addr := BitVec 32

structure Ipv4Prefix where
  addr : Ipv4Addr
  bits : Nat
deriving DecidableEq

inductive Error where
  | invalid (message : String)
  | addressesExhausted
deriving DecidableEq

abbrev Result := Except Error

def refuseIf (broken : Bool) (message : String) : Result Unit :=
  if broken then throw (.invalid message) else return

theorem refuseIf_ok {broken : Bool} {message : String} {value : Unit} :
    refuseIf broken message = .ok value ↔ broken = false := by
  cases broken <;> simp [refuseIf, throw, throwThe, MonadExceptOf.throw, pure, Except.pure]

def showAddr (address : Ipv4Addr) : String := String.ofList (Ipv4.text address)

def formatPrefix (range : Ipv4Prefix) : String := showAddr range.addr ++ "/" ++ toString range.bits

def prefixMask (bits : Nat) : BitVec 32 :=
  if bits = 0 then 0 else if bits ≤ 32 then BitVec.allOnes 32 <<< (32 - bits) else 0

namespace Ipv4Prefix

def contains (range : Ipv4Prefix) (address : Ipv4Addr) : Bool :=
  if range.bits ≤ 32 then address &&& prefixMask range.bits = range.addr &&& prefixMask range.bits else false

def fromStr (text : Text) : Option Ipv4Prefix := do
  let (addrPart, bitsPart) ← splitOnce '/' text
  let addr ← Ipv4.parse addrPart
  let bits ← unsigned 255 bitsPart
  if bits ≤ 32 then some ⟨addr, bits⟩ else none

end Ipv4Prefix

def masked (range : Ipv4Prefix) : Ipv4Prefix := ⟨range.addr &&& prefixMask range.bits, range.bits⟩

def requireSlash24 (range : Ipv4Prefix) : Result Unit :=
  refuseIf (range.bits ≠ 24) (formatPrefix range ++ " is not an IPv4 /24")

/-- The private range. It is kept without host bits and holds at least one `/24`. -/
structure Plan where
  range : Ipv4Prefix
  wide : range.bits ≤ 24
  base : masked range = range

def Plan.usual : Plan := ⟨⟨0x0a640000, 16⟩, by decide, by decide⟩

theorem prefixMask_eq {bits : Nat} (short : bits ≤ 32) : prefixMask bits = Ipv4.mask bits := by
  unfold prefixMask Ipv4.mask
  by_cases zero : bits = 0
  · subst bits
    decide
  · simp [zero, short]

theorem contains_iff {range : Ipv4Prefix} {address : Ipv4Addr} (short : range.bits ≤ 32) :
    range.contains address = true ↔ Ipv4.agree range.bits address range.addr = true := by
  simp only [Ipv4Prefix.contains, short, if_true, decide_eq_true_eq, prefixMask_eq short, and_mask_eq_iff]

theorem agree_masked {range : Ipv4Prefix} (short : range.bits ≤ 32) (address : Ipv4Addr) :
    Ipv4.agree range.bits address (masked range).addr = Ipv4.agree range.bits address range.addr := by
  have same := agree_and_mask range.bits range.addr
  rw [← prefixMask_eq short] at same
  rw [Bool.eq_iff_iff]
  constructor
  · intro early
    exact agree_trans early same
  · intro early
    rw [agree_comm] at same
    exact agree_trans early same

theorem toNat_masked {range : Ipv4Prefix} (short : range.bits ≤ 32) :
    (masked range).addr.toNat = range.addr.toNat / 2 ^ (32 - range.bits) * 2 ^ (32 - range.bits) := by
  rw [masked, prefixMask_eq short, toNat_and_mask]

theorem requireSlash24_ok {range : Ipv4Prefix} {value : Unit} : requireSlash24 range = .ok value ↔ range.bits = 24 := by
  simp [requireSlash24, refuseIf_ok]

namespace Plan

def fromPrefix (range : Ipv4Prefix) : Result Plan :=
  if wide : range.bits ≤ 24 then
    .ok ⟨masked range, wide, by simp [masked, BitVec.and_assoc]⟩
  else
    .error (.invalid ("private range \"" ++ formatPrefix range ++ "\" is narrower than /24"))

def index (plan : Plan) (subnet : Ipv4Prefix) : Result Nat := do
  requireSlash24 subnet
  let subnet := masked subnet
  refuseIf (!plan.range.contains subnet.addr)
    ("subnet " ++ formatPrefix subnet ++ " is outside the private range " ++ formatPrefix plan.range)
  return ((subnet.addr - plan.range.addr) >>> 8).toNat

end Plan

end Bento.Network
