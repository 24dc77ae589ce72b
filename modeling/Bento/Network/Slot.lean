import Bento.Library.Results
import Bento.Network.Subnet

/-! How a user `/24` divides into runner slots. Slot ownership is the same in every user
network: the runner that owns slot 1 owns slot 1 of every user. -/

namespace Bento.Network
open Library

structure Slots where
  bits : Nat
  wide : 24 ≤ bits
  narrow : bits ≤ 27
deriving DecidableEq

namespace Slots

def new (bits : UInt8) : Result Slots :=
  if fits : 24 ≤ bits.toNat ∧ bits.toNat ≤ 27 then
    .ok ⟨bits.toNat, fits.1, fits.2⟩
  else
    .error (.invalid ("runner slot prefix /" ++ toString bits ++ " is outside /24-/27"))

def count (slots : Slots) : Nat := 2 ^ (slots.bits - 24)

def shift (slots : Slots) : Nat := 8 - (slots.bits - 24)

def checkSlot (slots : Slots) (slot : Nat) : Result Unit :=
  refuseIf (slots.count ≤ slot)
    ("slot " ++ toString slot ++ " does not exist at /" ++ toString slots.bits ++ ", which has " ++
      toString slots.count ++ " slots")

def assignable (slots : Slots) (slot : Nat) : Result (Nat × Nat) := do
  slots.checkSlot slot
  let width := 2 ^ slots.shift
  let first := slot * width
  let last := first + width - 1
  return (max (max (first + 1) 2) (1 + 1), min (last - 1) 254)

def within (slots : Slots) (subnet : Ipv4Prefix) (slot : Nat) : Ipv4Prefix :=
  ⟨(masked subnet).addr + BitVec.ofNat 32 (slot * 2 ^ slots.shift), slots.bits⟩

def prefixOf (slots : Slots) (subnet : Ipv4Prefix) (slot : Nat) : Result Ipv4Prefix := do
  requireSlash24 subnet
  slots.checkSlot slot
  return slots.within subnet slot

end Slots

def allocateAddress (used : List Ipv4Addr) (subnet : Ipv4Prefix) (slots : Slots) (slot : Nat) : Result Ipv4Addr := do
  requireSlash24 subnet
  let (low, high) ← slots.assignable slot
  let addresses := (List.range' low (high + 1 - low)).map fun host => (masked subnet).addr + BitVec.ofNat 32 host
  match addresses.find? (· ∉ used) with
  | some address => return address
  | none => throw .addressesExhausted

def hostOctet (address : Ipv4Addr) : Nat := address.toNat % 256

def Slots.octetSlot (slots : Slots) (address : Ipv4Addr) : Nat := hostOctet address / 2 ^ slots.shift

namespace Slots

variable {slots : Slots} {slot : Nat}

theorem new_ok {bits : UInt8} : new bits = .ok slots ↔ bits.toNat = slots.bits := by
  unfold new
  split
  next fits =>
    cases slots
    simp
  next outside =>
    have wide := slots.wide
    have narrow := slots.narrow
    constructor
    · intro same
      cases same
    · intro same
      omega

theorem checkSlot_ok {value : Unit} : slots.checkSlot slot = .ok value ↔ slot < slots.count := by
  simp [checkSlot, refuseIf_ok]

theorem prefixOf_ok {subnet : Ipv4Prefix} (user : subnet.bits = 24)
    (known : slot < slots.count) : slots.prefixOf subnet slot = .ok (slots.within subnet slot) := by
  have first : requireSlash24 subnet = .ok () := requireSlash24_ok.mpr user
  have second : slots.checkSlot slot = .ok () := checkSlot_ok.mpr known
  rw [prefixOf, first, second]
  rfl

theorem agree_within {subnet : Ipv4Prefix} {address : Ipv4Addr} (user : subnet.bits = 24) (known : slot < slots.count) :
    Ipv4.agree slots.bits address (slots.within subnet slot).addr = true ↔
      Ipv4.agree 24 address subnet.addr = true ∧ slots.octetSlot address = slot := by
  obtain ⟨bits, wide, narrow⟩ := slots
  have short : subnet.bits ≤ 32 := by omega
  have base := toNat_masked short
  have bound := subnet.addr.isLt
  rw [user] at base
  simp only [Ipv4.agree_iff, within, octetSlot, hostOctet, BitVec.toNat_add, BitVec.toNat_ofNat, base, shift]
  simp only [count] at known
  have sizes : bits = 24 ∨ bits = 25 ∨ bits = 26 ∨ bits = 27 := by omega
  rcases sizes with same | same | same | same <;> subst bits <;> simp only [Nat.reduceSub, Nat.reducePow] at *
  all_goals omega

theorem octetSlot_lt (slots : Slots) (address : Ipv4Addr) : slots.octetSlot address < slots.count := by
  obtain ⟨bits, wide, narrow⟩ := slots
  have sizes : bits = 24 ∨ bits = 25 ∨ bits = 26 ∨ bits = 27 := by omega
  simp only [octetSlot, hostOctet, shift, count]
  rcases sizes with same | same | same | same <;> subst bits <;> simp only [Nat.reduceSub, Nat.reducePow]
  all_goals omega

end Slots

end Bento.Network
