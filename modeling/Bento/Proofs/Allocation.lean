import Bento.Lifecycle.Placement
import Bento.Proofs.InstanceRows

/-! The addresses that an allocation hands out. The slots of a machine are searched in order,
and each of them from its lowest address, so what is found is the lowest of all. -/

namespace Bento.Network
open Library Library.Results

def Slots.Assignable (slots : Slots) (subnet : Ipv4Prefix) (slot : Nat) (address : Ipv4Addr) : Prop :=
  (slots.within subnet slot).contains address = true ∧ hostOctet address ∉ [0, 1, 255] ∧
    hostOctet address % 2 ^ slots.shift ∉ [0, 2 ^ slots.shift - 1]

def Slots.Lowest (slots : Slots) (used : Ipv4Addr → Prop) (subnet : Ipv4Prefix) (slot : Nat)
    (address : Ipv4Addr) : Prop :=
  slots.Assignable subnet slot address ∧ ¬ used address ∧
    ∀ other, slots.Assignable subnet slot other → ¬ used other → address.toNat ≤ other.toNat

def Slots.Full (slots : Slots) (used : Ipv4Addr → Prop) (subnet : Ipv4Prefix) (slot : Nat) : Prop :=
  ∀ address, slots.Assignable subnet slot address → used address

section
variable {slots : Slots} {subnet : Ipv4Prefix} {slot : Nat} {address : Ipv4Addr} {used : List Ipv4Addr}

theorem contains_within (user : subnet.bits = 24) (known : slot < slots.count) :
    (slots.within subnet slot).contains address = true ↔
      address.toNat / 256 = subnet.addr.toNat / 256 ∧ slots.octetSlot address = slot := by
  have narrow := slots.narrow
  rw [contains_iff (show (slots.within subnet slot).bits ≤ 32 by simp only [Slots.within]; omega)]
  refine (Slots.agree_within user known).trans ?_
  simp [Ipv4.agree_iff]

theorem contains_of_assignable (user : subnet.bits = 24) (known : slot < slots.count)
    (fits : slots.Assignable subnet slot address) :
    subnet.contains address = true := by
  rw [contains_iff (by omega), user, Ipv4.agree_iff]
  exact ((contains_within user known).mp fits.1).1

theorem assignable_range (user : subnet.bits = 24) (known : slot < slots.count) :
    ∃ low high, slots.assignable slot = .ok (low, high) ∧ high < 256 ∧
      ∀ address, slots.Assignable subnet slot address ↔
        ∃ host, (low ≤ host ∧ host ≤ high) ∧ (masked subnet).addr + BitVec.ofNat 32 host = address := by
  have checked : slots.checkSlot slot = .ok () := Slots.checkSlot_ok.mpr known
  have base := @toNat_masked subnet (by omega)
  have bound := subnet.addr.isLt
  rw [user] at base
  refine ⟨_, _, bind_ok.mpr ⟨(), checked, rfl⟩, by omega, fun address => ?_⟩
  unfold Slots.Assignable
  rw [contains_within user known]
  obtain ⟨bits, wide, narrow⟩ := slots
  have sizes : bits = 24 ∨ bits = 25 ∨ bits = 26 ∨ bits = 27 := by omega
  simp only [Slots.octetSlot, hostOctet, Slots.shift, Slots.count, List.mem_cons, List.not_mem_nil,
    or_false, not_or] at *
  constructor
  · rintro ⟨⟨inside, mine⟩, plain, inner⟩
    refine ⟨address.toNat % 256, ?_, BitVec.eq_of_toNat_eq ?_⟩
    · rcases sizes with same | same | same | same <;> subst bits <;> simp only [Nat.reduceSub, Nat.reducePow] at *
      all_goals omega
    · rw [BitVec.toNat_add, BitVec.toNat_ofNat, base]
      omega
  · rintro ⟨host, between, rfl⟩
    rw [BitVec.toNat_add, BitVec.toNat_ofNat, base]
    rcases sizes with same | same | same | same <;> subst bits <;> simp only [Nat.reduceSub, Nat.reducePow] at *
    all_goals omega

theorem allocateAddress_eq {inUse : Ipv4Addr → Prop} (user : subnet.bits = 24) (known : slot < slots.count)
    (agrees : ∀ address, subnet.contains address = true → (address ∈ used ↔ inUse address)) :
    (∃ address, allocateAddress used subnet slots slot = .ok address ∧ slots.Lowest inUse subnet slot address) ∨
      allocateAddress used subnet slots slot = .error .addressesExhausted ∧ slots.Full inUse subnet slot := by
  obtain ⟨low, high, range, octet, fits⟩ := @assignable_range slots subnet slot user known
  have first : requireSlash24 subnet = .ok () := requireSlash24_ok.mpr user
  have base := @toNat_masked subnet (by omega)
  have bound := subnet.addr.isLt
  rw [user] at base
  have same {address : Ipv4Addr} (fits : slots.Assignable subnet slot address) :=
    agrees address (contains_of_assignable user known fits)
  unfold allocateAddress
  rw [first, range]
  dsimp only [bind, Except.bind]
  rw [List.find?_map]
  cases found : (List.range' low (high + 1 - low)).find?
    ((fun address => decide (address ∉ used)) ∘ fun host => (masked subnet).addr + BitVec.ofNat 32 host) with
  | none =>
    refine .inr ⟨rfl, fun address assignable => (same assignable).mp ?_⟩
    obtain ⟨host, between, rfl⟩ := (fits address).mp assignable
    simpa using List.find?_eq_none.mp found host (List.mem_range'_1.mpr (by omega))
  | some host =>
    obtain ⟨free, listed, before⟩ := List.find?_range'_eq_some.mp found
    have between := List.mem_range'_1.mp listed
    have assignable := (fits _).mpr ⟨host, by omega, rfl⟩
    refine .inl ⟨_, rfl, assignable, (same assignable).not.mp (by simpa using free), fun other assignable unused => ?_⟩
    have unused := (same assignable).not.mpr unused
    obtain ⟨later, range, rfl⟩ := (fits other).mp assignable
    -- An earlier host would have been found first.
    have after : host ≤ later := by
      by_contra earlier
      simpa [unused] using before later range.1 (by omega)
    rw [BitVec.toNat_add, BitVec.toNat_add, BitVec.toNat_ofNat, BitVec.toNat_ofNat, base]
    omega

end

end Bento.Network

namespace Bento.Lifecycle
open Library Network Store

def OwnsActive (fleet : Fleet) (hostId : Int) (slot : Nat) : Prop :=
  ∃ row ∈ fleet.slots, row.slot = slot ∧ row.ownerHostId = hostId ∧ row.state = .active

def InUse (fleet : Fleet) (address : Ipv4Addr) : Prop :=
  ∃ row ∈ fleet.instances, Ipv4.parse row.address = some address

section
variable {fleet : Fleet} {hostId : Int} {subnet : Ipv4Prefix} {slots : Slots} {slot : Nat} {address : Ipv4Addr}

theorem mem_usedAddresses (address : Ipv4Addr) (inside : subnet.contains address = true) :
    address ∈ usedAddresses fleet subnet ↔ InUse fleet address := by
  simp [usedAddresses, InUse, List.mem_filter, List.mem_filterMap, inside]

theorem firstFree_eq {owned : List Nat} (user : subnet.bits = 24) (known : ∀ slot ∈ owned, slot < slots.count)
    (sorted : owned.Pairwise (· ≤ ·)) :
    (∃ address slot, firstFree (usedAddresses fleet subnet) subnet slots owned = .ok (address, slot) ∧ slot ∈ owned ∧
        slots.Lowest (InUse fleet) subnet slot address ∧ ∀ lower ∈ owned, lower < slot →
          slots.Full (InUse fleet) subnet lower) ∨
      firstFree (usedAddresses fleet subnet) subnet slots owned = .error .addressesExhausted ∧
        ∀ slot ∈ owned, slots.Full (InUse fleet) subnet slot := by
  induction owned with
  | nil => exact .inr ⟨rfl, by simp⟩
  | cons first rest ih =>
    obtain ⟨least, sorted⟩ := List.pairwise_cons.mp sorted
    have small : slots.count ≤ 2 ^ 27 := Nat.pow_le_pow_right (by omega) ((Nat.sub_le _ _).trans slots.narrow)
    have present := known first List.mem_cons_self
    unfold firstFree
    rw [if_neg (by omega)]
    rcases allocateAddress_eq user present (@mem_usedAddresses fleet subnet) with ⟨address, allocated, lowest⟩ |
      ⟨exhausted, full⟩
    · rw [allocated]
      refine .inl ⟨address, first, rfl, List.mem_cons_self, lowest, fun lower listed below => ?_⟩
      rcases List.mem_cons.mp listed with rfl | later
      · exact absurd below (Nat.lt_irrefl _)
      · exact absurd below (Nat.not_lt.mpr (least lower later))
    · rw [exhausted]
      rcases ih (fun slot listed => known slot (List.mem_cons_of_mem _ listed))
        sorted with ⟨address, slot, found, listed, lowest, before⟩ | ⟨failed, rest⟩
      · exact .inl ⟨address, slot, found, List.mem_cons_of_mem _ listed, lowest,
          List.forall_mem_cons.mpr ⟨fun _ => full, before⟩⟩
      · exact .inr ⟨failed, List.forall_mem_cons.mpr ⟨full, rest⟩⟩

structure Picked (fleet : Fleet) (hostId : Int) (subnet : Ipv4Prefix) (slots : Slots) (address : Ipv4Addr)
    (slot : Nat) : Prop where
  owned : OwnsActive fleet hostId slot
  lowest : slots.Lowest (InUse fleet) subnet slot address
  before : ∀ lower < slot, OwnsActive fleet hostId lower → slots.Full (InUse fleet) subnet lower

theorem Picked.unique (picked : Picked fleet hostId subnet slots address slot) {other : Ipv4Addr} {second : Nat}
    (again : Picked fleet hostId subnet slots other second) : other = address ∧ second = slot := by
  have first {address other : Ipv4Addr} {slot second : Nat} (picked : Picked fleet hostId subnet slots address slot)
      (again : Picked fleet hostId subnet slots other second) : slot ≤ second := by
    by_contra lower
    exact again.lowest.2.1 (picked.before second (by omega) again.owned other again.lowest.1)
  obtain rfl := Nat.le_antisymm (first again picked) (first picked again)
  refine ⟨BitVec.eq_of_toNat_eq (Nat.le_antisymm ?_ ?_), rfl⟩
  · exact again.lowest.2.2 address picked.lowest.1 picked.lowest.2.1
  · exact picked.lowest.2.2 other again.lowest.1 again.lowest.2.1

theorem allocateInOwnedSlot_eq (divided : Slots.new fleet.runnerPrefix = .ok slots) (user : subnet.bits = 24)
    (known : ∀ row ∈ fleet.slots, row.slot < slots.count) :
    (∃ address slot, allocateInOwnedSlot fleet hostId subnet = .ok (address, slot) ∧
      Picked fleet hostId subnet slots address slot) ∨
    (allocateInOwnedSlot fleet hostId subnet = .error (.caused (.network .addressesExhausted)) ∧
      (∃ slot, OwnsActive fleet hostId slot) ∧
      ∀ slot, OwnsActive fleet hostId slot → slots.Full (InUse fleet) subnet slot) ∨
    allocateInOwnedSlot fleet hostId subnet = .error (.noSlotForHost hostId) ∧
      ¬ ∃ slot, OwnsActive fleet hostId slot := by
  unfold allocateInOwnedSlot
  rw [divided]
  dsimp only
  generalize sorting : ((fleet.slots.filter fun row => row.ownerHostId = hostId ∧ row.state = .active).map
    Slot.slot).insertionSort (· ≤ ·) = owned
  have mine (slot : Nat) : slot ∈ owned ↔ OwnsActive fleet hostId slot := by
    rw [← sorting, (List.perm_insertionSort _ _).mem_iff]
    simp [OwnsActive, and_assoc, and_comm]
  have below {slot : Nat} (owns : OwnsActive fleet hostId slot) : slot < slots.count := by
    obtain ⟨row, listed, rfl, -⟩ := owns
    exact known row listed
  have sorted : owned.Pairwise (· ≤ ·) := sorting ▸ List.pairwise_insertionSort _ _
  split
  next none =>
    refine .inr (.inr ⟨rfl, ?_⟩)
    rintro ⟨slot, owns⟩
    rw [← mine, none] at owns
    cases owns
  next some =>
    rcases @firstFree_eq fleet subnet slots owned user (fun slot listed => below ((mine slot).mp listed)) sorted with
      ⟨address, slot, found, listed, lowest, before⟩ | ⟨failed, full⟩
    · rw [found]
      exact .inl ⟨address, slot, rfl, (mine slot).mp listed, lowest, fun lower less other =>
        before lower ((mine lower).mpr other) less⟩
    · rw [failed]
      obtain ⟨slot, listed⟩ := List.exists_mem_of_ne_nil _ some
      exact .inr (.inl ⟨rfl, ⟨slot, (mine slot).mp listed⟩, fun slot owns => full slot ((mine slot).mpr owns)⟩)

/-- An allocation picks the lowest free address of the machine's lowest slot that has one. It
fails for exhaustion when the machine's slots are full, and for a missing slot when it has none. -/
theorem allocation_lowest (fleet : Fleet) (hostId : Int) (subnet : Ipv4Prefix) (slots : Slots)
    (divided : Slots.new fleet.runnerPrefix = .ok slots) (user : subnet.bits = 24)
    (known : ∀ row ∈ fleet.slots, row.slot < slots.count) :
    (∀ address slot, allocateInOwnedSlot fleet hostId subnet = .ok (address, slot) ↔
      Picked fleet hostId subnet slots address slot) ∧
    (allocateInOwnedSlot fleet hostId subnet = .error (.caused (.network .addressesExhausted)) ↔
      (∃ slot, OwnsActive fleet hostId slot) ∧ ∀ slot, OwnsActive fleet hostId slot →
        slots.Full (InUse fleet) subnet slot) ∧
    (allocateInOwnedSlot fleet hostId subnet = .error (.noSlotForHost hostId) ↔
      ¬ ∃ slot, OwnsActive fleet hostId slot) := by
  have full {address : Ipv4Addr} {slot : Nat} (picked : Picked fleet hostId subnet slots address slot) :
      ¬ ∀ slot, OwnsActive fleet hostId slot → slots.Full (InUse fleet) subnet slot :=
    fun full => picked.lowest.2.1 (full slot picked.owned address picked.lowest.1)
  rcases @allocateInOwnedSlot_eq fleet hostId subnet slots divided user known with
    ⟨address, slot, same, picked⟩ | ⟨same, owns, exhausted⟩ | ⟨same, none⟩
  · rw [same]
    refine ⟨fun other second => ⟨?_, fun again => ?_⟩, ?_, ?_⟩
    · rintro ⟨⟩
      exact picked
    · obtain ⟨rfl, rfl⟩ := picked.unique again
      rfl
    · simpa using fun _ _ => full picked
    · simpa using ⟨slot, picked.owned⟩
  · rw [same]
    refine ⟨fun other second => ⟨nofun, fun again => absurd exhausted (full again)⟩, ?_, ?_⟩
    · simpa using ⟨owns, exhausted⟩
    · simpa using owns
  · rw [same]
    refine ⟨fun other second => ⟨nofun, fun again => absurd ⟨second, again.owned⟩ none⟩, ?_, ?_⟩
    · simp [none]
    · simpa using none

/-- The first machine owns slots 0 and 2, of 32 addresses each, and the second slot 1. All
addresses of slot 0 are used, and the first of slot 2. -/
def fullSlot : Fleet where
  runnerPrefix := 27
  hosts := []
  slots := [⟨2, .active, 1, 0, none, none, none⟩, ⟨1, .active, 2, 0, none, none, none⟩,
    ⟨0, .active, 1, 0, none, none, none⟩]
  instances := ((List.range 30).map (· + 2) ++ [64]).map fun last =>
    let text := "10.100.0.".toList ++ Nat.toDigits 10 last
    { plainGuest (String.ofList text) (String.ofList text) 1 with address := text }
  users := []
  images := []
  imageVersions := []
  releasedNames := []

theorem allocation_lowest_first : allocateInOwnedSlot fullSlot 1 ⟨0x0a640000, 24⟩ = .ok (0x0a640041, 2) ∧
      Picked fullSlot 1 ⟨0x0a640000, 24⟩ ⟨27, by decide, by decide⟩ 0x0a640041 2 := by
  have allocated : allocateInOwnedSlot fullSlot 1 ⟨0x0a640000, 24⟩ = .ok (0x0a640041, 2) := by decide +kernel
  exact ⟨allocated, ((allocation_lowest fullSlot 1 ⟨0x0a640000, 24⟩ ⟨27, by decide, by decide⟩ rfl rfl (by decide)).1 _
    _).mp allocated⟩

end

end Bento.Lifecycle
