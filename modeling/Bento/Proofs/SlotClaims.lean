import Bento.Proofs.PrefixChange

/-! Claiming a slot. The guard of a claim looks at the addresses of the instances, the
triggers look at their stored slots; the rule that every instance runs on the owner of its
slot survives a claim exactly when the two agree about who is in the slot. -/

namespace Bento.Store
open Library.Transactions List

def Fleet.SlotsOwned (fleet : Fleet) : Prop := ∀ row ∈ fleet.instances, fleet.ownsSlot row

structure Claimed (fleet : Fleet) (slot : Nat) (hostId : Int) (after : Fleet) : Prop where
  frame : after = { fleet with slots := after.slots }
  ordered : after.slots.Pairwise (·.slot < ·.slot)
  rows : ∃ row, row.slot = slot ∧ row.ownerHostId = hostId ∧
    ∀ owned, owned ∈ after.slots ↔ owned = row ∨ owned ∈ fleet.slots ∧ owned.slot ≠ slot
  guarded : after = fleet ∨ (∃ host ∈ fleet.hosts, host.id = hostId) ∧
    ∀ row ∈ fleet.slots, row.slot = slot → row.ownershipEpoch < maxInteger

section
variable {rows : List Slot} (ordered : rows.Pairwise (·.slot < ·.slot))
include ordered

theorem ordered_insert {row : Slot} (fresh : ∀ other ∈ rows, other.slot ≠ row.slot) :
    (rows.orderedInsert (·.slot ≤ ·.slot) row).Pairwise (·.slot < ·.slot) := by
  induction rows with
  | nil => simp
  | cons first rows ih =>
    obtain ⟨below, rest⟩ := List.pairwise_cons.mp ordered
    have apart := fresh first mem_cons_self
    rw [orderedInsert_cons]
    split
    next order =>
      have lower : row.slot < first.slot := by omega
      refine List.pairwise_cons.mpr ⟨?_, ordered⟩
      intro other listed
      rcases List.mem_cons.mp listed with rfl | later
      · exact lower
      · exact Nat.lt_trans lower (below other later)
    next order =>
      refine List.pairwise_cons.mpr ⟨?_, ih rest fun other listed => fresh other (mem_cons_of_mem _ listed)⟩
      intro other listed
      rcases (mem_orderedInsert _).mp listed with rfl | later
      · omega
      · exact below other later

theorem ordered_map {change : Slot → Slot} (same : ∀ row, (change row).slot = row.slot) :
    (rows.map change).Pairwise (·.slot < ·.slot) := by
  apply List.pairwise_map.mpr
  apply ordered.imp
  intro row other below
  rw [same, same]
  exact below

end

section
variable {fleet after : Fleet} {slot : Nat} {hostId : Int}

theorem giveSlot_ok (ordered : fleet.slots.Pairwise (·.slot < ·.slot)) {row : Slot}
    (given : (giveSlot slot hostId).run fleet = .ok (row, after)) : Claimed fleet slot hostId after := by
  simp only [giveSlot, run_bind_ok, run_get_ok] at given
  obtain ⟨_, _, ⟨rfl, rfl⟩, rest⟩ := given
  cases found : fleet.slots.find? (·.slot = slot) with
  | none =>
    simp only [found, run_bind_ok, run_refuseIf_ok, run_set_ok, run_pure_ok] at rest
    obtain ⟨_, _, ⟨known, rfl⟩, _, _, rfl, -, rfl⟩ := rest
    have fresh : ∀ other ∈ fleet.slots, other.slot ≠ slot := by simpa using found
    refine ⟨rfl, ordered_insert ordered fresh,
      ⟨⟨slot, .active, hostId, 0, none, none, none⟩, rfl, rfl, fun owned => ?_⟩,
      .inr ⟨by simpa using known, fun row listed same => absurd same (fresh row listed)⟩⟩
    simp only [mem_orderedInsert]
    exact or_congr_right ⟨fun listed => ⟨listed, fresh owned listed⟩, And.left⟩
  | some held =>
    simp only [found] at rest
    split at rest
    next own =>
      obtain ⟨-, rfl⟩ := run_pure_ok.mp rest
      have listed := mem_of_find?_eq_some found
      have place : held.slot = slot := by simpa using List.find?_some found
      refine ⟨rfl, ordered, ⟨held, place, own, fun owned => ?_⟩, .inl rfl⟩
      constructor
      · intro known
        by_cases same : owned.slot = slot
        · exact .inl (slot_unique ordered known listed (same.trans place.symm))
        · exact .inr ⟨known, same⟩
      · rintro (rfl | ⟨known, -⟩)
        · exact listed
        · exact known
    next other =>
      simp only [run_bind_ok, run_refuseIf_ok, run_set_ok, run_pure_ok] at rest
      obtain ⟨_, _, ⟨known, rfl⟩, _, _, ⟨small, rfl⟩, _, _, rfl, -, rfl⟩ := rest
      have listed := mem_of_find?_eq_some found
      have place : held.slot = slot := by simpa using List.find?_some found
      have counted : ∀ row ∈ fleet.slots, row.slot = slot → row.ownershipEpoch < maxInteger := by
        intro row member same
        rw [slot_unique ordered member listed (same.trans place.symm)]
        omega
      refine ⟨rfl, ordered_map ordered fun _ => (by split <;> rfl), ⟨held.claimed hostId, place, rfl, fun owned => ?_⟩,
        .inr ⟨by simpa using known, counted⟩⟩
      simp only [Fleet.updateSlots, mem_map]
      constructor
      · rintro ⟨old, known, rfl⟩
        split
        next same => exact .inl (by rw [slot_unique ordered known listed (same.trans place.symm)])
        next differ => exact .inr ⟨known, differ⟩
      · rintro (rfl | ⟨known, differ⟩)
        · exact ⟨held, listed, if_pos place⟩
        · exact ⟨owned, known, if_neg differ⟩

theorem claimSlot_ok (ordered : fleet.slots.Pairwise (·.slot < ·.slot)) {row : Slot}
    (claimed : (claimSlot slot hostId).run fleet = .ok (row, after)) :
    slot < slotCount fleet.runnerPrefix ∧ fleet.occupied slot hostId = 0 ∧ Claimed fleet slot hostId after := by
  simp only [claimSlot, run_bind_ok, run_get_ok, run_refuseIf_ok] at claimed
  obtain ⟨_, _, ⟨rfl, rfl⟩, _, _, ⟨inside, rfl⟩, _, _, ⟨free, rfl⟩, given⟩ := claimed
  exact ⟨Nat.not_le.mp inside, Nat.eq_zero_of_not_pos free, giveSlot_ok ordered given⟩

theorem giveSlot_succeeds (known : ∃ host ∈ fleet.hosts, host.id = hostId)
    (counted : ∀ row ∈ fleet.slots, row.slot = slot → row.ownershipEpoch < maxInteger) :
    ∃ row after, (giveSlot slot hostId).run fleet = .ok (row, after) := by
  have refusable : ¬ ∀ host ∈ fleet.hosts, host.id ≠ hostId := by
    obtain ⟨host, listed, same⟩ := known
    exact fun unknown => unknown host listed same
  simp only [giveSlot, run_bind_ok, run_get_ok]
  cases found : fleet.slots.find? (·.slot = slot) with
  | none =>
    let row : Slot := ⟨slot, .active, hostId, 0, none, none, none⟩
    refine ⟨row, { fleet with slots := fleet.slots.orderedInsert (·.slot ≤ ·.slot) row }, fleet, fleet, ⟨rfl, rfl⟩, ?_⟩
    simp only [found]
    exact run_bind_ok.mpr ⟨(), fleet, run_refuseIf_ok.mpr ⟨refusable, rfl⟩,
      run_bind_ok.mpr ⟨(), _, run_set_ok.mpr rfl, run_pure_ok.mpr ⟨rfl, rfl⟩⟩⟩
  | some held =>
    by_cases own : held.ownerHostId = hostId
    · refine ⟨held, fleet, fleet, fleet, ⟨rfl, rfl⟩, ?_⟩
      simp only [found, own, if_true]
      exact run_pure_ok.mpr ⟨rfl, rfl⟩
    · have small : ¬ maxInteger < held.ownershipEpoch + 1 := by
        have below := counted held (mem_of_find?_eq_some found) (by simpa using List.find?_some found)
        omega
      refine ⟨held.claimed hostId, fleet.updateSlots fun other =>
        if other.slot = slot then other.claimed hostId else other,
        fleet, fleet, ⟨rfl, rfl⟩, ?_⟩
      simp only [found, own, if_false]
      exact run_bind_ok.mpr ⟨(), fleet, run_refuseIf_ok.mpr ⟨refusable, rfl⟩,
        run_bind_ok.mpr ⟨(), fleet, run_refuseIf_ok.mpr ⟨small, rfl⟩,
        run_bind_ok.mpr ⟨(), _, run_set_ok.mpr rfl, run_pure_ok.mpr ⟨rfl, rfl⟩⟩⟩⟩

theorem claimSlot_succeeds (inside : slot < slotCount fleet.runnerPrefix) (free : fleet.occupied slot hostId = 0)
    (known : ∃ host ∈ fleet.hosts, host.id = hostId)
    (counted : ∀ row ∈ fleet.slots, row.slot = slot → row.ownershipEpoch < maxInteger) :
    ∃ row after, (claimSlot slot hostId).run fleet = .ok (row, after) := by
  obtain ⟨row, after, given⟩ := giveSlot_succeeds known counted
  have nobody : ¬ 0 < fleet.occupied slot hostId := by omega
  simp only [claimSlot, run_bind_ok, run_get_ok, run_refuseIf_ok]
  exact ⟨row, after, fleet, fleet, ⟨rfl, rfl⟩, (), fleet, ⟨Nat.not_le.mpr inside, rfl⟩, (), fleet, ⟨nobody, rfl⟩, given⟩

end

structure Fleet.Updatable (fleet : Fleet) : Prop where
  observed : ∀ states, ∃ after, withTx (updateObservedStates states) fleet = (.ok (), after)
  column : ∀ uuid column, (∃ row ∈ fleet.instances, row.uuid = uuid) →
    ∃ after, withTx (updateInstance uuid column) fleet = (.ok (), after)

def KeepsPlace (change : Instance → Instance) : Prop :=
  ∀ row, (change row).slot = row.slot ∧ (change row).hostId = row.hostId

section
variable {fleet : Fleet} {change : Instance → Instance}

theorem ownsSlot_change (kept : KeepsPlace change) {row : Instance} (owned : fleet.ownsSlot row) :
    fleet.ownsSlot (change row) := by
  obtain ⟨slot, host⟩ := kept row
  simpa only [Fleet.ownsSlot, slot, host] using owned

theorem Fleet.SlotsOwned.update (owned : fleet.SlotsOwned) (selected : Instance → Bool) (kept : KeepsPlace change) :
    ∃ after, (updateInstances selected change).run fleet = .ok (fleet.instances.countP selected, after) ∧
      after.SlotsOwned := by
  refine ⟨_, updateInstances_ok.mpr ⟨fun row listed _ => ownsSlot_change kept (owned row listed), rfl, rfl⟩, ?_⟩
  intro row listed
  obtain ⟨old, member, rfl⟩ := List.mem_map.mp listed
  split
  · exact ownsSlot_change kept (owned old member)
  · exact owned old member

theorem Fleet.SlotsOwned.updatable (owned : fleet.SlotsOwned) : fleet.Updatable := by
  constructor
  · intro states
    have ran : ∃ after, (updateObservedStates states).run fleet = .ok ((), after) := by
      induction states generalizing fleet with
      | nil => exact ⟨fleet, rfl⟩
      | cons first states ih =>
        obtain ⟨uuid, state⟩ := first
        have kept : KeepsPlace fun row => { row with state } := fun _ => ⟨rfl, rfl⟩
        obtain ⟨between, updated, still⟩ := owned.update (·.uuid = uuid) kept
        obtain ⟨after, rest⟩ := ih still
        exact ⟨after, run_bind_ok.mpr ⟨_, between, updated, rest⟩⟩
    obtain ⟨after, ran⟩ := ran
    exact ⟨after, withTx_ok.mpr ran⟩
  · intro uuid column known
    have kept : KeepsPlace column.write := by
      intro row
      cases column <;> exact ⟨rfl, rfl⟩
    obtain ⟨after, updated, -⟩ := owned.update (·.uuid = uuid) kept
    have some : ¬ fleet.instances.countP (·.uuid = uuid) = 0 := by
      obtain ⟨row, listed, same⟩ := known
      apply Nat.ne_of_gt
      exact List.countP_pos_iff.mpr ⟨row, listed, by simpa using same⟩
    exact ⟨after, withTx_ok.mpr (run_bind_ok.mpr ⟨_, after, updated, run_refuseIf_ok.mpr ⟨some, rfl⟩⟩)⟩

end

section
variable {fleet after : Fleet} {slot : Nat} {hostId : Int}

theorem slotsOwned_claimed (claimed : Claimed fleet slot hostId after) (owned : fleet.SlotsOwned) :
    after.SlotsOwned ↔ ∀ row ∈ fleet.instances, row.slot = some slot → row.hostId = hostId := by
  obtain ⟨row, place, owner, rows⟩ := claimed.rows
  have instances : after.instances = fleet.instances := by rw [claimed.frame]
  simp only [Fleet.SlotsOwned, instances]
  constructor
  · intro still guest listed stored
    obtain ⟨held, known, number, host⟩ := still guest listed slot stored
    rcases (rows held).mp known with rfl | ⟨-, other⟩
    · exact host.symm.trans owner
    · exact absurd number other
  · intro moved guest listed number stored
    obtain ⟨held, known, same, host⟩ := owned guest listed number stored
    by_cases there : number = slot
    · rw [there] at stored
      exact ⟨row, (rows row).mpr (.inl rfl), place.trans there.symm, owner.trans (moved guest listed stored).symm⟩
    · exact ⟨held, (rows held).mpr (.inr ⟨known, same ▸ there⟩), same, host⟩

end

/-- The rule survives a claim exactly when the claim is refused, or when every instance
whose stored number is the slot's runs on the claiming host. -/
theorem claims_keep_owners (fleet : Fleet) (slot : Nat) (hostId : Int)
    (ordered : fleet.slots.Pairwise (·.slot < ·.slot)) (owned : fleet.SlotsOwned) :
    (withTx (claimSlot slot hostId) fleet).2.SlotsOwned ∧ (withTx (claimSlot slot hostId) fleet).2.Updatable ↔
      slotCount fleet.runnerPrefix ≤ slot ∨ 0 < fleet.occupied slot hostId ∨ (∀ host ∈ fleet.hosts, host.id ≠ hostId) ∨
        (∃ row ∈ fleet.slots, row.slot = slot ∧ maxInteger ≤ row.ownershipEpoch) ∨
        ∀ row ∈ fleet.instances, row.slot = some slot → row.hostId = hostId := by
  have rule : (withTx (claimSlot slot hostId) fleet).2.SlotsOwned ∧ (withTx (claimSlot slot hostId) fleet).2.Updatable ↔
      (withTx (claimSlot slot hostId) fleet).2.SlotsOwned := ⟨And.left, fun still => ⟨still, still.updatable⟩⟩
  rw [rule]
  cases ran : (claimSlot slot hostId).run fleet with
  | error =>
    have same : (withTx (claimSlot slot hostId) fleet).2 = fleet := by rw [withTx, ran]
    rw [same, iff_true_left owned]
    by_contra unrefused
    simp only [not_or, Nat.not_le, Nat.not_lt, Nat.le_zero] at unrefused
    obtain ⟨inside, free, known, counted, -⟩ := unrefused
    have small : ∀ row ∈ fleet.slots, row.slot = slot → row.ownershipEpoch < maxInteger := by
      intro row listed place
      by_contra large
      exact counted ⟨row, listed, place, by omega⟩
    obtain ⟨row, after, succeeded⟩ := claimSlot_succeeds inside free (by simpa using known) small
    rw [ran] at succeeded
    cases succeeded
  | ok result =>
    have same : (withTx (claimSlot slot hostId) fleet).2 = result.2 := by rw [withTx, ran]
    obtain ⟨inside, free, claimed⟩ := claimSlot_ok ordered ran
    rw [same, slotsOwned_claimed claimed owned]
    have stays (unchanged : result.2 = fleet) : ∀ row ∈ fleet.instances, row.slot = some slot → row.hostId = hostId :=
      (slotsOwned_claimed claimed owned).mp (unchanged ▸ owned)
    constructor
    · exact fun moved => .inr (.inr (.inr (.inr moved)))
    · rintro (outside | used | unknown | ⟨row, listed, place, large⟩ | moved)
      · omega
      · omega
      · rcases claimed.guarded with unchanged | ⟨⟨host, listed, known⟩, -⟩
        · exact stays unchanged
        · exact absurd known (unknown host listed)
      · rcases claimed.guarded with unchanged | ⟨-, small⟩
        · exact stays unchanged
        · exact absurd large (Int.not_le.mpr (small row listed place))
      · exact moved

def staleGuest : Instance where
  uuid := "0b5e"
  name := "web"
  ownerId := 1
  hostId := 1
  imageName := "debian"
  baseChecksum := "sha256-0"
  state := .running
  desiredState := .running
  address := "10.100.0.5".toList
  mac := "52:54:00:00:00:01"
  vcpu := 1
  memoryMib := 512
  diskGib := 10
  nested := false
  ksm := true
  httpPort := 80
  visibility := .off
  createdAt := 1
  lastSeenAt := none
  slot := some 1

def staleNumber : Fleet where
  runnerPrefix := 25
  hosts := [⟨1, none, "controller", none, none⟩, ⟨2, none, "runner", none, none⟩]
  slots := [⟨0, .active, 1, 0, none, none, none⟩, ⟨1, .active, 1, 0, none, none, none⟩]
  instances := [staleGuest]
  users := [⟨1, "alice", "10.100.0.0/24".toList⟩]
  images := ["debian"]
  imageVersions := ["sha256-0"]
  releasedNames := []

theorem staleNumber_owned : staleNumber.SlotsOwned := by
  unfold Fleet.SlotsOwned
  decide

theorem claims_keep_owners_occupied : (withTx (claimSlot 0 2) staleNumber).2.SlotsOwned ∧
    (withTx (claimSlot 0 2) staleNumber).2.Updatable :=
  (claims_keep_owners staleNumber 0 2 (by decide) staleNumber_owned).mpr (.inr (.inl (by decide)))

/-- Host 2 takes slot 1 from the instance that is stored in it, whose row can then no
longer be updated. -/
theorem claim_of_stale_number : staleNumber.SlotsOwned ∧
    ∃ row after, withTx (claimSlot 1 2) staleNumber = (.ok row, after) ∧ ¬ after.SlotsOwned ∧
      (withTx (updateObservedStates [("0b5e", .stopped)]) after).1 = .error .sqlite := by
  refine ⟨staleNumber_owned, ⟨1, .active, 2, 1, none, none, none⟩,
    (withTx (claimSlot 1 2) staleNumber).2, by decide +kernel,
    ?_, by decide +kernel⟩
  intro owned
  have broken : ¬ (withTx (claimSlot 1 2) staleNumber).2.ownsSlot staleGuest := by decide +kernel
  exact broken (owned staleGuest (by decide +kernel))

end Bento.Store
