import Bento.Lifecycle.Placement
import Bento.Proofs.SlotClaims

/-! The slots over whole runs of controller processes. Every transaction keeps the slot
rows numbered within the prefix and the instances in the slots of their addresses, except
one: a create writes the slot that an earlier allocation picked, and the number may mean
another range by then. -/

namespace Bento.Store
open Library.Decimal Library.Transactions

structure Fleet.Placed (fleet : Fleet) : Prop where
  ordered : fleet.slots.Pairwise (·.slot < ·.slot)
  numbered : ∀ row ∈ fleet.slots, row.slot < slotCount fleet.runnerPrefix
  held : ∀ row ∈ fleet.instances, ∀ slot ∈ row.slot,
    slotOfAddress row.address (slotShift fleet.runnerPrefix) = some slot
  owned : fleet.SlotsOwned

section
variable {fleet after : Fleet}

structure Stays (fleet after : Fleet) : Prop where
  runnerPrefix : after.runnerPrefix = fleet.runnerPrefix
  slots : after.slots = fleet.slots
  instances : ∀ row ∈ after.instances, ∃ old ∈ fleet.instances,
    row.slot = old.slot ∧ row.hostId = old.hostId ∧ row.address = old.address

theorem Stays.of_instances (runnerPrefix : after.runnerPrefix = fleet.runnerPrefix) (slots : after.slots = fleet.slots)
    (instances : ∀ row ∈ after.instances, row ∈ fleet.instances) : Stays fleet after :=
  ⟨runnerPrefix, slots, fun row listed => ⟨row, instances row listed, rfl, rfl, rfl⟩⟩

theorem Fleet.Placed.stay (placed : fleet.Placed) (stays : Stays fleet after) : after.Placed := by
  obtain ⟨runnerPrefix, slots, instances⟩ := stays
  constructor
  · rw [slots]
    exact placed.ordered
  · rw [slots, runnerPrefix]
    exact placed.numbered
  · intro row listed slot stored
    obtain ⟨old, member, same, -, address⟩ := instances row listed
    rw [address, runnerPrefix]
    exact placed.held old member slot (same ▸ stored)
  · intro row listed slot stored
    obtain ⟨old, member, same, host, -⟩ := instances row listed
    rw [slots, host]
    exact placed.owned old member slot (same ▸ stored)

variable {host : Host} {now : Int} {name : String} {value : Unit}

theorem findHost_ok {known : Host → Bool} (found : (findHost known).run fleet = .ok (host, after)) : fleet = after := by
  simp only [findHost, run_bind_ok, run_get_ok] at found
  obtain ⟨_, _, ⟨rfl, rfl⟩, rest⟩ := found
  split at rest
  · cases rest
  · exact (run_pure_ok.mp rest).2

theorem registerRunner_stays {endpoint underlay : Text}
    (registered : (registerRunner now name endpoint underlay).run fleet = .ok (host, after)) : Stays fleet after := by
  simp only [registerRunner, writeRunner, run_bind_ok, run_lift_ok, run_get_ok] at registered
  obtain ⟨_, _, ⟨-, rfl⟩, _, between, ⟨_, _, ⟨rfl, rfl⟩, written⟩, found⟩ := registered
  rw [← findHost_ok found]
  split at written
  · cases run_set_ok.mp written
    exact .of_instances rfl rfl fun _ listed => listed
  · cases run_set_ok.mp written
    exact .of_instances rfl rfl fun _ listed => listed

theorem deleteInstance_stays {uuid : String} {row : Instance}
    (deleted : (deleteInstance now uuid).run fleet = .ok (row, after)) : Stays fleet after := by
  obtain ⟨-, rfl⟩ := deleteInstance_ok deleted
  exact .of_instances rfl rfl fun _ listed => (List.mem_filter.mp listed).1

theorem renameInstance_stays {uuid newName : String} {cooldown : Nat}
    (renamed : (renameInstance now uuid newName cooldown).run fleet = .ok (value, after)) : Stays fleet after := by
  obtain ⟨-, -, ⟨-, rfl⟩ | ⟨-, -, rfl⟩⟩ := renameInstanceAt_ok renamed
  · exact .of_instances rfl rfl fun _ listed => listed
  · refine ⟨rfl, rfl, fun row listed => ?_⟩
    obtain ⟨old, member, rfl⟩ := List.mem_map.mp listed
    refine ⟨old, member, ?_⟩
    split <;> exact ⟨rfl, rfl, rfl⟩

theorem createInstance_placed {row : Instance} {cooldown : Nat} {capacity : Capacity}
    (placed : fleet.Placed) (current : ∀ slot ∈ row.slot,
      slotOfAddress row.address (slotShift fleet.runnerPrefix) = some slot)
    (created : (createInstance now row cooldown capacity).run fleet = .ok (value, after)) : after.Placed := by
  obtain ⟨-, ⟨-, -, -, -, -, owned, -⟩, _, rfl⟩ := createInstance_ok created
  refine ⟨placed.ordered, placed.numbered, ?_, ?_⟩
  · intro other listed
    rcases List.mem_append.mp listed with old | new
    · exact placed.held other old
    · rw [List.mem_singleton.mp new]
      exact current
  · intro other listed
    rcases List.mem_append.mp listed with old | new
    · exact placed.owned other old
    · rw [List.mem_singleton.mp new]
      exact owned

theorem writeHost_stays {machineId : String} (written : (writeHost now machineId name).run fleet = .ok (value, after)) :
    Stays fleet after := by
  simp only [writeHost, run_bind_ok, run_get_ok] at written
  obtain ⟨_, _, ⟨rfl, rfl⟩, rest⟩ := written
  split at rest
  · simp only [run_bind_ok, run_refuseIf_ok, run_set_ok] at rest
    obtain ⟨_, _, ⟨-, rfl⟩, rfl⟩ := rest
    exact .of_instances rfl rfl fun _ listed => listed
  · split at rest
    · cases run_set_ok.mp rest
      exact .of_instances rfl rfl fun _ listed => listed
    · simp only [run_bind_ok, run_lift_ok, run_refuseIf_ok, run_set_ok] at rest
      obtain ⟨_, _, ⟨-, rfl⟩, _, _, ⟨-, rfl⟩, rfl⟩ := rest
      exact .of_instances rfl rfl fun _ listed => listed

theorem slotCount_pos (runnerPrefix : UInt8) : 0 < slotCount runnerPrefix := Nat.two_pow_pos _

theorem takeFirstSlot_placed {hostId : Int} (placed : fleet.Placed)
    (taken : (takeFirstSlot hostId).run fleet = .ok (value, after)) :
    after.Placed ∧ after.runnerPrefix = fleet.runnerPrefix := by
  simp only [takeFirstSlot, run_bind_ok, run_get_ok] at taken
  obtain ⟨_, _, ⟨rfl, rfl⟩, rest⟩ := taken
  split at rest
  next none =>
    cases run_set_ok.mp rest
    refine ⟨⟨List.pairwise_singleton _ _, ?_, placed.held, ?_⟩, rfl⟩
    · intro row listed
      rw [List.mem_singleton.mp listed]
      exact slotCount_pos _
    · intro row listed slot stored
      obtain ⟨owner, known, -⟩ := placed.owned row listed slot stored
      rw [none] at known
      exact absurd known List.not_mem_nil
  next =>
    obtain ⟨-, rfl⟩ := run_pure_ok.mp rest
    exact ⟨placed, rfl⟩

theorem ensureHost_placed {machineId : String} (placed : fleet.Placed)
    (ensured : (ensureHost now machineId name).run fleet = .ok (host, after)) :
    after.Placed ∧ after.runnerPrefix = fleet.runnerPrefix := by
  simp only [ensureHost, run_bind_ok, run_pure_ok] at ensured
  obtain ⟨_, named, written, _, _, found, _, _, taken, -, rfl⟩ := ensured
  have stays := writeHost_stays written
  cases findHost_ok found
  obtain ⟨still, same⟩ := takeFirstSlot_placed (placed.stay stays) taken
  exact ⟨still, same.trans stays.runnerPrefix⟩

/-- Whoever is stored in a slot that changes hands runs on the new owner: the guard of a
claim and the stored numbers look at the same addresses. -/
theorem claimSlot_placed {slot : Nat} {hostId : Int} {row : Slot} (placed : fleet.Placed)
    (claimed : (claimSlot slot hostId).run fleet = .ok (row, after)) :
    after.Placed ∧ after.runnerPrefix = fleet.runnerPrefix := by
  obtain ⟨inside, free, given⟩ := claimSlot_ok placed.ordered claimed
  have runnerPrefix : after.runnerPrefix = fleet.runnerPrefix := by rw [given.frame]
  have instances : after.instances = fleet.instances := by rw [given.frame]
  refine ⟨⟨given.ordered, ?_, ?_, (slotsOwned_claimed given placed.owned).mpr ?_⟩, runnerPrefix⟩
  · intro owned listed
    obtain ⟨new, place, -, rows⟩ := given.rows
    rw [runnerPrefix]
    rcases (rows owned).mp listed with rfl | ⟨old, -⟩
    · rw [place]
      exact inside
    · exact placed.numbered owned old
  · rw [instances, runnerPrefix]
    exact placed.held
  · intro guest listed stored
    have address := placed.held guest listed slot stored
    have unguarded := List.countP_eq_zero.mp free guest listed
    simpa [stored, address] using unguarded

theorem setRunnerPrefix_placed {new value : UInt8} (placed : fleet.Placed) (divided : fleet.Divided)
    (changed : (setRunnerPrefix new).run fleet = .ok (value, after)) : after.Placed ∧ after.Divided := by
  obtain ⟨low, high, fits, what⟩ := setRunnerPrefix_ok changed
  cases what with
  | same => exact ⟨placed, divided⟩
  | renumbered next differ joined owned =>
    refine ⟨⟨joined_ordered placed.ordered joined, joined_numbered divided.1 high placed.numbered fits joined, ?_, ?_⟩,
      low, high⟩
    · intro row listed slot stored
      obtain ⟨old, -, rfl⟩ := List.mem_map.mp listed
      exact stored
    · intro row listed slot stored
      obtain ⟨old, member, rfl⟩ := List.mem_map.mp listed
      exact owned old member slot stored

end

end Bento.Store

namespace Bento.Lifecycle
open Library Library.Runs Library.Transactions Store

def Allocation.Current (allocation : Allocation) (fleet : Fleet) : Prop :=
  slotOfAddress (Ipv4.text allocation.address) (slotShift fleet.runnerPrefix) = some allocation.slot

instance (allocation : Allocation) (fleet : Fleet) : Decidable (allocation.Current fleet) :=
  inferInstanceAs (Decidable (_ = _))

namespace Controllers

def migrated (users : List User) (images imageVersions : List String) : Controllers where
  fleet := ⟨24, [], [], [], users, images, imageVersions, []⟩
  allocations := []

def CreatesInPlace (state : Controllers) : Call → Prop
  | .createInstance _ index _ _ _ => ∀ allocation ∈ state.allocations[index]?, allocation.Current state.fleet
  | _ => True

instance (state : Controllers) (call : Call) : Decidable (state.CreatesInPlace call) := by
  cases call <;> unfold Controllers.CreatesInPlace <;> infer_instance

structure Sound (state : Controllers) : Prop where
  placed : state.fleet.Placed
  divided : state.fleet.Divided

theorem Sound.migrated (users : List User) (images imageVersions : List String) :
    (migrated users images imageVersions).Sound := by
  have known : (24 : UInt8) ≤ 24 ∧ (24 : UInt8) ≤ 27 := by decide
  refine ⟨⟨.nil, ?_, ?_, ?_⟩, known⟩
  · exact fun row listed => absurd listed List.not_mem_nil
  · exact fun row listed => absurd listed List.not_mem_nil
  · exact fun row listed => absurd listed List.not_mem_nil

section
variable {state : Controllers}

theorem Sound.commit {α : Type} {body : FleetTx α} (sound : state.Sound)
    (kept : ∀ value after, body.run state.fleet = .ok (value, after) → after.Placed ∧ after.Divided) :
    (state.commit body).Sound := by
  cases ran : body.run state.fleet with
  | error =>
    have same : state.commit body = state := by rw [Controllers.commit, withTx, ran]
    rw [same]
    exact sound
  | ok result =>
    have same : state.commit body = { state with fleet := result.2 } := by rw [Controllers.commit, withTx, ran]
    obtain ⟨placed, divided⟩ := kept result.1 result.2 ran
    rw [same]
    exact ⟨placed, divided⟩

theorem Sound.commit_stays {α : Type} {body : FleetTx α} (sound : state.Sound)
    (stays : ∀ value after, body.run state.fleet = .ok (value, after) → Stays state.fleet after) :
    (state.commit body).Sound := by
  apply sound.commit
  intro value after ran
  have same := (stays value after ran).runnerPrefix
  exact ⟨sound.placed.stay (stays value after ran), same ▸ sound.divided.1, same ▸ sound.divided.2⟩

theorem Sound.step {call : Call} {next : Controllers} (allowed : state.CreatesInPlace call)
    (moved : state.step call = some next) (sound : state.Sound) : next.Sound := by
  cases call with
  | ensureHost =>
    cases moved
    apply sound.commit
    intro host after ran
    obtain ⟨placed, same⟩ := ensureHost_placed sound.placed ran
    exact ⟨placed, same ▸ sound.divided.1, same ▸ sound.divided.2⟩
  | registerRunner =>
    cases moved
    exact sound.commit_stays fun _ _ ran => registerRunner_stays ran
  | claimSlot =>
    cases moved
    apply sound.commit
    intro row after ran
    obtain ⟨placed, same⟩ := claimSlot_placed sound.placed ran
    exact ⟨placed, same ▸ sound.divided.1, same ▸ sound.divided.2⟩
  | setRunnerPrefix =>
    cases moved
    exact sound.commit fun _ _ ran => setRunnerPrefix_placed sound.placed sound.divided ran
  | allocate =>
    simp only [Controllers.step] at moved
    split at moved
    · cases moved
      exact ⟨sound.placed, sound.divided⟩
    · cases moved
      exact sound
  | createInstance now index draft =>
    obtain ⟨allocation, known, rfl⟩ := Option.map_eq_some_iff.mp moved
    apply sound.commit
    intro value after ran
    have current : ∀ slot ∈ (allocation.fill draft).slot,
        slotOfAddress (allocation.fill draft).address (slotShift state.fleet.runnerPrefix) = some slot := by
      rintro slot ⟨⟩
      exact allowed allocation known
    have placed := createInstance_placed sound.placed current ran
    obtain ⟨-, -, _, rfl⟩ := createInstance_ok ran
    exact ⟨placed, sound.divided⟩
  | renameInstance =>
    cases moved
    exact sound.commit_stays fun _ _ ran => renameInstance_stays ran
  | deleteInstance =>
    cases moved
    exact sound.commit_stays fun _ _ ran => deleteInstance_stays ran

end

end Controllers

theorem runs_keep_instances_placed (users : List User) (images imageVersions : List String) (calls : List Call)
    (final : Controllers) (ran : exec Controllers.step (.migrated users images imageVersions) calls = some final)
    (inPlace : Obeys Controllers.step Controllers.CreatesInPlace (.migrated users images imageVersions) calls) :
    final.fleet.Placed := by
  have sound : final.Sound := by
    apply invariant _ ran inPlace (Controllers.Sound.migrated users images imageVersions)
    intro state call next allowed moved sound
    exact sound.step allowed moved
  exact sound.placed

def draft : Instance where
  uuid := "0b5e"
  name := "web"
  ownerId := 1
  hostId := 0
  imageName := "debian"
  baseChecksum := "sha256-0"
  state := .stopped
  desiredState := .running
  address := []
  mac := "52:54:00:00:00:01"
  vcpu := 1
  memoryMib := 512
  diskGib := 10
  nested := false
  ksm := true
  httpPort := 80
  visibility := .off
  createdAt := 0
  lastSeenAt := none
  slot := none

def allocated : List Call := [
  .ensureHost 0 "m1" "controller",
  .setRunnerPrefix 25,
  .registerRunner 0 "runner" "10.0.0.2:7000".toList "10.0.0.2".toList,
  .claimSlot 1 2,
  .allocate 2 ⟨0x0A640000, 24⟩]

def start : Controllers := .migrated [⟨1, "alice", "10.100.0.0/24".toList⟩] ["debian"] ["sha256-0"]

def create : Call := .createInstance 0 0 draft 0 ⟨.unbounded, .unbounded⟩

theorem runs_keep_instances_placed_runner : ∃ final, exec Controllers.step start (allocated ++ [create]) = some final ∧
    final.fleet.instances.map (·.slot) = [some 1] ∧ final.fleet.Placed := by
  have inPlace : Obeys Controllers.step Controllers.CreatesInPlace start (allocated ++ [create]) := by decide +kernel
  have created : ((exec Controllers.step start (allocated ++ [create])).map fun final =>
      final.fleet.instances.map (·.slot)) = some [some 1] := by decide +kernel
  obtain ⟨final, ran, held⟩ := Option.map_eq_some_iff.mp created
  exact ⟨final, ran, held, runs_keep_instances_placed _ _ _ _ final ran inPlace⟩

/-- The networks are divided once more before the create, and the runner has claimed slot
1, where the address does not lie. -/
theorem late_create_misplaces :
    ∃ final, exec Controllers.step start (allocated ++ [.setRunnerPrefix 26, .claimSlot 1 2, create]) = some final ∧
    (final.fleet.instances.map fun row => (row.slot, slotOfAddress row.address (slotShift final.fleet.runnerPrefix))) =
      [(some 1, some 2)] ∧ ¬ final.fleet.Placed := by
  have created : ((exec Controllers.step start
    (allocated ++ [.setRunnerPrefix 26, .claimSlot 1 2, create])).map fun final =>
      final.fleet.instances.map fun row => (row.slot, slotOfAddress row.address (slotShift final.fleet.runnerPrefix))) =
        some [(some 1, some 2)] := by decide +kernel
  obtain ⟨final, ran, held⟩ := Option.map_eq_some_iff.mp created
  refine ⟨final, ran, held, fun placed => ?_⟩
  obtain ⟨row, listed, places⟩ : ∃ row ∈ final.fleet.instances,
      (row.slot, slotOfAddress row.address (slotShift final.fleet.runnerPrefix)) = (some 1, some 2) := by
    rw [← List.mem_map, held]
    exact List.mem_singleton_self _
  obtain ⟨stored, address⟩ := Prod.mk.inj places
  rw [placed.held row listed 1 stored] at address
  cases address

end Bento.Lifecycle
