import Bento.Store.Instances

/-! What the transactions on instance rows do when they succeed, one statement for each, and
the errors that they fail with. -/

namespace Bento.Store
open Library.Decimal Library.Transactions Option

/-- An update is one write of all rows that were selected. The trigger looks at each of them. -/
theorem updateInstances_ok {selected : Instance → Bool} {change : Instance → Instance}
    {fleet after : Fleet} {count : Nat} :
    (updateInstances selected change).run fleet = .ok (count, after) ↔
      (∀ row ∈ fleet.instances, selected row = true → fleet.ownsSlot (change row)) ∧
      count = fleet.instances.countP selected ∧
      after = { fleet with instances := fleet.instances.map fun row => if selected row then change row else row } := by
  simp only [updateInstances, run_bind_ok, run_get_ok, run_refuseIf_ok, run_set_ok, run_pure_ok]
  constructor
  · rintro ⟨_, _, ⟨rfl, rfl⟩, _, _, ⟨passed, rfl⟩, _, _, rfl, rfl, rfl⟩
    refine ⟨fun row listed chosen => ?_, rfl, rfl⟩
    by_contra refused
    exact passed ⟨row, listed, chosen, refused⟩
  · rintro ⟨passed, rfl, rfl⟩
    refine ⟨_, _, ⟨rfl, rfl⟩, (), _, ⟨?_, rfl⟩, (), _, rfl, rfl, rfl⟩
    rintro ⟨row, listed, chosen, refused⟩
    exact refused (passed row listed chosen)

theorem find?_update (instances : List Instance) (selected : String) {change : Instance → Instance}
    (keeps : ∀ row, (change row).uuid = row.uuid) (uuid : String) :
    (instances.map fun row => if row.uuid = selected then change row else row).find? (·.uuid = uuid) =
      (instances.find? (·.uuid = uuid)).map fun row => if row.uuid = selected then change row else row := by
  rw [List.find?_map]
  congr 2
  funext row
  simp only [Function.comp_apply]
  split
  next => rw [keeps]
  next => rfl

theorem Column.write_uuid (row : Instance) (column : Column) : (column.write row).uuid = row.uuid := by
  cases column <;> rfl

section
variable {fleet after : Fleet}

variable {uuid name newName : String} {value : Unit} {row : Instance} {now previousOwnerId claimedAt releasedAt : Int}
  {cooldown : Nat} {capacity : Capacity}

theorem updateInstance_ok {column : Column} (written : (updateInstance uuid column).run fleet = .ok (value, after)) :
    after = { fleet with instances := fleet.instances.map fun row => if row.uuid = uuid then column.write row else row } := by
  simp only [updateInstance, run_bind_ok, updateInstances_ok, run_refuseIf_ok] at written
  obtain ⟨_, _, ⟨-, -, rfl⟩, -, rfl⟩ := written
  simp only [decide_eq_true_eq]

theorem getInstanceTx_ok : (getInstanceTx uuid).run fleet = .ok (row, after) ↔
    fleet.instances.find? (·.uuid = uuid) = some row ∧ fleet = after := by
  simp only [getInstanceTx, run_bind_ok, run_get_ok]
  constructor
  · rintro ⟨_, _, ⟨rfl, rfl⟩, rest⟩
    split at rest
    next known =>
      obtain ⟨rfl, rfl⟩ := run_pure_ok.mp rest
      exact ⟨known, rfl⟩
    next => cases rest
  · rintro ⟨known, rfl⟩
    refine ⟨_, _, ⟨rfl, rfl⟩, ?_⟩
    rw [known]
    exact run_pure_ok.mpr ⟨rfl, rfl⟩

def Fleet.lastRelease (fleet : Fleet) (name : String) : Option ReleasedName := fleet.releasedNames.find? (·.name = name)

/-- Why a name cannot be claimed, if it cannot. -/
def Fleet.claimRefusal (fleet : Fleet) (name : String) (userId : Int) (cooldown : Nat) (now : Int) : Option Error :=
  if ∃ row ∈ fleet.instances, row.name = name then some .nameTaken
  else (fleet.lastRelease name).bind fun released =>
    if released.previousOwnerId = userId then none
    else (remainingCooldown released.releasedAt now cooldown).map (.nameCooldown name)

/-- A claim only looks: it leaves the fleet as it was, and fails with its refusal. -/
theorem claimNameTx_run (fleet : Fleet) (name : String) (userId : Int) (cooldown : Nat) (now : Int) :
    (claimNameTx name userId cooldown now).run fleet =
      match fleet.claimRefusal name userId cooldown now with
      | none => .ok ((), fleet)
      | some error => .error error := by
  unfold claimNameTx Fleet.claimRefusal Fleet.lastRelease
  rw [run_get_bind, run_refuseIf_bind]
  split
  next => rfl
  next =>
    cases fleet.releasedNames.find? (·.name = name) with
    | none => rfl
    | some released =>
      simp only [bind_some]
      cases remainingCooldown released.releasedAt now cooldown with
      | none =>
        rw [map_none, ite_self]
        rfl
      | some =>
        rw [map_some, run_refuseIf]
        by_cases own : released.previousOwnerId = userId
        · rw [if_pos own, if_neg (not_not_intro own)]
        · rw [if_neg own, if_pos own]

theorem claimNameTx_ok {userId : Int} : (claimNameTx name userId cooldown now).run fleet = .ok (value, after) ↔
      fleet.claimRefusal name userId cooldown now = none ∧ fleet = after := by
  rw [claimNameTx_run]
  cases fleet.claimRefusal name userId cooldown now with
  | none => simp
  | some => simp

def Fleet.released (fleet : Fleet) (record : ReleasedName) : List ReleasedName :=
  fleet.releasedNames.filter (fun other : ReleasedName => other.name ≠ record.name) ++ [record]

theorem lastRelease_released {record : ReleasedName}
    (written : after.releasedNames = fleet.released record) (name : String) :
    after.lastRelease name = if record.name = name then some record else fleet.lastRelease name := by
  unfold Fleet.lastRelease
  rw [written]
  unfold Fleet.released
  rw [List.find?_append]
  by_cases same : record.name = name
  · subst same
    have gone : (fleet.releasedNames.filter fun other : ReleasedName => other.name ≠ record.name).find?
        (·.name = record.name) = none := by
      rw [List.find?_eq_none]
      intro other listed own
      exact of_decide_eq_true (List.mem_filter.mp listed).2 (of_decide_eq_true own)
    rw [gone, if_pos rfl, none_or, List.find?_cons_of_pos (by simp)]
  · have kept : (fun other : ReleasedName =>
      decide (decide (other.name ≠ record.name) = true ∧ decide (other.name = name) = true)) =
        fun other => decide (other.name = name) := by
      funext other
      by_cases own : other.name = name
      · simp [own, Ne.symm same]
      · simp [own]
    rw [List.find?_filter, kept, if_neg same, List.find?_cons_of_neg (by simpa using same), List.find?_nil, or_none]

theorem releaseNameTx_ok (written : (releaseNameTx name previousOwnerId now).run fleet = .ok (value, after)) :
    after = { fleet with releasedNames := fleet.released ⟨name, previousOwnerId, now⟩ } := by
  simp only [releaseNameTx, run_bind_ok, run_get_ok, run_refuseIf_ok, run_lift_ok, run_set_ok] at written
  obtain ⟨_, _, ⟨-, rfl⟩, _, _, ⟨rfl, rfl⟩, _, _, ⟨-, rfl⟩, rfl⟩ := written
  rfl

theorem releaseNameTx_known (written : (releaseNameTx name previousOwnerId now).run fleet = .ok (value, after)) :
    ∃ user ∈ fleet.users, user.id = previousOwnerId := by
  simp only [releaseNameTx, run_bind_ok, run_get_ok, run_refuseIf_ok, run_lift_ok, run_set_ok] at written
  obtain ⟨_, _, ⟨-, rfl⟩, _, _, ⟨rfl, rfl⟩, _, _, ⟨known, rfl⟩, -⟩ := written
  by_contra none
  exact known fun user listed same => none ⟨user, listed, same⟩

theorem releaseNameTx_runs (writable : (formatTime now).isOk = true)
    (known : ∃ user ∈ fleet.users, user.id = previousOwnerId) :
    (releaseNameTx name previousOwnerId now).run fleet =
      .ok ((), { fleet with releasedNames := fleet.released ⟨name, previousOwnerId, now⟩ }) := by
  obtain ⟨user, listed, same⟩ := known
  simp only [releaseNameTx, run_bind_ok, run_get_ok, run_refuseIf_ok, run_lift_ok, run_set_ok]
  cases written : formatTime now with
  | error =>
    rw [written] at writable
    cases writable
  | ok text =>
    exact ⟨text, fleet, ⟨rfl, rfl⟩, fleet, fleet, ⟨rfl, rfl⟩, (), fleet, ⟨fun none => none user listed same, rfl⟩, rfl⟩

/-- The sum that is compared does not wrap around, it stops at the largest number. -/
def Ceiling.Admits (ceiling : Ceiling) (used requested : Nat) : Prop :=
  match ceiling with
  | .unbounded => True
  | .limit limit => min (used + requested) (2 ^ 64 - 1) ≤ limit

instance (ceiling : Ceiling) (used requested : Nat) : Decidable (Ceiling.Admits ceiling used requested) := by
  cases ceiling <;> unfold Ceiling.Admits <;> infer_instance

def Fleet.beside (fleet : Fleet) (hostId : Int) (excludeUuid : String) : List Instance :=
  fleet.instances.filter fun row => row.hostId = hostId ∧ row.uuid ≠ excludeUuid

/-- What the check of the capacity asks: sums that the database can read, and ceilings that
admit them. -/
structure Fleet.HasRoom (fleet : Fleet) (hostId : Int) (excludeUuid : String) (addMemory addDisk : Nat)
    (capacity : Capacity) : Prop where
  readable : ¬ (maxInteger < ((fleet.beside hostId excludeUuid).map Instance.memoryMib).sum ∨
    maxInteger < ((fleet.beside hostId excludeUuid).map Instance.diskGib).sum)
  memory : Ceiling.Admits capacity.memoryMib ((fleet.beside hostId excludeUuid).map Instance.memoryMib).sum addMemory
  disk : Ceiling.Admits capacity.diskGib ((fleet.beside hostId excludeUuid).map Instance.diskGib).sum addDisk

instance (fleet : Fleet) (hostId : Int) (excludeUuid : String) (addMemory addDisk : Nat) (capacity : Capacity) :
    Decidable (fleet.HasRoom hostId excludeUuid addMemory addDisk capacity) :=
  decidable_of_iff (_ ∧ _ ∧ _) ⟨fun room => ⟨room.1, room.2.1, room.2.2⟩, fun room =>
    ⟨room.readable, room.memory, room.disk⟩⟩

theorem refuse_ok {ceiling : Ceiling} {resource : Resource} {used requested : Nat} :
    (Ceiling.refuse ceiling resource used requested).run fleet = .ok (value, after) ↔
      Ceiling.Admits ceiling used requested ∧ fleet = after := by
  cases ceiling with
  | unbounded => simp only [Ceiling.refuse, Ceiling.Admits, run_pure_ok, true_and]
  | limit => simp only [Ceiling.refuse, Ceiling.Admits, run_refuseIf_ok, Nat.not_lt]

theorem checkCapacityTx_ok {hostId : Int} {excludeUuid : String} {addMemory addDisk : Nat} :
    (checkCapacityTx hostId excludeUuid addMemory addDisk capacity).run fleet = .ok (value, after) ↔
      fleet.HasRoom hostId excludeUuid addMemory addDisk capacity ∧ fleet = after := by
  simp only [checkCapacityTx, run_bind_ok, run_get_ok, run_refuseIf_ok, refuse_ok]
  constructor
  · rintro ⟨_, _, ⟨rfl, rfl⟩, _, _, ⟨readable, rfl⟩, _, _, ⟨memory, rfl⟩, disk, rfl⟩
    exact ⟨⟨readable, memory, disk⟩, rfl⟩
  · rintro ⟨⟨readable, memory, disk⟩, rfl⟩
    exact ⟨_, _, ⟨rfl, rfl⟩, (), _, ⟨readable, rfl⟩, (), _, ⟨memory, rfl⟩, disk, rfl⟩

theorem createInstance_ok (created : (createInstance now row cooldown capacity).run fleet = .ok (value, after)) :
    fleet.claimRefusal row.name row.ownerId cooldown now = none ∧ fleet.admits row ∧ ∃ createdAt,
      after = { fleet with instances := fleet.instances ++ [{ row with createdAt, lastSeenAt := none }] } := by
  simp only [createInstance, run_bind_ok, run_lift_ok, run_get_ok, run_refuseIf_ok, run_set_ok] at created
  obtain ⟨_, _, claimed, _, _, room, _, _, ⟨-, rfl⟩, _, _, ⟨rfl, rfl⟩, _, _, ⟨admitted, rfl⟩, rfl⟩ := created
  obtain ⟨unrefused, rfl⟩ := claimNameTx_ok.mp claimed
  obtain ⟨-, rfl⟩ := checkCapacityTx_ok.mp room
  exact ⟨unrefused, not_not.mp admitted, _, rfl⟩

theorem deleteInstance_ok (deleted : (deleteInstance now uuid).run fleet = .ok (row, after)) :
    fleet.instances.find? (·.uuid = uuid) = some row ∧ after = { fleet with
        instances := fleet.instances.filter fun other => other.uuid ≠ uuid
        releasedNames := fleet.released ⟨row.name, row.ownerId, now⟩ } := by
  simp only [deleteInstance, run_bind_ok, run_modify_ok, run_pure_ok] at deleted
  obtain ⟨_, _, found, _, _, rfl, _, _, released, rfl, rfl⟩ := deleted
  obtain ⟨known, rfl⟩ := getInstanceTx_ok.mp found
  rw [releaseNameTx_ok released]
  exact ⟨known, rfl⟩

theorem renameInstanceAt_ok
    (renamed : (renameInstanceAt claimedAt releasedAt uuid newName cooldown).run fleet = .ok (value, after)) :
    ∃ row, fleet.instances.find? (·.uuid = uuid) = some row ∧ (row.name = newName ∧ after = fleet ∨
        row.name ≠ newName ∧ fleet.claimRefusal newName row.ownerId cooldown claimedAt = none ∧
          after = { fleet with
            instances := fleet.instances.map fun row => if row.uuid = uuid then { row with name := newName } else row
            releasedNames := fleet.released ⟨row.name, row.ownerId, releasedAt⟩ }) := by
  simp only [renameInstanceAt, run_bind_ok] at renamed
  obtain ⟨row, _, found, rest⟩ := renamed
  obtain ⟨known, rfl⟩ := getInstanceTx_ok.mp found
  refine ⟨row, known, ?_⟩
  split at rest
  next same => exact .inl ⟨same, (run_pure_ok.mp rest).2.symm⟩
  next other =>
    simp only [run_bind_ok, updateInstances_ok] at rest
    obtain ⟨_, _, claimed, _, _, ⟨-, -, rfl⟩, released⟩ := rest
    obtain ⟨unrefused, rfl⟩ := claimNameTx_ok.mp claimed
    refine .inr ⟨other, unrefused, ?_⟩
    rw [releaseNameTx_ok released]
    simp only [decide_eq_true_eq]
    rfl

theorem renameInstanceAt_passed
    (renamed : (renameInstanceAt claimedAt releasedAt uuid newName cooldown).run fleet = .ok (value, after))
    (known : fleet.instances.find? (·.uuid = uuid) = some row) (other : row.name ≠ newName) :
    (∀ row ∈ fleet.instances, row.uuid = uuid → fleet.ownsSlot row) ∧ ∃ user ∈ fleet.users, user.id = row.ownerId := by
  simp only [renameInstanceAt, run_bind_ok] at renamed
  obtain ⟨_, _, found, rest⟩ := renamed
  obtain ⟨again, rfl⟩ := getInstanceTx_ok.mp found
  cases known.symm.trans again
  rw [if_neg other] at rest
  simp only [run_bind_ok, updateInstances_ok, decide_eq_true_eq] at rest
  obtain ⟨_, _, claimed, _, _, ⟨passed, -, rfl⟩, released⟩ := rest
  obtain ⟨-, rfl⟩ := claimNameTx_ok.mp claimed
  have owner := releaseNameTx_known released
  exact ⟨passed, owner⟩

theorem renameInstanceAt_runs (known : fleet.instances.find? (·.uuid = uuid) = some row) (other : row.name ≠ newName)
    (granted : fleet.claimRefusal newName row.ownerId cooldown claimedAt = none)
    (passed : ∀ row ∈ fleet.instances, row.uuid = uuid → fleet.ownsSlot row)
    (writable : (formatTime releasedAt).isOk = true) (owner : ∃ user ∈ fleet.users, user.id = row.ownerId) :
    (renameInstanceAt claimedAt releasedAt uuid newName cooldown).run fleet = .ok ((), { fleet with
      instances := fleet.instances.map fun row => if row.uuid = uuid then { row with name := newName } else row
      releasedNames := fleet.released ⟨row.name, row.ownerId, releasedAt⟩ }) := by
  simp only [renameInstanceAt, run_bind_ok]
  refine ⟨row, fleet, getInstanceTx_ok.mpr ⟨known, rfl⟩, ?_⟩
  rw [if_neg other]
  simp only [run_bind_ok, updateInstances_ok, decide_eq_true_eq]
  exact ⟨(), fleet, claimNameTx_ok.mpr ⟨granted, rfl⟩, _, _, ⟨passed, rfl, rfl⟩, releaseNameTx_runs writable owner⟩

/-- The state that a resize needs to succeed. -/
def Fleet.Resizable (fleet : Fleet) (uuid : String) (memoryMib diskGib : Nat) (capacity : Capacity) : Prop :=
  (∃ row ∈ fleet.instances.find? (·.uuid = uuid), fleet.HasRoom row.hostId uuid memoryMib diskGib capacity) ∧
  memoryMib ≤ maxInteger ∧ diskGib ≤ maxInteger ∧ ∀ row ∈ fleet.instances, row.uuid = uuid → fleet.ownsSlot row

instance (fleet : Fleet) (uuid : String) (memoryMib diskGib : Nat) (capacity : Capacity) :
    Decidable (fleet.Resizable uuid memoryMib diskGib capacity) := by
  unfold Fleet.Resizable
  infer_instance

theorem resize_ok {vcpu memoryMib diskGib : Nat} {nested : Bool} :
    (resize uuid vcpu memoryMib diskGib nested capacity).run fleet = .ok ((), after) ↔
      fleet.Resizable uuid memoryMib diskGib capacity ∧ after = { fleet with instances := fleet.instances.map fun row =>
        if row.uuid = uuid then { row with vcpu, memoryMib, diskGib, nested } else row } := by
  simp only [resize, run_bind_ok, getInstanceTx_ok, checkCapacityTx_ok, run_refuseIf_ok, updateInstances_ok,
    run_pure_ok, decide_eq_true_eq, true_and]
  constructor
  · rintro ⟨row, _, ⟨known, rfl⟩, _, _, ⟨room, rfl⟩, _, _, ⟨small, rfl⟩, _, _, ⟨owned, -, rfl⟩, rfl⟩
    obtain ⟨memory, disk⟩ := not_or.mp small
    exact ⟨⟨⟨row, known, room⟩, Int.not_lt.mp memory, Int.not_lt.mp disk, owned⟩, rfl⟩
  · rintro ⟨⟨⟨row, known, room⟩, memory, disk, owned⟩, rfl⟩
    have small : ¬ (maxInteger < memoryMib ∨ maxInteger < diskGib) := by omega
    exact ⟨row, _, ⟨known, rfl⟩, (), _, ⟨room, rfl⟩, (), _, ⟨small, rfl⟩, _, _, ⟨owned, rfl, rfl⟩, rfl⟩

end

section
variable {allowed : Error → Prop}

theorem raises_formatTime (listed : allowed .sqlite) (instant : Int) :
    Raises allowed (liftM (formatTime instant) : FleetTx Text) := by
  refine .lift fun error failed => ?_
  unfold formatTime at failed
  split at failed
  · cases failed
  · cases failed
    exact listed

theorem raises_updateInstances (listed : allowed .sqlite) (selected : Instance → Bool) (change : Instance → Instance) :
    Raises allowed (updateInstances selected change) :=
  .bind .get fun _ => .bind (.refuseIf listed) fun _ => .bind (.set _) fun _ => .pure _

theorem raises_releaseNameTx (listed : allowed .sqlite) (name : String) (previousOwnerId now : Int) :
    Raises allowed (releaseNameTx name previousOwnerId now) :=
  .bind (raises_formatTime listed now) fun _ => .bind .get fun _ => .bind (.refuseIf listed) fun _ => .set _

theorem raises_getInstanceTx (listed : allowed .notFound) (uuid : String) : Raises allowed (getInstanceTx uuid) := by
  refine .bind .get fun fleet => ?_
  cases fleet.instances.find? (·.uuid = uuid) with
  | some row => exact .pure row
  | none =>
    intro state error failed
    cases failed
    exact listed

end

/-! ### A small deployment

Two users, a controller and a runner, for the runs that other modules show. -/

def plainGuest (uuid name : String) (hostId : Int) : Instance where
  uuid := uuid
  name := name
  ownerId := 1
  hostId := hostId
  imageName := "debian"
  baseChecksum := "sha256-0"
  state := .stopped
  desiredState := .stopped
  address := uuid.toList
  mac := uuid
  vcpu := 1
  memoryMib := 512
  diskGib := 10
  nested := false
  ksm := true
  httpPort := 80
  visibility := .off
  createdAt := 1
  lastSeenAt := none
  slot := none

def smallFleet (instances : List Instance) : Fleet where
  runnerPrefix := 24
  hosts := [⟨1, none, "controller", none, none⟩, ⟨2, none, "runner", none, none⟩]
  slots := []
  instances := instances
  users := [⟨1, "alice", "10.100.0.0/24".toList⟩, ⟨2, "bob", "10.100.1.0/24".toList⟩]
  images := ["debian"]
  imageVersions := ["sha256-0"]
  releasedNames := []

def unlimited : Capacity := ⟨.unbounded, .unbounded⟩

end Bento.Store
