import Bento.Store.Fleet

/-! The instance rows: they are created, renamed, resized and deleted under the rules for
names and for the capacity of their host. -/

namespace Bento.Store
open Library.Transactions

def remainingCooldown (releasedAt now : Int) (cooldown : Nat) : Option Nat :=
  let remaining := cooldown - (now - releasedAt)
  if remaining ≤ 0 then none
  else if remaining / 1000000000 < 2 ^ 64 then some remaining.toNat else none

/-- Another user waits out the cooldown of a released name; a name in use is taken. -/
def claimNameTx (name : String) (userId : Int) (cooldown : Nat) (now : Int) : FleetTx Unit := do
  let fleet ← get
  refuseIf (∃ row ∈ fleet.instances, row.name = name) .nameTaken
  match fleet.releasedNames.find? (·.name = name) with
  | none => return
  | some released =>
    match remainingCooldown released.releasedAt now cooldown with
    | none => return
    | some remaining => refuseIf (released.previousOwnerId ≠ userId) (.nameCooldown name remaining)

def releaseNameTx (name : String) (previousOwnerId now : Int) : FleetTx Unit := do
  let _ ← formatTime now
  let fleet ← get
  refuseIf (∀ user ∈ fleet.users, user.id ≠ previousOwnerId) .sqlite
  let released : ReleasedName := ⟨name, previousOwnerId, now⟩
  set { fleet with releasedNames := fleet.releasedNames.filter (fun other : ReleasedName => other.name ≠ name) ++ [released] }

def Ceiling.refuse (ceiling : Ceiling) (resource : Resource) (used requested : Nat) : FleetTx Unit :=
  match ceiling with
  | .unbounded => return
  | .limit limit => refuseIf (limit < min (used + requested) (2 ^ 64 - 1)) (.capacity resource used requested limit)

/-- Refuses work that would take one machine past its ceiling. The row being resized does
not count; no row has an empty uuid. -/
def checkCapacityTx (hostId : Int) (excludeUuid : String) (addMemory addDisk : Nat) (capacity : Capacity) :
    FleetTx Unit := do
  let fleet ← get
  let counted := fleet.instances.filter fun row => row.hostId = hostId ∧ row.uuid ≠ excludeUuid
  let memory := (counted.map Instance.memoryMib).sum
  let disk := (counted.map Instance.diskGib).sum
  refuseIf (maxInteger < memory ∨ maxInteger < disk) .sqlite
  Ceiling.refuse capacity.memoryMib .memory memory addMemory
  Ceiling.refuse capacity.diskGib .disk disk addDisk

def Fleet.admits (fleet : Fleet) (row : Instance) : Prop :=
  (∀ other ∈ fleet.instances, other.uuid ≠ row.uuid ∧ other.name ≠ row.name ∧ other.address ≠ row.address ∧
    other.mac ≠ row.mac) ∧
  (∃ user ∈ fleet.users, user.id = row.ownerId) ∧ (∃ host ∈ fleet.hosts, host.id = row.hostId) ∧
  row.imageName ∈ fleet.images ∧ row.baseChecksum ∈ fleet.imageVersions ∧ fleet.ownsSlot row ∧
  (row.memoryMib : Int) ≤ maxInteger ∧ (row.diskGib : Int) ≤ maxInteger

instance (fleet : Fleet) (row : Instance) : Decidable (fleet.admits row) := by
  unfold Fleet.admits
  infer_instance

def createInstance (now : Int) (row : Instance) (nameCooldown : Nat) (capacity : Capacity) : FleetTx Unit := do
  claimNameTx row.name row.ownerId nameCooldown now
  checkCapacityTx row.hostId "" row.memoryMib row.diskGib capacity
  let createdAt := if row.createdAt = 0 then now else row.createdAt
  let _ ← formatTime createdAt
  let fleet ← get
  refuseIf (¬ fleet.admits row) .sqlite
  set { fleet with instances := fleet.instances ++ [{ row with createdAt, lastSeenAt := none }] }

def getInstanceTx (uuid : String) : FleetTx Instance := do
  let fleet ← get
  match fleet.instances.find? (·.uuid = uuid) with
  | some row => return row
  | none => throw .notFound

def deleteInstance (now : Int) (uuid : String) : FleetTx Instance := do
  let row ← getInstanceTx uuid
  modify fun fleet => { fleet with instances := fleet.instances.filter fun other => other.uuid ≠ uuid }
  releaseNameTx row.name row.ownerId now
  return row

/-- Claiming the new name, updating the row and releasing the old name share one
transaction. It reads its clock twice. -/
def renameInstanceAt (claimedAt releasedAt : Int) (uuid newName : String) (nameCooldown : Nat) : FleetTx Unit := do
  let row ← getInstanceTx uuid
  if row.name = newName then
    return
  else
    claimNameTx newName row.ownerId nameCooldown claimedAt
    let _ ← updateInstances (·.uuid = uuid) fun row => { row with name := newName }
    releaseNameTx row.name row.ownerId releasedAt

def renameInstance (now : Int) : String → String → Nat → FleetTx Unit := renameInstanceAt now now

def resize (uuid : String) (vcpu memoryMib diskGib : Nat) (nested : Bool) (capacity : Capacity) : FleetTx Unit := do
  let existing ← getInstanceTx uuid
  checkCapacityTx existing.hostId uuid memoryMib diskGib capacity
  refuseIf (maxInteger < memoryMib ∨ maxInteger < diskGib) .sqlite
  let _ ← updateInstances (·.uuid = uuid) fun row => { row with vcpu, memoryMib, diskGib, nested }

def checkResize (uuid : String) (memoryMib diskGib : Nat) (capacity : Capacity) : FleetTx Unit := do
  let existing ← getInstanceTx uuid
  checkCapacityTx existing.hostId uuid memoryMib diskGib capacity

def updateObservedStates : List (String × PowerState) → FleetTx Unit
  | [] => return
  | (uuid, state) :: states => do
    let _ ← updateInstances (·.uuid = uuid) fun row => { row with state }
    updateObservedStates states

inductive Column where
  | desiredState (value : DesiredState)
  | state (value : PowerState)
  | visibility (value : Visibility)
  | httpPort (value : UInt16)
  | lastSeenAt (value : Int)

def Column.write (row : Instance) : Column → Instance
  | .desiredState value => { row with desiredState := value }
  | .state value => { row with state := value }
  | .visibility value => { row with visibility := value }
  | .httpPort value => { row with httpPort := value }
  | .lastSeenAt value => { row with lastSeenAt := some value }

def updateInstance (uuid : String) (column : Column) : FleetTx Unit := do
  let changed ← updateInstances (·.uuid = uuid) column.write
  refuseIf (changed = 0) .notFound

end Bento.Store
