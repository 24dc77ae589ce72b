import Bento.Store.Fleet
import Mathlib.Data.List.Sort

/-! The machines and the slots they own. A slot number means an address range only
together with the runner prefix, so changing the prefix rewrites the slot rows and the
slot numbers of the instances. -/

namespace Bento.Store
open Library.Decimal Library.Transactions

def Fleet.updateHosts (fleet : Fleet) (change : Host → Host) : Fleet := { fleet with hosts := fleet.hosts.map change }

def Fleet.updateSlots (fleet : Fleet) (change : Slot → Slot) : Fleet := { fleet with slots := fleet.slots.map change }

/-- Writes the row of a machine. The machine id is the key and the name is a label. The
one row of an old database that no machine has claimed is this machine. -/
def writeHost (now : Int) (machineId name : String) : FleetTx Unit := do
  let fleet ← get
  if ∃ host ∈ fleet.hosts, host.machineId = some machineId then
    refuseIf (∃ host ∈ fleet.hosts, host.machineId ≠ some machineId ∧ host.name = name) .sqlite
    set (fleet.updateHosts fun host => if host.machineId = some machineId then { host with name } else host)
  else if fleet.hosts.map Host.machineId = [none] then
    set (fleet.updateHosts fun host => { host with machineId := some machineId, name })
  else
    let _ ← formatTime now
    refuseIf (∃ host ∈ fleet.hosts, host.name = name) .sqlite
    let host : Host := ⟨nextRowid (fleet.hosts.map Host.id), some machineId, name, none, none⟩
    set { fleet with hosts := fleet.hosts ++ [host] }

def findHost (known : Host → Bool) : FleetTx Host := do
  let fleet ← get
  match fleet.hosts.find? known with
  | none => throw .sqlite
  | some host => return host

def takeFirstSlot (hostId : Int) : FleetTx Unit := do
  let fleet ← get
  if fleet.slots = [] then
    let first : Slot := ⟨0, .active, hostId, 0, none, none, none⟩
    set { fleet with slots := [first] }
  else
    return

def ensureHost (now : Int) (machineId name : String) : FleetTx Host := do
  writeHost now machineId name
  let host ← findHost (·.machineId = some machineId)
  takeFirstSlot host.id
  return host

def writeRunner (name : String) (endpoint underlay : Text) : FleetTx Unit := do
  let fleet ← get
  if ∃ host ∈ fleet.hosts, host.name = name then
    set (fleet.updateHosts fun host =>
      if host.name = name then { host with endpoint := some endpoint, underlay := some underlay } else host)
  else
    let host : Host := ⟨nextRowid (fleet.hosts.map Host.id), none, name, some endpoint, some underlay⟩
    set { fleet with hosts := fleet.hosts ++ [host] }

def registerRunner (now : Int) (name : String) (endpoint underlay : Text) : FleetTx Host := do
  let _ ← formatTime now
  writeRunner name endpoint underlay
  findHost (·.name = name)

/-- The instances of other hosts that hold an address in the slot. The address decides,
not the stored number; an instance without a slot holds no range yet. -/
def Fleet.occupied (fleet : Fleet) (slot : Nat) (hostId : Int) : Nat :=
  fleet.instances.countP fun row =>
    row.slot.isSome ∧ row.hostId ≠ hostId ∧ slotOfAddress row.address (slotShift fleet.runnerPrefix) = some slot

def Slot.claimed (row : Slot) (hostId : Int) : Slot where
  slot := row.slot
  state := .active
  ownerHostId := hostId
  ownershipEpoch := row.ownershipEpoch + 1
  sourceHostId := none
  destinationHostId := none
  operationId := none

def giveSlot (slot : Nat) (hostId : Int) : FleetTx Slot := do
  let fleet ← get
  match fleet.slots.find? (·.slot = slot) with
  | none =>
    refuseIf (∀ host ∈ fleet.hosts, host.id ≠ hostId) .sqlite
    let row : Slot := ⟨slot, .active, hostId, 0, none, none, none⟩
    set { fleet with slots := fleet.slots.orderedInsert (·.slot ≤ ·.slot) row }
    return row
  | some row =>
    if row.ownerHostId = hostId then
      return row
    else
      refuseIf (∀ host ∈ fleet.hosts, host.id ≠ hostId) .sqlite
      refuseIf (maxInteger < row.ownershipEpoch + 1) .sqlite
      set (fleet.updateSlots fun other => if other.slot = slot then other.claimed hostId else other)
      return row.claimed hostId

def claimSlot (slot : Nat) (hostId : Int) : FleetTx Slot := do
  let fleet ← get
  refuseIf (slotCount fleet.runnerPrefix ≤ slot) (.noSuchSlot slot (slotCount fleet.runnerPrefix))
  refuseIf (0 < fleet.occupied slot hostId) (.slotInUse slot (fleet.occupied slot hostId))
  giveSlot slot hostId

def renumber (old new : UInt8) (slot : Nat) : List Nat :=
  if old < new then
    (List.range (2 ^ (new.toNat - old.toNat))).map (slot * 2 ^ (new.toNat - old.toNat) + ·)
  else
    [slot / 2 ^ (old.toNat - new.toNat)]

/-- A row joins those that are already placed. Slots that become one must share their
owner and state, and the first of them stays. -/
def place (new : UInt8) (placed : List Slot) (row : Slot) : Except Error (List Slot) :=
  match placed.find? (·.slot = row.slot) with
  | none => .ok (placed ++ [row])
  | some existing =>
    if existing.ownerHostId = row.ownerHostId ∧ existing.state = row.state then .ok placed
    else .error (.runnerPrefixSplitsOwners new row.slot)

def renumbered (old new : UInt8) (rows : List Slot) : List Slot :=
  rows.flatMap fun row => (renumber old new row.slot).map fun slot => { row with slot }

def joined (new : UInt8) (rows : List Slot) : Except Error (List Slot) := rows.foldlM (place new) []

/-- Rewrites slot rows and instance slot numbers. The instances let go of the old numbers
first, because old and new numbers overlap. -/
def renumberSlots (old new : UInt8) : FleetTx Unit := do
  let fleet ← get
  let next ← joined new (renumbered old new fleet.slots)
  let _ ← updateInstances (fun _ => true) fun row => { row with slot := none }
  modify fun fleet => { fleet with slots := next }
  let held (row : Instance) : Option Nat := slotOfAddress row.address (slotShift new)
  let _ ← updateInstances (fun row => (held row).isSome) fun row => { row with slot := held row }

def checkStranded (runnerPrefix : UInt8) : FleetTx Unit := do
  let fleet ← get
  match (fleet.slots.map Slot.slot).max? with
  | none => return
  | some highest => refuseIf (slotCount runnerPrefix ≤ highest) (.runnerPrefixStrandsSlot runnerPrefix highest)

def followPrefix (runnerPrefix : UInt8) : FleetTx Unit := do
  let fleet ← get
  if fleet.runnerPrefix = runnerPrefix then return
  else renumberSlots fleet.runnerPrefix runnerPrefix

def setRunnerPrefix (runnerPrefix : UInt8) : FleetTx UInt8 := do
  refuseIf (runnerPrefix < 24 ∨ 27 < runnerPrefix) (.runnerPrefix runnerPrefix)
  checkStranded runnerPrefix
  followPrefix runnerPrefix
  modify fun fleet => { fleet with runnerPrefix }
  return runnerPrefix

end Bento.Store
