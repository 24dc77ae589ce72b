import Bento.Library.Runs
import Bento.Lifecycle.Basic
import Bento.Network.Slot
import Bento.Store.Instances
import Bento.Store.Runners

/-! Where a new instance goes. Its address and slot are picked from what the database says
at one moment and written in a transaction of a later moment; in between other processes
can change the slots. -/

namespace Bento.Lifecycle
open Library Library.Decimal Library.Transactions Network Store

def usedAddresses (fleet : Fleet) (subnet : Ipv4Prefix) : List Ipv4Addr :=
  (fleet.instances.filterMap fun row => Ipv4.parse row.address).filter (subnet.contains ·)

def firstFree (used : List Ipv4Addr) (subnet : Ipv4Prefix) (slots : Slots) : List Nat → Network.Result (Ipv4Addr × Nat)
  | [] => .error .addressesExhausted
  | slot :: rest =>
    if 2 ^ 32 ≤ slot then .error (.invalid "out of range integral type conversion attempted")
    else match allocateAddress used subnet slots slot with
      | .ok address => .ok (address, slot)
      | .error .addressesExhausted => firstFree used subnet slots rest
      | .error error => .error error

/-- Picks the address and slot for a new instance on one machine. The lowest slot that the
machine owns and that has a free address wins. -/
def allocateInOwnedSlot (fleet : Fleet) (hostId : Int) (subnet : Ipv4Prefix) : Except Error (Ipv4Addr × Nat) :=
  match Slots.new fleet.runnerPrefix with
  | .error error => .error (.caused (.network error))
  | .ok slots =>
    let rows := fleet.slots.filter fun row => row.ownerHostId = hostId ∧ row.state = .active
    let owned := (rows.map Slot.slot).insertionSort (· ≤ ·)
    if owned = [] then .error (.noSlotForHost hostId)
    else (firstFree (usedAddresses fleet subnet) subnet slots owned).mapError fun error => .caused (.network error)

structure Allocation where
  hostId : Int
  address : Ipv4Addr
  slot : Nat

structure Controllers where
  fleet : Fleet
  allocations : List Allocation

inductive Call where
  | ensureHost (now : Int) (machineId name : String)
  | registerRunner (now : Int) (name : String) (endpoint underlay : Text)
  | claimSlot (slot : Nat) (hostId : Int)
  | setRunnerPrefix (runnerPrefix : UInt8)
  | allocate (hostId : Int) (subnet : Ipv4Prefix)
  | createInstance (now : Int) (allocation : Nat) (draft : Instance) (nameCooldown : Nat) (capacity : Capacity)
  | renameInstance (now : Int) (uuid newName : String) (nameCooldown : Nat)
  | deleteInstance (now : Int) (uuid : String)

def Allocation.fill (allocation : Allocation) (draft : Instance) : Instance :=
  { draft with
    hostId := allocation.hostId
    address := Ipv4.text allocation.address
    slot := some allocation.slot }

namespace Controllers

def commit {α : Type} (state : Controllers) (body : FleetTx α) : Controllers :=
  { state with fleet := (withTx body state.fleet).2 }

def step (state : Controllers) : Call → Option Controllers
  | .ensureHost now machineId name => some (state.commit (Store.ensureHost now machineId name))
  | .registerRunner now name endpoint underlay => some (state.commit (Store.registerRunner now name endpoint underlay))
  | .claimSlot slot hostId => some (state.commit (Store.claimSlot slot hostId))
  | .setRunnerPrefix runnerPrefix => some (state.commit (Store.setRunnerPrefix runnerPrefix))
  | .allocate hostId subnet =>
    match allocateInOwnedSlot state.fleet hostId subnet with
    | .ok (address, slot) => some { state with allocations := state.allocations ++ [⟨hostId, address, slot⟩] }
    | .error _ => some state
  | .createInstance now index draft nameCooldown capacity =>
    (state.allocations[index]?).map fun allocation =>
      state.commit (Store.createInstance now (allocation.fill draft) nameCooldown capacity)
  | .renameInstance now uuid newName nameCooldown =>
    some (state.commit (Store.renameInstance now uuid newName nameCooldown))
  | .deleteInstance now uuid => some (state.commit (Store.deleteInstance now uuid))

end Controllers

end Bento.Lifecycle
