import Bento.Library.Transactions
import Bento.Store.Basic

/-! The rows that describe the machines of a deployment, the slots they own and the
instances they run. Of each row the columns that something here reads are kept. -/

namespace Bento.Store
open Library.Decimal Library.Transactions

structure Host where
  id : Int
  machineId : Option String
  name : String
  endpoint : Option Text
  underlay : Option Text
deriving DecidableEq

structure Slot where
  slot : Nat
  state : SlotState
  ownerHostId : Int
  ownershipEpoch : Int
  sourceHostId : Option Int
  destinationHostId : Option Int
  operationId : Option String
deriving DecidableEq

structure Instance where
  uuid : String
  name : String
  ownerId : Int
  hostId : Int
  imageName : String
  baseChecksum : String
  state : PowerState
  desiredState : DesiredState
  address : Text
  mac : String
  vcpu : Nat
  memoryMib : Nat
  diskGib : Nat
  nested : Bool
  ksm : Bool
  httpPort : UInt16
  visibility : Visibility
  createdAt : Int
  lastSeenAt : Option Int
  slot : Option Nat
deriving DecidableEq

def Instance.effectiveHttpPort (row : Instance) : UInt16 := if row.httpPort = 0 then 80 else row.httpPort

structure User where
  id : Int
  name : String
  subnet : Text
deriving DecidableEq

structure ReleasedName where
  name : String
  previousOwnerId : Int
  releasedAt : Int
deriving DecidableEq

/-- The tables. Hosts are listed by id and slots by number. Of the images and their
versions only the keys matter here. -/
structure Fleet where
  runnerPrefix : UInt8
  hosts : List Host
  slots : List Slot
  instances : List Instance
  users : List User
  images : List String
  imageVersions : List String
  releasedNames : List ReleasedName
deriving DecidableEq

abbrev FleetTx := Tx Error Fleet

def slotCount (runnerPrefix : UInt8) : Nat := 2 ^ min (runnerPrefix.toNat - 24) 3

def slotShift (runnerPrefix : UInt8) : Nat := 8 - (runnerPrefix.toNat - 24)

def slotOfAddress (address : Text) (shift : Nat) : Option Nat :=
  (unsigned 255 (address.reverse.takeWhile (· ≠ '.')).reverse).map (· / 2 ^ shift)

/-- What the triggers on `instances` ask of a row: an instance may only hold an address
from a slot its own host owns. -/
def Fleet.ownsSlot (fleet : Fleet) (row : Instance) : Prop :=
  ∀ slot ∈ row.slot, ∃ owned ∈ fleet.slots, owned.slot = slot ∧ owned.ownerHostId = row.hostId

instance (fleet : Fleet) (row : Instance) : Decidable (fleet.ownsSlot row) :=
  inferInstanceAs (Decidable (∀ slot ∈ row.slot, ∃ owned ∈ fleet.slots, owned.slot = slot ∧
    owned.ownerHostId = row.hostId))

/-- An `UPDATE` of the selected instances. The trigger looks at each row as it is to be;
the answer is the number of rows. -/
def updateInstances (selected : Instance → Bool) (change : Instance → Instance) : FleetTx Nat := do
  let fleet ← get
  refuseIf (∃ row ∈ fleet.instances, selected row = true ∧ ¬ fleet.ownsSlot (change row)) .sqlite
  set { fleet with instances := fleet.instances.map fun row => if selected row then change row else row }
  return fleet.instances.countP selected

end Bento.Store
