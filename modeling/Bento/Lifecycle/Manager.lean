import Bento.Hypervisor.Client
import Bento.Library.Programs
import Bento.Lifecycle.Placement
import Bento.Runner.Protocol

/-! What the manager asks of the database and of the machines, and what each call does.
Every call is one step: between two calls of an action anything else may happen. -/

namespace Bento.Lifecycle
open Hypervisor Library.Transactions Network Store
open Runner (InstanceRef)

/-- How the manager is set up. `chain` and `quote` say how a cause and a quoted text are
written in a message. -/
structure Manager where
  hostId : Int
  cooldown : Nat
  batchSize : Nat
  batches : 0 < batchSize
  startAttempts : Nat
  definer : Bool
  autostartClearer : Bool
  plan : Plan
  nested : Bool × String
  chain : Cause → String
  quote : String → String

structure Placing where
  vcpu : Nat
  memoryMib : Nat
  diskGib : Nat
deriving DecidableEq

structure ProvisionSpec where
  hostId : Int
  row : Instance
  network : String
  withSeedIso : Bool
  start : Bool
deriving DecidableEq

structure RedefineSpec where
  hostId : Int
  row : Instance
  network : String
  previousName : Option String
deriving DecidableEq

def domainSpec (row : Instance) (network : String) (withIso : Bool) : DomainSpec where
  name := row.name
  uuid := row.uuid
  vcpu := row.vcpu
  memoryMib := row.memoryMib
  withIso := withIso
  network := network
  mac := row.mac
  nested := row.nested
  ksm := row.ksm

inductive StoreCall where
  | instance (uuid : String)
  | instancesOnHost (hostId : Int)
  | instancesToRestore (hostId : Int)
  | userById (id : Int)
  | image (name : String)
  | hostsMissingImage (imageName checksum : String)
  | imageVersion (checksum : String)
  | placeableHosts
  | chooseHost (want : Placing)
  | hostCapacity (hostId : Int)
  | createInstance (row : Instance) (capacity : Capacity)
  | deleteInstance (uuid : String)
  | renameInstance (uuid newName : String)
  | checkResize (uuid : String) (memoryMib diskGib : Nat) (capacity : Capacity)
  | resize (uuid : String) (vcpu memoryMib diskGib : Nat) (nested : Bool) (capacity : Capacity)
  | setDesiredState (uuid : String) (state : DesiredState)
  | setObservedState (uuid : String) (state : PowerState)
  | updateObservedStates (states : List (String × PowerState))
deriving DecidableEq

abbrev StoreCall.Reply : StoreCall → Type
  | .instance _ | .deleteInstance _ => Instance
  | .instancesOnHost _ | .instancesToRestore _ => List Instance
  | .userById _ => User
  | .image _ => Option String
  | .hostsMissingImage _ _ => List String
  | .placeableHosts => Nat
  | .chooseHost _ => Int
  | .hostCapacity _ => Capacity
  | .imageVersion _ | .createInstance _ _ | .renameInstance _ _ | .checkResize _ _ _ _ | .resize _ _ _ _ _ _
  | .setDesiredState _ _ | .setObservedState _ _ | .updateObservedStates _ => Unit

inductive ManagerCall where
  | store (call : StoreCall)
  | allocateInOwnedSlot (hostId : Int) (subnet : Ipv4Prefix)
  | mint
  | list
  | state (name : String)
  | act (action : DomainAction) (name : String)
  | define (spec : DomainSpec)
  | create (spec : DomainSpec)
  | clearAutostart (name : String)
  | isoExists (uuid : String)
  | deleteIso (uuid : String)
  | buildIso (uuid : String)
  | copyOverlay (source target : String)
  | resizeOverlay (uuid : String) (diskGib : Nat)
  | removeOverlay (uuid : String)
  | hypervisor (hostId : Int)
  | inventory (hostId : Int)
  | change (hostId : Int) (action : DomainAction) (target : InstanceRef)
  | provision (spec : ProvisionSpec)
  | deprovision (hostId : Int) (row : Instance)
  | redefine (spec : RedefineSpec)
  | resizeDisk (hostId : Int) (row : Instance) (diskGib : Nat)
deriving DecidableEq

abbrev ManagerCall.Answer : ManagerCall → Type
  | .store call => Except Cause call.Reply
  | .allocateInOwnedSlot _ _ => Except Error (Ipv4Addr × Nat)
  | .mint => String × Int
  | .list => Except Hypervisor.Error (List DomainInfo)
  | .state _ => Except Hypervisor.Error PowerState
  | .act action _ => Except Hypervisor.Error action.Result
  | .define _ | .create _ | .clearAutostart _ => Except Hypervisor.Error Unit
  | .isoExists _ | .hypervisor _ => Bool
  | .deleteIso _ | .buildIso _ | .copyOverlay _ _ | .resizeOverlay _ _ | .removeOverlay _ | .deprovision _ _
  | .resizeDisk _ _ _ => Except Cause Unit
  | .inventory _ => Except String (List DomainInfo)
  | .change _ _ _ => Except String PowerState
  | .provision _ | .redefine _ => Except Cause PowerState

structure World where
  fleet : Fleet
  machines : Int → Machine

def World.setMachine (world : World) (hostId : Int) (machine : Machine) : World :=
  { world with machines := Function.update world.machines hostId machine }

structure Catalog where
  image : String → Except Store.Error (Option String)
  hostsMissingImage : String → String → Except Store.Error (List String)
  imageVersion : String → Except Store.Error Unit
  placeableHosts : Except Store.Error Nat
  chooseHost : Placing → Except Store.Error Int
  hostCapacity : Int → Except Store.Error Capacity

/-- A step of building the files fails, and may leave its file behind. -/
inductive ProvisionStep where
  | overlay (leftover : Bool)
  | seed (leftover : Bool)
deriving DecidableEq

inductive Fault where
  | refused (cause : Cause)
  | unanswered (cause : Cause)

structure Moment where
  now : Int
  later : Int
  fault : Option Fault
  graceful : Bool
  failing : Option ProvisionStep
  libvirt : CreateCall → Option CallFault
  deletes : Bool
  reachable : Bool
  uuid : String
  catalog : Catalog

def Moment.refuses (moment : Moment) : Bool :=
  match moment.fault with
  | some (.refused _) => true
  | _ => false

def Moment.unheard (moment : Moment) : Bool :=
  match moment.fault with
  | some (.unanswered _) => true
  | _ => false

def older (first second : Instance) : Prop :=
  first.createdAt < second.createdAt ∨ first.createdAt = second.createdAt ∧ first.uuid ≤ second.uuid

instance : DecidableRel older := fun first second =>
  inferInstanceAs (Decidable (first.createdAt < second.createdAt ∨ first.createdAt = second.createdAt ∧
    first.uuid ≤ second.uuid))

def StoreCall.tx (manager : Manager) (moment : Moment) : (call : StoreCall) → FleetTx call.Reply
  | .instance uuid => getInstanceTx uuid
  | .instancesOnHost hostId => return ((← get).instances.filter (·.hostId = hostId)).insertionSort older
  | .instancesToRestore hostId => return ((← get).instances.filter fun row =>
      row.hostId = hostId ∧ row.desiredState = .running ∧ row.state = .stopped).insertionSort older
  | .userById id => do
    let fleet ← get
    match fleet.users.find? (·.id = id) with
    | some user => return user
    | none => throw .notFound
  | .image name => moment.catalog.image name
  | .hostsMissingImage imageName checksum => moment.catalog.hostsMissingImage imageName checksum
  | .imageVersion checksum => moment.catalog.imageVersion checksum
  | .placeableHosts => moment.catalog.placeableHosts
  | .chooseHost want => moment.catalog.chooseHost want
  | .hostCapacity hostId => moment.catalog.hostCapacity hostId
  | .createInstance row capacity => Store.createInstance moment.now row manager.cooldown capacity
  | .deleteInstance uuid => Store.deleteInstance moment.now uuid
  | .renameInstance uuid newName => Store.renameInstanceAt moment.now moment.later uuid newName manager.cooldown
  | .checkResize uuid memoryMib diskGib capacity => Store.checkResize uuid memoryMib diskGib capacity
  | .resize uuid vcpu memoryMib diskGib nested capacity => Store.resize uuid vcpu memoryMib diskGib nested capacity
  | .setDesiredState uuid state => updateInstance uuid (.desiredState state)
  | .setObservedState uuid state => updateInstance uuid (.state state)
  | .updateObservedStates states => Store.updateObservedStates states

namespace Machine

variable (machine : Hypervisor.Machine)

def observed (name : String) : PowerState :=
  match machine.state name with
  | .ok state => state
  | .error _ => .stopped

def removeFiles (deletes : Bool) (uuid : String) : Hypervisor.Machine :=
  if deletes then machine.withoutFiles uuid else machine

def removeOverlay (deletes : Bool) (uuid : String) : Hypervisor.Machine :=
  if deletes then machine.withoutOverlay uuid else machine

def finish (moment : Moment) (spec : ProvisionSpec) (unwind : Hypervisor.Machine → Hypervisor.Machine) :
    Except Cause PowerState × Hypervisor.Machine :=
  match domainXml (domainSpec spec.row spec.network spec.withSeedIso) with
  | .error error => (.error (.machine error.text), unwind machine)
  | .ok xml =>
    if spec.start then
      match machine.create xml moment.libvirt with
      | (.ok (), created) => (.ok (observed created spec.row.name), created)
      | (.error error, after) => (.error (.machine ("define " ++ spec.row.uuid ++ ": " ++ error.text)), unwind after)
    else
      match machine.answered (moment.libvirt .define) "define domain" (machine.define xml) with
      | (.ok (), defined) => (.ok (observed defined spec.row.name), defined)
      | (.error error, after) => (.error (.machine ("define " ++ spec.row.uuid ++ ": " ++ error.text)), unwind after)

def withFiles (spec : ProvisionSpec) (seeded : Bool) : Hypervisor.Machine :=
  if seeded then (machine.withOverlay spec.row.uuid).withSeed spec.row.uuid else machine.withOverlay spec.row.uuid

def build (moment : Moment) (spec : ProvisionSpec) (unseed unwind : Hypervisor.Machine → Hypervisor.Machine) :
    Except Cause PowerState × Hypervisor.Machine :=
  match moment.failing with
  | some (.overlay leftover) =>
    (.error (.machine ("overlay for " ++ spec.row.uuid)), if leftover then withFiles machine spec false else machine)
  | some (.seed leftover) =>
    if spec.withSeedIso then (.error (.machine ("seed image for " ++ spec.row.uuid)),
      unseed (withFiles machine spec leftover))
    else finish (withFiles machine spec false) moment spec unwind
  | _ => finish (withFiles machine spec spec.withSeedIso) moment spec unwind

def provisionHere (moment : Moment) (spec : ProvisionSpec) : Except Cause PowerState × Hypervisor.Machine :=
  build machine moment spec (removeFiles · moment.deletes spec.row.uuid) (removeFiles · moment.deletes spec.row.uuid)

def unwindProvision (moment : Moment) (spec : ProvisionSpec) : Hypervisor.Machine :=
  if spec.withSeedIso then removeFiles machine moment.deletes spec.row.uuid
  else removeOverlay machine moment.deletes spec.row.uuid

def provision (moment : Moment) (spec : ProvisionSpec) : Except Cause PowerState × Hypervisor.Machine :=
  build machine moment spec (removeOverlay · moment.deletes spec.row.uuid) (unwindProvision · moment spec)

def change (moment : Moment) (action : DomainAction) (target : InstanceRef) :
    Except String PowerState × Hypervisor.Machine :=
  match machine.act moment.graceful target.name action with
  | .error error => (.error error.text, machine)
  | .ok (_, after) =>
    match action with
    | .remove => (.ok .stopped, removeFiles after moment.deletes target.uuid)
    | _ => (.ok (observed after target.name), after)

def defineRenamed (xml : DomainSpec) (oldXml : Except Hypervisor.Error DomainSpec) :
    Except String Unit × Hypervisor.Machine :=
  match machine.define xml with
  | .ok after => (.ok (), after)
  | .error error =>
    (.error ("define the new name: " ++ error.text),
      match oldXml.bind machine.define with
      | .ok after => after
      | .error _ => machine)

def renameDomain (previous : String) (xml : DomainSpec) (oldXml : Except Hypervisor.Error DomainSpec) :
    Except String Unit × Hypervisor.Machine :=
  match machine.state previous with
  | .ok .stopped =>
    match machine.remove previous with
    | .ok after => defineRenamed after xml oldXml
    | .error error => (.error ("undefine " ++ previous ++ ": " ++ error.text), machine)
  | .ok _ => (.error ("a rename needs a stopped domain, and " ++ previous ++ " is running (SPEC 7.3)"), machine)
  | .error (.domainNotFound _) => defineRenamed machine xml oldXml
  | .error error => (.error ("state of " ++ previous ++ ": " ++ error.text), machine)

def rendered (spec : RedefineSpec) (name : String) : Except Hypervisor.Error DomainSpec :=
  domainXml (domainSpec { spec.row with name } spec.network (machine.seeds.contains spec.row.uuid))

def redefine (spec : RedefineSpec) : Except Cause PowerState × Hypervisor.Machine :=
  match rendered machine spec spec.row.name with
  | .error error => (.error (.machine error.text), machine)
  | .ok xml =>
    match spec.previousName.filter (· ≠ spec.row.name) with
    | none =>
      match machine.define xml with
      | .ok after => (.ok (observed after spec.row.name), after)
      | .error error => (.error (.machine ("define " ++ spec.row.uuid ++ ": " ++ error.text)), machine)
    | some previous =>
      match renameDomain machine previous xml (rendered machine spec previous) with
      | (.ok (), after) => (.ok (observed after spec.row.name), after)
      | (.error error, after) => (.error (.machine ("rename " ++ spec.row.uuid ++ ": " ++ error)), after)

end Machine

namespace World
variable (world : World)

def onMachine {α : Type} (hostId : Int) (outcome : α × Hypervisor.Machine) :
    α × World := (outcome.1, world.setMachine hostId outcome.2)

def attempt {ε α : Type} (hostId : Int) (result : Except ε (α × Hypervisor.Machine)) : Except ε α × World :=
  match result with
  | .ok (value, machine) => (.ok value, world.setMachine hostId machine)
  | .error error => (.error error, world)

end World

def ManagerCall.perform (manager : Manager) (moment : Moment) (world : World) :
    (call : ManagerCall) → call.Answer × World
  | .store call =>
    let served := withTx (call.tx manager moment) world.fleet
    (served.1.mapError .store, { world with fleet := served.2 })
  | .allocateInOwnedSlot hostId subnet => (Lifecycle.allocateInOwnedSlot world.fleet hostId subnet, world)
  | .mint => ((moment.uuid, moment.now), world)
  | .list => (.ok (world.machines manager.hostId).list, world)
  | .state name => ((world.machines manager.hostId).state name, world)
  | .act action name => world.attempt manager.hostId ((world.machines manager.hostId).act moment.graceful name action)
  | .define spec => world.attempt manager.hostId (((world.machines manager.hostId).define spec).map ((), ·))
  | .create spec => world.onMachine manager.hostId ((world.machines manager.hostId).create spec moment.libvirt)
  | .clearAutostart name => (((world.machines manager.hostId).lookup name).map fun _ => (), world)
  | .isoExists uuid => ((world.machines manager.hostId).seeds.contains uuid, world)
  | .deleteIso uuid => world.onMachine manager.hostId (.ok (), (world.machines manager.hostId).withoutSeed uuid)
  | .buildIso uuid => world.onMachine manager.hostId (.ok (), (world.machines manager.hostId).withSeed uuid)
  | .copyOverlay _ target => world.onMachine manager.hostId (.ok (), (world.machines manager.hostId).withOverlay target)
  | .resizeOverlay _ _ => (.ok (), world)
  | .removeOverlay uuid => world.onMachine manager.hostId (.ok (), (world.machines manager.hostId).withoutOverlay uuid)
  | .hypervisor _ => (moment.reachable, world)
  | .inventory hostId => (.ok (world.machines hostId).list, world)
  | .change hostId action target => world.onMachine hostId (Machine.change (world.machines hostId) moment action target)
  | .provision spec =>
    if spec.hostId = manager.hostId then
      world.onMachine spec.hostId (Machine.provisionHere (world.machines spec.hostId) moment spec)
    else world.onMachine spec.hostId (Machine.provision (world.machines spec.hostId) moment spec)
  | .deprovision hostId row =>
    if hostId = manager.hostId then
      world.onMachine hostId (.ok (), Machine.removeFiles (world.machines hostId) moment.deletes row.uuid)
    else (.ok (), world)
  | .redefine spec =>
    if spec.hostId = manager.hostId then
      (.error (.machine "this machine redefines its own domains locally, not through the fleet"), world)
    else world.onMachine spec.hostId (Machine.redefine (world.machines spec.hostId) spec)
  | .resizeDisk hostId _ _ =>
    if hostId = manager.hostId then
      (.error (.machine "this machine resizes its own disks locally, not through the fleet"), world)
    else (.ok (), world)

def ManagerCall.failed (manager : Manager) (moment : Moment) (cause : Cause) : (call : ManagerCall) → call.Answer
  | .store _ => .error cause
  | .allocateInOwnedSlot _ _ => .error (.caused cause)
  | .mint => (moment.uuid, moment.now)
  | .list | .state _ | .act _ _ | .define _ | .create _ | .clearAutostart _ => .error (.operation (manager.chain cause))
  | .isoExists _ | .hypervisor _ => false
  | .deleteIso _ | .buildIso _ | .copyOverlay _ _ | .resizeOverlay _ _ | .removeOverlay _ | .deprovision _ _
  | .resizeDisk _ _ _ => .error cause
  | .inventory _ | .change _ _ _ => .error (manager.chain cause)
  | .provision _ | .redefine _ => .error cause

/-- The tables change in one transaction or not at all. A machine may have done its work
although the answer says otherwise. -/
def ManagerCall.serve (manager : Manager) (moment : Moment) (call : ManagerCall) (world : World) :
    call.Answer × World :=
  match moment.fault with
  | none => call.perform manager moment world
  | some (.refused cause) => (call.failed manager moment cause, world)
  | some (.unanswered cause) =>
    (call.failed manager moment cause,
      match call with
      | .store _ => world
      | call => (call.perform manager moment world).2)

end Bento.Lifecycle
