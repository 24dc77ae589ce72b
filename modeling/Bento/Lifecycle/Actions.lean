import Bento.Lifecycle.Manager

/-! What the manager does with one instance. An action reads the row of a uuid and then
addresses the domain by the name it read. -/

namespace Bento.Lifecycle
open Hypervisor Library.Programs Network Store
open Runner (InstanceRef)

abbrev ManagerProgram := Program ManagerCall.Answer

abbrev ManagerM := ExceptT Error ManagerProgram

def ask (call : ManagerCall) : ManagerProgram call.Answer := Program.ask call

def answered (call : ManagerCall) : ManagerM call.Answer := ExceptT.lift (ask call)

def checked {ε α : Type} (program : ManagerProgram (Except ε α)) (describe : ε → Error) : ManagerM α :=
  ExceptT.mk (program >>= fun result => pure (result.mapError describe))

def stored (call : StoreCall) : ManagerM call.Reply := checked (ask (.store call)) .caused

/-- Every action on a stored instance begins by reading its row. -/
def ManagerCall.begins : ManagerCall → Bool
  | .store (.instance _) => true
  | _ => false

inductive Reach where
  | here
  | there (hostId : Int)

def runnerResult : (action : DomainAction) → PowerState → action.Result
  | .stop, _ => .graceful
  | .start, _ | .reboot, _ | .remove, _ => ()

def actThrough (hostId : Int) (action : DomainAction) (name : String) (domains : List DomainInfo) :
    ManagerProgram (Except Hypervisor.Error action.Result) :=
  match domains.find? (·.name = name) with
  | none => pure (.error (.domainNotFound name))
  | some domain => do
    let changed ← ask (.change hostId action ⟨domain.uuid, name⟩)
    return (changed.mapError .operation).map (runnerResult action)

/-- Through a runner the domain is found in its inventory first, and the runner is sent the
uuid that was found. -/
def Reach.act (action : DomainAction) (name : String) : Reach → ManagerProgram (Except Hypervisor.Error action.Result)
  | .here => ask (.act action name)
  | .there hostId => do
    match ← ask (.inventory hostId) with
    | .error text => return .error (.operation text)
    | .ok domains => actThrough hostId action name domains

def Reach.state (name : String) : Reach → ManagerProgram (Except Hypervisor.Error PowerState)
  | .here => ask (.state name)
  | .there hostId => do
    match ← ask (.inventory hostId) with
    | .error text => return .error (.operation text)
    | .ok domains =>
      match domains.find? (·.name = name) with
      | none => return .error (.domainNotFound name)
      | some domain => return .ok domain.state

structure ResizeRequest where
  uuid : String
  vcpu : Nat
  memoryMib : Nat
  diskGib : Nat
  nested : Bool

structure ResizeResult where
  restartRequired : Bool
  diskGrown : Bool

def checkNested (probe : Bool × String) : Except Error Unit :=
  let advice := "load the KVM module with kvm_intel.nested=1 (Intel) or kvm_amd.nested=1 (AMD)"
  if probe.1 then .ok ()
  else .error (.nestedUnavailable (if probe.2 = "" then advice else advice ++ ": " ++ probe.2))

def checkRequest (probe : Bool × String) (request : ResizeRequest) (row : Instance) : Except Error Unit :=
  if request.vcpu = 0 ∨ request.memoryMib = 0 ∨ request.diskGib = 0 then
    .error (.operation "lifecycle: resize needs positive vcpu, memory, and disk")
  else if request.diskGib < row.diskGib then
    .error (.diskShrink (row.name ++ " has " ++ toString row.diskGib ++ " GiB, requested " ++
      toString request.diskGib ++ " GiB"))
  else if request.nested ∧ ¬ row.nested then checkNested probe
  else .ok ()

def ResizeRequest.named (request : ResizeRequest) (uuid : String) : ResizeRequest := { request with uuid }

def ResizeRequest.result (request : ResizeRequest) (row : Instance) : ResizeResult where
  restartRequired := request.vcpu ≠ row.vcpu ∨ request.memoryMib ≠ row.memoryMib ∨ request.nested ≠ row.nested
  diskGrown := row.diskGib < request.diskGib

namespace Manager
variable (manager : Manager)

def hypFor (row : Instance) : ManagerM Reach :=
  if row.hostId = manager.hostId then pure .here
  else ExceptT.mk (.request (.hypervisor row.hostId) fun reached => .pure (if reached then .ok (.there row.hostId)
    else .error (.operation ("lifecycle: " ++ row.name ++ " runs on another machine that cannot be reached"))))

def domainAction (action : DomainAction) (word : String) (row : Instance) : ManagerM action.Result := do
  let reach ← manager.hypFor row
  checked (reach.act action row.name) fun error =>
    .operation ("lifecycle: " ++ word ++ " " ++ row.name ++ ": " ++ error.text)

def startDomain (row : Instance) : ManagerM Unit := manager.domainAction .start "start" row

def start (uuid : String) : ManagerM Unit := do
  let row ← stored (.instance uuid)
  manager.startDomain row
  stored (.setDesiredState uuid .running)
  stored (.setObservedState uuid .running)

def startForConnection (uuid : String) : ManagerM Unit := do
  let row ← stored (.instance uuid)
  manager.startDomain row

/-- Desired stopped is recorded before the wait, so that a crash cannot restore it running. -/
def stop (uuid : String) : ManagerM StopResult := do
  let row ← stored (.instance uuid)
  stored (.setDesiredState uuid .stopped)
  let result ← manager.domainAction .stop "stop" row
  stored (.setObservedState uuid .stopped)
  return result

def restart (uuid : String) : ManagerM Unit := do
  let row ← stored (.instance uuid)
  manager.domainAction .reboot "restart" row
  stored (.setDesiredState uuid .running)

def undefined (describe : Hypervisor.Error → Error) : Except Hypervisor.Error Unit → Except Error Unit
  | .ok () | .error (.domainNotFound _) => .ok ()
  | .error error => .error (describe error)

def remove (uuid : String) : ManagerM Unit := do
  let row ← stored (.instance uuid)
  let reach ← manager.hypFor row
  let removed ← ExceptT.lift (reach.act .remove row.name)
  undefined (fun error => .operation ("lifecycle: rm " ++ row.name ++ ": " ++ error.text)) removed
  let _ ← answered (.deprovision row.hostId row)
  let _ ← checked (ask (.store (.deleteInstance uuid))) fun cause =>
    .operation ("lifecycle: rm " ++ row.name ++ ": " ++ manager.chain cause)

def badSubnet (owner : User) : Error :=
  .operation ("lifecycle: user " ++ owner.name ++ " has a bad subnet " ++ manager.quote (String.ofList owner.subnet))

def userNetworkName (owner : User) : Except Error String := do
  match Ipv4Prefix.fromStr owner.subnet with
  | none => .error (manager.badSubnet owner)
  | some subnet =>
    match manager.plan.index subnet with
    | .error error => .error (.operation
      ("lifecycle: subnet " ++ formatPrefix subnet ++ " outside the private range: " ++ manager.chain (.network error)))
    | .ok index => .ok ("bento-user-" ++ toString index)

def domainXml (row : Instance) (owner : User) (withIso : Bool) : Except Error DomainSpec := do
  let network ← manager.userNetworkName owner
  (Hypervisor.domainXml (domainSpec row network withIso)).mapError fun error => .caused (.machine error.text)

def owner (row : Instance) : ManagerM User :=
  checked (ask (.store (.userById row.ownerId))) fun cause =>
    .operation ("lifecycle: owner of " ++ row.name ++ ": " ++ manager.chain cause)

def domainXmlByUuid (row : Instance) (withIso : Bool) : ManagerM DomainSpec := do
  let owner ← manager.owner row
  manager.domainXml row owner withIso

def redefineElsewhere (row : Instance) (previousName : Option String) : ManagerM PowerState := do
  let owner ← manager.owner row
  let network ← manager.userNetworkName owner
  checked (ask (.redefine ⟨row.hostId, row, network, previousName⟩)) fun cause =>
    .operation ("lifecycle: redefine " ++ row.name ++ ": " ++ manager.chain cause)

def redefineHere (row : Instance) : ManagerM Unit := do
  let withIso ← answered (.isoExists row.uuid)
  let xml ← manager.domainXmlByUuid row withIso
  checked (ask (.define xml)) fun error => .operation ("lifecycle: redefine " ++ row.name ++ ": " ++ error.text)

def redefine (row : Instance) : ManagerM Unit :=
  if row.hostId ≠ manager.hostId then do
    let _ ← manager.redefineElsewhere row none
  else if manager.definer then manager.redefineHere row
  else pure ()

def growDisk (request : ResizeRequest) (row : Instance) : ManagerM Unit :=
  if ¬ (request.result row).diskGrown then pure ()
  else if row.hostId = manager.hostId then checked (ask (.resizeOverlay row.uuid request.diskGib)) .caused
  else checked (ask (.resizeDisk row.hostId row request.diskGib)) .caused

def resized (request : ResizeRequest) (row : Instance) : Instance :=
  { row with
    vcpu := request.vcpu
    memoryMib := request.memoryMib
    diskGib := request.diskGib
    nested := request.nested }

def redefineResized (request : ResizeRequest) (row : Instance) : ManagerM Unit :=
  if (request.result row).restartRequired then manager.redefine (resized request row) else pure ()

/-- Changes the size of an instance. A grown disk cannot shrink again, so the capacity is
checked first, and the row changes only after the disk has grown. -/
def resize (request : ResizeRequest) : ManagerM ResizeResult := do
  let row ← stored (.instance request.uuid)
  checkRequest manager.nested request row
  let capacity ← stored (.hostCapacity row.hostId)
  stored (.checkResize request.uuid request.memoryMib request.diskGib capacity)
  manager.growDisk request row
  stored (.resize request.uuid request.vcpu request.memoryMib request.diskGib request.nested capacity)
  manager.redefineResized request row
  return request.result row

def renamed (row : Instance) (newName : String) : Instance := { row with name := newName }

def unwindRename {α : Type} (row : Instance) (newName : String) (cause : String) : ManagerM α := do
  let _ ← answered (.store (.renameInstance row.uuid row.name))
  throw (.operation ("lifecycle: rename " ++ row.name ++ " to " ++ newName ++ ": " ++ cause))

def errorText : Error → String
  | .nestedUnavailable message | .diskShrink message | .noImageVersion message | .copySourceRunning message
  | .copyAcrossMachines message | .renameNeedsStop message | .operation message => message
  | .fleetImageNotReady imageName missing => "the fleet is still fetching " ++ imageName ++ ": " ++ missing
  | .noSlotForHost hostId => "host " ++ toString hostId ++
    " owns no active runner slot; give it one before placing an instance"
  | .caused source => "lifecycle: dependency failed: " ++ manager.chain source

def domainGone (name : String) : Except Hypervisor.Error PowerState → Except Error Bool
  | .ok .stopped => .ok false
  | .ok _ => .error (.renameNeedsStop (name ++ " is running"))
  | .error (.domainNotFound _) => .ok true
  | .error error => .error (.operation ("lifecycle: rename " ++ name ++ ": " ++ error.text))

def restoreDefinition (row : Instance) (withIso : Bool) : ManagerM Unit := do
  match ← ExceptT.lift (manager.domainXmlByUuid row withIso).run with
  | .error _ => return
  | .ok oldXml => let _ ← answered (.define oldXml)

def defineRenamed (row : Instance) (newName : String) (withIso : Bool) (xml : DomainSpec) : ManagerM Unit := do
  match ← answered (.define xml) with
  | .ok () => return
  | .error error => do
    manager.restoreDefinition row withIso
    unwindRename row newName ("define " ++ newName ++ ": " ++ error.text)

def renameHere (row : Instance) (newName : String) : ManagerM Unit := do
  let withIso ← answered (.isoExists row.uuid)
  match ← ExceptT.lift (manager.domainXmlByUuid (renamed row newName) withIso).run with
  | .error error => unwindRename row newName (manager.errorText error)
  | .ok xml =>
    match ← answered (.act .remove row.name) with
    | .ok () | .error (.domainNotFound _) => manager.defineRenamed row newName withIso xml
    | .error error => unwindRename row newName ("undefine " ++ row.name ++ ": " ++ error.text)

/-- What is left of it on another machine. That machine undefines the old name and defines
the new one at once, and keeps the disk. -/
def renameThere (row : Instance) (newName : String) : ManagerM Unit := do
  match ← ExceptT.lift (manager.redefineElsewhere (renamed row newName) (some row.name)).run with
  | .ok _ => return
  | .error error => unwindRename row newName (manager.errorText error)

def finishRename (row : Instance) (newName : String) (gone : Bool) : ManagerM Unit :=
  if gone then pure ()
  else if row.hostId ≠ manager.hostId then manager.renameThere row newName
  else manager.renameHere row newName

def checkDefiner (row : Instance) (gone : Bool) : Except Error Unit :=
  if row.hostId = manager.hostId ∧ ¬ gone ∧ ¬ manager.definer then
    .error (.operation ("lifecycle: rename " ++ row.name ++ ": hypervisor cannot redefine domains"))
  else .ok ()

def renameTo (row : Instance) (newName : String) : ManagerM Unit := do
  let reach ← manager.hypFor row
  let state ← ExceptT.lift (reach.state row.name)
  let gone ← domainGone row.name state
  manager.checkDefiner row gone
  stored (.renameInstance row.uuid newName)
  manager.finishRename row newName gone

def rename (uuid newName : String) : ManagerM Unit := do
  let row ← stored (.instance uuid)
  if newName = row.name then return else manager.renameTo row newName

structure NewRequest where
  name : String
  owner : User
  hostId : Int
  imageName : String
  vcpu : Nat
  memoryMib : Nat
  diskGib : Nat
  nested : Bool
  disableKsm : Bool
  httpPort : UInt16

def NewRequest.row (request : NewRequest) (mac : String → String) (hostId : Int)
    (imageName checksum uuid : String) (createdAt : Int) (address : Ipv4Addr) (slot : Nat) : Instance where
  uuid := uuid
  name := request.name
  ownerId := request.owner.id
  hostId := hostId
  imageName := imageName
  baseChecksum := checksum
  state := .stopped
  desiredState := .running
  address := Library.Ipv4.text address
  mac := mac uuid
  vcpu := request.vcpu
  memoryMib := request.memoryMib
  diskGib := request.diskGib
  nested := request.nested
  ksm := !request.disableKsm
  httpPort := request.httpPort
  visibility := .off
  createdAt := createdAt
  lastSeenAt := none
  slot := some slot

def checkGuest (subnet : Ipv4Prefix) (address : Ipv4Addr) : Except Network.Error Unit := do
  requireSlash24 subnet
  Network.refuseIf (!subnet.contains address)
    ("address " ++ showAddr address ++ " is outside subnet " ++ formatPrefix subnet)

def checkNew (request : NewRequest) : Except Error Unit :=
  if request.name = "" then .error (.operation "lifecycle: new needs a name")
  else if request.imageName = "" then .error (.operation "lifecycle: new needs an image")
  else if request.vcpu = 0 ∨ request.memoryMib = 0 ∨ request.diskGib = 0 then
    .error (.operation "lifecycle: new needs positive vcpu, memory, and disk")
  else if request.nested then checkNested manager.nested
  else .ok ()

def currentVersion (request : NewRequest) : ManagerM String := do
  let current ← checked (ask (.store (.image request.imageName))) fun cause =>
    .operation ("lifecycle: image " ++ manager.quote request.imageName ++ ": " ++ manager.chain cause)
  match current.filter (· ≠ "") with
  | none => throw (.noImageVersion request.imageName)
  | some checksum => do
    let missing ← stored (.hostsMissingImage request.imageName checksum)
    if missing ≠ [] then
      throw (.fleetImageNotReady request.imageName
        (", ".intercalate missing ++ (if missing.length = 1 then " is" else " are") ++ " not ready"))
    else do
      checked (ask (.store (.imageVersion checksum))) fun cause =>
        .operation ("lifecycle: image version " ++ manager.quote checksum ++ ": " ++ manager.chain cause)
      return checksum

def place (request : NewRequest) : ManagerM Int := do
  let placeable ← stored .placeableHosts
  if placeable ≤ 1 then return request.hostId
  else stored (.chooseHost ⟨request.vcpu, request.memoryMib, request.diskGib⟩)

def subnetOf (owner : User) : Except Error Ipv4Prefix :=
  match Ipv4Prefix.fromStr owner.subnet with
  | none => .error (manager.badSubnet owner)
  | some subnet => .ok subnet

def allocate (hostId : Int) (subnet : Ipv4Prefix) : ManagerM (Ipv4Addr × Nat) :=
  checked (ask (.allocateInOwnedSlot hostId subnet)) id

def unwindNew {α : Type} (row : Instance) (cause : String) : ManagerM α := do
  match ← answered (.store (.deleteInstance row.uuid)) with
  | .ok _ => throw (.operation ("lifecycle: new " ++ row.name ++ ": " ++ cause))
  | .error error =>
    throw (.operation ("lifecycle: new " ++ row.name ++ ": " ++ cause ++ ": unwind instance row: " ++
      manager.chain error))

def finishNew (row : Instance) (owner : User) (subnet : Ipv4Prefix) (address : Ipv4Addr) : ManagerM Instance := do
  match checkGuest subnet address with
  | .error error => manager.unwindNew row (manager.chain (.network error))
  | .ok () =>
    match manager.userNetworkName owner with
    | .error error => manager.unwindNew row (manager.errorText error)
    | .ok network =>
      match ← answered (.provision ⟨row.hostId, row, network, true, true⟩) with
      | .error cause => manager.unwindNew row (manager.chain cause)
      | .ok observed => do
        let _ ← answered (.store (.setObservedState row.uuid observed))
        return { row with state := observed }

def create (mac : String → String) (request : NewRequest) : ManagerM Instance := do
  manager.checkNew request
  let checksum ← manager.currentVersion request
  let subnet ← manager.subnetOf request.owner
  let hostId ← place request
  let (address, slot) ← allocate hostId subnet
  let (uuid, now) ← answered .mint
  let row := request.row mac hostId request.imageName checksum uuid now address slot
  let capacity ← stored (.hostCapacity hostId)
  stored (.createInstance row capacity)
  manager.finishNew row request.owner subnet address

def checkCopy (source : Instance) (request : NewRequest) : Except Error Unit :=
  if request.name = "" then .error (.operation "lifecycle: cp needs a target name")
  else if request.vcpu = 0 ∨ request.memoryMib = 0 ∨ request.diskGib = 0 then
    .error (.operation "lifecycle: cp needs positive vcpu, memory, and disk")
  else if request.diskGib < source.diskGib then
    .error (.diskShrink (source.name ++ " has " ++ toString source.diskGib ++ " GiB, requested " ++
      toString request.diskGib ++ " GiB"))
  else if request.nested then checkNested manager.nested
  else .ok ()

def checkCopyMachine (source : Instance) (request : NewRequest) : Except Error Unit :=
  if source.hostId ≠ manager.hostId ∨ request.hostId ≠ source.hostId then
    .error (.copyAcrossMachines (source.name ++ " runs on machine " ++ toString source.hostId ++
      ", and the copy is for machine " ++
      toString request.hostId))
  else .ok ()

def copyable (source : Instance) : Except Hypervisor.Error PowerState → Except Error Unit
  | .ok .stopped | .error (.domainNotFound _) => .ok ()
  | .ok _ => .error (.copySourceRunning (source.name ++ " is running"))
  | .error error => .error (.operation ("lifecycle: cp " ++ source.name ++ ": " ++ error.text))

def unwindCopy {α : Type} (row : Instance) (cause : String) : ManagerM α := do
  let seed ← answered (.deleteIso row.uuid)
  let overlay ← answered (.removeOverlay row.uuid)
  let deleted ← answered (.store (.deleteInstance row.uuid))
  let told (what : String) : Option Cause → String
    | some error => ": unwind " ++ what ++ ": " ++ manager.chain error
    | none => ""
  let failure {β : Type} : Except Cause β → Option Cause
    | .error error => some error
    | .ok _ => none
  throw (.operation ("lifecycle: cp " ++ row.name ++ ": " ++ cause ++ told "seed iso" (failure seed) ++
    told "overlay" (failure overlay) ++
    told "instance row" (failure deleted)))

def copyStep {ε α : Type} (row : Instance) (text : ε → String) (program : ManagerProgram (Except ε α)) :
    ManagerM α := do
  match ← ExceptT.lift program with
  | .ok value => return value
  | .error error => manager.unwindCopy row (text error)

def growCopy (source row : Instance) : ManagerM Unit :=
  if source.diskGib < row.diskGib then manager.copyStep row manager.chain (ask (.resizeOverlay row.uuid row.diskGib))
  else pure ()

def finishCopy (source row : Instance) (owner : User) (subnet : Ipv4Prefix) (address : Ipv4Addr) :
    ManagerM Instance := do
  manager.copyStep row manager.chain (ask (.copyOverlay source.uuid row.uuid))
  manager.growCopy source row
  manager.copyStep row (fun error => manager.chain (.network error)) (pure (checkGuest subnet address))
  manager.copyStep row manager.chain (ask (.buildIso row.uuid))
  let xml ← manager.copyStep row manager.errorText (pure (manager.domainXml row owner true))
  manager.copyStep row Hypervisor.Error.text (ask (.create xml))
  let _ ← answered (.store (.setObservedState row.uuid .running))
  return { row with state := .running }

def copy (mac : String → String) (sourceUuid : String) (request : NewRequest) : ManagerM Instance := do
  let source ← stored (.instance sourceUuid)
  stored (.imageVersion source.baseChecksum)
  manager.checkCopy source request
  manager.checkCopyMachine source request
  let state ← answered (.state source.name)
  copyable source state
  let subnet ← manager.subnetOf request.owner
  let (address, slot) ← allocate request.hostId subnet
  let capacity ← stored (.hostCapacity request.hostId)
  let (uuid, now) ← answered .mint
  let row := request.row mac request.hostId source.imageName source.baseChecksum uuid now address slot
  stored (.createInstance row capacity)
  manager.finishCopy source row request.owner subnet address

def syncObserved (row : Instance) : ManagerProgram Unit := do
  let answer ← ask (.state row.name)
  let state := match answer with
    | .ok state => state
    | .error _ => .stopped
  let _ ← ask (.store (.setObservedState row.uuid state))

def restoreOne (row : Instance) : ManagerProgram Bool := do
  let _ ← ask (.store (.setObservedState row.uuid .starting))
  match ← ask (.act .start row.name) with
  | .ok _ => return true
  | .error _ => do
    syncObserved row
    return false

def startBatch : List Instance → ManagerProgram (List Instance)
  | [] => return []
  | row :: rows => do
    let started ← restoreOne row
    let rest ← startBatch rows
    return if started then row :: rest else rest

def waitRunning (name : String) : Nat → ManagerProgram Bool
  | 0 => return false
  | attempts + 1 => do
    match ← ask (.state name) with
    | .ok .running => return true
    | .ok _ => waitRunning name attempts
    | .error _ => return false

def awaitOne (row : Instance) : ManagerProgram Unit := do
  let running ← waitRunning row.name (max 1 manager.startAttempts)
  if running then
    let _ ← ask (.store (.setObservedState row.uuid .running))
  else syncObserved row

def awaitBatch : List Instance → ManagerProgram Unit
  | [] => return
  | row :: rows => do
    manager.awaitOne row
    awaitBatch rows

def chunks (size : Nat) : Nat → List Instance → List (List Instance)
  | 0, _ | _, [] => []
  | count + 1, rows => rows.take size :: chunks size count (rows.drop size)

def restoreBatches : List (List Instance) → ManagerProgram Unit
  | [] => return
  | batch :: batches => do
    let started ← startBatch batch
    manager.awaitBatch started
    restoreBatches batches

def clearAutostarts : List DomainInfo → ManagerProgram Unit
  | [] => return
  | domain :: domains => do
    let _ ← ask (.clearAutostart domain.name)
    clearAutostarts domains

def clearAllAutostarts (domains : List DomainInfo) : ManagerProgram Unit :=
  if manager.autostartClearer then clearAutostarts domains else pure ()

def restore : ManagerM Unit := do
  let domains ← checked (ask .list) fun error => .operation ("lifecycle: restore: list domains: " ++ error.text)
  ExceptT.lift (manager.clearAllAutostarts domains)
  checked (ask (.store (.updateObservedStates (domains.map fun domain => (domain.uuid, domain.state))))) fun cause =>
    .operation ("lifecycle: restore: record observed states: " ++ manager.chain cause)
  let rows ← checked (ask (.store (.instancesToRestore manager.hostId))) fun cause =>
    .operation ("lifecycle: restore: " ++ manager.chain cause)
  ExceptT.lift (manager.restoreBatches (chunks manager.batchSize rows.length rows))

def detachSeed (row : Instance) : ManagerM Unit :=
  if manager.definer then do
    let xml ← manager.domainXmlByUuid row false
    checked (ask (.define xml)) fun error =>
      .operation ("lifecycle: detach seed iso of " ++ row.name ++ ": " ++ error.text)
  else pure ()

def dropSeed (row : Instance) : ManagerM Unit := do
  manager.detachSeed row
  checked (ask (.deleteIso row.uuid)) fun cause =>
    .operation ("lifecycle: delete seed iso of " ++ row.name ++ ": " ++ manager.chain cause)

def finishFirstBoot (row : Instance) : ManagerM Unit := do
  let present ← answered (.isoExists row.uuid)
  if present then manager.dropSeed row else return

def finishFirstBoots : List Instance → ManagerProgram Unit
  | [] => return
  | row :: rows => do
    let _ ← (manager.finishFirstBoot row).run
    finishFirstBoots rows

def pollOnce : ManagerM Unit := do
  let domains ← checked (ask .list) fun error => .operation ("lifecycle: poll: list domains: " ++ error.text)
  let states := domains.map fun domain => (domain.uuid, domain.state)
  checked (ask (.store (.updateObservedStates states))) fun cause =>
    .operation ("lifecycle: poll: record observed states: " ++ manager.chain cause)
  let rows ← checked (ask (.store (.instancesOnHost manager.hostId))) fun cause =>
    .operation ("lifecycle: poll: list instances: " ++ manager.chain cause)
  ExceptT.lift (manager.finishFirstBoots (rows.filter fun row => states.lookup row.uuid = some .running))

def handleEvent (uuid : String) (state : PowerState) : ManagerM Unit := do
  match ← answered (.store (.instance uuid)) with
  | .error _ => return
  | .ok row => do
    stored (.setObservedState uuid state)
    if state = .running then
      let _ ← ExceptT.lift (manager.finishFirstBoot row).run
    else return

end Manager

inductive Action where
  | start (uuid : String)
  | startForConnection (uuid : String)
  | stop (uuid : String)
  | restart (uuid : String)
  | remove (uuid : String)
  | rename (uuid newName : String)
  | resize (request : ResizeRequest)
  | create (mac : String → String) (request : Manager.NewRequest)
  | copy (mac : String → String) (sourceUuid : String) (request : Manager.NewRequest)
  | pollOnce

def Action.program (manager : Manager) : Action → ManagerM Unit
  | .start uuid => manager.start uuid
  | .startForConnection uuid => manager.startForConnection uuid
  | .stop uuid => do let _ ← manager.stop uuid
  | .restart uuid => manager.restart uuid
  | .remove uuid => manager.remove uuid
  | .rename uuid newName => manager.rename uuid newName
  | .resize request => do let _ ← manager.resize request
  | .create mac request => do let _ ← manager.create mac request
  | .copy mac sourceUuid request => do let _ ← manager.copy mac sourceUuid request
  | .pollOnce => manager.pollOnce

end Bento.Lifecycle
