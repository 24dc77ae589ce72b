import Bento.Library.Rfc3339
import Bento.Network.Machine
import Bento.Types

/-! What the controller and a runner say to each other. The fields of an envelope
outside `op` answer one question: may this request act at all? -/

namespace Bento.Runner
open Library.Rfc3339 (OffsetDateTime)

def protocolVersion : UInt32 := 1

structure InstanceRef where
  uuid : String
  name : String
deriving DecidableEq

structure ImageRequest where
  name : String
  url : String
  haveVersion : Option String
deriving DecidableEq

structure Seed where
  instanceId : String
  hostname : String
  userName : String
  authorizedKeys : List String
  mac : String
  addressCidr : String
  gateway : String
  dns : String
  installGuestAgent : Bool
deriving DecidableEq

structure ProvisionRequest where
  target : InstanceRef
  baseChecksum : String
  diskGib : UInt64
  vcpu : UInt32
  memoryMib : UInt64
  nested : Bool
  ksm : Bool
  network : String
  mac : String
  seed : Seed
  withSeedIso : Bool
  start : Bool
deriving DecidableEq

structure RedefineRequest where
  target : InstanceRef
  previousName : Option String
  vcpu : UInt32
  memoryMib : UInt64
  nested : Bool
  ksm : Bool
  network : String
  mac : String
deriving DecidableEq

inductive Operation where
  | health
  | capabilities
  | inventory
  | sample
  | ensureImage (image : ImageRequest)
  | applyNetwork (network : Network.MachineNetwork)
  | provisionInstance (provision : ProvisionRequest)
  | startInstance (target : InstanceRef)
  | stopInstance (target : InstanceRef)
  | rebootInstance (target : InstanceRef)
  | removeInstance (target : InstanceRef)
  | redefineInstance (redefine : RedefineRequest)
  | resizeDisk (target : InstanceRef) (diskGib : UInt64)
deriving DecidableEq

def Operation.mutates : Operation → Bool
  | .health | .capabilities | .inventory | .sample => false
  | .ensureImage _ | .applyNetwork _ | .provisionInstance _ | .startInstance _ | .stopInstance _
  | .rebootInstance _ | .removeInstance _ | .redefineInstance _ | .resizeDisk _ _ => true

structure ObjectFence where
  objectId : String
  generation : Int
  digest : String
deriving DecidableEq

structure Envelope where
  protocolVersion : UInt32
  targetMachineId : Option String
  epoch : Int
  holderId : String
  leaseExpiresAt : OffsetDateTime
  sentAt : OffsetDateTime
  requestId : String
  object : Option ObjectFence
  op : Operation
deriving DecidableEq

structure Health where
  protocolVersion : UInt32
  machineId : String
  hostname : String
  acceptedEpoch : Int
  bootId : String
deriving DecidableEq, Repr

structure Capabilities where
  arch : String
  cpuCount : UInt64
  memoryTotalMib : UInt64
  storageTotalGib : UInt64
  storageAvailableGib : UInt64
  hypervisorVersion : String
deriving DecidableEq, Repr

structure Domain where
  uuid : String
  name : String
  state : PowerState
deriving DecidableEq, Repr

structure CpuTimeSample where
  total : UInt64
  idle : UInt64
deriving DecidableEq, Repr

structure HostSample where
  cpu : Option CpuTimeSample
  memoryTotalBytes : UInt64
  memoryAvailableBytes : UInt64
  storageTotalBytes : UInt64
  storageAvailableBytes : UInt64
  cpuCount : UInt64
deriving DecidableEq, Repr

structure DomainUsage where
  uuid : String
  cpuTimeNs : UInt64
  vcpus : UInt32
  rssKib : Option UInt64
  storageUsedBytes : UInt64
deriving DecidableEq, Repr

structure Samples where
  host : HostSample
  domains : List DomainUsage
deriving DecidableEq, Repr

inductive Reply where
  | health (health : Health)
  | capabilities (capabilities : Capabilities)
  | inventory (domains : List Domain)
  | samples (samples : Samples)
  | changed (state : PowerState)
  | networkApplied (bridges routesAdded routesRemoved routesUnchanged : Nat)
  | provisioned (state : PowerState)
  | imageReady (name checksum : String) (alreadyPresent : Bool) (size : UInt64)
deriving DecidableEq, Repr

/-- Why a runner refused. A refusal is not a failure: each one tells the controller
something true about itself. -/
inductive Refusal where
  | protocolVersion (yours theirs : UInt32)
  | wrongMachine (yours theirs : String)
  | unaddressedChange
  | unfencedChange
  | staleGeneration (objectId : String) (yours theirs : Int)
  | generationConflict (objectId : String) (generation : Int)
  | staleEpoch (yours theirs : Int)
  | leaseExpired (expiredAt : List Char)
  | clockUntrusted (skewSeconds : Int)
deriving DecidableEq, Repr

end Bento.Runner
