import Bento.Runner.Protocol
import Bento.Store.Generations

/-! What the controller and the frontends send to the runners: images, networks and
changes of instances. Every change takes the next generation of its object from the
shared database and leaves as one envelope. The functions end where the client is
called; what the runner answers is handled by their callers. -/

namespace Bento.Bentod
open Runner Store Library.Runs

structure Host where
  id : Int
  machineId : Option String
  name : String
  endpoint : Option String

inductive DispatchError where
  | message (text : String)
  | notAnInstanceChange (op : Runner.Operation)
  | store (error : Store.Error)
deriving DecidableEq

abbrev DispatchM := ExceptT DispatchError (StateM Generations)

/-- What a process brings to one dispatch: where it goes, the lease it speaks under, the
clock and a fresh request id. A process without a lease to name dispatches nothing. -/
structure Sending where
  host : Host
  lease : Lease
  now : Int
  requestId : String

structure Codec where
  sha256 : List UInt8 → List UInt8
  provision : ProvisionRequest → Except String String
  redefine : RedefineRequest → Except String String
  operation : Runner.Operation → Except String String
  network : Network.MachineNetwork → Except String String

def send (sending : Sending) (op : Runner.Operation) (object : Option ObjectFence) : Envelope where
  protocolVersion := protocolVersion
  targetMachineId := sending.host.machineId
  epoch := sending.lease.epoch
  holderId := sending.lease.holderId
  leaseExpiresAt := ⟨sending.lease.expiresAt, 0⟩
  sentAt := ⟨sending.now, 0⟩
  requestId := sending.requestId
  object := object
  op := op

def objectFence (objectId digest : String) (epoch : Int) : DispatchM ObjectFence :=
  ExceptT.mk fun rows =>
    match nextDispatchGeneration objectId epoch rows with
    | .ok (generation, after) => (.ok ⟨objectId, generation, digest⟩, after)
    | .error error => (.error (.store error), rows)

section
variable (codec : Codec) (sending : Sending)

def bytes (text : String) : List UInt8 := text.toUTF8.toList

def hexDigest (hashed : List UInt8) : String :=
  "sha256-" ++ String.ofList ((codec.sha256 hashed).flatMap Library.Decimal.hexByte)

def digestOf (body : String) : String := hexDigest codec (bytes body)

def lengthBytes (length : Nat) : List UInt8 :=
  [56, 48, 40, 32, 24, 16, 8, 0].map fun shift => UInt8.ofNat (length / 2 ^ shift)

def digestField (value : String) : List UInt8 := lengthBytes (bytes value).length ++ bytes value

def bailIf (broken : Bool) (text : String) : DispatchM Unit :=
  if broken then throw (.message text) else return

def requireEndpoint (kind : String) : DispatchM Unit :=
  bailIf sending.host.endpoint.isNone (kind ++ " " ++ sending.host.name ++ " has no endpoint")

def fallible {α : Type} (result : Except String α) : DispatchM α :=
  ExceptT.mk (pure (result.mapError .message))

namespace ImageSync

def objectFence (request : ImageRequest) (epoch : Int) : DispatchM ObjectFence :=
  let version := match request.haveVersion with
    | some version => 1 :: digestField version
    | none => [0]
  Bentod.objectFence request.name
    (hexDigest codec (digestField request.name ++ digestField request.url ++ version)) epoch

def ensure (request : ImageRequest) : DispatchM Envelope := do
  bailIf sending.host.machineId.isNone ("runner " ++ sending.host.name ++ " has not reported its machine identity")
  let object ← objectFence codec request sending.lease.epoch
  requireEndpoint sending "runner"
  return send sending (.ensureImage request) (some object)

end ImageSync

namespace NetworkSync

def objectFence (hostId : Int) (digest : String) (epoch : Int) : DispatchM ObjectFence :=
  Bentod.objectFence ("network:" ++ toString hostId) digest epoch

def syncHost (planned : Except String Network.MachineNetwork) (applied : Option String) :
    DispatchM (Option Envelope) := do
  bailIf sending.host.machineId.isNone ("runner " ++ sending.host.name ++ " has not reported its machine identity")
  let network ← fallible planned
  let digest := digestOf codec (← fallible (codec.network network))
  if applied = some digest then
    return none
  let object ← objectFence sending.host.id digest sending.lease.epoch
  requireEndpoint sending "runner"
  return some (send sending (.applyNetwork network) (some object))

end NetworkSync

namespace InstanceSync

def objectFence (uuid digest : String) (epoch : Int) : DispatchM ObjectFence :=
  Bentod.objectFence uuid digest epoch

def provision (request : ProvisionRequest) : DispatchM Envelope := do
  requireEndpoint sending "machine"
  bailIf sending.host.machineId.isNone ("machine " ++ sending.host.name ++ " has not reported its identity")
  let digest := digestOf codec (← fallible (codec.provision request))
  let object ← objectFence request.target.uuid digest sending.lease.epoch
  return send sending (.provisionInstance request) (some object)

def redefine (request : RedefineRequest) : DispatchM Envelope := do
  requireEndpoint sending "machine"
  let digest := digestOf codec (← fallible (codec.redefine request))
  let object ← objectFence request.target.uuid digest sending.lease.epoch
  return send sending (.redefineInstance request) (some object)

def read (op : Runner.Operation) : DispatchM Envelope := do
  requireEndpoint sending "machine"
  return send sending op none

def instanceOf : Runner.Operation → DispatchM String
  | .startInstance target | .stopInstance target | .rebootInstance target | .removeInstance target
  | .resizeDisk target _ => pure target.uuid
  | other => throw (.notAnInstanceChange other)

def change (op : Runner.Operation) : DispatchM Envelope := do
  requireEndpoint sending "machine"
  let uuid ← instanceOf op
  let digest := digestOf codec (← fallible (codec.operation op))
  let object ← objectFence uuid digest sending.lease.epoch
  return send sending op (some object)

def resizeDisk (target : InstanceRef) (diskGib : UInt64) : DispatchM Envelope :=
  change codec sending (.resizeDisk target diskGib)

end InstanceSync

end

inductive Order where
  | image (request : ImageRequest)
  | network (planned : Except String Network.MachineNetwork) (applied : Option String)
  | provision (request : ProvisionRequest)
  | redefine (request : RedefineRequest)
  | resizeDisk (target : InstanceRef) (diskGib : UInt64)
  | change (op : Runner.Operation)
  | read (op : Runner.Operation)

def Order.dispatch (codec : Codec) (sending : Sending) : Order → DispatchM (Option Envelope)
  | .image request => do return some (← ImageSync.ensure codec sending request)
  | .network planned applied => NetworkSync.syncHost codec sending planned applied
  | .provision request => do return some (← InstanceSync.provision codec sending request)
  | .redefine request => do return some (← InstanceSync.redefine codec sending request)
  | .resizeDisk target diskGib => do return some (← InstanceSync.resizeDisk codec sending target diskGib)
  | .change op => do return some (← InstanceSync.change codec sending op)
  | .read op => do return some (← InstanceSync.read sending op)

def dispatchRun (codec : Codec) : Generations → List (Sending × Order) → List (Option Envelope) :=
  trace fun rows (sending, order) =>
    let (result, after) := (order.dispatch codec sending).run.run rows
    (result.toOption.join, after)

end Bento.Bentod
