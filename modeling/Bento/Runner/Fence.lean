import Bento.Library.Programs
import Bento.Runner.Protocol

/-! What a runner remembers so that an old controller cannot drive it. The memory is
a small database on the runner's own disk: the highest accepted epoch, the highest
generation of each object with what it wanted, and the outcome of each finished
change. Every call on it may fail, and a failed call changes nothing. -/

namespace Bento.Runner
open Library.Rfc3339 Library.Programs

structure FenceStore where
  acceptedEpoch : Int
  objectGenerations : String → Option (Int × String)
  requestOutcomes : String → Option String

namespace FenceStore

def empty : FenceStore := ⟨0, fun _ => none, fun _ => none⟩

/-- `MAX` is the guard: a controller cannot talk this runner backwards. -/
def acceptEpoch (store : FenceStore) (epoch : Int) : FenceStore :=
  { store with acceptedEpoch := max store.acceptedEpoch epoch }

/-- The `WHERE` is the guard: a row changes only to a higher generation. -/
def acceptObject (store : FenceStore) (objectId : String) (generation : Int) (digest : String) : FenceStore :=
  let written := { store with
    objectGenerations := Function.update store.objectGenerations objectId (some (generation, digest)) }
  match store.objectGenerations objectId with
  | some (accepted, _) => if accepted < generation then written else store
  | none => written

def recordOutcome (store : FenceStore) (requestId outcome : String) : FenceStore :=
  { store with requestOutcomes := Function.update store.requestOutcomes requestId (some outcome) }

end FenceStore

inductive StoreCall where
  | acceptedEpoch
  | objectGeneration (objectId : String)
  | outcome (requestId : String)
  | acceptEpoch (epoch : Int)
  | acceptObject (objectId : String) (generation : Int) (digest : String)
  | recordOutcome (requestId outcome : String)

def StoreCall.Result : StoreCall → Type
  | .acceptedEpoch => Int
  | .objectGeneration _ => Option (Int × String)
  | .outcome _ => Option String
  | .acceptEpoch _ | .acceptObject _ _ _ | .recordOutcome _ _ => Unit

def FenceStore.perform (store : FenceStore) : (call : StoreCall) → call.Result × FenceStore
  | .acceptedEpoch => (store.acceptedEpoch, store)
  | .objectGeneration objectId => (store.objectGenerations objectId, store)
  | .outcome requestId => (store.requestOutcomes requestId, store)
  | .acceptEpoch epoch => ((), store.acceptEpoch epoch)
  | .acceptObject objectId generation digest => ((), store.acceptObject objectId generation digest)
  | .recordOutcome requestId outcome => ((), store.recordOutcome requestId outcome)

inductive FenceError where
  | sqlite
  | time (message : String)

def FenceError.toString : FenceError → String
  | .sqlite => "runner fence: sqlite"
  | .time message => "runner fence: " ++ message

abbrev Faults := StoreCall → Option FenceError

def Faults.none : Faults := fun _ => Option.none

abbrev StoreCall.Answer (call : StoreCall) : Type := Except FenceError call.Result

def serveStore (faults : Faults) (call : StoreCall) (store : FenceStore) : call.Answer × FenceStore :=
  match faults call with
  | some error => (.error error, store)
  | none => (.ok (store.perform call).1, (store.perform call).2)

abbrev FenceM := ExceptT FenceError (Program StoreCall.Answer)

def storeCall (call : StoreCall) : FenceM call.Result := ExceptT.mk (.request call .pure)

inductive Admission where
  | allowed
  | alreadyDone (outcome : String)
  | refused (refusal : Refusal)

/-- Whose requests the runner takes, and how far apart the two clocks may be before
it stops judging leases. -/
structure Fence where
  machineId : String
  maxSkewSeconds : Nat

/-- Decides whether a request may act. The order of the checks is the design: can
this runner read the request, is it addressed to this machine, is the sender a
controller that was replaced, does it still hold the lease it claims. A read stops
there and records nothing. -/
def Fence.admitAs (fence : Fence) (now : Int) (envelope : Envelope) (mutates : Bool) : FenceM Admission := do
  if envelope.protocolVersion ≠ protocolVersion then
    return .refused (.protocolVersion envelope.protocolVersion protocolVersion)
  match envelope.targetMachineId with
  | some target =>
    if target ≠ fence.machineId then return .refused (.wrongMachine target fence.machineId)
  | none =>
    if mutates then return .refused .unaddressedChange
  let accepted : Int ← storeCall .acceptedEpoch
  if envelope.epoch < accepted then
    return .refused (.staleEpoch envelope.epoch accepted)
  let skew := (now - envelope.sentAt.instant).tdiv nanosPerSecond
  if skew.natAbs > fence.maxSkewSeconds then
    return .refused (.clockUntrusted skew)
  if envelope.leaseExpiresAt.instant ≤ now then
    match envelope.leaseExpiresAt.format with
    | .ok text => return .refused (.leaseExpired text)
    | .error message => throw (.time message)
  if !mutates then
    return .allowed
  let some object := envelope.object | return .refused .unfencedChange
  if let some (accepted, digest) ← storeCall (.objectGeneration object.objectId) then
    if object.generation < accepted then
      return .refused (.staleGeneration object.objectId object.generation accepted)
    if object.generation = accepted ∧ object.digest ≠ digest then
      return .refused (.generationConflict object.objectId object.generation)
  if let some outcome ← storeCall (.outcome envelope.requestId) then
    return .alreadyDone outcome
  storeCall (.acceptEpoch envelope.epoch)
  storeCall (.acceptObject object.objectId object.generation object.digest)
  return .allowed

def Fence.admitRequest (fence : Fence) (now : Int) (envelope : Envelope) : FenceM Admission :=
  fence.admitAs now envelope envelope.op.mutates

def Fence.finish (requestId outcome : String) : FenceM Unit :=
  storeCall (.recordOutcome requestId outcome)

end Bento.Runner
