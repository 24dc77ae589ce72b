import Bento.Runner.Fence

/-! One request against the fence and then the host. `serveOne` is a program whose
calls are the admission, the start and the end of the host's work, and the record of
the outcome. What the clock reads, what the host answers and which store calls fail
belong to the surroundings of a call. -/

namespace Bento.Runner
open Library.Programs Library.Runs

abbrev HostError := String

structure Host where
  health : Except HostError Health
  capabilities : Except HostError Capabilities
  inventory : Except HostError (List Domain)
  sample : Except HostError Samples
  ensureImage : ImageRequest → Except HostError Reply
  applyNetwork : Network.MachineNetwork → Except HostError Reply
  provision : ProvisionRequest → Except HostError Reply
  start : InstanceRef → Except HostError PowerState
  stop : InstanceRef → Except HostError PowerState
  reboot : InstanceRef → Except HostError PowerState
  remove : InstanceRef → Except HostError PowerState
  redefine : RedefineRequest → Except HostError PowerState
  resizeDisk : InstanceRef → UInt64 → Except HostError PowerState

def Host.perform (host : Host) : Operation → Except HostError Reply
  | .health => host.health.map .health
  | .capabilities => host.capabilities.map .capabilities
  | .inventory => host.inventory.map .inventory
  | .sample => host.sample.map .samples
  | .ensureImage image => host.ensureImage image
  | .applyNetwork network => host.applyNetwork network
  | .provisionInstance provision => host.provision provision
  | .startInstance target => (host.start target).map .changed
  | .stopInstance target => (host.stop target).map .changed
  | .rebootInstance target => (host.reboot target).map .changed
  | .removeInstance target => (host.remove target).map .changed
  | .redefineInstance redefine => (host.redefine redefine).map .changed
  | .resizeDisk target diskGib => (host.resizeDisk target diskGib).map .changed

inductive Outcome where
  | done (reply : Reply)
  | replayed (recorded : String)
  | refused (refusal : Refusal)
deriving DecidableEq

inductive RunnerCall where
  | admission (envelope : Envelope)
  | start (op : Operation)
  | answered (op : Operation)
  | finish (requestId recorded : String)

def RunnerCall.Answer : RunnerCall → Type
  | .admission _ => Except FenceError Admission
  | .start _ => Unit
  | .answered _ => Except HostError Reply
  | .finish _ _ => Except FenceError Unit

abbrev ServeM := ExceptT HostError (Program RunnerCall.Answer)

def admission (envelope : Envelope) : ServeM Admission :=
  ExceptT.mk (.request (.admission envelope) fun answer => .pure (answer.mapError FenceError.toString))

def hostCall (op : Operation) : ServeM Reply :=
  ExceptT.mk (.request (.start op) fun _ => .request (.answered op) .pure)

def finish (requestId recorded : String) : ServeM Unit :=
  ExceptT.mk (.request (.finish requestId recorded) fun answer => .pure (answer.mapError FenceError.toString))

/-- `encode` writes a reply as JSON. A change is recorded before the answer leaves,
so that a retry after a lost reply is answered from memory. -/
def serveOne (encode : Reply → Except HostError String) (envelope : Envelope) : ServeM Outcome := do
  match ← admission envelope with
  | .refused refusal => return .refused refusal
  | .alreadyDone recorded => return .replayed recorded
  | .allowed =>
    let reply ← hostCall envelope.op
    if envelope.op.mutates then
      let recorded ← ExceptT.mk (.pure (encode reply))
      finish envelope.requestId recorded
    return .done reply

structure Surroundings where
  now : Int
  faults : Faults
  host : Host

structure RunnerState (ι : Type) where
  store : FenceStore
  started : List (ι × Operation)

def Fence.serve (fence : Fence) (i : ι) (around : Surroundings) :
    (call : RunnerCall) → RunnerState ι → call.Answer × RunnerState ι
  | .admission envelope, state =>
    let (answer, store) := (fence.admitRequest around.now envelope).execute (serveStore around.faults) state.store
    (answer, { state with store })
  | .start op, state => ((), { state with started := state.started ++ [(i, op)] })
  | .answered op, state => (around.host.perform op, state)
  | .finish requestId recorded, state =>
    let (answer, store) := (Fence.finish requestId recorded).execute (serveStore around.faults) state.store
    (answer, { state with store })

structure Exchange where
  envelope : Envelope
  around : Surroundings
  before : FenceStore
  result : Except HostError Outcome
  after : FenceStore
  hostCalls : List Operation

def exchange (fence : Fence) (encode : Reply → Except HostError String) (store : FenceStore)
    (around : Surroundings) (envelope : Envelope) : Exchange :=
  let (result, state) := (serveOne encode envelope).execute (fence.serve () around) ⟨store, []⟩
  { envelope, around, before := store, result, after := state.store, hostCalls := state.started.map Prod.snd }

def serveAll (fence : Fence) (encode : Reply → Except HostError String) :
    FenceStore → List (Surroundings × Envelope) → List Exchange :=
  trace fun store (around, envelope) =>
    let served := exchange fence encode store around envelope
    (served, served.after)

end Bento.Runner
