import Bento.Bentod.Netstate
import Bento.Bentod.Runners

/-! Bringing the machines to the networks that the database describes. A machine is told
the whole answer, unless it acknowledged the same answer before and has not rebooted
since. What the controller remembers lives in its process; what a machine has installed
is changed by every request that gets there, answered or not. -/

namespace Bento.Network

def Error.text : Error → String
  | .invalid message => "network: " ++ message
  | .addressesExhausted => "network: no free address in the subnet"

end Bento.Network

namespace Bento.Bentod
open Network Runner Store

structure Settings where
  plan : Plan
  highPorts : PortRange
  controllerHostId : Int

def Settings.network (settings : Settings) (fleet : Fleet) (hostId : Int) : MachineNetwork :=
  machineNetwork fleet settings.plan settings.highPorts hostId settings.controllerHostId

/-- A description that would black-hole traffic never leaves the controller. -/
def Settings.planned (settings : Settings) (fleet : Fleet) (hostId : Int) : Except String MachineNetwork :=
  match (settings.network fleet hostId).check with
  | .ok () => .ok (settings.network fleet hostId)
  | .error error => .error error.text

structure Memory where
  applied : Int → Option String
  boots : Int → Option String

def Memory.new : Memory := ⟨fun _ => none, fun _ => none⟩

/-- A new boot id drops the digest, so that the next sync sends again. An empty id says
nothing. -/
def Memory.noteBoot (memory : Memory) (hostId : Int) (bootId : String) : Memory :=
  if bootId = "" then memory
  else
    let boots := Function.update memory.boots hostId (some bootId)
    if (memory.boots hostId).any (· ≠ bootId) then ⟨Function.update memory.applied hostId none, boots⟩
    else ⟨memory.applied, boots⟩

/-- A machine: the description it last applied and whether it got to the end of it, its
boot id and those it had before, and whether it rebooted since it last reported one. -/
structure Machine where
  installed : Option (MachineNetwork × Bool)
  bootId : String
  past : List String
  rebooted : Bool
deriving DecidableEq

def Machine.reboot (machine : Machine) (bootId : String) : Machine where
  installed := none
  bootId := bootId
  past := machine.bootId :: machine.past
  rebooted := true

def Machine.install (machine : Machine) (complete : Bool) : Runner.Operation → Machine
  | .applyNetwork network => { machine with installed := some (network, complete) }
  | _ => machine

/-- What becomes of a request. The machine answers only once everything is applied. -/
inductive Delivery where
  | unserved (error : String)
  | broken (error : String)
  | unanswered (error : String)
  | answered (bridges routesAdded routesRemoved routesUnchanged : Nat)

def Delivery.serve (op : Runner.Operation) (machine : Machine) : Delivery → Except String Reply × Machine
  | .unserved error => (.error error, machine)
  | .broken error => (.error error, machine.install false op)
  | .unanswered error => (.error error, machine.install true op)
  | .answered bridges added removed unchanged =>
    (.ok (.networkApplied bridges added removed unchanged), machine.install true op)

structure Deployed where
  fleet : Fleet
  rows : Generations
  memory : Memory
  machines : Int → Machine

namespace Deployed
variable (codec : Codec) (settings : Settings)

def acknowledge (state : Deployed) (hostId : Int) (object : Option ObjectFence) :
    Except String Reply → Except DispatchError Unit × Deployed
  | .error error => (.error (.message error), state)
  | .ok (.networkApplied _ _ _ _) =>
    let applied := Function.update state.memory.applied hostId (object.map ObjectFence.digest)
    (.ok (), { state with memory := { state.memory with applied } })
  | .ok reply => (.error (.message ("runner answered " ++ reprStr reply ++ " to a network request")), state)

def syncHost (state : Deployed) (sending : Sending) (delivery : Delivery) : Except DispatchError Unit × Deployed :=
  let hostId := sending.host.id
  let dispatched := (NetworkSync.syncHost codec sending (settings.planned state.fleet hostId)
    (state.memory.applied hostId)).run.run state.rows
  match dispatched.1 with
  | .error error => (.error error, { state with rows := dispatched.2 })
  | .ok none => (.ok (), { state with rows := dispatched.2 })
  | .ok (some envelope) =>
    let served := delivery.serve envelope.op (state.machines hostId)
    acknowledge { state with rows := dispatched.2, machines := Function.update state.machines hostId served.2 } hostId
      envelope.object served.1

inductive Event where
  | write (fleet : Fleet)
  | sync (sending : Sending) (delivery : Delivery)
  | report (hostId : Int) (silent : Bool)
  | reboot (hostId : Int) (bootId : String)

def noteBoot (state : Deployed) (hostId : Int) (silent : Bool) : Deployed :=
  let machine := state.machines hostId
  let bootId := if silent then "" else machine.bootId
  { state with
    memory := state.memory.noteBoot hostId bootId
    machines := Function.update state.machines hostId
      { machine with rebooted := if bootId = "" then machine.rebooted else false } }

def step (state : Deployed) : Event → Option Deployed
  | .write fleet => some { state with fleet }
  | .sync sending delivery => some (state.syncHost codec settings sending delivery).2
  | .report hostId silent => some (state.noteBoot hostId silent)
  | .reboot hostId bootId =>
    if bootId = (state.machines hostId).bootId ∨ bootId ∈ (state.machines hostId).past then none
    else some { state with machines := Function.update state.machines hostId ((state.machines hostId).reboot bootId) }

end Deployed

end Bento.Bentod
