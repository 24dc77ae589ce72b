import Bento.Hypervisor.Client
import Bento.Library.Programs

/-! The methods of the client call by call. libvirt answers each call for the machine as it is
at that moment, and others may change the machine between two calls. -/

namespace Bento.Hypervisor
open Library.Programs
open Library.Programs.Program (ask)

inductive CallError where
  | noDomain
  | other
deriving DecidableEq

structure DomainHandle where
  name : String
  uuid : String

inductive LibvirtCall where
  | lookupByName (name : String)
  | getState (domain : DomainHandle)
  | shutdown (domain : DomainHandle)
  | destroy (domain : DomainHandle)
  | undefineFlags (domain : DomainHandle)
  | listAllDomains

abbrev LibvirtCall.Value : LibvirtCall → Type
  | .lookupByName _ => DomainHandle
  | .getState _ => PowerState
  | .listAllDomains => List DomainHandle
  | .shutdown _ | .destroy _ | .undefineFlags _ => Unit

abbrev LibvirtCall.Answer (call : LibvirtCall) : Type := Except CallError call.Value

abbrev ClientM := ExceptT Error (Program LibvirtCall.Answer)

def asked (call : LibvirtCall) (describe : CallError → Error) : ClientM call.Value :=
  ExceptT.mk ((ask call : Program LibvirtCall.Answer _) >>= fun answer => pure (answer.mapError describe))

def operationError (operation : String) (_ : CallError) : Error := .operation operation

structure Client where
  stopTimeout : Nat
  pollInterval : Nat
  moves : 0 < pollInterval

namespace Client

def connect : Client := ⟨60000, 500, by decide⟩

def lookup (name : String) : ClientM DomainHandle :=
  asked (.lookupByName name) fun error =>
    if error = .noDomain then .domainNotFound name else .operation ("lookup domain " ++ name)

def domainState (domain : DomainHandle) : ClientM PowerState :=
  asked (.getState domain) (operationError ("get state of domain " ++ domain.name))

def waitStopped (client : Client) (domain : DomainHandle) (elapsed : Nat) : ClientM Bool := do
  let state ← domainState domain
  if state = .stopped then return true
  else if _late : client.stopTimeout ≤ elapsed then return false
  else client.waitStopped domain (elapsed + client.pollInterval)
termination_by client.stopTimeout - elapsed
decreasing_by
  have := client.moves
  omega

def shutDown (client : Client) (name : String) (domain : DomainHandle) : ClientM StopResult := do
  asked (.shutdown domain) (operationError ("shutdown domain " ++ name))
  if ← client.waitStopped domain 0 then return .graceful
  else
    asked (.destroy domain) (operationError ("destroy domain " ++ name ++ " after shutdown timeout"))
    return .forced

def stop (client : Client) (name : String) : ClientM StopResult := do
  let domain ← lookup name
  let state ← domainState domain
  if state = .stopped then return .alreadyStopped else client.shutDown name domain

def remove (name : String) : ClientM Unit := do
  let domain ← lookup name
  let state ← domainState domain
  if state ≠ .stopped then asked (.destroy domain) (operationError ("destroy domain " ++ name))
  asked (.undefineFlags domain) (operationError ("undefine domain " ++ name))

def infos : List DomainHandle → ClientM (List DomainInfo)
  | [] => return []
  | domain :: domains => do
    let state ← domainState domain
    let rest ← infos domains
    return ⟨domain.name, domain.uuid, state⟩ :: rest

def list : ClientM (List DomainInfo) := do
  let domains ← asked .listAllDomains (operationError "list domains")
  infos domains

end Client

def Machine.onActive (machine : Machine) (domain : DomainHandle) (after : Machine) : Except CallError Unit × Machine :=
  match machine.domains.find? (·.spec.uuid = domain.uuid) with
  | none => (.error .noDomain, machine)
  | some found => if found.state = .stopped then (.error .other, machine) else (.ok (), after)

def LibvirtCall.serve (machine : Machine) : (call : LibvirtCall) → call.Answer × Machine
  | .lookupByName name =>
    match machine.domains.find? (·.spec.name = name) with
    | none => (.error .noDomain, machine)
    | some found => (.ok ⟨found.spec.name, found.spec.uuid⟩, machine)
  | .getState domain =>
    match machine.domains.find? (·.spec.uuid = domain.uuid) with
    | none => (.error .noDomain, machine)
    | some found => (.ok found.state, machine)
  | .shutdown domain => machine.onActive domain machine
  | .destroy domain => machine.onActive domain (machine.setState domain.uuid .stopped)
  | .undefineFlags domain =>
    if machine.domains.any (·.spec.uuid = domain.uuid) then (.ok (), machine.undefine domain.uuid)
    else (.error .noDomain, machine)
  | .listAllDomains => (.ok (machine.domains.map fun domain => ⟨domain.spec.name, domain.spec.uuid⟩), machine)

def LibvirtCall.read : (call : LibvirtCall) → call.Answer → Option PowerState
  | .getState _, .ok state => some state
  | _, _ => none

abbrev CallLog := List (LibvirtCall × Option PowerState)

structure Libvirt where
  machine : Machine
  calls : CallLog

/-- `outside` says what others do to the machine before each call. -/
def Libvirt.serve (outside : Nat → Machine → Machine) (call : LibvirtCall) (libvirt : Libvirt) :
    call.Answer × Libvirt :=
  let served := call.serve (outside libvirt.calls.length libvirt.machine)
  (served.1, ⟨served.2, libvirt.calls ++ [(call, call.read served.1)]⟩)

def ClientM.run {α : Type} (outside : Nat → Machine → Machine) (method : ClientM α) (libvirt : Libvirt) :
    Except Error α × Libvirt :=
  Program.execute (fun call libvirt => libvirt.serve outside call) (ExceptT.run method) libvirt

end Bento.Hypervisor
