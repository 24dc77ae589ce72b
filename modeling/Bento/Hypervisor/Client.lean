import Bento.Library.Decimal
import Bento.Types

/-! One machine: the domains that its libvirt has defined, and the files of its instances.
A method of the client is one step here. It finds a domain by its name and then acts on
the handle it was given, which carries the uuid. -/

namespace Bento.Hypervisor
open Library.Decimal

structure DomainSpec where
  name : String
  uuid : String
  vcpu : Nat
  memoryMib : Nat
  withIso : Bool
  network : String
  mac : String
  nested : Bool
  ksm : Bool
deriving DecidableEq

inductive Error where
  | domainNotFound (name : String)
  | operation (message : String)
deriving DecidableEq

def Error.text : Error → String
  | .domainNotFound name => "hypervisor: domain not found: " ++ name
  | .operation message => message

/-- A call of libvirt's that fails had no effect, or had it and its answer is lost. -/
inductive CallFault where
  | refused
  | unanswered
deriving DecidableEq

inductive CreateCall where
  | define
  | setAutostart
  | create
  | undefine
deriving DecidableEq

inductive StopResult where
  | graceful
  | forced
  | alreadyStopped

structure DomainInfo where
  name : String
  uuid : String
  state : PowerState

def validMac (mac : Text) : Bool :=
  let parts (separator : Char) := mac.splitOn separator
  let valid (parts : List Text) :=
    (parts.length == 6 || parts.length == 8) && parts.all fun part => part.length == 2 && part.all isHexDigit
  if mac.contains ':' then valid (parts ':')
  else if mac.contains '-' then valid (parts '-')
  else false

def DomainSpec.complaint (spec : DomainSpec) : Option String :=
  if spec.name = "" then some "name is empty"
  else if spec.uuid = "" then some "uuid is empty"
  else if spec.vcpu < 1 then some ("vcpu " ++ toString spec.vcpu ++ " < 1")
  else if spec.memoryMib < 1 then some ("memory " ++ toString spec.memoryMib ++ " MiB < 1")
  else if spec.network = "" then some "network is empty"
  else if ¬ validMac spec.mac.toList then some "invalid MAC address"
  else none

def domainXml (spec : DomainSpec) : Except Error DomainSpec :=
  match spec.complaint with
  | some complaint => .error (.operation ("domain spec: " ++ complaint))
  | none => .ok spec

structure Domain where
  spec : DomainSpec
  state : PowerState
deriving DecidableEq

def Domain.info (domain : Domain) : DomainInfo := ⟨domain.spec.name, domain.spec.uuid, domain.state⟩

structure Machine where
  domains : List Domain
  overlays : List String
  seeds : List String
deriving DecidableEq

inductive DomainAction where
  | start
  | stop
  | reboot
  | remove
deriving DecidableEq

abbrev DomainAction.Result : DomainAction → Type
  | .stop => StopResult
  | .start | .reboot | .remove => Unit

namespace Machine

def empty : Machine := ⟨[], [], []⟩

def lookup (machine : Machine) (name : String) : Except Error Domain :=
  match machine.domains.find? (·.spec.name = name) with
  | some domain => .ok domain
  | none => .error (.domainNotFound name)

def setState (machine : Machine) (uuid : String) (state : PowerState) : Machine :=
  { machine with
    domains := machine.domains.map fun domain => if domain.spec.uuid = uuid then { domain with state } else domain }

def undefine (machine : Machine) (uuid : String) : Machine :=
  { machine with domains := machine.domains.filter fun domain => domain.spec.uuid ≠ uuid }

def start (machine : Machine) (name : String) : Except Error Machine := do
  let domain ← machine.lookup name
  if domain.state = .stopped then .ok (machine.setState domain.spec.uuid .running)
  else .error (.operation ("start domain " ++ name))

def stop (machine : Machine) (name : String) (graceful : Bool) : Except Error (StopResult × Machine) := do
  let domain ← machine.lookup name
  if domain.state = .stopped then .ok (.alreadyStopped, machine)
  else .ok (if graceful then .graceful else .forced, machine.setState domain.spec.uuid .stopped)

def reboot (machine : Machine) (name : String) : Except Error Machine := do
  let domain ← machine.lookup name
  if domain.state = .stopped then .error (.operation ("reboot domain " ++ name)) else .ok machine

def remove (machine : Machine) (name : String) : Except Error Machine := do
  let domain ← machine.lookup name
  .ok (machine.undefine domain.spec.uuid)

def act (machine : Machine) (graceful : Bool) (name : String) :
    (action : DomainAction) → Except Error (action.Result × Machine)
  | .start => (machine.start name).map ((), ·)
  | .stop => machine.stop name graceful
  | .reboot => (machine.reboot name).map ((), ·)
  | .remove => (machine.remove name).map ((), ·)

def list (machine : Machine) : List DomainInfo := machine.domains.map Domain.info

def state (machine : Machine) (name : String) : Except Error PowerState := (machine.lookup name).map Domain.state

/-- libvirt replaces a definition that has the same name and uuid, and the live process
keeps running. A definition that shares only one of the two with a domain is refused. -/
def define (machine : Machine) (spec : DomainSpec) : Except Error Machine :=
  match machine.domains.find? fun domain => domain.spec.uuid = spec.uuid ∨ domain.spec.name = spec.name with
  | none => .ok { machine with domains := machine.domains ++ [⟨spec, .stopped⟩] }
  | some _ =>
    if ∀ domain ∈ machine.domains, domain.spec.uuid = spec.uuid ↔ domain.spec.name = spec.name then
      .ok { machine with
        domains := machine.domains.map fun domain =>
          if domain.spec.uuid = spec.uuid then { domain with spec } else domain }
    else .error (.operation "define domain")

def answered (machine : Machine) (fault : Option CallFault) (context : String) (result : Except Error Machine) :
    Except Error Unit × Machine :=
  match fault, result with
  | none, .ok after => (.ok (), after)
  | none, .error error => (.error error, machine)
  | some .unanswered, .ok after => (.error (.operation context), after)
  | some .unanswered, .error _ | some .refused, _ => (.error (.operation context), machine)

/-- Undefining a domain that runs leaves it running, and nobody looks at the answer. -/
def undoDefine (machine : Machine) (fault : Option CallFault) (uuid : String) : Machine :=
  if fault = some .refused ∨ ∃ domain ∈ machine.domains, domain.spec.uuid = uuid ∧ domain.state ≠ .stopped then machine
  else machine.undefine uuid

def create (machine : Machine) (spec : DomainSpec) (faults : CreateCall → Option CallFault) :
    Except Error Unit × Machine :=
  match machine.answered (faults .define) "define domain" (machine.define spec) with
  | (.error error, after) => (.error error, after)
  | (.ok (), defined) =>
    if (faults .setAutostart).isSome then
      (.error (.operation ("clear autostart on " ++ spec.name)), defined.undoDefine (faults .undefine) spec.uuid)
    else
      match defined.answered (faults .create) ("start domain " ++ spec.name) (defined.start spec.name) with
      | (.error error, after) => (.error error, after.undoDefine (faults .undefine) spec.uuid)
      | (.ok (), started) => (.ok (), started)

def withOverlay (machine : Machine) (uuid : String) : Machine := { machine with overlays := uuid :: machine.overlays }

def withSeed (machine : Machine) (uuid : String) : Machine := { machine with seeds := uuid :: machine.seeds }

def withoutOverlay (machine : Machine) (uuid : String) : Machine :=
  { machine with overlays := machine.overlays.filter (· ≠ uuid) }

def withoutSeed (machine : Machine) (uuid : String) : Machine :=
  { machine with seeds := machine.seeds.filter (· ≠ uuid) }

def withoutFiles (machine : Machine) (uuid : String) : Machine := (machine.withoutOverlay uuid).withoutSeed uuid

end Machine

end Bento.Hypervisor
