import Bento.Lifecycle.Manager

/-! Which machine a new instance goes to. The controller weighs what the machines have reported
last, and takes the one that is the least full with the instance; the row is then checked
against the capacity of that machine. -/

namespace Bento.Store
open Lifecycle (Placing)

inductive Placement where
  | active
  | draining
  | removed
deriving DecidableEq

inductive HostHealth where
  | unknown
  | ok
  | unreachable
  | mismatched
deriving DecidableEq

def HostHealth.text : HostHealth → String
  | .unknown => "unknown"
  | .ok => "ok"
  | .unreachable => "unreachable"
  | .mismatched => "mismatched"

structure Observation where
  health : HostHealth
  arch : Option String
  cpuCount : Option Nat
  memoryTotalMib : Option Nat
  storageTotalGib : Option Nat
  storageAvailableGib : Option Nat

structure Roster where
  enabled : Int → Bool
  placement : Int → Placement
  observation : Int → Option Observation

def Roster.takes (roster : Roster) (hostId : Int) : Bool := roster.enabled hostId ∧ roster.placement hostId = .active

structure Floats (φ : Type) where
  overcommittedMemoryMib : Nat → Nat
  ratio : Nat → Nat → φ
  partialCmp : φ → φ → Option Ordering

structure Weight (φ : Type) where
  memoryRatio : φ
  vcpuRatio : φ

section
variable {φ : Type} (floats : Floats φ) (roster : Roster) (fleet : Fleet) (arch : Option String) (want : Placing)

def Floats.less (left right : Weight φ × Int) : Bool :=
  match floats.partialCmp left.1.memoryRatio right.1.memoryRatio with
  | some .eq =>
    match floats.partialCmp left.1.vcpuRatio right.1.vcpuRatio with
    | some .eq => left.2 < right.2
    | other => other = some .lt
  | other => other = some .lt

def archMismatch (hostArch : Option String) : Option String :=
  match arch, hostArch with
  | some wantArch, some hostArch =>
    if wantArch ≠ hostArch then some ("is " ++ hostArch ++ ", the image is " ++ wantArch) else none
  | _, _ => none

def reserved (hostId : Int) (figure : Instance → Nat) : Except Error Nat :=
  let total := ((fleet.instances.filter (·.hostId = hostId)).map figure).sum
  if maxInteger < total then .error .sqlite else .ok total

def weighRoom (seen : Observation) (reservedMemory reservedVcpu : Nat) : Except String (Weight φ) :=
  let memoryTotal := seen.memoryTotalMib.getD 0
  if memoryTotal = 0 then .error "reported no memory"
  else
    let memoryLimit := floats.overcommittedMemoryMib memoryTotal
    let memoryAfter := min (reservedMemory + want.memoryMib) (2 ^ 64 - 1)
    if memoryLimit < memoryAfter then
      .error ("has " ++ toString (memoryLimit - reservedMemory) ++ " MiB left of " ++ toString memoryLimit ++
        ", the instance wants " ++
        toString want.memoryMib)
    else
      match seen.storageAvailableGib.filter (· < want.diskGib) with
      | some available => .error ("has " ++ toString available ++ " GiB free, the instance wants " ++
        toString want.diskGib)
      | none =>
        let cpuCount := max (seen.cpuCount.getD 0) 1
        .ok ⟨floats.ratio memoryAfter memoryLimit, floats.ratio (min (reservedVcpu + want.vcpu) (2 ^ 64 - 1)) cpuCount⟩

def weighHost (host : Host) : Except Error (Except String (Weight φ)) :=
  match roster.observation host.id with
  | none => .ok (.error "never answered the controller")
  | some seen =>
    if seen.health ≠ .ok then .ok (.error ("last seen " ++ seen.health.text))
    else if fleet.slots.countP (fun slot => slot.ownerHostId = host.id ∧ slot.state = .active) = 0 then
      .ok (.error "owns no active slot")
    else
      match archMismatch arch seen.arch with
      | some reason => .ok (.error reason)
      | none => do
        let reservedMemory ← reserved fleet host.id Instance.memoryMib
        let reservedVcpu ← reserved fleet host.id Instance.vcpu
        return weighRoom floats want seen reservedMemory reservedVcpu

def chooseFrom : List Host → List String → Option (Weight φ × Host) → Except Error Host
  | [], rejected, none => .error (.noPlacement ("; ".intercalate rejected))
  | [], _, some (_, host) => .ok host
  | host :: hosts, rejected, best =>
    match weighHost floats roster fleet arch want host with
    | .error error => .error error
    | .ok (.ok weight) =>
      chooseFrom hosts rejected
        (if best.all fun current =>
          floats.less (weight, host.id) (current.1, current.2.id) then some (weight, host) else best)
    | .ok (.error reason) => chooseFrom hosts (rejected ++ [host.name ++ ": " ++ reason]) best

def chooseHost : Except Error Host :=
  chooseFrom floats roster fleet arch want (fleet.hosts.filter fun host => roster.takes host.id) [] none

end

end Bento.Store

namespace Bento.Bentod
open Store

structure ThisHost where
  hostId : Int
  capacity : Capacity

def placeableHosts (roster : Roster) (fleet : Fleet) : Nat := fleet.hosts.countP fun host => roster.takes host.id

def hostCapacity {φ : Type} (floats : Floats φ) (this : ThisHost) (roster : Roster) (hostId : Int) :
    Except String Capacity :=
  if hostId = this.hostId then .ok this.capacity
  else
    match roster.observation hostId with
    | none => .error ("machine " ++ toString hostId ++ " has not reported its capacity yet")
    | some seen =>
      match seen.memoryTotalMib.filter (0 < ·), seen.storageTotalGib.filter (0 < ·) with
      | some memoryMib, some diskGib => .ok ⟨.limit (floats.overcommittedMemoryMib memoryMib), .limit diskGib⟩
      | _, _ => .error ("machine " ++ toString hostId ++
        " reported no memory or storage figure, so its capacity is unknown")

end Bento.Bentod
