import Bento.Network.Machine
import Bento.Store.Fleet

/-! The network of a machine as the controller reads it from the database: the users with an
instance there, the slots that others own, and how these machines are reached. -/

namespace Bento.Bentod
open Library Library.Decimal Network Store

def afterScheme : Text → Option Text
  | [] => none
  | char :: rest => if "://".toList.isPrefixOf (char :: rest) then some (rest.drop 2) else afterScheme rest

def endpointHost (endpoint : Text) : Option Text :=
  let rest := ((afterScheme endpoint).getD endpoint).takeWhile (· ≠ '/')
  let host := match rsplitOnce ':' rest with
    | some (host, port) => if port.all Char.isDigit then host else rest
    | none => rest
  let host := (host.dropWhile (· = '[')).reverse.dropWhile (· = ']') |>.reverse
  if host = [] then none else some host

end Bento.Bentod

namespace Bento.Store
open Library Network Bentod

def Host.addresses (host : Host) : List Ipv4Addr :=
  [host.endpoint.bind endpointHost, host.underlay].reduceOption.filterMap Ipv4.parse

namespace Fleet
variable (fleet : Fleet)

def hostById (id : Int) : Option Host := fleet.hosts.find? (·.id = id)

/-- Where another machine's slot is reached. A slot whose owner has no underlay address
is skipped rather than guessed, and a moving slot has no single owner. -/
def nextHop (hostId : Int) (slot : Slot) : Option Ipv4Addr := do
  let owner ← if slot.ownerHostId = hostId then none else fleet.hostById slot.ownerHostId
  let address ← owner.underlay.bind Ipv4.parse
  if slot.state = .moving then none else some address

def remoteSlot (hostId : Int) (slot : Slot) : Option RemoteSlot := do
  let address ← fleet.nextHop hostId slot
  if slot.slot < 2 ^ 32 then some ⟨UInt32.ofNat slot.slot, address⟩ else none

def published (highPorts : PortRange) (row : Instance) : Option PublishedInstance := do
  let address ← Ipv4.parse row.address
  if row.visibility = .off then some ⟨address, [], []⟩
  else some ⟨address, [row.effectiveHttpPort], [highPorts]⟩

def instancesOf (highPorts : PortRange) (hostId : Int) (user : User) : List PublishedInstance :=
  (fleet.instances.filter fun row => row.hostId = hostId ∧ row.ownerId = user.id).filterMap (published highPorts)

def subnetOf (plan : Plan) (user : User) : Option (Nat × Ipv4Prefix) := do
  let subnet ← Ipv4Prefix.fromStr user.subnet
  let index ← (plan.index subnet).toOption
  some (index, subnet)

def machineUser (plan : Plan) (highPorts : PortRange) (hostId : Int) (user : User) : Option MachineUser :=
  (subnetOf plan user).map fun (index, subnet) => ⟨index, subnet, fleet.instancesOf highPorts hostId user⟩

def frontends (hostId controllerHostId : Int) : List Ipv4Addr :=
  if hostId = controllerHostId then []
  else ((fleet.hostById controllerHostId).bind fun host => host.underlay.bind Ipv4.parse).toList

end Fleet

end Bento.Store

namespace Bento.Bentod
open Network Store

/-- The desired network of one machine. Every user has a bridge on every machine, and the
lists are sorted so that the same rows give the same description. -/
def machineNetwork (fleet : Fleet) (plan : Plan) (highPorts : PortRange) (hostId controllerHostId : Int) :
    MachineNetwork where
  privateRange := plan.range
  runnerPrefix := fleet.runnerPrefix
  users := (fleet.users.filterMap (fleet.machineUser plan highPorts hostId)).insertionSort (·.index ≤ ·.index)
  remoteSlots := (fleet.slots.filterMap (fleet.remoteSlot hostId)).insertionSort (·.slot ≤ ·.slot)
  frontends := fleet.frontends hostId controllerHostId
  management := sortedSet (· ≤ ·) (fleet.hosts.flatMap Host.addresses)

end Bento.Bentod
