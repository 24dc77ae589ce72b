import Bento.Network.Nftables

/-! The network one machine should have, as the controller describes it. The machine
renders its bridges, routes and firewall from the description. -/

namespace Bento.Network
open Library.Decimal Library.Results

structure MachineUser where
  index : Int
  subnet : Ipv4Prefix
  instances : List PublishedInstance
deriving DecidableEq

structure RemoteSlot where
  slot : UInt32
  nextHop : Ipv4Addr
deriving DecidableEq

structure MachineNetwork where
  privateRange : Ipv4Prefix
  runnerPrefix : UInt8
  users : List MachineUser
  remoteSlots : List RemoteSlot
  frontends : List Ipv4Addr
  management : List Ipv4Addr
deriving DecidableEq

structure Route where
  destination : Ipv4Prefix
  nextHop : Ipv4Addr

def MachineUser.network (user : MachineUser) : UserNetwork where
  name := "bento-user-".toList ++ integer user.index
  bridge := "bento".toList ++ integer user.index
  subnet := user.subnet

namespace MachineNetwork

def networks (machine : MachineNetwork) : List UserNetwork := machine.users.map MachineUser.network

def route (slots : Slots) (user : MachineUser) (remote : RemoteSlot) : Result Route := do
  let destination ← slots.prefixOf user.subnet remote.slot.toNat
  refuseIf (destination.bits ≤ user.subnet.bits)
    ("slot route " ++ formatPrefix destination ++ " is not narrower than the user network " ++ formatPrefix user.subnet)
  return ⟨destination, remote.nextHop⟩

/-- One route for each user and each remote slot. A `/24` is one slot, and a route for it
would replace the connected route of the bridge. -/
def routes (machine : MachineNetwork) : Result (List Route) := do
  let slots ← Slots.new machine.runnerPrefix
  if slots.count = 1 then
    return []
  else
    let perUser ← machine.users.mapM fun user => machine.remoteSlots.mapM (route slots user)
    return perUser.flatten

def ruleset (machine : MachineNetwork) : Ruleset where
  privateRange := machine.privateRange
  users := machine.users.map fun user => ⟨user.network, user.instances⟩
  underlayPeers := machine.remoteSlots ≠ []
  frontends := machine.frontends
  runnerPrefix := machine.runnerPrefix
  remoteSlots := machine.remoteSlots.map RemoteSlot.slot
  management := machine.management

def checkUser (range : Ipv4Prefix) (user : MachineUser) : Result Unit := do
  requireSlash24 user.subnet
  refuseIf (!range.contains user.subnet.addr)
    ("user subnet " ++ formatPrefix user.subnet ++ " is outside the private range " ++ formatPrefix range)

def checkRemote (machine : MachineNetwork) (slots : Slots) : List Nat → List RemoteSlot → Result Unit
  | _, [] => return
  | seen, remote :: rest => do
    let slot := remote.slot.toNat
    refuseIf (slots.count ≤ slot)
      ("slot " ++ toString slot ++ " does not exist at /" ++ toString machine.runnerPrefix)
    refuseIf (slot ∈ seen)
      ("slot " ++ toString slot ++ " has more than one next hop; two machines cannot own one slot")
    refuseIf (machine.privateRange.contains remote.nextHop)
      ("next hop " ++ showAddr remote.nextHop ++ " for slot " ++ toString slot ++ " is inside the private range " ++
        formatPrefix machine.privateRange)
    checkRemote machine slots (slot :: seen) rest

def check (machine : MachineNetwork) : Result Unit := do
  let slots ← Slots.new machine.runnerPrefix
  refuseIf (24 < machine.privateRange.bits)
    ("private range " ++ formatPrefix machine.privateRange ++ " is narrower than /24")
  forM machine.users (checkUser machine.privateRange)
  machine.checkRemote slots [] machine.remoteSlots
  forM machine.frontends fun frontend =>
    refuseIf (machine.privateRange.contains frontend)
      ("frontend address " ++ showAddr frontend ++ " is inside the private range " ++ formatPrefix machine.privateRange)

structure Checked (machine : MachineNetwork) (slots : Slots) : Prop where
  division : machine.runnerPrefix.toNat = slots.bits
  wide : machine.privateRange.bits ≤ 24
  subnets : ∀ user ∈ machine.users, user.subnet.bits = 24 ∧ machine.privateRange.contains user.subnet.addr = true
  remote : ∀ remote ∈ machine.remoteSlots,
    remote.slot.toNat < slots.count ∧ machine.privateRange.contains remote.nextHop = false
  frontends : ∀ frontend ∈ machine.frontends, machine.privateRange.contains frontend = false

theorem checkRemote_ok {machine : MachineNetwork} {slots : Slots} {seen : List Nat} {remotes : List RemoteSlot}
    (passed : machine.checkRemote slots seen remotes = .ok ()) :
    ∀ remote ∈ remotes, remote.slot.toNat < slots.count ∧ machine.privateRange.contains remote.nextHop = false := by
  induction remotes generalizing seen with
  | nil => simp
  | cons remote rest ih =>
    simp only [checkRemote, bind_ok, refuseIf_ok] at passed
    obtain ⟨_, known, _, -, _, outside, later⟩ := passed
    have first : remote.slot.toNat < slots.count := by simpa using known
    intro other listed
    rcases List.mem_cons.mp listed with same | inside
    · rw [same]
      exact ⟨first, outside⟩
    · exact ih later other inside

theorem check_ok {machine : MachineNetwork} (passed : machine.check = .ok ()) : ∃ slots, machine.Checked slots := by
  simp only [check, bind_ok, forM_ok, refuseIf_ok, checkUser, requireSlash24_ok] at passed
  obtain ⟨slots, division, _, wide, _, users, _, remote, frontends⟩ := passed
  refine ⟨slots, Slots.new_ok.mp division, by simpa using wide, ?_, checkRemote_ok remote, frontends⟩
  intro user listed
  obtain ⟨_, slash24, inside⟩ := users user listed
  exact ⟨slash24, by simpa using inside⟩

end MachineNetwork

theorem mem_users_ruleset {machine : MachineNetwork} {user : FirewallUser} :
    user ∈ machine.ruleset.users ↔ ∃ own ∈ machine.users, ⟨own.network, own.instances⟩ = user := by
  simp [MachineNetwork.ruleset]

end Bento.Network
