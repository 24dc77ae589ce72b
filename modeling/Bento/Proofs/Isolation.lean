import Bento.Library.Routing
import Bento.Proofs.Forwarding

/-! Isolation of users on one machine. The interface a packet leaves by is the choice of
the machine's routing table: the connected networks of its bridges, the routes to remote
slots, and a default route. With that table no packet that the forward chain accepts
goes from one user's network to another's. -/

namespace Bento.Network
open Library Library.Decimal Library.Nft Library.Routing Library.Results List

namespace MachineNetwork

def onLink (machine : MachineNetwork) (uplink : Text) : List (Entry Text) :=
  machine.networks.map (fun network => ⟨network.subnet.addr, network.subnet.bits, network.bridge⟩) ++ [⟨0, 0, uplink⟩]

def slotEntry (machine : MachineNetwork) (uplink : Text) (route : Route) : Entry Text :=
  ⟨route.destination.addr, route.destination.bits, (lookup (machine.onLink uplink) route.nextHop).getD uplink⟩

def routingTable (machine : MachineNetwork) (uplink : Text) (routes : List Route) : List (Entry Text) :=
  routes.map (machine.slotEntry uplink) ++ machine.onLink uplink

section
variable {machine : MachineNetwork} {slots : Slots} {uplink : Text} {target : Ipv4Addr} {user : MachineUser}

theorem Checked.inside (checked : machine.Checked slots) (listed : user ∈ machine.users)
    (member : Ipv4.agree 24 target user.subnet.addr = true) : machine.privateRange.contains target = true := by
  obtain ⟨-, subnet⟩ := checked.subnets user listed
  have short : machine.privateRange.bits ≤ 32 := Nat.le_trans checked.wide (by decide)
  rw [contains_iff short] at subnet ⊢
  exact Ipv4.agree_trans (Ipv4.agree_of_le checked.wide member) subnet

theorem device_outside (checked : machine.Checked slots) (outside : machine.privateRange.contains target = false)
    {device : Text} (found : lookup (machine.onLink uplink) target = some device) : device = uplink := by
  obtain ⟨entry, listed, covers, rfl⟩ := lookup_covers found
  simp only [onLink, networks, map_map, mem_append, mem_map, mem_singleton] at listed
  rcases listed with ⟨user, member, rfl⟩ | rfl
  · have slash24 := (checked.subnets user member).1
    have inside : Ipv4.agree 24 target user.subnet.addr = true := by
      rw [← slash24]
      exact covers
    rw [checked.inside member inside] at outside
    cases outside
  · rfl

theorem nextHop_outside (checked : machine.Checked slots) {routes : List Route}
    (installed : machine.routes = .ok routes) {route : Route} (listed : route ∈ routes) :
    machine.privateRange.contains route.nextHop = false := by
  simp only [MachineNetwork.routes, bind_ok] at installed
  obtain ⟨own, -, made⟩ := installed
  split at made
  · cases made
    cases listed
  · simp only [bind_ok, pure_ok] at made
    obtain ⟨perUser, collected, rfl⟩ := made
    obtain ⟨ofUser, member, inside⟩ := List.mem_flatten.mp listed
    obtain ⟨user, -, round⟩ := mem_of_mapM_ok collected ofUser member
    obtain ⟨remote, known, one⟩ := mem_of_mapM_ok round route inside
    simp only [MachineNetwork.route, bind_ok, pure_ok] at one
    obtain ⟨_, -, _, -, rfl⟩ := one
    exact (checked.remote remote known).2

theorem leaves_bridge (checked : machine.Checked slots) {routes : List Route} (installed : machine.routes = .ok routes)
    (apart : ∀ other ∈ machine.users, uplink ≠ other.network.bridge) (listed : user ∈ machine.users)
    (leaves : lookup (machine.routingTable uplink routes) target = some user.network.bridge) :
    ∃ other ∈ machine.users, other.network.bridge = user.network.bridge ∧
      Ipv4.agree 24 target other.subnet.addr = true := by
  obtain ⟨entry, member, covers, device⟩ := lookup_covers leaves
  simp only [routingTable, onLink, networks, map_map, mem_append, mem_map, mem_singleton] at member
  rcases member with ⟨route, known, rfl⟩ | ⟨other, known, rfl⟩ | rfl
  · -- The next hop is outside the private range, so the route leaves by the uplink.
    have outside := nextHop_outside checked installed known
    have uplinked : (lookup (machine.onLink uplink) route.nextHop).getD uplink = uplink := by
      cases found : lookup (machine.onLink uplink) route.nextHop with
      | none => rfl
      | some => exact device_outside checked outside found
    rw [slotEntry, uplinked] at device
    exact absurd device (apart user listed)
  · refine ⟨other, known, device, ?_⟩
    rw [← (checked.subnets other known).1]
    exact covers
  · exact absurd device (apart user listed)

end

end MachineNetwork

/-- No new packet that the forward chain accepts goes from one user's network to
another's, and one that enters by a user bridge carries a source address of that user
and does not go to a management address. The default route of the host does not leave
by a bridge of a user. -/
theorem forwarding_isolates_users (machine : MachineNetwork) (commands : List Command)
    (routes : List Route) (uplink : Text) (packet : Packet) (checked : machine.check = .ok ())
    (disjoint : ∀ user ∈ machine.users, ∀ other ∈ machine.users, user ≠ other →
      ∀ address, user.subnet.contains address = true → other.subnet.contains address = false)
    (rendered : machine.ruleset.commands = .ok commands) (installed : machine.routes = .ok routes)
    (uplinkApart : ∀ user ∈ machine.users, uplink ≠ user.network.bridge) (new : packet.state = .new)
    (leaves : lookup (machine.routingTable uplink routes) packet.daddr = some packet.oif)
    (accepted : passes .forward commands packet = true) :
    (∀ source ∈ machine.users, ∀ target ∈ machine.users, source.subnet.contains packet.saddr = true →
      target.subnet.contains packet.daddr = true → source = target) ∧
        ∀ user ∈ machine.users, packet.iif = user.network.bridge →
      user.subnet.contains packet.saddr = true ∧ packet.daddr ∉ machine.management := by
  obtain ⟨slots, checked⟩ := MachineNetwork.check_ok checked
  obtain ⟨own, sound, rfl⟩ := Ruleset.commands_ok rendered
  rw [Ruleset.passes_forward] at accepted
  obtain ⟨guarded, passage⟩ := Ruleset.accepts_written new accepted
  have member {user : MachineUser} (listed : user ∈ machine.users) :
      FirewallUser.mk user.network user.instances ∈ machine.ruleset.sortedUsers :=
    Ruleset.mem_sortedUsers.mpr (mem_users_ruleset.mpr ⟨user, listed, rfl⟩)
  have slash24 {user : MachineUser} (listed : user ∈ machine.users) (address : Ipv4Addr) :
      user.subnet.contains address = true ↔ Ipv4.agree 24 address user.subnet.addr = true := by
    have bits := (checked.subnets user listed).1
    rw [contains_iff (by omega), bits]
  have source {user : MachineUser} (listed : user ∈ machine.users) (enters : packet.iif = user.network.bridge) :
      user.subnet.contains packet.saddr = true := by
    rw [slash24 listed]
    exact ((covers_ownRanges (checked.subnets user listed).1).mp (guarded _ (member listed) enters).source).1
  -- Two networks that share an address are the network of one user.
  have same {user other : MachineUser} (listed : user ∈ machine.users)
    (known : other ∈ machine.users) {address : Ipv4Addr}
      (first : user.subnet.contains address = true) (last : other.subnet.contains address = true) : user = other := by
    by_contra differ
    rw [disjoint user listed other known differ address first] at last
    cases last
  have ofUser {user : FirewallUser} (listed : user ∈ machine.ruleset.sortedUsers) :
      ∃ own ∈ machine.users, ⟨own.network, own.instances⟩ = user :=
    mem_users_ruleset.mp (Ruleset.mem_sortedUsers.mp listed)
  refine ⟨fun first fromListed last toListed fromSource toTarget => ?_, fun user listed enters =>
    ⟨source listed enters, (guarded _ (member listed) enters).target⟩⟩
  cases passage with
  | underlay user listed outside far near =>
    obtain ⟨user, known, rfl⟩ := ofUser listed
    have bits := (checked.subnets user known).1
    have inside := ((covers_farRanges bits sound.known).mp far).1
    have arrives := ((covers_ownRanges bits).mp near).1
    exact (same fromListed known fromSource ((slash24 known _).mpr inside)).trans
      (same known toListed ((slash24 known _).mpr arrives) toTarget)
  | frontend listed =>
    have outside := checked.frontends packet.saddr listed
    rw [checked.inside fromListed ((slash24 fromListed _).mp fromSource)] at outside
    cases outside
  | bridge user listed enters exits =>
    obtain ⟨user, known, rfl⟩ := ofUser listed
    rw [exits] at leaves
    obtain ⟨other, otherKnown, name, inside⟩ := MachineNetwork.leaves_bridge checked installed uplinkApart known leaves
    have one := same fromListed otherKnown fromSource (source otherKnown (enters.trans name.symm))
    exact one.trans (same otherKnown toListed ((slash24 otherKnown _).mpr inside) toTarget)
  | slot user listed enters target =>
    obtain ⟨user, known, rfl⟩ := ofUser listed
    have bits := (checked.subnets user known).1
    have inside : user.subnet.contains packet.daddr = true := by
      rw [slash24 known, ← bits]
      exact target
    exact (same fromListed known fromSource (source known enters)).trans (same known toListed inside toTarget)
  | egress user listed enters target =>
    have short : machine.privateRange.bits ≤ 32 := Nat.le_trans checked.wide (by decide)
    have inside := checked.inside toListed ((slash24 toListed _).mp toTarget)
    rw [contains_iff short] at inside
    have outside : Ipv4.agree machine.privateRange.bits packet.daddr (masked machine.privateRange).addr = false :=
      target
    rw [agree_masked short, inside] at outside
    cases outside

def twoUsers : MachineNetwork where
  privateRange := ⟨0x0a640000, 16⟩
  runnerPrefix := 25
  users := [⟨0, ⟨0x0a640000, 24⟩, [⟨0x0a640002, [80], []⟩]⟩, ⟨1, ⟨0x0a640100, 24⟩, []⟩]
  remoteSlots := [⟨1, 0x0a000061⟩]
  frontends := []
  management := [0x0a000061]

def egressPacket : Packet where
  iif := "bento0".toList
  oif := "eth0".toList
  saddr := 0x0a640002
  daddr := 0x08080808
  transport := .tcp 443
  state := .new

theorem twoUsers_disjoint : ∀ user ∈ twoUsers.users, ∀ other ∈ twoUsers.users, user ≠ other →
    ∀ address, user.subnet.contains address = true → other.subnet.contains address = false := by
  have apart : ∀ user ∈ twoUsers.users, ∀ other ∈ twoUsers.users, user ≠ other → user.subnet.bits = 24 ∧
      other.subnet.bits = 24 ∧ Ipv4.agree 24 user.subnet.addr other.subnet.addr = false := by decide
  intro user listed other known differ address first
  obtain ⟨bits, others, away⟩ := apart user listed other known differ
  have short : user.subnet.bits ≤ 32 := by omega
  have narrow : other.subnet.bits ≤ 32 := by omega
  rw [← Bool.not_eq_true] at away ⊢
  intro last
  rw [contains_iff short, bits, Ipv4.agree_comm] at first
  rw [contains_iff narrow, others] at last
  exact away (Ipv4.agree_trans first last)

theorem forwarding_isolates_users_egress :
    passes .forward (twoUsers.ruleset.commands.toOption.getD []) egressPacket = true ∧
      egressPacket.daddr ∉ twoUsers.management := by
  have passed : passes .forward (twoUsers.ruleset.commands.toOption.getD []) egressPacket = true := by decide +kernel
  have isolated := forwarding_isolates_users twoUsers (twoUsers.ruleset.commands.toOption.getD [])
    (twoUsers.routes.toOption.getD []) "eth0".toList egressPacket (by decide) twoUsers_disjoint
    (eq_ok (by decide +kernel) []) (eq_ok (by decide +kernel) []) (by decide) rfl (by decide +kernel) passed
  exact ⟨passed, (isolated.2 ⟨0, ⟨0x0a640000, 24⟩, [⟨0x0a640002, [80], []⟩]⟩ (by decide) (by decide)).2⟩

end Bento.Network
