import Bento.Bentod.Netstate
import Bento.Proofs.RulesetText

/-! The firewall of a machine against the slot rows it is made from. A slot counts as
local unless another host owns it and can be routed to, so a slot that nobody owns, and
one whose owner has no route, count as local too. -/

namespace Bento.Store
open Library Network Bentod Option

namespace Fleet

def Owns (fleet : Fleet) (hostId : Int) (slot : Nat) : Prop :=
  ∃ row ∈ fleet.slots, row.slot = slot ∧ row.ownerHostId = hostId

def OwnedElsewhere (fleet : Fleet) (hostId : Int) (slot : Nat) : Prop :=
  ∃ row ∈ fleet.slots, row.slot = slot ∧ row.ownerHostId ≠ hostId

def Routable (fleet : Fleet) (hostId : Int) (row : Slot) : Prop :=
  row.ownerHostId ≠ hostId ∧ row.state ≠ .moving ∧
    ∃ owner, fleet.hostById row.ownerHostId = some owner ∧ ∃ address, owner.underlay.bind Ipv4.parse = some address

def Bridged (fleet : Fleet) (plan : Plan) : Prop := ∃ user ∈ fleet.users, (subnetOf plan user).isSome = true

def slotAt (fleet : Fleet) (address : Ipv4Addr) : Nat := hostOctet address / 2 ^ (8 - (fleet.runnerPrefix.toNat - 24))

section
variable {fleet : Fleet} {plan : Plan} {highPorts : PortRange} {hostId controllerHostId : Int} {slots : Slots}

theorem nextHop_isSome {row : Slot} : (fleet.nextHop hostId row).isSome = true ↔ fleet.Routable hostId row := by
  unfold nextHop Routable
  by_cases own : row.ownerHostId = hostId
  · simp [own]
  · by_cases moving : row.state = .moving
    · simp [moving]
    · simp only [own, moving, if_false, ne_eq, not_false_eq_true, true_and, bind_eq_bind, isSome_iff_exists,
        bind_eq_some_iff]
      constructor
      · rintro ⟨_, owner, known, address, found, -⟩
        exact ⟨owner, known, address, found⟩
      · rintro ⟨owner, known, address, found⟩
        exact ⟨address, owner, known, address, found, rfl⟩

theorem mem_remote {slot : Nat} (small : slot < 2 ^ 32) :
    slot ∈ (machineNetwork fleet plan highPorts hostId controllerHostId).ruleset.remote ↔
      ∃ row ∈ fleet.slots, row.slot = slot ∧ fleet.Routable hostId row := by
  simp only [Ruleset.remote, MachineNetwork.ruleset, machineNetwork, mem_sortedSet, List.map_map, List.mem_map,
    List.mem_insertionSort, List.mem_filterMap, Function.comp_apply, ← nextHop_isSome]
  constructor
  · rintro ⟨remote, ⟨row, listed, found⟩, same⟩
    simp only [remoteSlot, Option.bind_eq_bind, Option.bind_eq_some_iff] at found
    obtain ⟨address, hop, found⟩ := found
    split at found
    next fits =>
      cases found
      refine ⟨row, listed, ?_, by simp [hop]⟩
      rw [← same]
      exact (UInt32.toNat_ofNat_of_lt' fits).symm
    next => cases found
  · rintro ⟨row, listed, rfl, found⟩
    obtain ⟨address, hop⟩ := Option.isSome_iff_exists.mp found
    refine ⟨⟨UInt32.ofNat row.slot, address⟩, ⟨row, listed, ?_⟩, UInt32.toNat_ofNat_of_lt' small⟩
    simp only [remoteSlot, hop, Option.bind_eq_bind, Option.bind_some, small, if_true]

theorem mem_users {own : MachineUser} : own ∈ (machineNetwork fleet plan highPorts hostId controllerHostId).users ↔
    ∃ user ∈ fleet.users, fleet.machineUser plan highPorts hostId user = some own := by
  simp [machineNetwork]

theorem users_eq_nil : (machineNetwork fleet plan highPorts hostId controllerHostId).ruleset.users = [] ↔
    ¬ fleet.Bridged plan := by
  rw [MachineNetwork.ruleset, List.map_eq_nil_iff, List.eq_nil_iff_forall_not_mem]
  simp only [mem_users, Bridged, machineUser, map_eq_some_iff, isSome_iff_exists]
  constructor
  · rintro nobody ⟨user, listed, subnet, found⟩
    exact nobody _ ⟨user, listed, subnet, found, rfl⟩
  · rintro nobody own ⟨user, listed, subnet, found, -⟩
    exact nobody ⟨user, listed, subnet, found⟩

theorem slotCount_eq (division : fleet.runnerPrefix.toNat = slots.bits) :
    slotCount fleet.runnerPrefix = slots.count := by
  have narrow := slots.narrow
  have few : min (slots.bits - 24) 3 = slots.bits - 24 := by omega
  rw [slotCount, division, few, Slots.count]

theorem slotAt_eq (division : fleet.runnerPrefix.toNat = slots.bits) (address : Ipv4Addr) :
    fleet.slotAt address = slots.octetSlot address := by
  rw [slotAt, division, Slots.octetSlot, Slots.shift]

theorem count_small (slots : Slots) : slots.count ≤ 8 := by
  have narrow := slots.narrow
  calc slots.count ≤ 2 ^ 3 := Nat.pow_le_pow_right (by decide) (by omega)
    _ = 8 := rfl

end

end Fleet

end Bento.Store

namespace Bento.Bentod
open Library Library.Decimal Library.Nft Library.Results Network Store

/-- The text of the firewall is one that nft reads, unless users have bridges on a machine
and every slot is routed to another one. -/
theorem ruleset_loads (fleet : Fleet) (plan : Plan) (highPorts : PortRange)
    (hostId controllerHostId : Int) (text : Text)
    (rendered : (machineNetwork fleet plan highPorts hostId controllerHostId).ruleset.render = .ok text) :
    (Nft.parse text).isSome = true ↔ ¬ fleet.Bridged plan ∨
      ∃ slot < slotCount fleet.runnerPrefix, ∀ row ∈ fleet.slots, row.slot = slot → ¬ fleet.Routable hostId row := by
  obtain ⟨slots, sound, loads⟩ := Ruleset.parse_render rendered
  rw [loads, Fleet.users_eq_nil, Fleet.slotCount_eq sound.division]
  apply or_congr_right
  apply exists_congr
  intro slot
  apply and_congr_right
  intro known
  have few := Fleet.count_small slots
  rw [Fleet.mem_remote (by omega)]
  simp

def oneSlot : Fleet where
  runnerPrefix := 24
  hosts := [⟨1, none, "controller", none, some "10.0.0.97".toList⟩, ⟨2, none, "runner", none, some "10.0.0.98".toList⟩]
  slots := [⟨0, .active, 1, 0, none, none, none⟩]
  instances := []
  users := [⟨1, "alice", "10.100.0.0/24".toList⟩]
  images := []
  imageVersions := []
  releasedNames := []

def privatePlan : Plan := .usual

def highPorts : PortRange := ⟨3000, 9999⟩

theorem ruleset_loads_controller :
    (Nft.parse ((machineNetwork oneSlot privatePlan highPorts 1 1).ruleset.render.toOption.getD [])).isSome = true := by
  apply (ruleset_loads oneSlot privatePlan highPorts 1 1 _ (eq_ok (by decide +kernel) [])).mpr
  refine .inr ⟨0, by decide, ?_⟩
  intro row listed _ routable
  rw [List.mem_singleton.mp listed] at routable
  exact routable.1 rfl

theorem ruleset_of_the_runner_is_refused : (machineNetwork oneSlot privatePlan highPorts 2 1).check = .ok () ∧
      ∃ text, (machineNetwork oneSlot privatePlan highPorts 2 1).ruleset.render = .ok text ∧ Nft.parse text = none := by
  have rendered : (machineNetwork oneSlot privatePlan highPorts 2 1).ruleset.render = .ok _ :=
    eq_ok (by decide +kernel) []
  refine ⟨by decide +kernel, _, rendered, ?_⟩
  obtain ⟨slots, sound, loads⟩ := Ruleset.parse_render rendered
  rw [← Option.not_isSome_iff_eq_none, loads]
  rintro (nobody | ⟨slot, known, own⟩)
  · exact absurd nobody (by decide +kernel)
  · rw [← Fleet.slotCount_eq sound.division] at known
    have first : slot = 0 := Nat.lt_one_iff.mp known
    exact own (first ▸ by decide +kernel)

def IsUnderlayRule (ruleset : Ruleset) (rule : Rule) : Prop :=
  ∃ slots, Slots.new ruleset.runnerPrefix = .ok slots ∧ ∃ user ∈ ruleset.users,
    user.underlayRule slots ruleset.remote (ruleset.sortedUsers.map FirewallUser.bridge) = .ok (some rule)

/-- The forward chain lets a guest use only a source address of a slot that its host owns,
and lets in over the underlay only what goes from another host's slot to one of this host. -/
structure FollowsOwnership (fleet : Fleet) (hostId : Int) (machine : MachineNetwork)
    (commands : List Command) : Prop where
  source : ∀ packet : Packet, ∀ user ∈ machine.users, packet.state = .new → packet.iif = user.network.bridge →
    passes .forward commands packet = true →
      user.subnet.contains packet.saddr = true ∧ fleet.Owns hostId (fleet.slotAt packet.saddr)
  underlay : ∀ packet : Packet, ∀ chain ∈ hooked .forward commands, ∀ rule, IsUnderlayRule machine.ruleset rule →
    deciding chain.rules packet = some rule →
      fleet.OwnedElsewhere hostId (fleet.slotAt packet.saddr) ∧ fleet.Owns hostId (fleet.slotAt packet.daddr)

def Accounted (fleet : Fleet) (hostId : Int) : Prop :=
  ∀ slot < slotCount fleet.runnerPrefix, fleet.Owns hostId slot ∨ ∃ row ∈ fleet.slots, row.slot = slot ∧
    fleet.Routable hostId row

section
variable {fleet : Fleet} {plan : Plan} {highPorts : PortRange} {hostId controllerHostId : Int} {slots : Slots}

variable {address : Ipv4Addr} {machine : MachineNetwork} {user : MachineUser} {slot : Nat}

theorem owns_local (accounted : Accounted fleet hostId) (division : fleet.runnerPrefix.toNat = slots.bits)
    (own : slots.octetSlot address ∉ (machineNetwork fleet plan highPorts hostId controllerHostId).ruleset.remote) :
    fleet.Owns hostId (fleet.slotAt address) := by
  have known := slots.octetSlot_lt address
  have few := Fleet.count_small slots
  rw [Fleet.mem_remote (by omega)] at own
  rw [← Fleet.slotCount_eq division] at known
  rw [Fleet.slotAt_eq division]
  exact (accounted _ known).resolve_right own

theorem elsewhere_remote (division : fleet.runnerPrefix.toNat = slots.bits)
    (far : slots.octetSlot address ∈ (machineNetwork fleet plan highPorts hostId controllerHostId).ruleset.remote) :
    fleet.OwnedElsewhere hostId (fleet.slotAt address) := by
  have known := slots.octetSlot_lt address
  have few := Fleet.count_small slots
  rw [Fleet.mem_remote (by omega)] at far
  obtain ⟨row, listed, same, routable⟩ := far
  rw [Fleet.slotAt_eq division]
  exact ⟨row, listed, same, routable.1⟩

theorem isUnderlayRule_iff {ruleset : Ruleset} (sound : ruleset.Sound slots) {rule : Rule} :
    IsUnderlayRule ruleset rule ↔ ∃ user ∈ ruleset.users,
      underlayGate slots ruleset.remote (ruleset.sortedUsers.map FirewallUser.bridge) user = some rule := by
  have division := Slots.new_ok.mpr sound.division
  constructor
  · rintro ⟨others, made, user, listed, written⟩
    rw [division] at made
    cases made
    rw [underlayRule_ok (sound.subnets user listed) sound.known] at written
    exact ⟨user, listed, Except.ok.inj written⟩
  · rintro ⟨user, listed, gate⟩
    refine ⟨slots, division, user, listed, ?_⟩
    rw [underlayRule_ok (sound.subnets user listed) sound.known, gate]

theorem underlayRule_owned {ruleset : Ruleset} (sound : ruleset.Sound slots) {rule : Rule} {packet : Packet}
    (written : IsUnderlayRule ruleset rule) (applied : rule.applies packet = true) :
    slots.octetSlot packet.saddr ∈ ruleset.remote ∧ slots.octetSlot packet.daddr ∉ ruleset.remote := by
  obtain ⟨user, listed, gate⟩ := (isUnderlayRule_iff sound).mp written
  obtain ⟨-, source, target, -⟩ := (applies_underlayGate gate).mp applied
  have slash24 := sound.subnets user listed
  exact ⟨((covers_farRanges slash24 sound.known).mp source).2, ((covers_ownRanges slash24).mp target).2⟩

theorem passes_guarded (sound : machine.ruleset.Sound slots) {packet : Packet} (listed : user ∈ machine.users)
    (new : packet.state = .new) (enters : packet.iif = user.network.bridge)
    (passed : passes .forward (machine.ruleset.table slots) packet = true) :
    user.subnet.contains packet.saddr = true ∧ slots.octetSlot packet.saddr ∉ machine.ruleset.remote ∧
      packet.daddr ∉ machine.management := by
  rw [Ruleset.passes_forward] at passed
  have member := mem_users_ruleset.mpr ⟨user, listed, rfl⟩
  have guarded := (Ruleset.accepts_written new passed).1 _ (Ruleset.mem_sortedUsers.mpr member) enters
  have slash24 : user.subnet.bits = 24 := sound.subnets _ member
  obtain ⟨inside, own⟩ := (covers_ownRanges slash24).mp guarded.source
  refine ⟨?_, own, guarded.target⟩
  rw [contains_iff (by omega), slash24]
  exact inside

theorem address_within {subnet : Ipv4Prefix} (slash24 : subnet.bits = 24) (known : slot < slots.count) :
    Ipv4.agree 24 (slots.within subnet slot).addr subnet.addr = true ∧
      slots.octetSlot (slots.within subnet slot).addr = slot :=
  (Slots.agree_within slash24 known).mp (Ipv4.agree_refl _ _)

theorem local_source (sound : machine.ruleset.Sound slots)
    (listed : user ∈ machine.users) (known : slot < slots.count) (own : slot ∉ machine.ruleset.remote)
    (free : address ∉ machine.management) :
    ∃ packet : Packet, packet.state = .new ∧ packet.iif = user.network.bridge ∧ slots.octetSlot packet.saddr = slot ∧
      passes .forward (machine.ruleset.table slots) packet = true := by
  have member := mem_users_ruleset.mpr ⟨user, listed, rfl⟩
  have slash24 : user.subnet.bits = 24 := sound.subnets _ member
  obtain ⟨inside, held⟩ := address_within slash24 known
  refine ⟨⟨user.network.bridge, user.network.bridge, (slots.within user.subnet slot).addr, address, .tcp 22, .new⟩, rfl,
    rfl,
    held, ?_⟩
  rw [Ruleset.passes_forward]
  apply Ruleset.accepts_bridge rfl (Ruleset.mem_sortedUsers.mpr member) _ rfl rfl
  · exact ⟨(covers_ownRanges slash24).mpr ⟨inside, held.symm ▸ own⟩, free⟩
  · intro other listed same
    exact sound.distinct _ member other (Ruleset.mem_sortedUsers.mp listed) same

theorem underlay_target (sound : machine.ruleset.Sound slots)
    (listed : user ∈ machine.users) {far : Nat} (known : slot < slots.count) (own : slot ∉ machine.ruleset.remote)
    (routed : far ∈ machine.ruleset.remote) :
    ∃ packet rule, IsUnderlayRule machine.ruleset rule ∧ slots.octetSlot packet.daddr = slot ∧
      ∃ chain ∈ hooked .forward (machine.ruleset.table slots), deciding chain.rules packet = some rule := by
  have member := mem_users_ruleset.mpr ⟨user, listed, rfl⟩
  have slash24 : user.subnet.bits = 24 := sound.subnets _ member
  obtain ⟨inside, held⟩ := address_within slash24 known
  obtain ⟨distant, away⟩ := address_within slash24 (sound.known far routed)
  have source := (covers_farRanges slash24 sound.known).mpr ⟨distant, away.symm ▸ routed⟩
  have target := (covers_ownRanges slash24).mpr ⟨inside, held.symm ▸ own⟩
  have peers : machine.ruleset.underlayPeers = true := by
    obtain ⟨number, named, -⟩ := List.mem_map.mp (mem_sortedSet.mp routed)
    obtain ⟨remote, known, -⟩ := List.mem_map.mp named
    exact decide_eq_true (List.ne_nil_of_mem known)
  have outside : ∀ other ∈ machine.ruleset.sortedUsers, [] ≠ other.bridge := by
    intro other listed empty
    have safe := sound.safe other (Ruleset.mem_sortedUsers.mp listed)
    rw [← empty] at safe
    cases safe
  obtain ⟨rule, gate⟩ : ∃ rule, underlayGate slots machine.ruleset.remote
      (machine.ruleset.sortedUsers.map FirewallUser.bridge) ⟨user.network, user.instances⟩ = some rule := by
    have near : ownRanges slots user.subnet machine.ruleset.remote ≠ [] := by
      intro none
      rw [none] at target
      cases target
    have distant : farRanges slots user.subnet machine.ruleset.remote ≠ [] := by
      intro none
      rw [none] at source
      cases source
    exact ⟨_, if_neg (not_or.mpr ⟨near, distant⟩)⟩
  let packet : Packet :=
    ⟨[], user.network.bridge, (slots.within user.subnet far).addr, (slots.within user.subnet slot).addr, .tcp 22, .new⟩
  have unnamed : packet.iif ∉ machine.ruleset.sortedUsers.map FirewallUser.bridge := by
    intro named
    obtain ⟨other, listed, same⟩ := List.mem_map.mp named
    exact outside other listed same.symm
  have applied : rule.applies packet = true := (applies_underlayGate gate).mpr ⟨unnamed, source, target, rfl⟩
  have written : machine.ruleset.underlayRules slots machine.ruleset.sortedUsers = (machine.ruleset.sortedUsers.map
      (underlayGate slots machine.ruleset.remote (machine.ruleset.sortedUsers.map FirewallUser.bridge))).reduceOption :=
    if_pos peers
  have present : rule ∈ machine.ruleset.underlayRules slots machine.ruleset.sortedUsers := by
    rw [written, List.reduceOption_mem_iff]
    exact List.mem_map.mpr ⟨_, Ruleset.mem_sortedUsers.mpr member, gate⟩
  obtain ⟨first, among, decided⟩ := Ruleset.deciding_underlay rfl outside present applied
  rw [written, List.reduceOption_mem_iff] at among
  obtain ⟨other, listed, gate⟩ := List.mem_map.mp among
  refine ⟨packet, first, (isUnderlayRule_iff sound).mpr ⟨other, Ruleset.mem_sortedUsers.mp listed, gate⟩,
    held, _, ?_, decided⟩
  rw [Ruleset.hooked_forward]
  exact List.mem_singleton_self _

end

theorem mem_management {fleet : Fleet} {plan : Plan} {highPorts : PortRange} {hostId controllerHostId : Int}
    {address : Ipv4Addr} :
    address ∈ (machineNetwork fleet plan highPorts hostId controllerHostId).management ↔
      ∃ host ∈ fleet.hosts, address ∈ host.addresses := by
  simp [machineNetwork]

section
variable {fleet : Fleet} {hostId : Int} {machine : MachineNetwork} {slots : Slots}

theorem follows_of_nobody (nobody : machine.ruleset.users = []) (commands : List Command) :
    FollowsOwnership fleet hostId machine commands := by
  constructor
  · intro packet user listed
    have member := mem_users_ruleset.mpr ⟨user, listed, rfl⟩
    rw [nobody] at member
    cases member
  · rintro packet chain - rule ⟨_, -, user, listed, -⟩
    rw [nobody] at listed
    cases listed

theorem follows_of_owned (sound : machine.ruleset.Sound slots)
    (near : ∀ address, slots.octetSlot address ∉ machine.ruleset.remote → fleet.Owns hostId (fleet.slotAt address))
    (far : ∀ address, slots.octetSlot address ∈ machine.ruleset.remote →
      fleet.OwnedElsewhere hostId (fleet.slotAt address)) :
    FollowsOwnership fleet hostId machine (machine.ruleset.table slots) := by
  constructor
  · intro packet user listed new enters passed
    obtain ⟨inside, own, -⟩ := passes_guarded sound listed new enters passed
    exact ⟨inside, near _ own⟩
  · intro packet chain listed rule written decided
    obtain ⟨source, target⟩ := underlayRule_owned sound written (deciding_some decided).2
    exact ⟨far _ source, near _ target⟩

theorem follows_of_silence (sound : machine.ruleset.Sound slots) (managed : ∀ address, address ∈ machine.management)
    (unrouted : ∀ slot < slots.count, slot ∉ machine.ruleset.remote) :
    FollowsOwnership fleet hostId machine (machine.ruleset.table slots) := by
  constructor
  · intro packet user listed new enters passed
    obtain ⟨-, -, free⟩ := passes_guarded sound listed new enters passed
    exact absurd (managed _) free
  · intro packet chain listed rule written decided
    obtain ⟨source, -⟩ := underlayRule_owned sound written (deciding_some decided).2
    exact absurd source (unrouted _ (slots.octetSlot_lt _))

end

/-- Source addresses follow slot ownership exactly when every slot is owned by the host or
routed to another one. Without a bridge there is nothing to guard, and where every address
is a management address and no slot is routed, no guest reaches anything. -/
theorem forwarding_follows_ownership (fleet : Fleet) (plan : Plan) (highPorts : PortRange)
    (hostId controllerHostId : Int) (commands : List Command)
    (rendered : (machineNetwork fleet plan highPorts hostId controllerHostId).ruleset.commands = .ok commands) :
    FollowsOwnership fleet hostId (machineNetwork fleet plan highPorts hostId controllerHostId) commands ↔
      ¬ fleet.Bridged plan ∨ Accounted fleet hostId ∨ (∀ address, ∃ host ∈ fleet.hosts, address ∈ host.addresses) ∧
          ∀ row ∈ fleet.slots, row.slot < slotCount fleet.runnerPrefix → ¬ fleet.Routable hostId row := by
  obtain ⟨slots, sound, rfl⟩ := Ruleset.commands_ok rendered
  have few := Fleet.count_small slots
  have routed (slot : Nat) (known : slot < slots.count) :
      slot ∈ (machineNetwork fleet plan highPorts hostId controllerHostId).ruleset.remote ↔
        ∃ row ∈ fleet.slots, row.slot = slot ∧ fleet.Routable hostId row := Fleet.mem_remote (by omega)
  constructor
  · intro follows
    by_contra broken
    obtain ⟨bridged, broken⟩ := not_or.mp broken
    obtain ⟨unaccounted, reachable⟩ := not_or.mp broken
    -- Some slot counts as local although the host does not own it.
    simp only [Accounted, not_forall, not_or] at unaccounted
    obtain ⟨slot, known, unowned, unrouted⟩ := unaccounted
    rw [Fleet.slotCount_eq sound.division] at known
    rw [← routed slot known] at unrouted
    rw [← Fleet.users_eq_nil] at bridged
    obtain ⟨_, listed⟩ := List.exists_mem_of_ne_nil _ bridged
    obtain ⟨user, member, -⟩ := mem_users_ruleset.mp listed
    apply reachable
    constructor
    · intro address
      by_contra free
      rw [← mem_management] at free
      obtain ⟨packet, new, enters, held, passed⟩ := local_source sound member known unrouted free
      have owned := (follows.source packet user member new enters passed).2
      rw [Fleet.slotAt_eq sound.division, held] at owned
      exact unowned owned
    · intro row listed inside routable
      rw [Fleet.slotCount_eq sound.division] at inside
      have far := (routed row.slot inside).mpr ⟨row, listed, rfl, routable⟩
      obtain ⟨packet, rule, written, held, chain, hung, decided⟩ := underlay_target sound member known unrouted far
      have owned := (follows.underlay packet chain hung rule written decided).2
      rw [Fleet.slotAt_eq sound.division, held] at owned
      exact unowned owned
  · rintro (nobody | accounted | ⟨managed, unrouted⟩)
    · exact follows_of_nobody (Fleet.users_eq_nil.mpr nobody) _
    · exact follows_of_owned sound (fun _ => owns_local accounted sound.division) fun _ =>
        elsewhere_remote sound.division
    · apply follows_of_silence sound fun address => mem_management.mpr (managed address)
      intro slot known far
      obtain ⟨row, listed, rfl, routable⟩ := (routed slot known).mp far
      rw [← Fleet.slotCount_eq sound.division] at known
      exact unrouted row listed known routable

theorem forwarding_follows_ownership_controller :
    FollowsOwnership oneSlot 1 (machineNetwork oneSlot privatePlan highPorts 1 1)
      ((machineNetwork oneSlot privatePlan highPorts 1 1).ruleset.commands.toOption.getD []) := by
  apply (forwarding_follows_ownership oneSlot privatePlan highPorts 1 1 _ (eq_ok (by decide +kernel) [])).mpr
  refine .inr (.inl ?_)
  intro slot known
  have first : slot = 0 := Nat.lt_one_iff.mp known
  exact .inl ⟨_, List.mem_singleton_self _, first.symm, rfl⟩

def unroutedSlot : Fleet where
  runnerPrefix := 25
  hosts := [⟨1, none, "controller", none, some "10.0.0.97".toList⟩, ⟨2, none, "runner", none, none⟩]
  slots := [⟨0, .active, 1, 0, none, none, none⟩, ⟨1, .active, 2, 0, none, none, none⟩]
  instances := []
  users := [⟨1, "alice", "10.100.0.0/24".toList⟩]
  images := []
  imageVersions := []
  releasedNames := []

def spoofedPacket : Packet where
  iif := "bento0".toList
  oif := "eth0".toList
  saddr := 0x0a640081
  daddr := 0x08080808
  transport := .tcp 443
  state := .new

theorem spoofed_packet_passes : (machineNetwork unroutedSlot privatePlan highPorts 1 1).check = .ok () ∧
      ∃ commands, (machineNetwork unroutedSlot privatePlan highPorts 1 1).ruleset.commands = .ok commands ∧
        passes .forward commands spoofedPacket = true ∧
          unroutedSlot.OwnedElsewhere 1 (unroutedSlot.slotAt spoofedPacket.saddr) ∧
        ¬ FollowsOwnership unroutedSlot 1 (machineNetwork unroutedSlot privatePlan highPorts 1 1) commands := by
  have rendered : (machineNetwork unroutedSlot privatePlan highPorts 1 1).ruleset.commands = .ok _ :=
    eq_ok (by decide +kernel) []
  have passed : passes .forward
    ((machineNetwork unroutedSlot privatePlan highPorts 1 1).ruleset.commands.toOption.getD [])
      spoofedPacket = true := by decide +kernel
  refine ⟨by decide +kernel, _, rendered, passed, ⟨_, List.mem_cons_of_mem _ List.mem_cons_self, rfl, by decide⟩, ?_⟩
  intro follows
  have owned := (follows.source spoofedPacket ⟨0, ⟨0x0a640000, 24⟩, []⟩ (by decide +kernel) rfl (by decide) passed).2
  have unowned : ∀ row ∈ unroutedSlot.slots, row.slot = unroutedSlot.slotAt spoofedPacket.saddr →
    row.ownerHostId ≠ 1 := by
    decide
  obtain ⟨row, listed, same, owner⟩ := owned
  exact unowned row listed same owner

end Bento.Bentod
