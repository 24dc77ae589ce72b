import Bento.Network.Machine

/-! What the forward chain of a machine lets through. One theorem lists the ways a new
packet can pass; every statement about isolation and ownership is read off it. -/

namespace Bento.Network
open Library Library.Decimal Library.Nft Library.Results Bool List Slots

/-- The addresses of a user that are on this machine: all of them, unless other machines own
slots. -/
def ownRanges (slots : Slots) (subnet : Ipv4Prefix) (remote : List Nat) : List Ipv4Prefix :=
  if remote = [] then [masked subnet]
  else ((List.range slots.count).filter (· ∉ remote)).map (slots.within subnet)

def farRanges (slots : Slots) (subnet : Ipv4Prefix) (remote : List Nat) : List Ipv4Prefix :=
  remote.map (slots.within subnet)

section
variable {slots : Slots} {subnet : Ipv4Prefix} {remote : List Nat}

theorem localPrefixes_ok (user : subnet.bits = 24) :
    localPrefixes slots subnet remote = .ok (ownRanges slots subnet remote) := by
  unfold localPrefixes ownRanges
  split
  · rfl
  · apply mapM_ok
    intro slot listed
    have known : slot < slots.count := List.mem_range.mp (List.mem_filter.mp listed).1
    exact prefixOf_ok user known

theorem remotePrefixes_ok (user : subnet.bits = 24) (known : ∀ slot ∈ remote, slot < slots.count) :
    remotePrefixes slots subnet remote = .ok (farRanges slots subnet remote) :=
  mapM_ok fun slot listed => prefixOf_ok user (known slot listed)

def covered (ranges : List Ipv4Prefix) (address : Ipv4Addr) : Bool :=
  ranges.any fun range => Ipv4.agree range.bits address range.addr

theorem covers_cidr (range : Ipv4Prefix) (address : Ipv4Addr) :
    (cidr range).covers address = Ipv4.agree range.bits address range.addr := rfl

theorem covers_prefixSet (ranges : List Ipv4Prefix) (address : Ipv4Addr) :
    (prefixSet ranges).items.any (·.covers address) = covered ranges address := by
  have items : (prefixSet ranges).items = ranges.map cidr := by
    unfold prefixSet
    split <;> rfl
  rw [items, any_map]
  rfl

theorem covers_ownRanges (user : subnet.bits = 24) {address : Ipv4Addr} :
    covered (ownRanges slots subnet remote) address = true ↔
      Ipv4.agree 24 address subnet.addr = true ∧ slots.octetSlot address ∉ remote := by
  unfold ownRanges covered
  split
  next none =>
    have short : subnet.bits ≤ 32 := by omega
    have same := agree_masked short address
    rw [user] at same
    simp [none, masked, user, ← same]
  next _ =>
    simp only [any_eq_true, mem_map, mem_filter, mem_range, decide_eq_true_eq]
    constructor
    · rintro ⟨range, ⟨slot, ⟨known, own⟩, rfl⟩, covered⟩
      obtain ⟨inside, held⟩ := (agree_within user known).mp covered
      exact ⟨inside, held ▸ own⟩
    · rintro ⟨inside, own⟩
      have known := slots.octetSlot_lt address
      exact ⟨_, ⟨_, ⟨known, own⟩, rfl⟩, (agree_within user known).mpr ⟨inside, rfl⟩⟩

theorem covers_farRanges (user : subnet.bits = 24) (known : ∀ slot ∈ remote, slot < slots.count) {address : Ipv4Addr} :
    covered (farRanges slots subnet remote) address = true ↔
      Ipv4.agree 24 address subnet.addr = true ∧ slots.octetSlot address ∈ remote := by
  simp only [farRanges, covered, any_eq_true, mem_map]
  constructor
  · rintro ⟨range, ⟨slot, far, rfl⟩, covered⟩
    obtain ⟨inside, held⟩ := (agree_within user (known slot far)).mp covered
    exact ⟨inside, held ▸ far⟩
  · rintro ⟨inside, far⟩
    exact ⟨_, ⟨_, far, rfl⟩, (agree_within user (known _ far)).mpr ⟨inside, rfl⟩⟩

end

def sourceGuard (slots : Slots) (remote : List Nat) (user : FirewallUser) : Rule :=
  ⟨[user.enters, .saddr true (prefixSet (ownRanges slots user.network.subnet remote))], .drop⟩

def underlayGate (slots : Slots) (remote : List Nat) (bridges : List Text) (user : FirewallUser) : Option Rule :=
  let own := ownRanges slots user.network.subnet remote
  let far := farRanges slots user.network.subnet remote
  if own = [] ∨ far = [] then none else
    some ⟨[.iifname true (.set bridges), .saddr false (prefixSet far), .daddr false (prefixSet own), user.leaves],
      .accept⟩

section
variable {slots : Slots} {remote : List Nat} {user : FirewallUser}

theorem underlayRule_ok {bridges : List Text} (slash24 : user.network.subnet.bits = 24)
    (known : ∀ slot ∈ remote, slot < slots.count) :
    user.underlayRule slots remote bridges = .ok (underlayGate slots remote bridges user) := by
  rw [FirewallUser.underlayRule, localPrefixes_ok slash24, remotePrefixes_ok slash24 known]
  rfl

end

namespace Ruleset

def underlayRules (ruleset : Ruleset) (slots : Slots) (users : List FirewallUser) : List Rule :=
  if ruleset.underlayPeers then
    (users.map (underlayGate slots ruleset.remote (users.map FirewallUser.bridge))).reduceOption
  else []

/-- The rules that drop: a source that is not the user's own, a target of the management, and the
bridges of all other users. -/
def guardRules (ruleset : Ruleset) (slots : Slots) (users : List FirewallUser) : List Rule :=
  users.map (sourceGuard slots ruleset.remote) ++
  (if ruleset.managed = [] then [] else users.map (FirewallUser.managementRule ruleset.managed)) ++
  users.flatMap (FirewallUser.separationRules users)

/-- The rules that accept, after all that drop. -/
def openRules (ruleset : Ruleset) (users : List FirewallUser) : List Rule :=
  (if ruleset.frontends = [] then [] else users.flatMap (FirewallUser.frontendRules ruleset.frontends)) ++
  users.map FirewallUser.bridgeRule ++
  (if ruleset.underlayPeers then users.map FirewallUser.slotRule else []) ++
  users.map (FirewallUser.egressRule ruleset.privateRange)

def written (ruleset : Ruleset) (slots : Slots) (users : List FirewallUser) : Chain :=
  ruleset.forwardOf users (users.map (sourceGuard slots ruleset.remote))
    (users.map (underlayGate slots ruleset.remote (users.map FirewallUser.bridge)))

/-- Past the checks nothing can fail, and the chain is the one written. -/
theorem forwardChain_ok {ruleset : Ruleset} {slots : Slots} {users : List FirewallUser}
    (subnets : ∀ user ∈ users, user.network.subnet.bits = 24) (known : ∀ slot ∈ ruleset.remote, slot < slots.count) :
    ruleset.forwardChain slots users = .ok (ruleset.written slots users) := by
  have sources : users.mapM (FirewallUser.sourceRule slots ruleset.remote) =
      .ok (users.map (sourceGuard slots ruleset.remote)) := by
    apply mapM_ok
    intro user listed
    rw [FirewallUser.sourceRule, localPrefixes_ok (subnets user listed)]
    rfl
  have underlay : users.mapM (FirewallUser.underlayRule slots ruleset.remote (users.map FirewallUser.bridge)) =
      .ok (users.map (underlayGate slots ruleset.remote (users.map FirewallUser.bridge))) := by
    apply mapM_ok
    intro user listed
    exact underlayRule_ok (subnets user listed) known
  rw [forwardChain, sources, underlay]
  rfl

theorem rules_written (ruleset : Ruleset) (slots : Slots) (users : List FirewallUser) :
    (ruleset.written slots users).rules =
      established :: (ruleset.guardRules slots users ++
        (ruleset.underlayRules slots users ++ ruleset.openRules users)) := by
  have comment (text : String) (items : List Item) :
      (remark text :: items).filterMap Item.rule? = items.filterMap Item.rule? := rfl
  have rule (first : Rule) (items : List Item) :
      (.rule first :: items).filterMap Item.rule? = first :: items.filterMap Item.rule? := rfl
  have plain (rules : List Rule) : (rules.map Item.rule).filterMap Item.rule? = rules := by
    rw [filterMap_map]
    exact filterMap_some
  have each (write : FirewallUser → Rule) :
      (users.map fun user => .rule (write user)).filterMap Item.rule? = users.map write := by
    have listed := plain (users.map write)
    rwa [map_map] at listed
  unfold written forwardOf
  simp only [Chain.rules, guardRules, underlayRules, openRules, filterMap_append, comment, rule, plain, each,
    apply_ite (List.filterMap Item.rule?), filterMap_nil, cons_append, append_assoc, nil_append]

end Ruleset

section
variable {ruleset : Ruleset} {slots : Slots} {users : List FirewallUser} {packet : Packet}

@[simp] theorem holds_enters (user : FirewallUser) : user.enters.holds packet = decide (packet.iif = user.bridge) := by
  simp [FirewallUser.enters]

@[simp] theorem holds_leaves (user : FirewallUser) : user.leaves.holds packet = decide (packet.oif = user.bridge) := by
  simp [FirewallUser.leaves]

variable {user : FirewallUser}

theorem applies_sourceGuard {remote : List Nat} : (sourceGuard slots remote user).applies packet = true ↔
      packet.iif = user.bridge ∧ covered (ownRanges slots user.network.subnet remote) packet.saddr = false := by
  simp [sourceGuard, covers_prefixSet]

theorem applies_underlayGate {remote : List Nat} {bridges : List Text} {rule : Rule}
    (gate : underlayGate slots remote bridges user = some rule) :
    rule.applies packet = true ↔ packet.iif ∉ bridges ∧
      covered (farRanges slots user.network.subnet remote) packet.saddr = true ∧
      covered (ownRanges slots user.network.subnet remote) packet.daddr = true ∧ packet.oif = user.bridge := by
  simp only [underlayGate] at gate
  split at gate
  · cases gate
  · cases gate
    simp only [applies_mk, all_cons, all_nil, Bool.and_true, and_eq_true, holds_iifname, holds_saddr, holds_daddr,
      covers_prefixSet, items_set, holds_leaves, decide_eq_true_eq, bne_true, not_eq_true', bne_false]
    exact and_congr_left fun _ => decide_eq_false_iff_not

theorem applies_managementRule {management : List Ipv4Addr} :
    (user.managementRule management).applies packet = true ↔ packet.iif = user.bridge ∧ packet.daddr ∈ management := by
  simp [FirewallUser.managementRule, addrSet]

theorem applies_bridgeRule : user.bridgeRule.applies packet = true ↔
    packet.iif = user.bridge ∧ packet.oif = user.bridge := by
  simp [FirewallUser.bridgeRule]

theorem applies_slotRule : user.slotRule.applies packet = true ↔ packet.iif = user.bridge ∧
      Ipv4.agree user.network.subnet.bits packet.daddr user.network.subnet.addr = true := by
  simp [FirewallUser.slotRule, covers_cidr]

theorem applies_egressRule {range : Ipv4Prefix} : (user.egressRule range).applies packet = true ↔
    packet.iif = user.bridge ∧
      Ipv4.agree range.bits packet.daddr (masked range).addr = false := by
  simp [FirewallUser.egressRule, covers_cidr, masked]

/-- What the dropping rules ask of a packet from the bridge of a user. -/
structure Guarded (ruleset : Ruleset) (slots : Slots) (user : FirewallUser) (packet : Packet) : Prop where
  source : covered (ownRanges slots user.network.subnet ruleset.remote) packet.saddr = true
  target : packet.daddr ∉ ruleset.management

/-- The ways through the chain, one for each rule that accepts. -/
inductive Passage (ruleset : Ruleset) (slots : Slots) (users : List FirewallUser) (packet : Packet) : Prop where
  | underlay (user : FirewallUser) (listed : user ∈ users)
      (outside : ∀ other ∈ users, packet.iif ≠ other.bridge)
      (source : covered (farRanges slots user.network.subnet ruleset.remote) packet.saddr = true)
      (target : covered (ownRanges slots user.network.subnet ruleset.remote) packet.daddr = true)
      (leaves : packet.oif = user.bridge)
  | frontend (source : packet.saddr ∈ ruleset.frontends)
  | bridge (user : FirewallUser) (listed : user ∈ users) (enters : packet.iif = user.bridge)
      (leaves : packet.oif = user.bridge)
  | slot (user : FirewallUser) (listed : user ∈ users) (enters : packet.iif = user.bridge)
      (target : Ipv4.agree user.network.subnet.bits packet.daddr user.network.subnet.addr = true)
  | egress (user : FirewallUser) (listed : user ∈ users) (enters : packet.iif = user.bridge)
      (target : Ipv4.agree ruleset.privateRange.bits packet.daddr (masked ruleset.privateRange).addr = false)

namespace Ruleset

theorem guards_drop : ∀ rule ∈ ruleset.guardRules slots users, rule.verdict = .drop := by
  intro rule listed
  simp only [guardRules, mem_append, mem_map, mem_flatMap] at listed
  rcases listed with (⟨user, -, rfl⟩ | managed) | ⟨user, -, other⟩
  · rfl
  · split at managed
    · cases managed
    · obtain ⟨user, -, rfl⟩ := List.mem_map.mp managed
      rfl
  · obtain ⟨other, -, rfl⟩ := List.mem_map.mp other
    rfl

theorem guards_passed (passed : ∀ rule ∈ ruleset.guardRules slots users, rule.applies packet = false)
    {user : FirewallUser} (listed : user ∈ users) (enters : packet.iif = user.bridge) :
    Guarded ruleset slots user packet := by
  constructor
  · have own := passed (sourceGuard slots ruleset.remote user) (by
      simp only [guardRules, mem_append, mem_map]
      exact Or.inl (Or.inl ⟨user, listed, rfl⟩))
    rw [← not_eq_true, applies_sourceGuard] at own
    simpa [enters] using own
  · intro member
    have managed : packet.daddr ∈ ruleset.managed := mem_sortedSet.mpr member
    have some : ruleset.managed ≠ [] := ne_nil_of_mem managed
    have kept := passed (user.managementRule ruleset.managed) (by
      simp only [guardRules, some, if_false, mem_append, mem_map]
      exact Or.inl (Or.inr ⟨user, listed, rfl⟩))
    rw [← not_eq_true, applies_managementRule] at kept
    exact kept ⟨enters, managed⟩

variable {rule : Rule}

theorem underlay_applies (listed : rule ∈ ruleset.underlayRules slots users) (applied : rule.applies packet = true) :
    ∃ user ∈ users, (∀ other ∈ users, packet.iif ≠ other.bridge) ∧
      covered (farRanges slots user.network.subnet ruleset.remote) packet.saddr = true ∧
      covered (ownRanges slots user.network.subnet ruleset.remote) packet.daddr = true ∧ packet.oif = user.bridge := by
  unfold underlayRules at listed
  split at listed
  next peers =>
    obtain ⟨user, member, gate⟩ := List.mem_map.mp (List.reduceOption_mem_iff.mp listed)
    obtain ⟨outside, source, target, leaves⟩ := (applies_underlayGate gate).mp applied
    refine ⟨user, member, ?_, source, target, leaves⟩
    intro other known same
    exact outside (List.mem_map.mpr ⟨other, known, same.symm⟩)
  next => cases listed

theorem open_applies (listed : rule ∈ ruleset.openRules users) (applied : rule.applies packet = true) :
    Passage ruleset slots users packet := by
  simp only [openRules, mem_append, mem_map] at listed
  rcases listed with ((frontend | ⟨user, member, rfl⟩) | slot) | ⟨user, member, rfl⟩
  · split at frontend
    · cases frontend
    · obtain ⟨user, member, own⟩ := List.mem_flatMap.mp frontend
      obtain ⟨_, -, rules⟩ := List.mem_flatMap.mp own
      obtain ⟨source, known, rfl⟩ := List.mem_map.mp rules
      simp only [applies_mk, all_cons, holds_saddr, items_single, covers_host, any_cons, any_nil,
        Bool.or_false, bne_false, and_eq_true, decide_eq_true_eq] at applied
      apply Passage.frontend
      rw [applied.1]
      exact known
  · obtain ⟨enters, leaves⟩ := applies_bridgeRule.mp applied
    exact .bridge user member enters leaves
  · split at slot
    · obtain ⟨user, member, rfl⟩ := List.mem_map.mp slot
      obtain ⟨enters, target⟩ := applies_slotRule.mp applied
      exact .slot user member enters target
    · cases slot
  · obtain ⟨enters, target⟩ := applies_egressRule.mp applied
    exact .egress user member enters target

theorem established_fresh (new : packet.state = .new) : established.applies packet = false := by
  simp [established, Rule.applies, Clause.holds, new]

/-- A new packet that is accepted has met no rule that drops, and one that accepts. -/
theorem accepts_written (new : packet.state = .new)
    (accepted : accepts .drop (ruleset.written slots users).rules packet = true) :
    (∀ user ∈ users, packet.iif = user.bridge → Guarded ruleset slots user packet) ∧
      Passage ruleset slots users packet := by
  rw [rules_written, ← singleton_append] at accepted
  rcases accepts_append accepted with early | ⟨-, accepted⟩
  · obtain ⟨rule, member, -, applied⟩ := early
    rw [List.mem_singleton.mp member, established_fresh new] at applied
    cases applied
  obtain ⟨passed, accepted⟩ := accepts_past_drops guards_drop accepted
  refine ⟨fun user listed enters => guards_passed passed listed enters, ?_⟩
  rcases accepts_append accepted with underlay | ⟨-, rest⟩
  · obtain ⟨rule, member, -, applied⟩ := underlay
    obtain ⟨user, listed, outside, source, target, leaves⟩ := underlay_applies member applied
    exact .underlay user listed outside source target leaves
  · rw [← append_nil (ruleset.openRules users)] at rest
    rcases accepts_append rest with opened | ⟨-, policy⟩
    · obtain ⟨rule, member, -, applied⟩ := opened
      exact open_applies member applied
    · cases policy

theorem open_accepts : ∀ rule ∈ ruleset.openRules users, rule.verdict = .accept := by
  intro rule listed
  simp only [openRules, mem_append, mem_map] at listed
  rcases listed with ((frontend | ⟨user, -, rfl⟩) | slot) | ⟨user, -, rfl⟩
  · split at frontend
    · cases frontend
    · obtain ⟨user, -, own⟩ := List.mem_flatMap.mp frontend
      obtain ⟨_, -, rules⟩ := List.mem_flatMap.mp own
      obtain ⟨_, -, rfl⟩ := List.mem_map.mp rules
      rfl
  · rfl
  · split at slot
    · obtain ⟨user, -, rfl⟩ := List.mem_map.mp slot
      rfl
    · cases slot
  · rfl

theorem guards_silent (guarded : ∀ user ∈ users, packet.iif = user.bridge →
    Guarded ruleset slots user packet ∧ packet.oif = user.bridge) :
    ∀ rule ∈ ruleset.guardRules slots users, rule.applies packet = false := by
  intro rule listed
  rw [← not_eq_true]
  intro applied
  simp only [guardRules, mem_append, mem_map, mem_flatMap] at listed
  rcases listed with (⟨user, member, rfl⟩ | managed) | ⟨user, member, apart⟩
  · obtain ⟨enters, spoofed⟩ := applies_sourceGuard.mp applied
    rw [(guarded user member enters).1.source] at spoofed
    cases spoofed
  · split at managed
    · cases managed
    · obtain ⟨user, member, rfl⟩ := List.mem_map.mp managed
      obtain ⟨enters, target⟩ := applies_managementRule.mp applied
      exact (guarded user member enters).1.target (mem_sortedSet.mp target)
  · obtain ⟨other, known, rfl⟩ := List.mem_map.mp apart
    simp only [applies_mk, all_cons, all_nil, Bool.and_true, and_eq_true, holds_enters, holds_leaves,
      decide_eq_true_eq] at applied
    have differ := of_decide_eq_true (List.mem_filter.mp known).2
    exact differ ((guarded user member applied.1).2.symm.trans applied.2)

theorem deciding_written (new : packet.state = .new)
    (silent : ∀ rule ∈ ruleset.guardRules slots users, rule.applies packet = false) :
    deciding (ruleset.written slots users).rules packet =
      deciding (ruleset.underlayRules slots users ++ ruleset.openRules users) packet := by
  have first : ∀ rule ∈ [established], rule.applies packet = false := by
    intro rule listed
    rw [List.mem_singleton.mp listed]
    exact established_fresh new
  rw [rules_written, ← singleton_append, deciding_past first, deciding_past silent]

theorem accepts_bridge (new : packet.state = .new) {user : FirewallUser} (listed : user ∈ users)
    (distinct : ∀ other ∈ users, user.bridge = other.bridge → user = other) (enters : packet.iif = user.bridge)
    (leaves : packet.oif = user.bridge) (guarded : Guarded ruleset slots user packet) :
    accepts .drop (ruleset.written slots users).rules packet = true := by
  have silent : ∀ rule ∈ ruleset.guardRules slots users, rule.applies packet = false := by
    apply guards_silent
    intro other known same
    rw [← distinct other known (enters.symm.trans same)]
    exact ⟨guarded, leaves⟩
  have inside : ∀ rule ∈ ruleset.underlayRules slots users, rule.applies packet = false := by
    intro rule member
    rw [← not_eq_true]
    intro applied
    obtain ⟨_, -, outside, -⟩ := underlay_applies member applied
    exact outside user listed enters
  have bridged : user.bridgeRule ∈ ruleset.openRules users := by
    simp only [openRules, mem_append, mem_map]
    exact .inl (.inl (.inr ⟨user, listed, rfl⟩))
  obtain ⟨rule, member, decided⟩ := deciding_within bridged (applies_bridgeRule.mpr ⟨enters, leaves⟩)
  rw [accepts, deciding_written new silent, deciding_past inside, decided]
  exact decide_eq_true (open_accepts rule member)

theorem deciding_underlay (new : packet.state = .new) (outside : ∀ user ∈ users, packet.iif ≠ user.bridge)
    (listed : rule ∈ ruleset.underlayRules slots users) (applied : rule.applies packet = true) :
    ∃ first ∈ ruleset.underlayRules slots users, deciding (ruleset.written slots users).rules packet = some first := by
  have silent : ∀ rule ∈ ruleset.guardRules slots users, rule.applies packet = false :=
    guards_silent fun user member enters => absurd enters (outside user member)
  obtain ⟨first, member, decided⟩ := deciding_within listed applied
  refine ⟨first, member, ?_⟩
  rw [deciding_written new silent, deciding_append, decided, Option.some_or]

end Ruleset

end

namespace Ruleset

/-- What the checks before the rendering make sure of. -/
structure Sound (ruleset : Ruleset) (slots : Slots) : Prop where
  division : ruleset.runnerPrefix.toNat = slots.bits
  short : ruleset.privateRange.bits ≤ 32
  known : ∀ slot ∈ ruleset.remote, slot < slots.count
  safe : ∀ user ∈ ruleset.users, safeInterfaceName user.bridge = true
  subnets : ∀ user ∈ ruleset.users, user.network.subnet.bits = 24
  distinct : ∀ user ∈ ruleset.users, ∀ other ∈ ruleset.users, user.bridge = other.bridge → user = other

variable {ruleset : Ruleset}

@[simp] theorem mem_sortedUsers {user : FirewallUser} : user ∈ ruleset.sortedUsers ↔ user ∈ ruleset.users := by
  simp [sortedUsers]

theorem checkUsers_ok {seen : List Text} {users : List FirewallUser} {value : Unit}
    (passed : checkUsers seen users = .ok value) :
    (∀ user ∈ users, safeInterfaceName user.bridge = true ∧ user.bridge ∉ seen ∧ user.network.subnet.bits = 24) ∧
      users.Pairwise fun user other => user.bridge ≠ other.bridge := by
  induction users generalizing seen with
  | nil => simp
  | cons user users ih =>
    simp only [checkUsers, bind_ok, refuseIf_ok, requireSlash24_ok, forM_ok] at passed
    obtain ⟨_, safe, _, fresh, _, slash24, _, -, rest⟩ := passed
    obtain ⟨each, apart⟩ := ih rest
    refine ⟨?_, List.pairwise_cons.mpr ⟨?_, apart⟩⟩
    · intro other listed
      rcases List.mem_cons.mp listed with same | later
      · rw [same]
        exact ⟨by simpa using safe, by simpa using fresh, slash24⟩
      · obtain ⟨safe, unseen, slash24⟩ := each other later
        exact ⟨safe, fun before => unseen (mem_cons_of_mem _ before), slash24⟩
    · intro other listed same
      exact (each other listed).2.1 (same ▸ mem_cons_self)

theorem check_ok {slots : Slots} (passed : ruleset.check = .ok slots) : ruleset.Sound slots := by
  simp only [check, bind_ok, refuseIf_ok, forM_ok, pure_ok] at passed
  obtain ⟨_, short, _, division, _, known, _, users, rfl⟩ := passed
  obtain ⟨each, apart⟩ := checkUsers_ok users
  constructor
  · exact Slots.new_ok.mp division
  · simpa using short
  · intro slot listed
    obtain ⟨remote, inside, rfl⟩ := List.mem_map.mp (mem_sortedSet.mp listed)
    simpa using known remote inside
  · intro user listed
    exact (each user (mem_sortedUsers.mpr listed)).1
  · intro user listed
    exact (each user (mem_sortedUsers.mpr listed)).2.2
  · intro user listed other inside same
    have names : (ruleset.sortedUsers.map FirewallUser.bridge).Nodup := List.pairwise_map.mpr apart
    exact inj_on_of_nodup_map names (mem_sortedUsers.mpr listed) (mem_sortedUsers.mpr inside) same

def table (ruleset : Ruleset) (slots : Slots) : List Command :=
  ruleset.tableOf ruleset.sortedUsers (ruleset.written slots ruleset.sortedUsers)

theorem commands_ok {commands : List Command} (rendered : ruleset.commands = .ok commands) :
    ∃ slots, ruleset.Sound slots ∧ commands = ruleset.table slots := by
  simp only [Ruleset.commands, bind_ok, pure_ok] at rendered
  obtain ⟨slots, passed, forward, made, rfl⟩ := rendered
  have sound := check_ok passed
  rw [forwardChain_ok (fun user listed => sound.subnets user (mem_sortedUsers.mp listed)) sound.known] at made
  cases made
  exact ⟨slots, sound, rfl⟩

section
variable {ruleset : Ruleset} {slots : Slots}

theorem hook_output (users : List FirewallUser) : (outputChain users).base.hook = .output := rfl

theorem hook_input (users : List FirewallUser) : (inputChain users).base.hook = .input := rfl

theorem hook_postrouting (range : Ipv4Prefix) (users : List FirewallUser) :
    (postroutingChain range users).base.hook = .postrouting := rfl

theorem hook_written (users : List FirewallUser) : (ruleset.written slots users).base.hook = .forward := rfl

theorem passes_forward {packet : Packet} :
    passes .forward (ruleset.table slots) packet =
      accepts .drop (ruleset.written slots ruleset.sortedUsers).rules packet := by
  have policy : (ruleset.written slots ruleset.sortedUsers).base.policy = .drop := rfl
  unfold passes table tableOf
  simp [hook_output, hook_input, hook_postrouting, hook_written, policy]

theorem hooked_forward : hooked .forward (ruleset.table slots) = [ruleset.written slots ruleset.sortedUsers] := by
  unfold hooked table tableOf
  simp [hook_output, hook_input, hook_postrouting, hook_written]

end

end Ruleset

end Bento.Network
