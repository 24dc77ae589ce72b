import Bento.Library.NftReading
import Bento.Proofs.Forwarding

/-! The text of a ruleset against the grammar of nft. Everything that is written can be
read back, except the source rule of a machine that owns no slot: its anonymous set is
empty, and one empty set refuses the whole table. -/

namespace Bento.Network
open Library Library.Decimal Library.Nft Library.Results Chain List

variable {remote : List Nat} {remark : Text} {subnet range : Ipv4Prefix}

/-- A user whose rules can be written: the bridge needs no escape, and the subnet is a `/24`. -/
structure Writable (user : FirewallUser) : Prop where
  safe : isInterfaceName user.bridge = true
  slash24 : user.network.subnet.bits = 24

theorem items_prefixSet (ranges : List Ipv4Prefix) : (prefixSet ranges).items = ranges.map cidr := by
  unfold prefixSet
  split <;> rfl

@[simp] theorem fits_cidr (range : Ipv4Prefix) : (cidr range).Fits ↔ range.bits ≤ 32 := Iff.rfl

@[simp] theorem full_prefixSet (ranges : List Ipv4Prefix) : (prefixSet ranges).full = decide (ranges ≠ []) := by
  unfold prefixSet
  split <;> simp

@[simp] theorem full_portSet (httpPorts : List UInt16) (ranges : List PortRange) :
    (portSet httpPorts ranges).full = true := by
  have ssh : (22 : UInt16) ∈ sortedSet (· ≤ ·) (22 :: httpPorts) := by simp
  simp [portSet, ne_nil_of_mem ssh]

section
variable {ruleset : Ruleset} {slots : Slots} {users : List FirewallUser} {user : FirewallUser}

theorem short_ownRanges (slash24 : subnet.bits = 24) : ∀ range ∈ ownRanges slots subnet remote, range.bits ≤ 32 := by
  have narrow := slots.narrow
  unfold ownRanges
  split
  · simp [masked, slash24]
  · simp only [mem_map]
    rintro range ⟨slot, -, rfl⟩
    show slots.bits ≤ 32
    omega

theorem short_farRanges : ∀ range ∈ farRanges slots subnet remote, range.bits ≤ 32 := by
  have narrow := slots.narrow
  simp only [farRanges, mem_map]
  rintro range ⟨slot, -, rfl⟩
  show slots.bits ≤ 32
  omega

@[simp] theorem full_enters : user.enters.full = true := rfl

@[simp] theorem full_leaves : user.leaves.full = true := rfl

namespace Writable
variable (writable : Writable user)
include writable

theorem enters : user.enters.Fits := by
  simpa [FirewallUser.enters, Clause.Fits] using writable.safe

theorem leaves : user.leaves.Fits := by
  simpa [FirewallUser.leaves, Clause.Fits] using writable.safe

theorem outputRules : ∀ rule ∈ user.outputRules, rule.Fits ∧ rule.full = true := by
  simp [FirewallUser.outputRules, writable.leaves, or_imp, forall_and]

theorem inputRules : ∀ rule ∈ user.inputRules, rule.Fits ∧ rule.full = true := by
  simp [FirewallUser.inputRules, writable.enters]

theorem sourceGuard_fits (remote : List Nat) : (sourceGuard slots remote user).Fits := by
  have short : ∀ range ∈ ownRanges slots user.network.subnet remote, range.bits ≤ 32 := short_ownRanges writable.slash24
  simpa [sourceGuard, writable.enters, items_prefixSet] using short

theorem managementRule {management : List Ipv4Addr} (some : management ≠ []) :
    (user.managementRule management).Fits ∧ (user.managementRule management).full = true := by
  simp [FirewallUser.managementRule, addrSet, writable.enters, some]

theorem separationRules (others : ∀ other ∈ users, Writable other) :
    ∀ rule ∈ user.separationRules users, rule.Fits ∧ rule.full = true := by
  intro rule listed
  obtain ⟨other, member, rfl⟩ := List.mem_map.mp listed
  have known := others other (List.mem_filter.mp member).1
  simp [writable.enters, known.leaves]

theorem underlayGate (listed : user ∈ users) (others : ∀ other ∈ users, Writable other)
    {rule : Rule} (gate : underlayGate slots remote (users.map FirewallUser.bridge) user = some rule) :
    rule.Fits ∧ rule.full = true := by
  simp only [Network.underlayGate] at gate
  split at gate
  · cases gate
  next some =>
    obtain ⟨own, far⟩ := not_or.mp some
    cases gate
    have bridges : users.map FirewallUser.bridge ≠ [] := ne_nil_of_mem (mem_map_of_mem listed)
    have names : (Clause.iifname true (.set (users.map FirewallUser.bridge))).Fits := by
      intro name member
      obtain ⟨other, known, rfl⟩ := List.mem_map.mp member
      exact (others other known).safe
    have near : ∀ range ∈ ownRanges slots user.network.subnet remote, range.bits ≤ 32 :=
      short_ownRanges writable.slash24
    have away : ∀ range ∈ farRanges slots user.network.subnet remote, range.bits ≤ 32 := short_farRanges
    constructor
    · simp only [Rule.fits_mk, mem_cons, not_mem_nil, or_false, forall_eq_or_imp, forall_eq, Clause.fits_saddr,
        Clause.fits_daddr, items_prefixSet, mem_map, forall_exists_index, and_imp, forall_apply_eq_imp_iff₂, fits_cidr]
      exact ⟨names, away, near, writable.leaves⟩
    · simp [own, far, bridges]

theorem frontendRules (frontends : List Ipv4Addr) :
    ∀ rule ∈ user.frontendRules frontends, rule.Fits ∧ rule.full = true := by
  intro rule listed
  obtain ⟨own, -, rules⟩ := List.mem_flatMap.mp listed
  obtain ⟨frontend, -, rfl⟩ := List.mem_map.mp rules
  simp [writable.leaves]

theorem bridgeRule : user.bridgeRule.Fits ∧ user.bridgeRule.full = true := by
  simp [FirewallUser.bridgeRule, writable.enters, writable.leaves]

theorem slotRule : user.slotRule.Fits ∧ user.slotRule.full = true := by
  simp [FirewallUser.slotRule, writable.enters, writable.slash24]

theorem egressRule (short : range.bits ≤ 32) : (user.egressRule range).Fits ∧ (user.egressRule range).full = true := by
  simp [FirewallUser.egressRule, writable.enters, masked, short]

theorem masqueradeRule (short : range.bits ≤ 32) :
    (user.masqueradeRule range).Fits ∧ (user.masqueradeRule range).full = true := by
  simp [FirewallUser.masqueradeRule, writable.slash24, masked, short]

end Writable

theorem rules_plain (rules : List Rule) : (rules.map Item.rule).filterMap Item.rule? = rules := by
  rw [filterMap_map]
  exact filterMap_some

theorem comment_before {text : String} {rules : List Rule}
    (listed : .comment remark ∈ Ruleset.remark text :: rules.map Item.rule) : remark = text.toList := by
  rcases List.mem_cons.mp listed with same | later
  · exact Item.comment.inj same
  · obtain ⟨rule, -, same⟩ := List.mem_map.mp later
    cases same

theorem established_proper : established.Fits ∧ established.full = true := by
  simp [established, Clause.Fits, Clause.full]

/-- Comments aside, a chain is as good as its rules. -/
theorem chain_proper {chain : Chain} (named : IsWord chain.name)
    (comments : ∀ remark, .comment remark ∈ chain.body → '\n' ∉ remark)
    (rules : ∀ rule ∈ chain.rules, rule.Fits ∧ rule.full = true) : chain.Fits ∧ chain.full = true := by
  refine ⟨fits_of_rules named comments fun rule listed => (rules rule listed).1, ?_⟩
  rw [full_rules, all_eq_true]
  exact fun rule listed => (rules rule listed).2

end

section
variable {users : List FirewallUser} (each : ∀ user ∈ users, Writable user)
include each

theorem outputChain_proper : (Ruleset.outputChain users).Fits ∧ (Ruleset.outputChain users).full = true := by
  have named : IsWord "output".toList := ⟨by decide, by decide⟩
  apply chain_proper named
  · intro remark listed
    rw [comment_before listed]
    decide
  · intro rule listed
    have rules : (Ruleset.outputChain users).rules = users.flatMap FirewallUser.outputRules := rules_plain _
    rw [rules] at listed
    obtain ⟨user, member, own⟩ := List.mem_flatMap.mp listed
    exact (each user member).outputRules rule own

theorem inputChain_proper : (Ruleset.inputChain users).Fits ∧ (Ruleset.inputChain users).full = true := by
  have named : IsWord "input".toList := ⟨by decide, by decide⟩
  apply chain_proper named
  · intro remark listed
    rcases List.mem_cons.mp listed with same | later
    · cases same
    · rw [comment_before later]
      decide
  · intro rule listed
    have rules : (Ruleset.inputChain users).rules = established :: users.flatMap FirewallUser.inputRules :=
      congrArg (established :: ·) (rules_plain _)
    rw [rules] at listed
    rcases List.mem_cons.mp listed with rfl | later
    · exact established_proper
    · obtain ⟨user, member, own⟩ := List.mem_flatMap.mp later
      exact (each user member).inputRules rule own

theorem postroutingChain_proper (short : range.bits ≤ 32) :
    (Ruleset.postroutingChain range users).Fits ∧ (Ruleset.postroutingChain range users).full = true := by
  have named : IsWord "postrouting".toList := ⟨by decide, by decide⟩
  have body : (Ruleset.postroutingChain range users).body =
      Ruleset.remark "rule 5: masquerade instance egress behind the host address" ::
        (users.map (FirewallUser.masqueradeRule range)).map Item.rule := by
    rw [map_map]
    rfl
  apply chain_proper named
  · intro remark listed
    rw [body] at listed
    rw [comment_before listed]
    decide
  · intro rule listed
    have rules : (Ruleset.postroutingChain range users).rules = users.map (FirewallUser.masqueradeRule range) := by
      rw [Chain.rules, body]
      exact rules_plain _
    rw [rules] at listed
    obtain ⟨user, member, rfl⟩ := List.mem_map.mp listed
    exact (each user member).masqueradeRule short

theorem forward_rules {ruleset : Ruleset} {slots : Slots} (short : ruleset.privateRange.bits ≤ 32) :
    ∀ rule ∈ (ruleset.written slots users).rules,
      (∃ user ∈ users, rule = sourceGuard slots ruleset.remote user) ∨ rule.Fits ∧ rule.full = true := by
  intro rule listed
  rw [Ruleset.rules_written] at listed
  simp only [Ruleset.guardRules, Ruleset.openRules, mem_cons, mem_append, mem_map, mem_flatMap] at listed
  rcases listed with rfl | ((⟨user, member, rfl⟩ | managed) | ⟨user, member, apart⟩) | underlay |
    ((frontend | ⟨user, member, rfl⟩) | slot) | ⟨user, member, rfl⟩
  · exact .inr established_proper
  · exact .inl ⟨user, member, rfl⟩
  · split at managed
    · cases managed
    next some =>
      obtain ⟨user, member, rfl⟩ := List.mem_map.mp managed
      exact .inr ((each user member).managementRule some)
  · exact .inr ((each user member).separationRules each rule apart)
  · unfold Ruleset.underlayRules at underlay
    split at underlay
    · obtain ⟨user, member, gate⟩ := List.mem_map.mp (List.reduceOption_mem_iff.mp underlay)
      exact .inr ((each user member).underlayGate member each gate)
    · cases underlay
  · split at frontend
    · cases frontend
    · obtain ⟨user, member, own⟩ := List.mem_flatMap.mp frontend
      exact .inr ((each user member).frontendRules ruleset.frontends rule own)
  · exact .inr (each user member).bridgeRule
  · split at slot
    · obtain ⟨user, member, rfl⟩ := List.mem_map.mp slot
      exact .inr (each user member).slotRule
    · cases slot
  · exact .inr ((each user member).egressRule short)

end

section
variable {ruleset : Ruleset} {slots : Slots} {users : List FirewallUser}

theorem comment_rules {rules : List Rule} : .comment remark ∈ rules.map Item.rule ↔ False := by
  simp

theorem comment_each {write : FirewallUser → Rule} :
    .comment remark ∈ users.map (fun user => Item.rule (write user)) ↔ False := by
  simp

theorem comment_guarded {guard : Prop} [Decidable guard] {items : List Item} :
    .comment remark ∈ (if guard then items else []) ↔ guard ∧ .comment remark ∈ items := by
  split <;> simp_all

theorem comment_unless {guard : Prop} [Decidable guard] {items : List Item} :
    .comment remark ∈ (if guard then [] else items) ↔ ¬ guard ∧ .comment remark ∈ items := by
  split <;> simp_all

theorem forward_comments : ∀ remark, .comment remark ∈ (ruleset.written slots users).body → '\n' ∉ remark := by
  intro remark listed
  have oneLine (text : String) (plain : '\n' ∉ text.toList) (same : .comment remark = Ruleset.remark text) :
      '\n' ∉ remark := by
    rw [Item.comment.inj same]
    exact plain
  unfold Ruleset.written Ruleset.forwardOf at listed
  simp only [mem_append, cons_append, nil_append, comment_rules, comment_each, comment_guarded,
    comment_unless, mem_cons, reduceCtorEq, false_or, or_false, or_assoc] at listed
  rcases listed with same | ⟨-, same⟩ | same | ⟨-, same⟩ | ⟨-, same⟩ | same | ⟨-, same⟩ | same
  all_goals exact oneLine _ (by decide) same

theorem written_fits (each : ∀ user ∈ users, Writable user) (short : ruleset.privateRange.bits ≤ 32) :
    (ruleset.written slots users).Fits := by
  have named : IsWord "forward".toList := ⟨by decide, by decide⟩
  apply fits_of_rules named forward_comments
  intro rule listed
  rcases forward_rules each short rule listed with ⟨user, member, rfl⟩ | proper
  · exact (each user member).sourceGuard_fits ruleset.remote
  · exact proper.1

theorem full_sourceGuard {user : FirewallUser} : (sourceGuard slots remote user).full = true ↔
    ownRanges slots user.network.subnet remote ≠ [] := by
  simp [sourceGuard]

theorem ownRanges_some : ownRanges slots subnet remote ≠ [] ↔ ∃ slot < slots.count, slot ∉ remote := by
  unfold ownRanges
  split
  next none =>
    have positive : 0 < slots.count := Nat.two_pow_pos _
    simp only [none, ne_eq, cons_ne_nil, not_false_eq_true, not_mem_nil, and_true, true_iff]
    exact ⟨0, positive⟩
  next _ => simp

/-- The one set that can be empty is that of the user's own ranges. -/
theorem written_full (each : ∀ user ∈ users, Writable user) (short : ruleset.privateRange.bits ≤ 32) :
    (ruleset.written slots users).full = true ↔ users = [] ∨ ∃ slot < slots.count, slot ∉ ruleset.remote := by
  rw [full_rules, all_eq_true]
  constructor
  · intro full
    cases users with
    | nil => exact .inl rfl
    | cons user users =>
      have guard : sourceGuard slots ruleset.remote user ∈ (ruleset.written slots (user :: users)).rules := by
        rw [Ruleset.rules_written]
        simp [Ruleset.guardRules]
      exact .inr (ownRanges_some.mp (full_sourceGuard.mp (full _ guard)))
  · intro some rule listed
    rcases forward_rules each short rule listed with ⟨user, member, rfl⟩ | proper
    · have owned := some.resolve_left (ne_nil_of_mem member)
      exact full_sourceGuard.mpr (ownRanges_some.mpr owned)
    · exact proper.2

end

namespace Ruleset

/-- The text can be read just when this machine owns a slot or there is no user to guard. -/
theorem parse_render {ruleset : Ruleset} {text : Text} (rendered : ruleset.render = .ok text) :
    ∃ slots, ruleset.Sound slots ∧
      ((Nft.parse text).isSome = true ↔ ruleset.users = [] ∨ ∃ slot < slots.count, slot ∉ ruleset.remote) := by
  simp only [render, bind_ok, pure_ok] at rendered
  obtain ⟨commands, made, rfl⟩ := rendered
  obtain ⟨slots, sound, rfl⟩ := commands_ok made
  refine ⟨slots, sound, ?_⟩
  have each : ∀ user ∈ ruleset.sortedUsers, Writable user := by
    intro user listed
    have known := mem_sortedUsers.mp listed
    exact ⟨sound.safe user known, sound.subnets user known⟩
  have named : IsWord "bento".toList := ⟨by decide, by decide⟩
  have output := outputChain_proper each
  have input := inputChain_proper each
  have postrouting := postroutingChain_proper each sound.short
  have forward : (ruleset.written slots ruleset.sortedUsers).Fits := written_fits each sound.short
  have fits : ∀ command ∈ ruleset.table slots, command.Fits := by
    unfold table tableOf
    simp only [forall_mem_cons, Command.Fits]
    refine ⟨by decide, by decide, named, named, ⟨named, output.1, input.1, forward, postrouting.1, ?_⟩, ?_⟩
    all_goals simp
  have whole : (ruleset.table slots).all Command.full = (ruleset.written slots ruleset.sortedUsers).full := by
    unfold table tableOf
    simp only [all_cons, all_nil, Command.full, output.2, input.2, postrouting.2, Bool.true_and, Bool.and_true]
  have nobody : ruleset.sortedUsers = [] ↔ ruleset.users = [] := by
    simp only [eq_nil_iff_forall_not_mem, mem_sortedUsers]
  rw [parse_scriptText fits, whole, ← nobody, ← written_full each sound.short]
  split <;> simp_all

end Ruleset

end Bento.Network
