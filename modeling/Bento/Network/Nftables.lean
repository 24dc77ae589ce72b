import Bento.Library.NftText
import Bento.Network.Slot
import Mathlib.Data.List.Dedup
import Mathlib.Data.List.ReduceOption
import Mathlib.Data.List.Sort

/-! The one nftables table of a machine. Its chains are built here as rules; the text
that is given to nft is the text of those rules. -/

namespace Bento.Network
open Library.Decimal Library.Nft

structure PortRange where
  first : UInt16
  last : UInt16
deriving DecidableEq

structure PublishedInstance where
  address : Ipv4Addr
  httpPorts : List UInt16
  portRanges : List PortRange
deriving DecidableEq

structure UserNetwork where
  name : Text
  bridge : Text
  subnet : Ipv4Prefix
deriving DecidableEq

structure FirewallUser where
  network : UserNetwork
  instances : List PublishedInstance

structure Ruleset where
  privateRange : Ipv4Prefix
  users : List FirewallUser
  underlayPeers : Bool
  frontends : List Ipv4Addr
  runnerPrefix : UInt8
  remoteSlots : List UInt32
  management : List Ipv4Addr

def sortedSet {α : Type} [DecidableEq α] (before : α → α → Prop) [DecidableRel before] (items : List α) : List α :=
  items.dedup.insertionSort before

@[simp] theorem mem_sortedSet {α : Type} [DecidableEq α] {before : α → α → Prop} [DecidableRel before]
    {items : List α} {item : α} : item ∈ sortedSet before items ↔ item ∈ items := by
  simp [sortedSet]

def safeInterfaceName (name : Text) : Bool :=
  1 ≤ name.length && name.length ≤ 15 && name.all fun char => char.isAlphanum || char = '_' || char = '.' || char = '-'

def localPrefixes (slots : Slots) (subnet : Ipv4Prefix) (remote : List Nat) : Result (List Ipv4Prefix) :=
  if remote = [] then .ok [masked subnet]
  else ((List.range slots.count).filter (· ∉ remote)).mapM (slots.prefixOf subnet)

def remotePrefixes (slots : Slots) (subnet : Ipv4Prefix) (remote : List Nat) : Result (List Ipv4Prefix) :=
  remote.mapM (slots.prefixOf subnet)

def cidr (range : Ipv4Prefix) : Cidr := .net range.addr range.bits

def prefixSet : List Ipv4Prefix → Operand Cidr
  | [one] => .single (cidr one)
  | prefixes => .set (prefixes.map cidr)

def addrSet (addresses : List Ipv4Addr) : Operand Cidr := .set (addresses.map .host)

def PortRange.before (range other : PortRange) : Prop :=
  range.first < other.first ∨ range.first = other.first ∧ range.last ≤ other.last

instance : DecidableRel PortRange.before := fun _ _ => inferInstanceAs (Decidable (_ ∨ _))

def portSet (httpPorts : List UInt16) (ranges : List PortRange) : Operand Ports :=
  .set ((sortedSet (· ≤ ·) (22 :: httpPorts)).map .one ++
    (sortedSet PortRange.before ranges).map fun range => .range range.first range.last)

def established : Rule := ⟨[.ctState [.established, .related]], .accept⟩

namespace FirewallUser

def bridge (user : FirewallUser) : Text := user.network.bridge

def enters (user : FirewallUser) : Clause := .iifname false (.single user.bridge)

def leaves (user : FirewallUser) : Clause := .oifname false (.single user.bridge)

def outputRules (user : FirewallUser) : List Rule :=
  (user.instances.map fun own =>
    ⟨[user.leaves, .daddr false (.single (.host own.address)), .dport (portSet own.httpPorts own.portRanges)],
      .accept⟩) ++
  [⟨[user.leaves], .drop⟩]

def inputRules (user : FirewallUser) : List Rule :=
  [⟨[user.enters, .icmpType (.set [.echoRequest, .destinationUnreachable, .timeExceeded])], .accept⟩,
   ⟨[user.enters, .dport (.set [.one 80, .one 443])], .accept⟩,
   ⟨[user.enters], .drop⟩]

def sourceRule (slots : Slots) (remote : List Nat) (user : FirewallUser) : Result Rule := do
  let own ← localPrefixes slots user.network.subnet remote
  return ⟨[user.enters, .saddr true (prefixSet own)], .drop⟩

def managementRule (management : List Ipv4Addr) (user : FirewallUser) : Rule :=
  ⟨[user.enters, .daddr false (addrSet management)], .drop⟩

def separationRules (users : List FirewallUser) (user : FirewallUser) : List Rule :=
  (users.filter (user.bridge ≠ ·.bridge)).map fun other => ⟨[user.enters, other.leaves], .drop⟩

def underlayRule (slots : Slots) (remote : List Nat) (bridges : List Text) (user : FirewallUser) :
    Result (Option Rule) := do
  let own ← localPrefixes slots user.network.subnet remote
  let far ← remotePrefixes slots user.network.subnet remote
  return if own = [] ∨ far = [] then none else
    some ⟨[.iifname true (.set bridges), .saddr false (prefixSet far), .daddr false (prefixSet own), user.leaves],
      .accept⟩

def frontendRules (frontends : List Ipv4Addr) (user : FirewallUser) : List Rule :=
  user.instances.flatMap fun own => frontends.map fun frontend =>
    ⟨[.saddr false (.single (.host frontend)), user.leaves, .daddr false (.single (.host own.address)),
      .dport (portSet own.httpPorts own.portRanges)], .accept⟩

def bridgeRule (user : FirewallUser) : Rule := ⟨[user.enters, user.leaves], .accept⟩

def slotRule (user : FirewallUser) : Rule :=
  ⟨[user.enters, .daddr false (.single (cidr user.network.subnet))], .accept⟩

def egressRule (privateRange : Ipv4Prefix) (user : FirewallUser) : Rule :=
  ⟨[user.enters, .daddr true (.single (cidr (masked privateRange)))], .accept⟩

def masqueradeRule (privateRange : Ipv4Prefix) (user : FirewallUser) : Rule :=
  ⟨[.saddr false (.single (cidr user.network.subnet)), .daddr true (.single (cidr (masked privateRange)))], .masquerade⟩

end FirewallUser

def quoted (name : Text) : String := "\"" ++ String.ofList name ++ "\""

def checkInstance (subnet : Ipv4Prefix) (own : PublishedInstance) : Result Unit := do
  refuseIf (!subnet.contains own.address)
    ("instance address " ++ showAddr own.address ++ " is outside subnet " ++ formatPrefix subnet)
  forM own.httpPorts fun port =>
    refuseIf (port = 0) ("invalid port " ++ toString port ++ " for instance " ++ showAddr own.address)
  forM own.portRanges fun range =>
    refuseIf (range.first < 1 || range.last < range.first)
      ("invalid port range " ++ toString range.first ++ "-" ++ toString range.last ++ " for instance " ++
        showAddr own.address)

def checkUsers : List Text → List FirewallUser → Result Unit
  | _, [] => return
  | seen, user :: users => do
    refuseIf (!safeInterfaceName user.bridge) ("unsafe bridge name " ++ quoted user.bridge)
    refuseIf (seen.contains user.bridge) ("duplicate bridge name " ++ quoted user.bridge)
    requireSlash24 user.network.subnet
    forM user.instances (checkInstance user.network.subnet)
    checkUsers (user.bridge :: seen) users

namespace Ruleset

def remark (text : String) : Item := .comment text.toList

def remote (ruleset : Ruleset) : List Nat := sortedSet (· ≤ ·) (ruleset.remoteSlots.map UInt32.toNat)

def managed (ruleset : Ruleset) : List Ipv4Addr := sortedSet (· ≤ ·) ruleset.management

def sortedUsers (ruleset : Ruleset) : List FirewallUser :=
  ruleset.users.insertionSort fun user other => ¬ other.bridge < user.bridge

def outputChain (users : List FirewallUser) : Chain where
  name := "output".toList
  base := ⟨.filter, .output, .filter, .accept⟩
  body := remark "rule 1: host to instance on port 22 and the published HTTP ports" ::
    (users.flatMap FirewallUser.outputRules).map .rule

def inputChain (users : List FirewallUser) : Chain where
  name := "input".toList
  base := ⟨.filter, .input, .filter, .accept⟩
  body := .rule established :: remark "rule 8: a guest cannot reach the host's own addresses" ::
    (users.flatMap FirewallUser.inputRules).map .rule

/-- The policy between interfaces. The guards against forged sources and management
addresses stand before every rule that lets a guest's packet through. -/
def forwardOf (ruleset : Ruleset) (users : List FirewallUser) (sources : List Rule) (underlay : List (Option Rule)) :
    Chain where
  name := "forward".toList
  base := ⟨.filter, .forward, .filter, .drop⟩
  body :=
    [.rule established, remark "rule 9: a guest uses only its own source address"] ++
    sources.map .rule ++
    (if ruleset.managed = [] then [] else
      remark "rule 10: a guest cannot reach a management address" ::
      users.map fun user => .rule (user.managementRule ruleset.managed)) ++
    remark "rule 3: drop traffic between the bridges of two different users" ::
    (users.flatMap (FirewallUser.separationRules users)).map .rule ++
    (if ruleset.underlayPeers then
      remark "rule 6: same user, different machines, arriving over the underlay" :: underlay.reduceOption.map .rule
    else []) ++
    (if ruleset.frontends = [] then [] else
      remark "rule 7: a frontend on another machine reaching an instance" ::
      (users.flatMap (FirewallUser.frontendRules ruleset.frontends)).map .rule) ++
    remark "rule 4: permit traffic within a user's bridge" ::
    users.map (fun user => .rule user.bridgeRule) ++
    (if ruleset.underlayPeers then
      remark "rule 2b: same user, different machines, leaving over the underlay" ::
      users.map fun user => .rule user.slotRule
    else []) ++
    remark "rule 2: permit instance egress to the internet" ::
    users.map fun user => .rule (user.egressRule ruleset.privateRange)

def forwardChain (ruleset : Ruleset) (slots : Slots) (users : List FirewallUser) : Result Chain := do
  let sources ← users.mapM (FirewallUser.sourceRule slots ruleset.remote)
  let underlay ← users.mapM (FirewallUser.underlayRule slots ruleset.remote (users.map FirewallUser.bridge))
  return ruleset.forwardOf users sources underlay

def postroutingChain (privateRange : Ipv4Prefix) (users : List FirewallUser) : Chain where
  name := "postrouting".toList
  base := ⟨.nat, .postrouting, .srcnat, .accept⟩
  body := remark "rule 5: masquerade instance egress behind the host address" ::
    users.map fun user => .rule (user.masqueradeRule privateRange)

def check (ruleset : Ruleset) : Result Slots := do
  refuseIf (32 < ruleset.privateRange.bits)
    ("ruleset private range " ++ formatPrefix ruleset.privateRange ++ " is not IPv4")
  let slots ← Slots.new ruleset.runnerPrefix
  forM ruleset.remoteSlots fun slot =>
    refuseIf (slots.count ≤ slot.toNat)
      ("remote slot " ++ toString slot ++ " does not exist at /" ++ toString ruleset.runnerPrefix)
  checkUsers [] ruleset.sortedUsers
  return slots

def tableOf (ruleset : Ruleset) (users : List FirewallUser) (forward : Chain) : List Command := [
  .comment "Bento nftables table. Bento owns every rule here; do not edit by hand (SPEC 6.3).".toList,
  .comment "The whole table is deleted and redefined in one transaction on every change.".toList,
  .addTable "bento".toList,
  .deleteTable "bento".toList,
  .table "bento".toList [outputChain users, inputChain users, forward, postroutingChain ruleset.privateRange users]]

def commands (ruleset : Ruleset) : Result (List Command) := do
  let slots ← ruleset.check
  let forward ← ruleset.forwardChain slots ruleset.sortedUsers
  return ruleset.tableOf ruleset.sortedUsers forward

def render (ruleset : Ruleset) : Result Text := do
  return scriptText (← ruleset.commands)

end Ruleset

end Bento.Network
