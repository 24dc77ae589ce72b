import Bento.Library.Ipv4

/-! The part of the nftables language that packet policies are written in: matches on
interfaces, addresses, ports and connection states, rules with one verdict, and base
chains. A chain is read in order; the first rule that applies decides, and the policy
decides where none does. -/

namespace Bento.Library.Nft
open Decimal Ipv4

inductive ConnState where
  | new
  | established
  | related
deriving DecidableEq

inductive IcmpType where
  | echoRequest
  | destinationUnreachable
  | timeExceeded
deriving DecidableEq

inductive Transport where
  | tcp (dport : UInt16)
  | icmp (type : IcmpType)
  | other

structure Packet where
  iif : Text
  oif : Text
  saddr : Addr
  daddr : Addr
  transport : Transport
  state : ConnState

inductive Operand (α : Type) where
  | single (item : α)
  | set (items : List α)
deriving DecidableEq

def Operand.items {α : Type} : Operand α → List α
  | .single item => [item]
  | .set items => items

inductive Cidr where
  | host (address : Addr)
  | net (address : Addr) (bits : Nat)
deriving DecidableEq

def Cidr.covers (address : Addr) : Cidr → Bool
  | .host own => address = own
  | .net own bits => agree bits address own

inductive Ports where
  | one (port : UInt16)
  | range (first last : UInt16)
deriving DecidableEq

def Ports.covers (port : UInt16) : Ports → Bool
  | .one own => port = own
  | .range first last => first ≤ port && port ≤ last

inductive Clause where
  | iifname (negated : Bool) (names : Operand Text)
  | oifname (negated : Bool) (names : Operand Text)
  | saddr (negated : Bool) (ranges : Operand Cidr)
  | daddr (negated : Bool) (ranges : Operand Cidr)
  | dport (ports : Operand Ports)
  | icmpType (types : Operand IcmpType)
  | ctState (states : List ConnState)
deriving DecidableEq

def Clause.holds (packet : Packet) : Clause → Bool
  | .iifname negated names => (packet.iif ∈ names.items : Bool) != negated
  | .oifname negated names => (packet.oif ∈ names.items : Bool) != negated
  | .saddr negated ranges => ranges.items.any (·.covers packet.saddr) != negated
  | .daddr negated ranges => ranges.items.any (·.covers packet.daddr) != negated
  | .dport ports => match packet.transport with
    | .tcp port => ports.items.any (·.covers port)
    | _ => false
  | .icmpType types => match packet.transport with
    | .icmp type => type ∈ types.items
    | _ => false
  | .ctState states => packet.state ∈ states

section
variable (packet : Packet) (negated : Bool)

@[simp] theorem items_single {α : Type} (item : α) : (Operand.single item).items = [item] := rfl

@[simp] theorem items_set {α : Type} (items : List α) : (Operand.set items).items = items := rfl

@[simp] theorem holds_iifname (names : Operand Text) :
    (Clause.iifname negated names).holds packet = ((packet.iif ∈ names.items : Bool) != negated) := rfl

@[simp] theorem holds_oifname (names : Operand Text) :
    (Clause.oifname negated names).holds packet = ((packet.oif ∈ names.items : Bool) != negated) := rfl

@[simp] theorem holds_saddr (ranges : Operand Cidr) :
    (Clause.saddr negated ranges).holds packet = (ranges.items.any (·.covers packet.saddr) != negated) := rfl

@[simp] theorem holds_daddr (ranges : Operand Cidr) :
    (Clause.daddr negated ranges).holds packet = (ranges.items.any (·.covers packet.daddr) != negated) := rfl

@[simp] theorem covers_host (address own : Addr) : (Cidr.host own).covers address = decide (address = own) := rfl

end

inductive Verdict where
  | accept
  | drop
  | masquerade
deriving DecidableEq

structure Rule where
  clauses : List Clause
  verdict : Verdict
deriving DecidableEq

def Rule.applies (packet : Packet) (rule : Rule) : Bool := rule.clauses.all (·.holds packet)

@[simp] theorem applies_mk (packet : Packet) (clauses : List Clause) (verdict : Verdict) :
    (Rule.mk clauses verdict).applies packet = clauses.all (·.holds packet) := rfl

inductive Hook where
  | output
  | input
  | forward
  | postrouting
deriving DecidableEq

inductive Kind where
  | filter
  | nat
deriving DecidableEq

inductive Priority where
  | filter
  | srcnat
deriving DecidableEq

inductive Policy where
  | accept
  | drop
deriving DecidableEq

structure Base where
  kind : Kind
  hook : Hook
  priority : Priority
  policy : Policy
deriving DecidableEq

inductive Item where
  | comment (text : Text)
  | rule (rule : Rule)
deriving DecidableEq

def Item.rule? : Item → Option Rule
  | .comment _ => none
  | .rule written => some written

structure Chain where
  name : Text
  base : Base
  body : List Item

def Chain.rules (chain : Chain) : List Rule := chain.body.filterMap Item.rule?

inductive Command where
  | comment (text : Text)
  | addTable (name : Text)
  | deleteTable (name : Text)
  | table (name : Text) (chains : List Chain)

def deciding (rules : List Rule) (packet : Packet) : Option Rule := rules.find? (·.applies packet)

def accepts (policy : Policy) (rules : List Rule) (packet : Packet) : Bool :=
  match deciding rules packet with
  | some rule => rule.verdict = .accept
  | none => policy = .accept

def passes (hook : Hook) (commands : List Command) (packet : Packet) : Bool :=
  commands.all fun
    | .table _ chains => chains.all fun chain => chain.base.hook ≠ hook || accepts chain.base.policy chain.rules packet
    | _ => true

def hooked (hook : Hook) (commands : List Command) : List Chain :=
  commands.flatMap fun
    | .table _ chains => chains.filter (·.base.hook = hook)
    | _ => []

section
variable {packet : Packet} {rules rest : List Rule} {rule : Rule} {policy : Policy}

theorem deciding_append : deciding (rules ++ rest) packet = (deciding rules packet).or (deciding rest packet) := by
  simp [deciding, List.find?_append]

theorem deciding_eq_none : deciding rules packet = none ↔ ∀ rule ∈ rules, rule.applies packet = false := by
  simp [deciding]

theorem deciding_some (found : deciding rules packet = some rule) : rule ∈ rules ∧ rule.applies packet = true := by
  unfold deciding at found
  exact ⟨List.mem_of_find?_eq_some found, by simpa using List.find?_some found⟩

theorem deciding_past (passed : ∀ rule ∈ rules, rule.applies packet = false) :
    deciding (rules ++ rest) packet = deciding rest packet := by
  rw [deciding_append, deciding_eq_none.mpr passed, Option.none_or]

theorem deciding_within (listed : rule ∈ rules) (applied : rule.applies packet = true) :
    ∃ first ∈ rules, deciding rules packet = some first := by
  cases found : deciding rules packet with
  | none =>
    rw [deciding_eq_none.mp found rule listed] at applied
    cases applied
  | some first => exact ⟨first, (deciding_some found).1, rfl⟩

theorem accepts_append (accepted : accepts policy (rules ++ rest) packet = true) :
    (∃ rule ∈ rules, rule.verdict = .accept ∧ rule.applies packet = true) ∨
      (∀ rule ∈ rules, rule.applies packet = false) ∧ accepts policy rest packet = true := by
  rw [accepts, deciding_append] at accepted
  cases found : deciding rules packet with
  | some rule =>
    obtain ⟨member, applied⟩ := deciding_some found
    rw [found] at accepted
    exact Or.inl ⟨rule, member, by simpa using accepted, applied⟩
  | none =>
    rw [found, Option.none_or] at accepted
    exact Or.inr ⟨deciding_eq_none.mp found, accepted⟩

theorem accepts_past_drops (drops : ∀ rule ∈ rules, rule.verdict = .drop)
    (accepted : accepts policy (rules ++ rest) packet = true) :
    (∀ rule ∈ rules, rule.applies packet = false) ∧ accepts policy rest packet = true := by
  cases accepts_append accepted with
  | inl early =>
    obtain ⟨rule, member, verdict, -⟩ := early
    rw [drops rule member] at verdict
    cases verdict
  | inr late => exact late

end

end Bento.Library.Nft
