import Bento.Http
import Bento.Library.Ipv4
import Bento.Library.Results

/-! The seed image of a new guest: what cloud-init is told of the instance, and the checks that
it must pass before it is written. -/

namespace Bento.Cloudinit
open Library Library.Decimal Library.Results Http

inductive Error where
  | invalid (message : Text)
deriving DecidableEq

structure Seed where
  instanceId : Text
  hostname : Text
  userName : Text
  authorizedKeys : List Text
  mac : Text
  addressCidr : Text
  gateway : Text
  dns : Text
  installGuestAgent : Bool

structure Ipv6 where
  format : BitVec 128 → Text
  parse : Text → Option (BitVec 128)
  parse_format : ∀ address, parse (format address) = some address

def isControl (char : Char) : Bool := char < ' ' ∨ char = '\x7f'

def singleLine (name value : Text) : Except Error Unit :=
  if value.any isControl then .error (.invalid (name ++ " contains a control character".toList)) else .ok ()

section
variable (ipv6 : Ipv6)

def addressBits (text : Text) : Option Nat :=
  if (Ipv4.parse text).isSome then some 32 else if (ipv6.parse text).isSome then some 128 else none

def parsePrefix (value : Text) : Except Text Unit := do
  match rsplitOnce '/' value with
  | none => throw "missing prefix length".toList
  | some (address, bits) =>
    match addressBits ipv6 address with
    | none => throw "invalid IP address".toList
    | some maxBits =>
      if bits = [] ∨ (1 < bits.length ∧ ¬ bits.head?.any fun char => '1' ≤ char ∧ char ≤ '9') ∨ ¬ bits.all isDigit then
        throw "invalid prefix length".toList
      else
        match (read 0 bits).filter (· ≤ 65535) with
        | none => throw "invalid prefix length".toList
        | some bits => if maxBits < bits then throw "prefix length out of range".toList else return ()

def parseAddr (value : Text) : Except Text Unit :=
  if (addressBits ipv6 value).isSome then .ok ()
  else
    match splitOnce '%' value with
    | none => .error "invalid IP address".toList
    | some (address, zone) =>
      if zone = [] ∨ (ipv6.parse address).isNone then .error "invalid IP address".toList else .ok ()

end

def hexDigit (char : Char) : Option Nat :=
  if isDigit char then some (char.toNat - '0'.toNat)
  else if 'a' ≤ char ∧ char ≤ 'f' then some (char.toNat - 'a'.toNat + 10)
  else if 'A' ≤ char ∧ char ≤ 'F' then some (char.toNat - 'A'.toNat + 10)
  else none

def hexPair (first second : Char) : Option Nat := do
  let high ← if first = '+' then some 0 else hexDigit first
  let low ← hexDigit second
  return high * 16 + low

def parseHexPairs : Text → Except Text (List Nat)
  | [] => .ok []
  | [_] => .error "invalid length".toList
  | first :: second :: rest =>
    match hexPair first second with
    | none => .error "invalid hexadecimal digit".toList
    | some byte => (parseHexPairs rest).map (byte :: ·)

def parseGroups (separator : Char) (counts : List Nat) (size : Nat) (value : Text) : Except Text (List Nat) :=
  let groups := value.splitOn separator
  if groups.length ∉ counts ∨ ∃ group ∈ groups, group.length ≠ size then .error "invalid format".toList
  else parseHexPairs groups.flatten

/-- The forms of hardware addresses: groups of four with dots, pairs with colons or hyphens,
or plain digits. What is not ASCII is refused in each of them. -/
def parseMac (value : Text) : Except Text (List Nat) :=
  match value[4]?, value[2]? with
  | some '.', _ => parseGroups '.' [3, 4, 10] 4 value
  | _, some ':' => parseGroups ':' [6, 8, 20] 2 value
  | _, some '-' => parseGroups '-' [6, 8, 20] 2 value
  | _, _ => if value.length ∉ [12, 16, 40] then .error "invalid format".toList else parseHexPairs value

section
variable (quote : Text → Text) (ipv6 : Ipv6)

def checkParsed {α : Type} (what hint value : Text) (parsed : Except Text α) : Except Error Unit :=
  match parsed with
  | .ok _ => .ok ()
  | .error reason => .error (.invalid
    ("invalid ".toList ++ what ++ [' '] ++ quote value ++ hint ++ ": ".toList ++ reason))

def checkName (name value : Text) : Except Error Unit :=
  if value = [] then .error (.invalid (name ++ " is empty".toList)) else singleLine name value

def checkWord (name value : Text) : Except Error Unit :=
  if ' ' ∈ value ∨ '\t' ∈ value then .error (.invalid (name ++ [' '] ++ quote value ++ " contains whitespace".toList))
  else .ok ()

def checkKey (key : Text) : Except Error Unit :=
  if trim key = [] then .error (.invalid "empty authorized key".toList) else singleLine "authorized key".toList key

def Seed.validate (seed : Seed) : Except Error Unit := do
  checkName "instance id".toList seed.instanceId
  checkName "hostname".toList seed.hostname
  checkName "user name".toList seed.userName
  checkWord quote "hostname".toList seed.hostname
  checkWord quote "user name".toList seed.userName
  if seed.authorizedKeys = [] then
    throw (.invalid "no authorized keys; the instance would be unreachable".toList)
  else do
    forM seed.authorizedKeys checkKey
    checkParsed quote "MAC address".toList [] seed.mac (parseMac seed.mac)
    checkParsed quote "address".toList " (want address/prefix)".toList seed.addressCidr
      (parsePrefix ipv6 seed.addressCidr)
    checkParsed quote "gateway".toList [] seed.gateway (parseAddr ipv6 seed.gateway)
    checkParsed quote "DNS server".toList [] seed.dns (parseAddr ipv6 seed.dns)

def SingleLine (value : Text) : Prop := value.all (!isControl ·) = true

instance (value : Text) : Decidable (SingleLine value) := by
  unfold SingleLine
  infer_instance

theorem singleLine_ok {name value : Text} : singleLine name value = .ok () ↔ SingleLine value := by
  unfold singleLine SingleLine
  split
  next control => simpa using control
  next plain => simpa using plain

theorem checkName_ok {name value : Text} : checkName name value = .ok () ↔ value ≠ [] ∧ SingleLine value := by
  unfold checkName
  split
  next empty => simp [empty]
  next given => simp [given, singleLine_ok]

theorem checkKey_ok {key : Text} : checkKey key = .ok () ↔ trim key ≠ [] ∧ SingleLine key := by
  unfold checkKey
  split
  next empty => simp [empty]
  next given => simp [given, singleLine_ok]

theorem checkWord_ok {name value : Text} : checkWord quote name value = .ok () ↔ ' ' ∉ value ∧ '\t' ∉ value := by
  unfold checkWord
  split
  next blank => simpa [← not_or] using blank
  next plain => simpa [← not_or] using plain

theorem checkParsed_ok {α : Type} {what hint value : Text} {parsed : Except Text α} :
    checkParsed quote what hint value parsed = .ok () ↔ parsed.isOk = true := by
  cases parsed <;> simp [checkParsed, Except.isOk, Except.toBool]

structure Seed.Sound (seed : Seed) : Prop where
  instanceId : seed.instanceId ≠ [] ∧ SingleLine seed.instanceId
  hostname : seed.hostname ≠ [] ∧ SingleLine seed.hostname ∧ ' ' ∉ seed.hostname ∧ '\t' ∉ seed.hostname
  userName : seed.userName ≠ [] ∧ SingleLine seed.userName ∧ ' ' ∉ seed.userName ∧ '\t' ∉ seed.userName
  mac : (parseMac seed.mac).isOk = true
  addressCidr : (parsePrefix ipv6 seed.addressCidr).isOk = true
  gateway : (parseAddr ipv6 seed.gateway).isOk = true
  dns : (parseAddr ipv6 seed.dns).isOk = true

theorem Seed.validate_ok {seed : Seed} : seed.validate quote ipv6 = .ok () ↔
    seed.Sound ipv6 ∧ seed.authorizedKeys ≠ [] ∧ ∀ key ∈ seed.authorizedKeys, trim key ≠ [] ∧ SingleLine key := by
  unfold Seed.validate
  by_cases empty : seed.authorizedKeys = []
  · simp [empty, check_ok, throw, throwThe, MonadExceptOf.throw]
  · simp only [empty, check_ok, if_false, checkName_ok, checkWord_ok, checkParsed_ok, forM_ok, checkKey_ok, ne_eq,
      not_false_iff, true_and]
    constructor
    · rintro ⟨id, host, user, hostWord, userWord, keys, mac, cidr, gateway, dns⟩
      exact ⟨⟨id, ⟨host.1, host.2, hostWord⟩, ⟨user.1, user.2, userWord⟩, mac, cidr, gateway, dns⟩, keys⟩
    · rintro ⟨⟨id, host, user, mac, cidr, gateway, dns⟩, keys⟩
      exact ⟨id, ⟨host.1, host.2.1⟩, ⟨user.1, user.2.1⟩, host.2.2, user.2.2, keys, mac, cidr, gateway, dns⟩

end

end Bento.Cloudinit
