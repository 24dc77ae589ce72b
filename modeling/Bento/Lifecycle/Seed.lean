import Bento.Cloudinit.Seed
import Bento.Network.Subnet

/-! The seed of a new instance: its identity, its place in the network and its keys, each as
the text that cloud-init gets. -/

namespace Bento.Lifecycle
open Library Library.Decimal Library.Results Http Network Cloudinit List

def randomUuid (bytes : Fin 16 → UInt8) : Text :=
  List.intercalate ['-'] ([[bytes 0, bytes 1, bytes 2, bytes 3], [bytes 4, bytes 5],
    [bytes 6 &&& 0x0f ||| 0x40, bytes 7],
    [bytes 8 &&& 0x3f ||| 0x80, bytes 9], [bytes 10, bytes 11, bytes 12, bytes 13, bytes 14, bytes 15]].map
      (·.flatMap hexByte))

def mac (sha256 : Text → Fin 32 → UInt8) (instanceUuid : Text) : Text :=
  let digest := sha256 ("bento-mac:".toList ++ instanceUuid)
  List.intercalate [':'] ([digest 0 &&& ~~~ 0x01 ||| 0x02, digest 1, digest 2, digest 3, digest 4,
    digest 5].map hexByte)

inductive IpAddr where
  | v4 (address : Ipv4Addr)
  | v6 (address : BitVec 128)

def IpAddr.text (ipv6 : Ipv6) : IpAddr → Text
  | .v4 address => Ipv4.text address
  | .v6 address => ipv6.format address

def defaultDns : List IpAddr := [.v4 0x01010101, .v4 0x09090909]

structure GuestNetwork where
  address : Ipv4Prefix
  gateway : Ipv4Addr
  dns : List IpAddr

def subnetGateway (subnet : Ipv4Prefix) : Ipv4Addr := (masked subnet).addr + 1

def GuestNetwork.new (subnet : Ipv4Prefix) (address : Ipv4Addr) (dns : Option (List IpAddr)) :
    Network.Result GuestNetwork := do
  requireSlash24 subnet
  refuseIf (!subnet.contains address) ("address " ++ showAddr address ++ " is outside subnet " ++ formatPrefix subnet)
  return ⟨⟨address, 24⟩, subnetGateway subnet, dns.getD defaultDns⟩

def guestUser : Text := "bento".toList

def seed (ipv6 : Ipv6) (uuid mac name : Text) (sshKeys : List Text) (guest : GuestNetwork) (installGuestAgent : Bool) :
    Option Seed :=
  guest.dns.head?.map fun dns =>
    { instanceId := uuid
      hostname := name
      userName := guestUser
      authorizedKeys := sshKeys
      mac
      addressCidr := Ipv4.text guest.address.addr ++ '/' :: Nat.toDigits 10 guest.address.bits
      gateway := Ipv4.text guest.gateway
      dns := dns.text ipv6
      installGuestAgent }

section
variable {char : Char}

theorem hexByte_table :
    ∀ value : Fin 256, hexPair (Nat.digitChar (value / 16)) (Nat.digitChar (value % 16)) = some value.val ∧
    ((Nat.digitChar (value / 16)).isAlphanum && (Nat.digitChar (value % 16)).isAlphanum) = true := by
  decide +kernel

theorem hexPair_hexByte (byte : UInt8) :
    hexPair (Nat.digitChar (byte.toNat / 16)) (Nat.digitChar (byte.toNat % 16)) = some byte.toNat :=
  (hexByte_table ⟨byte.toNat, byte.toNat_lt⟩).1

theorem isAlphanum_of_mem_hexByte {byte : UInt8} (listed : char ∈ hexByte byte) : char.isAlphanum = true := by
  have both := (hexByte_table ⟨byte.toNat, byte.toNat_lt⟩).2
  rw [Bool.and_eq_true] at both
  rcases List.mem_cons.mp listed with rfl | listed
  · exact both.1
  · cases List.mem_singleton.mp listed
    exact both.2

theorem parseHexPairs_hexBytes (bytes : List UInt8) :
    parseHexPairs (bytes.flatMap hexByte) = .ok (bytes.map UInt8.toNat) := by
  induction bytes with
  | nil => rfl
  | cons byte bytes ih =>
    simp only [flatMap_cons, hexByte, cons_append, nil_append, parseHexPairs, hexPair_hexByte, ih, Except.map, map_cons]

theorem not_mem_hexByte (other : char.isAlphanum = false) (byte : UInt8) : char ∉ hexByte byte := by
  intro listed
  rw [isAlphanum_of_mem_hexByte listed] at other
  cases other

theorem parseMac_pairs {first second third fourth : Char} (pair : fourth ≠ '.') (rest : Text) :
    parseMac (first :: second :: ':' :: third :: fourth :: rest) =
      parseGroups ':' [6, 8, 20] 2 (first :: second :: ':' :: third :: fourth :: rest) := by
  unfold parseMac
  split
  next same => exact absurd (Option.some.inj same) pair
  next => rfl
  next hyphen _ => cases hyphen
  next colon _ => exact (colon rfl).elim

theorem parseMac_hexBytes (bytes : List UInt8) (six : bytes.length = 6) :
    parseMac (List.intercalate [':'] (bytes.map hexByte)) = .ok (bytes.map UInt8.toNat) := by
  have groups : (List.intercalate [':'] (bytes.map hexByte)).splitOn ':' = bytes.map hexByte := by
    apply splitOn_intercalate
    · intro group listed
      obtain ⟨byte, -, rfl⟩ := List.mem_map.mp listed
      exact not_mem_hexByte (by decide) byte
    · intro none
      rw [map_eq_nil_iff] at none
      cases none ▸ six
  have parsed : parseGroups ':' [6, 8, 20] 2 (List.intercalate [':'] (bytes.map hexByte)) =
    .ok (bytes.map UInt8.toNat) := by
    simp [parseGroups, groups, six, hexByte, ← flatMap_def, parseHexPairs_hexBytes]
  match bytes, six, parsed with
  | [b0, b1, b2, b3, b4, b5], _, parsed =>
    rw [← parsed]
    apply parseMac_pairs
    intro dot
    have listed : '.' ∈ hexByte b1 := by simp [hexByte, dot]
    exact not_mem_hexByte (by decide) b1 listed

end

section
variable {ipv6 : Ipv6}

theorem addressBits_text (address : Ipv4Addr) : addressBits ipv6 (Ipv4.text address) = some 32 := by
  simp [addressBits, Ipv4.parse_text]

theorem IpAddr.parseAddr_text (address : IpAddr) : (parseAddr ipv6 (address.text ipv6)).isOk = true := by
  have known : (addressBits ipv6 (address.text ipv6)).isSome = true := by
    cases address with
    | v4 => simp [IpAddr.text, addressBits_text]
    | v6 =>
      unfold addressBits
      split
      · rfl
      · simp [IpAddr.text, ipv6.parse_format]
  simp [parseAddr, known, Except.isOk, Except.toBool]

theorem parsePrefix_text (address : Ipv4Addr) :
    (parsePrefix ipv6 (Ipv4.text address ++ '/' :: Nat.toDigits 10 24)).isOk = true := by
  have split : rsplitOnce '/' (Ipv4.text address ++ '/' :: Nat.toDigits 10 24) =
    some (Ipv4.text address, Nat.toDigits 10 24) :=
    rsplitOnce_append (by decide) _
  unfold parsePrefix
  rw [split]
  simp only [addressBits_text]
  decide

theorem isControl_of_isAlphanum {char : Char} (plain : char.isAlphanum = true) : isControl char = false := by
  have bounds : 48 ≤ char.val.toNat ∧ char.val.toNat ≤ 122 := by
    simp only [Char.isAlphanum, Char.isAlpha, Char.isUpper, Char.isLower, Char.isDigit, Bool.or_eq_true,
      Bool.and_eq_true, decide_eq_true_eq, ge_iff_le, UInt32.le_iff_toNat_le] at plain
    have letters : 'A'.val.toNat = 65 ∧ 'Z'.val.toNat = 90 ∧ 'a'.val.toNat = 97 ∧
      'z'.val.toNat = 122 ∧ '0'.val.toNat = 48 ∧
        '9'.val.toNat = 57 := by
      decide
    omega
  have ends : ' '.val.toNat = 32 ∧ '\x7f'.val.toNat = 127 := by decide
  simp only [isControl, Char.lt_def, UInt32.lt_iff_toNat_lt, decide_eq_false_iff_not, not_or, Nat.not_lt]
  refine ⟨by omega, ?_⟩
  rintro rfl
  omega

theorem singleLine_of_plain {text : Text} (plain : ∀ char ∈ text, char.isAlphanum = true ∨ char = '-') :
    SingleLine text ∧ ' ' ∉ text ∧ '\t' ∉ text := by
  refine ⟨?_, fun blank => ?_, fun blank => ?_⟩
  · rw [SingleLine, all_eq_true]
    intro char listed
    rcases plain char listed with alphanum | rfl
    · rw [isControl_of_isAlphanum alphanum]
      rfl
    · decide
  · exact absurd (plain _ blank) (by decide)
  · exact absurd (plain _ blank) (by decide)

theorem validName_plain {name : Text} (valid : validName name = true) :
    ∀ char ∈ name, char.isAlphanum = true ∨ char = '-' := by
  intro char listed
  refine (mem_validName valid listed).imp_left fun label => ?_
  have alternatives : char.isLower = true ∨ char.isDigit = true := by
    simpa [isLabelChar, Library.Decimal.isDigit, Char.isDigit, Char.le_def] using label
  rcases alternatives with lower | digit
  · simp [Char.isAlphanum, Char.isAlpha, lower]
  · simp [Char.isAlphanum, digit]

theorem mem_intercalate {char separator : Char} {parts : List Text}
    (listed : char ∈ List.intercalate [separator] parts) :
    char = separator ∨ ∃ part ∈ parts, char ∈ part := by
  induction parts with
  | nil => cases listed
  | cons part parts ih =>
    cases parts with
    | nil => exact .inr ⟨part, mem_cons_self, by simpa [List.intercalate] using listed⟩
    | cons other parts =>
      have unfolded : List.intercalate [separator] (part :: other :: parts) =
          part ++ separator :: List.intercalate [separator] (other :: parts) := by
        simp [List.intercalate, List.intersperse]
      rw [unfolded] at listed
      rcases List.mem_append.mp listed with first | rest
      · exact .inr ⟨part, mem_cons_self, first⟩
      · rcases List.mem_cons.mp rest with same | later
        · exact .inl same
        · exact (ih later).imp_right fun ⟨found, known, inside⟩ => ⟨found, mem_cons_of_mem part known, inside⟩

theorem randomUuid_plain (bytes : Fin 16 → UInt8) : ∀ char ∈ randomUuid bytes, char.isAlphanum = true ∨ char = '-' := by
  intro char listed
  rcases mem_intercalate listed with hyphen | ⟨part, group, inside⟩
  · exact .inr hyphen
  · obtain ⟨members, -, rfl⟩ := List.mem_map.mp group
    obtain ⟨byte, -, digit⟩ := List.mem_flatMap.mp inside
    exact .inl (isAlphanum_of_mem_hexByte digit)

theorem seed_sound {bytes : Fin 16 → UInt8} {sha256 : Text → Fin 32 → UInt8} {name : Text} {sshKeys : List Text}
    {guest : GuestNetwork} {subnet : Ipv4Prefix} {address : Ipv4Addr} {dns : Option (List IpAddr)}
    {installGuestAgent : Bool} {made : Seed} (named : validName name = true)
    (network : GuestNetwork.new subnet address dns = .ok guest)
    (built : seed ipv6 (randomUuid bytes) (mac sha256 (randomUuid bytes)) name sshKeys guest
    installGuestAgent = some made) :
    made.Sound ipv6 ∧ made.authorizedKeys = sshKeys := by
  obtain ⟨first, -, rfl⟩ := Option.map_eq_some_iff.mp built
  have bits : guest.address.bits = 24 := by
    simp only [GuestNetwork.new, check_ok, pure_ok] at network
    rw [← network.2.2]
  refine ⟨⟨?_, ?_, ?_, ?_, ?_, ?_, ?_⟩, rfl⟩
  · exact ⟨by simp [randomUuid, hexByte], (singleLine_of_plain (randomUuid_plain bytes)).1⟩
  · exact ⟨validName_ne_nil named, singleLine_of_plain (validName_plain named)⟩
  · show guestUser ≠ [] ∧ SingleLine guestUser ∧ ' ' ∉ guestUser ∧ '\t' ∉ guestUser
    decide
  · dsimp only [mac]
    rw [parseMac_hexBytes _ rfl]
    rfl
  · dsimp only
    rw [bits]
    exact parsePrefix_text guest.address.addr
  · exact IpAddr.parseAddr_text (.v4 guest.gateway)
  · exact IpAddr.parseAddr_text first

end

end Bento.Lifecycle
