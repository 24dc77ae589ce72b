import Bento.Http

/-! The part of the configuration file that decides about domains and listeners, with its
defaults and its checks. -/

namespace Bento
open Library.Decimal

inductive TlsMode where
  | acme
  | off
deriving DecidableEq

structure AcmeConfig where
  cloudflareToken : Text
  email : Text
  directory : Text

/-- `mainPort` is the port of `listen.https`, or zero when it has none. -/
structure ListenConfig where
  tls : TlsMode
  mainPort : UInt16
  proxyPortMin : UInt16
  proxyPortMax : UInt16

structure Config where
  baseDomain : Text
  instanceDomain : Text
  reservedNames : List Text
  dbPath : Text
  listen : ListenConfig
  acme : AcmeConfig

namespace Config

def resolve (baseDomain : Text) (instanceDomain : Option Text) (reservedNames : List Text) (dbPath : Text)
    (listen : ListenConfig) (acme : AcmeConfig) : Config :=
  ⟨baseDomain, instanceDomain.getD baseDomain, reservedNames, dbPath, listen, acme⟩

def hasForeignChar (text : Text) : Bool := text.any (· ∈ ['*', '/', ' '])

def refuseUnless (fine : Prop) [Decidable fine] (message : Text) :
    Except Text Unit := if fine then .ok () else .error message

def validate (quote : Text → Text) (config : Config) : Except Text Unit := do
  refuseUnless (config.baseDomain ≠ []) "base_domain is required".toList
  refuseUnless (config.instanceDomain ≠ []) "instance_domain must not be empty".toList
  refuseUnless (¬ hasForeignChar config.baseDomain)
    ("base_domain must be a domain, got ".toList ++ quote config.baseDomain)
  refuseUnless (¬ hasForeignChar config.instanceDomain)
    ("instance_domain must be a domain, got ".toList ++ quote config.instanceDomain)
  refuseUnless (config.listen.proxyPortMin ≠ 0) "proxy_port_min must be at least 1".toList
  refuseUnless (config.listen.proxyPortMin ≤ config.listen.proxyPortMax)
    ("proxy_port_min ".toList ++ integer config.listen.proxyPortMin.toNat ++ " exceeds proxy_port_max ".toList ++
      integer config.listen.proxyPortMax.toNat)

def reserved (config : Config) : List Text :=
  match Http.labelUnder config.instanceDomain config.baseDomain with
  | some label =>
    if label ≠ [] ∧ '.' ∉ label ∧ label ∉ config.reservedNames then config.reservedNames ++ [label]
    else config.reservedNames
  | none => config.reservedNames

end Config

end Bento
