import Bento.Http
import Bento.Library.Results

/-! The wildcard certificate: which names it is for, how it is loaded from its directory, and
when it is issued again. A file is replaced as a whole, and an issuance is the list of files
it replaces, in order. -/

namespace Bento.Tlscert
open Library.Decimal Library.Results Http

def second : Int := 1000000000

def day : Int := 24 * 60 * 60 * second

def renewBefore : Int := 30 * day

def defaultPropagationTimeout : Int := 2 * 60 * second

structure Config where
  instanceDomain : Text
  baseDomain : Text
  email : Text
  provider : Bool
  storageDir : Text
  directory : Text
  propagationTimeout : Int

inductive Error where
  | invalid (message : Text)
  | certificate (message : Text)
  | unloadable
  | acme (message : Text)
  | provider (message : Text)
  | cleanup (message : Text)

/-- What an error says. `rustls` is what that library says of a key that is not the
certificate's. -/
def Error.text (rustls : Text) : Error → Text
  | .invalid message => message
  | .certificate message => "tlscert: certificate: ".toList ++ message
  | .unloadable => "tlscert: certificate: load certificate and private key: ".toList ++ rustls
  | .acme message => "tlscert: ACME: ".toList ++ message
  | .provider message => "tlscert: DNS provider: ".toList ++ message
  | .cleanup message => "tlscert: DNS cleanup failed: ".toList ++ message

def wildcard (domain : Text) : Text := '*' :: '.' :: domain

/-- The names of the certificate. A wildcard covers one label, so a base domain that is not
directly under the instance domain gets its own. -/
def domains (baseDomain instanceDomain : Text) : List Text :=
  let subjects := [baseDomain, wildcard instanceDomain]
  let nested := (labelUnder instanceDomain baseDomain).any fun label => label ≠ [] ∧ '.' ∉ label
  if nested ∨ wildcard baseDomain ∈ subjects then subjects else subjects ++ [wildcard baseDomain]

theorem wildcard_mem_domains (baseDomain instanceDomain : Text) :
    wildcard instanceDomain ∈ domains baseDomain instanceDomain := by
  unfold domains
  dsimp only
  split
  · simp
  · simp

def covers (subject host : Text) : Bool :=
  host = subject ||
    match subject with
    | '*' :: '.' :: domain => (labelUnder domain host).any fun label => label ≠ [] ∧ '.' ∉ label
    | _ => false

structure Certificate where
  names : List Text
  notAfter : Int
  key : Nat

structure LoadedCertificate where
  certificate : Certificate
  privateKey : Nat
  fits : certificate.key = privateKey

def parseCertificate (certificate : Certificate) (privateKey : Nat) : Except Error LoadedCertificate :=
  if fits : certificate.key = privateKey then .ok ⟨certificate, privateKey, fits⟩
  else .error .unloadable

inductive File where
  | account (directory : Text)
  | certificate (certificate : Certificate)
  | privateKey (key : Nat)

structure StorageDir where
  account : Option Text
  certificate : Option Certificate
  privateKey : Option Nat

namespace StorageDir

def empty : StorageDir := ⟨none, none, none⟩

def write (dir : StorageDir) : File → StorageDir
  | .account directory => { dir with account := some directory }
  | .certificate certificate => { dir with certificate := some certificate }
  | .privateKey key => { dir with privateKey := some key }

def writeAll (dir : StorageDir) (files : List File) : StorageDir := files.foldl write dir

def loadCertificate (dir : StorageDir) : Except Error (Option LoadedCertificate) :=
  match dir.certificate, dir.privateKey with
  | none, none => .ok none
  | some certificate, some privateKey => (parseCertificate certificate privateKey).map some
  | _, _ => .error (.certificate "stored certificate and private key are incomplete".toList)

end StorageDir

structure Manager where
  baseDomain : Text
  domains : List Text
  email : Text
  directory : Text
  propagationTimeout : Int
  resolver : Option LoadedCertificate
  expiresAt : Option Int

structure ServerConfig where
  resolver : Option LoadedCertificate
  alpnProtocols : List Text

def h2 : Text := "h2".toList

def http11 : Text := "http/1.1".toList

def makeTlsConfig (resolver : Option LoadedCertificate) : ServerConfig := ⟨resolver, [h2, http11]⟩

def Manager.tlsConfig (manager : Manager) : ServerConfig := makeTlsConfig manager.resolver

def isBare (domain : Text) : Bool := !domain.any (· ∈ ['*', '/', ' '])

def checkBase (quote : Text → Text) (config : Config) : Except Error Text :=
  let baseDomain := normalHost config.baseDomain
  if baseDomain = [] then .error (.invalid "tlscert: base domain is empty".toList)
  else if ¬ isBare baseDomain then
    .error (.invalid ("tlscert: base domain ".toList ++ quote config.baseDomain ++
      " must be a bare domain, not a wildcard or URL".toList))
  else if baseDomain.head? = some '.' then
    .error (.invalid ("tlscert: base domain ".toList ++ quote config.baseDomain ++ " starts with a dot".toList))
  else .ok baseDomain

def checkInstance (quote : Text → Text) (config : Config) (baseDomain : Text) : Except Error Text :=
  let domain := normalHost config.instanceDomain
  if domain = [] then .ok baseDomain
  else if ¬ isBare domain ∨ domain.head? = some '.' then
    .error (.invalid ("tlscert: instance domain ".toList ++ quote config.instanceDomain ++
      " must be a bare domain".toList))
  else .ok domain

section
variable {quote : Text → Text} {config : Config} {domain : Text}

theorem checkBase_ok : checkBase quote config = .ok domain ↔
    domain = normalHost config.baseDomain ∧ normalHost config.baseDomain ≠ [] ∧
    isBare (normalHost config.baseDomain) = true ∧ (normalHost config.baseDomain).head? ≠ some '.' := by
  unfold checkBase
  dsimp only
  split
  next empty => simp [empty]
  next given =>
    split
    next foreign => simp [foreign]
    next bare =>
      split
      next dot => simp [dot]
      next plain => simpa [given, not_not.mp bare, plain] using eq_comm

theorem checkInstance_ok {baseDomain : Text} : checkInstance quote config baseDomain = .ok domain ↔
    normalHost config.instanceDomain = [] ∧ domain = baseDomain ∨ normalHost config.instanceDomain ≠ [] ∧
      isBare (normalHost config.instanceDomain) = true ∧ (normalHost config.instanceDomain).head? ≠ some '.' ∧
      domain = normalHost config.instanceDomain := by
  unfold checkInstance
  dsimp only
  split
  next empty => simpa [empty] using eq_comm
  next given =>
    split
    next refused =>
      rcases refused with foreign | dot
      · simp [given, foreign]
      · simp [given, dot]
    next fine =>
      rw [not_or, not_not] at fine
      simpa [given, fine.1, fine.2] using eq_comm

end

def checkSettings (config : Config) : Except Error Unit :=
  if ¬ config.provider then .error (.invalid "tlscert: DNS provider is nil".toList)
  else if config.storageDir = [] then .error (.invalid "tlscert: storage dir is empty".toList)
  else .ok ()

namespace Manager

def ofLoaded (production : Text) (config : Config) (baseDomain instanceDomain : Text)
    (loaded : Option LoadedCertificate) : Manager where
  baseDomain := baseDomain
  domains := Tlscert.domains baseDomain instanceDomain
  email := config.email
  directory := if config.directory = [] then production else config.directory
  propagationTimeout := if config.propagationTimeout = 0 then defaultPropagationTimeout else config.propagationTimeout
  resolver := loaded
  expiresAt := loaded.map fun found => found.certificate.notAfter

def new (quote : Text → Text) (production : Text) (config : Config) (dir : StorageDir) : Except Error Manager := do
  let baseDomain ← checkBase quote config
  let instanceDomain ← checkInstance quote config baseDomain
  checkSettings config
  let loaded ← dir.loadCertificate
  return ofLoaded production config baseDomain instanceDomain loaded

theorem new_ok {quote : Text → Text} {production : Text} {config : Config} {dir : StorageDir} {manager : Manager} :
    new quote production config dir = .ok manager ↔
      ∃ baseDomain instanceDomain loaded, checkBase quote config = .ok baseDomain ∧
      checkInstance quote config baseDomain = .ok instanceDomain ∧ checkSettings config = .ok () ∧
        dir.loadCertificate = .ok loaded ∧
      ofLoaded production config baseDomain instanceDomain loaded = manager := by
  simp only [new, bind_ok, pure_ok]
  constructor
  · rintro ⟨baseDomain, base, instanceDomain, published, _, settings, loaded, loads, made⟩
    exact ⟨baseDomain, instanceDomain, loaded, base, published, settings, loads, made⟩
  · rintro ⟨baseDomain, instanceDomain, loaded, base, published, settings, loads, made⟩
    exact ⟨baseDomain, base, instanceDomain, published, (), settings, loaded, loads, made⟩

theorem new_domains {quote : Text → Text} {production : Text} {config : Config} {dir : StorageDir} {manager : Manager}
    (made : new quote production config dir = .ok manager) :
    manager.baseDomain = normalHost config.baseDomain ∧ isBare manager.baseDomain = true ∧
      manager.domains = Tlscert.domains manager.baseDomain
        (if normalHost config.instanceDomain = [] then manager.baseDomain else normalHost config.instanceDomain) := by
  obtain ⟨base, published, loaded, checked, found, -, -, rfl⟩ := new_ok.mp made
  obtain ⟨rfl, -, bare, -⟩ := checkBase_ok.mp checked
  refine ⟨rfl, bare, congrArg (Tlscert.domains _) ?_⟩
  rcases checkInstance_ok.mp found with ⟨empty, same⟩ | ⟨given, -, -, same⟩
  · rw [if_pos empty]
    exact same
  · rw [if_neg given]
    exact same

def renewalDelay (manager : Manager) (now : Int) : Option Nat :=
  manager.expiresAt.map fun expiry => (expiry - renewBefore - now).toNat

structure Acme where
  account : Except Error Unit
  order : Except Error (Certificate × Nat)

def issue (manager : Manager) (dir : StorageDir) (acme : Acme) : List File × Except Error (Certificate × Nat) :=
  match dir.account with
  | some directory =>
    if directory = manager.directory then ([], acme.order)
    else ([], .error (.certificate
      ("stored ACME account uses a different directory than ".toList ++ manager.directory)))
  | none =>
    match acme.account with
    | .ok () => ([.account manager.directory], acme.order)
    | .error error => ([], .error error)

def ensureCertificate (manager : Manager) (dir : StorageDir) (now : Int) (acme : Acme) :
    List File × Except Error Manager :=
  if (manager.renewalDelay now).any (· ≠ 0) then ([], .ok manager)
  else
    match manager.issue dir acme with
    | (files, .error error) => (files, .error error)
    | (files, .ok (certificate, privateKey)) =>
      match parseCertificate certificate privateKey with
      | .error error => (files, .error error)
      | .ok loaded =>
        (files ++ [.privateKey privateKey, .certificate certificate],
          .ok { manager with resolver := some loaded, expiresAt := some certificate.notAfter })

end Manager

end Bento.Tlscert
