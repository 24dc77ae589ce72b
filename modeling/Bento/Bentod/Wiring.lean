import Bento.Auth.Redirect
import Bento.Config
import Bento.Proxy.Builder
import Bento.Tlscert.Manager

/-! How one configuration reaches the proxy, the certificate manager and the login service,
and what a start of the controller does for TLS. -/

namespace Bento
open Library.Decimal Tlscert

namespace Config

def authService (config : Config) (names : Text → Bool) : Auth.Service :=
  ((Auth.Service.new config.baseDomain).withInstanceDomain config.instanceDomain).withInstanceNames names

def acmeDir (config : Config) : Text := ((config.dbPath.rdropWhile (· = '/')).rdropWhile (· ≠ '/')) ++ "acme".toList

def tlscert (config : Config) : Tlscert.Config where
  instanceDomain := config.instanceDomain
  baseDomain := config.baseDomain
  email := config.acme.email
  provider := true
  storageDir := config.acmeDir
  directory := config.acme.directory
  propagationTimeout := 0

def proxyBuilder (config : Config) : ProxyBuilder :=
  { ProxyBuilder.new config.baseDomain with
    instanceDomain := some config.instanceDomain
    sessions := true
    control := true
    lastSeen := true }.withPorts config.listen.mainPort config.listen.proxyPortMin config.listen.proxyPortMax

end Config

inductive Termination where
  | elsewhere
  | here (manager : Manager)

def Termination.tlsConfig : Termination → Option ServerConfig
  | .elsewhere => none
  | .here manager => some manager.tlsConfig

def missingToken : Text :=
  ("acme.cloudflare_token is required: the wildcard certificate needs the DNS-01 challenge (SPEC 8). " ++
    "Set listen.tls = \"off\" when another proxy terminates TLS").toList

/-- The start of `proxyInner`: the certificate is loaded and renewed if it is due, once. The
files are those that the start replaces. -/
def startTls (quote : Text → Text) (production : Text) (config : Config) (dir : StorageDir) (now : Int)
    (acme : Manager → Manager.Acme) :
    List File × Except Error Termination :=
  if config.listen.tls = .off then ([], .ok .elsewhere)
  else if config.acme.cloudflareToken = [] then ([], .error (.invalid missingToken))
  else match Manager.new quote production config.tlscert dir with
    | .error error => ([], .error error)
    | .ok manager =>
      let (files, result) := manager.ensureCertificate dir now (acme manager)
      (files, result.map .here)

def servedAt (manager : Manager) (_instant : Int) : Option LoadedCertificate := manager.resolver

end Bento
