import Bento.Library.Url
import Bento.Proxy.Forward

/-! How the proxy routes a request: by the host it is for, the port it came in on, and what
the instance of that name lets through. -/

namespace Bento
open Library Library.Decimal Library.Programs Http

/-- `sessions`, `control` and `lastSeen` tell which of the optional parts are wired. -/
structure Proxy where
  baseDomain : Text
  instanceDomain : Text
  sessions : Bool
  control : Bool
  lastSeen : Bool
  loginUrl : Text
  mainPort : UInt16

namespace Proxy

def parsesU16 (text : Text) : Bool :=
  let digits := if text.head? = some '+' then text.tail else text
  digits ≠ [] && (read 0 digits).any (· ≤ 65535)

def rsplitColon (text : Text) : Option (Text × Text) :=
  if ':' ∈ text then some ((text.rdropWhile (· ≠ ':')).dropLast, text.rtakeWhile (· ≠ ':')) else none

def stripHostPort (host : Text) : Text :=
  if host.head? = some '[' then
    if ']' ∈ host then (host.takeWhile (· ≠ ']')).tail else host
  else match rsplitColon host with
    | some (name, port) => if ':' ∉ name ∧ parsesU16 port then name else host
    | none => host

section
variable {β : Type}

def requestHost (request : Request β) (serverName : Option Text) : Text :=
  normalHost (stripHostPort ((serverName.filter (· ≠ [])).getD (originalHost request)))

def instanceByName (name : Text) : Handling β (Except Unit (Option Instance)) := Program.ask (Call.instanceByName name)

def checkAccess (request : Request β) (uuid : Text) : Handling β Access := Program.ask (Call.access request uuid)

def touchLastSeen (uuid : Text) : Handling β (Except Unit Unit) := Program.ask (Call.touchLastSeen uuid)

def callControl (request : Request β) : Handling β (Response (Body β)) := Program.ask (Call.control request)

def redirectToLogin (proxy : Proxy) (request : Request β) : Response (Body β) :=
  let path := request.uri.pathAndQuery.getD ['/']
  let next := "https://".toList ++ originalHost request ++ path
  let location := proxy.loginUrl ++ "?next=".toList ++ Url.byteSerialize next
  { status := 302
    headers := match HeaderValue.fromStr location with
      | some value => Multimap.empty.insert .location value
      | none => .empty
    body := .text [] }

def access (proxy : Proxy) (request : Request β) (guest : Instance) (listenerPort : UInt16) : Handling β Access :=
  if guest.visibility = .privateOnly ∨ listenerPort ≠ proxy.mainPort then
    if proxy.sessions then checkAccess request guest.uuid else pure .unauthenticated
  else pure .granted

def recordLastSeen (proxy : Proxy) (guest : Instance) : Handling β Unit :=
  if proxy.lastSeen then do
    -- A recording that fails does not take the instance offline.
    let _ ← touchLastSeen guest.uuid
  else pure ()

def handleInstance (proxy : Proxy) (validAuthority : Text → Bool) (request : Request β) (guest : Instance)
    (listenerPort : UInt16) (remote : Text) (tls : Bool) : Handling β (Response (Body β)) :=
  if guest.visibility = .off then return notFound
  else do
    match ← proxy.access request guest listenerPort with
    | .unauthenticated => return proxy.redirectToLogin request
    | .forbidden => return notFound
    | .granted =>
      let targetPort := if listenerPort = proxy.mainPort then guest.effectiveHttpPort else listenerPort
      if guest.state ≠ .running then return unavailable guest
      else do
        proxy.recordLastSeen guest
        forward validAuthority request guest targetPort remote tls

/-- The base domain comes first: it may itself be a name under the instance domain. -/
def handleConnection (proxy : Proxy) (validAuthority : Text → Bool) (request : Request β) (listenerPort : UInt16)
    (remote : Text) (serverName : Option Text) (tls : Bool) : Handling β (Response (Body β)) :=
  let host := requestHost request serverName
  if host = proxy.baseDomain then
    if listenerPort = proxy.mainPort ∧ proxy.control then callControl request else return notFound
  else match labelUnder proxy.instanceDomain host with
    | none => return notFound
    | some name =>
      if name = [] ∨ '.' ∈ name then return notFound
      else do
        match ← instanceByName name with
        | .ok (some guest) => proxy.handleInstance validAuthority request guest listenerPort remote tls
        | .ok none => return notFound
        | .error _ => return internalError

end

end Proxy

end Bento
