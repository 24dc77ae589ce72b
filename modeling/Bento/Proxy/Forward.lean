import Bento.Http
import Bento.Library.Programs
import Bento.Types

/-! How the proxy passes a request on to an instance and the answer back. Headers that
belong to one connection stay on it, and what the client says about where a request came
from is replaced by what the proxy saw. -/

namespace Bento.Proxy
open Library Library.Decimal Library.Programs Http

structure Instance where
  uuid : Text
  name : Text
  state : PowerState
  address : Text
  httpPort : UInt16
  visibility : Visibility
deriving DecidableEq

def Instance.effectiveHttpPort (guest : Instance) : UInt16 := if guest.httpPort = 0 then 80 else guest.httpPort

inductive Access where
  | unauthenticated
  | forbidden
  | granted
deriving DecidableEq

inductive Body (β : Type) where
  | notFoundPage
  | unavailablePage (name : Text) (state : PowerState)
  | text (message : Text)
  | stream (content : β)

/-- Everything the proxy asks of others while it handles a request. A join copies two
upgraded connections into each other. -/
inductive Call (β : Type) where
  | instanceByName (name : Text)
  | access (request : Request β) (uuid : Text)
  | touchLastSeen (uuid : Text)
  | control (request : Request β)
  | send (request : Request β)
  | join

abbrev Call.Answer {β : Type} : Call β → Type
  | .instanceByName _ => Except Unit (Option Instance)
  | .access _ _ => Access
  | .touchLastSeen _ => Except Unit Unit
  | .control _ => Response (Body β)
  | .send _ => Except Unit (Response (Body β))
  | .join => Unit

abbrev Handling (β : Type) := Program (Call.Answer (β := β))

section
variable {β : Type}

def page (status : Nat) (body : Body β) (retry : Bool) : Response (Body β) :=
  let headers : HeaderMap := (Multimap.empty.insert .contentType .textHtml).insert
    .cacheControl ⟨"no-store".toList, by decide⟩
  { status, body, headers := if retry then headers.insert .retryAfter ⟨"5".toList, by decide⟩ else headers }

def notFound : Response (Body β) := page 404 .notFoundPage false

def unavailable (guest : Instance) : Response (Body β) := page 503 (.unavailablePage guest.name guest.state) true

def internalError : Response (Body β) where
  status := 500
  headers := (Multimap.empty.insert .contentType .textPlain).insert
    .xContentTypeOptions ⟨"nosniff".toList, by decide⟩
  body := .text "internal error\n".toList

def connectionTokens (headers : HeaderMap) : List Text :=
  (((headers.getAll .connection).filterMap HeaderValue.toStr).flatMap (List.splitOn ',')).map trim

def upgradeProtocol (headers : HeaderMap) : Option HeaderValue :=
  if (connectionTokens headers).any (lowercase · = "upgrade".toList) then headers.get .upgrade else none

def hopByHopHeaders : List HeaderName :=
  [.connection, .proxyConnection, .keepAlive, .proxyAuthenticate, .proxyAuthorization, .te, .trailer,
    .transferEncoding, .upgrade]

def removeHopByHopHeaders (headers : HeaderMap) : HeaderMap :=
  let connectionHeaders := (connectionTokens headers).filterMap HeaderName.fromBytes
  hopByHopHeaders.foldl Multimap.remove (connectionHeaders.foldl Multimap.remove headers)

def insertUpgrade (headers : HeaderMap) : Option HeaderValue → HeaderMap
  | some protocol => (headers.insert .connection ⟨"upgrade".toList, by decide⟩).insert .upgrade protocol
  | none => headers

def setForwardedFor (headers : HeaderMap) (remote : Text) : HeaderMap :=
  match HeaderValue.fromStr remote with
  | some value => headers.insert .xForwardedFor value
  | none => headers

def originalHost (request : Request β) : Text :=
  (((request.headers.get .host).bind HeaderValue.toStr).or request.uri.authority).getD []

def send (request : Request β) : Handling β (Except Unit (Response (Body β))) := Program.ask (Call.send request)

def join : Handling β Unit := Program.ask Call.join

/-- `prepare` runs after the headers of the connection are gone, so the client cannot name
away what it sets. -/
def sendUpgradable (request : Request β) (prepare : Request β → Request β) :
    Handling β (Except Unit (Response (Body β))) := do
  let requestedUpgrade := upgradeProtocol request.headers
  let headers := insertUpgrade (removeHopByHopHeaders request.headers) requestedUpgrade
  match ← send (prepare { request with headers }) with
  | .error error => return .error error
  | .ok response =>
    let headers := removeHopByHopHeaders response.headers
    if requestedUpgrade.isSome ∧ response.status = 101 ∧ upgradeProtocol response.headers = requestedUpgrade then do
      join
      return .ok { response with headers := insertUpgrade headers requestedUpgrade }
    else
      return .ok { response with headers }

def formatAuthority (address : Text) (port : UInt16) : Text :=
  let digits := Nat.toDigits 10 port.toNat
  if ':' ∈ address ∧ address.head? ≠ some '[' then '[' :: address ++ "]:".toList ++ digits
  else address ++ ':' :: digits

def prepareForward (uri : Uri) (original : Text) (remote : Text) (tls : Bool) (request : Request β) : Request β :=
  let headers := [.forwarded, .xForwardedFor, .xForwardedHost, .xForwardedProto].foldl Multimap.remove request.headers
  let headers := match HeaderValue.fromStr original with
    | some host => (headers.insert .host host).insert .xForwardedHost host
    | none => headers
  let proto : HeaderValue := if tls then ⟨"https".toList, by decide⟩ else ⟨"http".toList, by decide⟩
  let headers := setForwardedFor (headers.insert .xForwardedProto proto) remote
  { request with uri, headers }

/-- `validAuthority` is the URI library's reading of an authority, and `remote` the text of
the client's address. -/
def forward (validAuthority : Text → Bool) (request : Request β) (guest : Instance) (targetPort : UInt16)
    (remote : Text) (tls : Bool) : Handling β (Response (Body β)) := do
  let original := originalHost request
  let path := request.uri.pathAndQuery.getD ['/']
  let target := formatAuthority guest.address targetPort
  if validAuthority target then
    let uri : Uri := { scheme := some "http".toList, authority := some target, pathAndQuery := some path }
    match ← sendUpgradable request (prepareForward uri original remote tls) with
    | .ok response => return response
    | .error _ => return unavailable guest
  else return unavailable guest

end

end Bento.Proxy
