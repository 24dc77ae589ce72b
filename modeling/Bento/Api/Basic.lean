import Bento.Auth.Session
import Bento.Library.Programs
import Bento.Types

/-! What the routers of the control plane stand on. The store, the lifecycle, the image
administration and the pairings are behind interfaces, so a handler is a program that asks
them; what it decodes from a request and what it answers are here too. -/

namespace Bento.Api
open Library.Decimal Library.Programs Http Auth

structure Instance where
  uuid : Text
  name : Text
  ownerId : Int
  vcpu : UInt32
  memoryMib : UInt64
  diskGib : UInt64
  nested : Bool
  httpPort : UInt16
  visibility : Visibility

structure Pairing where
  id : Int
  fingerprint : Text
  linkedUserId : Option Int
  expiresAt : Int

structure CreateSpec where
  name : Text
  image : Text
  vcpu : UInt32
  memoryMib : UInt64
  diskGib : UInt64
  nested : Bool
  ksm : Bool
deriving DecidableEq

structure ResizeSpec where
  vcpu : UInt32
  memoryMib : UInt64
  diskGib : UInt64
  nested : Bool
deriving DecidableEq

inductive Action where
  | start
  | stop
  | restart
deriving DecidableEq

/-- What an interface answers when it fails. `conflict` is a deployment without room, and a
text is what the failure displays. -/
inductive Failure where
  | notFound
  | nameTaken
  | sshKeyTaken
  | conflict (text : Text)
  | nameCooldown (name : Text) (seconds : Nat) (text : Text)
  | status (status : Nat) (message : Text)
  | other (message : Text)

def cooldownText (seconds : Nat) : Text :=
  if 3600 ≤ seconds then integer ((seconds + 3599) / 3600 : Nat) ++ " h".toList
  else if 60 ≤ seconds then integer ((seconds + 59) / 60 : Nat) ++ " min".toList
  else integer seconds ++ " s".toList

def errorParts : Failure → Nat × Text
  | .notFound => (404, "not found".toList)
  | .nameTaken => (409, "that name is taken".toList)
  | .sshKeyTaken => (409, "that SSH key is already registered".toList)
  | .conflict text => (409, text)
  | .nameCooldown name seconds _ =>
    (409, "the name ".toList ++ name ++ " was released by another user and is in cooldown for about ".toList ++
      cooldownText seconds ++ " more".toList)
  | .status status message => (status, message)
  | .other message => (500, message)

inductive Read where
  | session (id : Text)
  | token (plaintext : Text)
  | userById (id : Int)
  | userByName (name : Text)
  | instanceByUuid (uuid : Text)
  | sharesFor (uuid : Text)
  | loginUser (id : Int)
  | pairingByTokenHash (tokenHash : Text)

inductive Write where
  | addSshKey (userId : Int) (publicKey fingerprint comment : Text)
  | deleteSshKey (userId keyId : Int)
  | addShare (uuid : Text) (userId : Int)
  | removeShare (uuid : Text) (userId : Int)
  | addOciImage (name reference : Text)
  | linkPairing (id userId : Int)
  | create (owner : User) (spec : CreateSpec)
  | delete (uuid : Text)
  | act (action : Action) (uuid : Text)
  | rename (uuid newName : Text)
  | resize (uuid : Text) (spec : ResizeSpec)
  | setHttpPort (uuid : Text) (port : UInt16)
  | setVisibility (uuid : Text) (visibility : Visibility)

inductive Call where
  | read (query : Read)
  | write (change : Write)

abbrev Read.Answer : Read → Type
  | .session _ => Option Session
  | .token _ => Except Unit Int
  | .userById _ => Except Failure User
  | .userByName _ => Except Failure User
  | .instanceByUuid _ => Except Failure Instance
  | .sharesFor _ => Except Failure (List Int)
  | .loginUser _ => Except Unit (Option User)
  | .pairingByTokenHash _ => Except Unit (Option Pairing)

abbrev Write.Answer : Write → Type
  | .addSshKey .. => Except Failure Int
  | .linkPairing .. => Except Unit Bool
  | .create .. => Except Failure Instance
  | _ => Except Failure Unit

abbrev Call.Answer : Call → Type
  | .read query => query.Answer
  | .write change => change.Answer

abbrev Handling := Program Call.Answer

def ask (query : Read) : Handling query.Answer := Program.ask (Call.read query)

def perform (change : Write) : Handling change.Answer := Program.ask (Call.write change)

inductive Method where
  | post
  | put
  | delete
deriving DecidableEq

structure Incoming where
  method : Method
  path : List String
  headers : HeaderMap
  body : Text

def origin : HeaderName := ⟨"origin".toList, by decide⟩

def Incoming.origin (request : Incoming) : Option Text := (request.headers.get Api.origin).bind HeaderValue.toStr

structure Gib where
  belowEighth : Bool
  mib : UInt64

structure CreateRequest where
  name : Text
  image : Text
  vcpu : UInt32
  memoryMib : UInt64
  diskGib : UInt64
  nested : Bool
  ksm : Option Bool

structure ResizeRequest where
  vcpu : UInt32
  memoryMib : UInt64
  diskGib : UInt64
  nested : Option Bool

structure AddImageRequest where
  name : Text
  reference : Text

structure AddSshKeyRequest where
  publicKey : Text
  comment : Text

structure NewForm where
  name : Text
  image : Text
  vcpu : UInt32
  memoryGib : Gib
  diskGib : UInt64
  isPublic : Option Text
  ksm : Option Text
  nested : Option Text

structure SettingsForm where
  name : Text
  vcpu : UInt32
  memoryGib : Gib
  diskGib : UInt64
  nested : Option Text
  isPublic : Option Text
  httpPort : UInt16

structure ShareForm where
  user : Text
  userText : Text

/-- How bodies are decoded, each with the reason why it is not. Forms are refused before the
handler runs, with a status; a JSON body of one field is that field. -/
structure Decoders where
  createRequest : Text → Except Text CreateRequest
  renameRequest : Text → Except Text Text
  resizeRequest : Text → Except Text ResizeRequest
  portRequest : Text → Except Text UInt16
  visibilityRequest : Text → Except Text Text
  shareRequest : Text → Except Text Text
  addImageRequest : Text → Except Text AddImageRequest
  addSshKeyRequest : Text → Except Text AddSshKeyRequest
  newForm : HeaderMap → Text → Except (Nat × Text) NewForm
  settingsForm : HeaderMap → Text → Except (Nat × Text) SettingsForm
  shareForm : HeaderMap → Text → Except (Nat × Text) ShareForm
  deleteForm : HeaderMap → Text → Except (Nat × Text) Text
  imageForm : HeaderMap → Text → Except (Nat × Text) AddImageRequest
  keyForm : HeaderMap → Text → Except (Nat × Text) AddSshKeyRequest

structure PublicKey where
  comment : Text
  fingerprint : Text

/-- What the routers are configured with. `quote` is how a message quotes a text, and
`pairings` whether key linking is wired. -/
structure Site where
  baseDomain : Text
  reservedNames : List Text
  operator : Option (User → Bool)
  imageAdmin : Bool
  pairings : Bool
  now : Int
  quote : Text → Text
  hashToken : Text → Text
  fromOpenssh : Text → Option PublicKey
  decoders : Decoders

def Site.isOperator (site : Site) (user : User) : Bool := site.operator.any (· user)

inductive Json where
  | error (message : Text) (cooldownSeconds : Nat)
  | instanceRow (row : Instance)
  | action (action : Action) (uuid : Text)
  | share (user : Text)
  | image (name : Text)
  | sshKey (id : Int) (fingerprint comment publicKey : Text)

inductive View where
  | signIn
  | new
  | account
  | configuration
  | settings (uuid : Text)
  | error
  | linked
  | deadLink

inductive Reply where
  | json (status : Nat) (body : Json)
  | noContent
  | page (view : View) (status : Nat) (message : Option Text)
  | redirect (location : Text)
  | text (status : Nat) (message : Text)
  | gate
  | unrouted

def errorResponse (status : Nat) (message : String) : Reply := .json status (.error message.toList 0)

def mappedError : Failure → Reply
  | .nameCooldown _ seconds text => .json 409 (.error text seconds)
  | failure => .json (errorParts failure).1 (.error (errorParts failure).2 0)

def orReply {α : Type} (step : Handling (Except Reply α)) (next : α → Handling Reply) : Handling Reply := do
  match ← step with
  | .error reply => return reply
  | .ok value => next value

def badName : String :=
  "instance name must be a DNS label: lower-case letters, digits, and hyphens, up to 63 characters"

def reservedNameMessage (site : Site) (name : Text) : Text :=
  "the name ".toList ++ site.quote name ++ " is reserved".toList

def sessionFromHeaders (headers : HeaderMap) : Handling (Option Session) :=
  match cookieValue headers sessionCookieName with
  | none => return none
  | some id => ask (.session id)

/-- `Authenticator::user_from_headers`: the session first, and a token only without one. -/
def userFromHeaders (headers : HeaderMap) : Handling (Option User) := do
  match ← sessionFromHeaders headers with
  | some session => return (← ask (.userById session.userId)).toOption
  | none =>
    match bearerToken headers with
    | none => return none
    | some plaintext =>
      match ← ask (.token plaintext) with
      | .error _ => return none
      | .ok userId => return (← ask (.userById userId)).toOption

def canReadInstance (row : Instance) (user : User) : Handling Bool := do
  if row.ownerId = user.id then return true
  match ← ask (.sharesFor row.uuid) with
  | .ok shares => return user.id ∈ shares
  | .error _ => return false

def parseI64 (text : Text) : Option Int :=
  match text with
  | '-' :: digits => if digits = [] then none else ((read 0 digits).filter (· ≤ 2 ^ 63)).map fun value => -value
  | _ => (unsigned (2 ^ 63 - 1) text).map Int.ofNat

end Bento.Api
