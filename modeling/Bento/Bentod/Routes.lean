import Bento.Api.Handlers
import Bento.Api.Pages

/-! Where the controller sends a request that may change something: to the JSON routes, to
the confirmation of a link, or through the gate to the pages. -/

namespace Bento.Auth
open Library.Decimal Http Api

inductive Resolved where
  | live (pairing : Pairing) (user : User)
  | dead (reason : String)
  | broken (status : Nat) (message : String)

def resolveLink (site : Site) (headers : HeaderMap) (token : Text) : Handling Resolved := do
  if ¬ site.pairings then return .broken 500 "linking is not wired"
  match ← Api.sessionFromHeaders headers with
  | none => return .broken 401 "sign in and open the link again"
  | some session =>
    match ← ask (.loginUser session.userId) with
    | .error _ => return .broken 500 "user lookup failed"
    | .ok none => return .broken 401 "this session has no account"
    | .ok (some user) =>
      match ← ask (.pairingByTokenHash (site.hashToken token)) with
      | .error _ => return .broken 500 "pairing lookup failed"
      | .ok none => return .dead "This link is not one Bento handed out, or it has been cleaned up."
      | .ok (some pairing) =>
        if pairing.linkedUserId.isSome then return .dead "This link has already been used."
        else if pairing.expiresAt ≤ site.now then
          return .dead "This link has expired. Connect over SSH again for a new one."
        else return .live pairing user

def linkConfirmResponse (site : Site) (headers : HeaderMap) (token : Text) : Handling Reply := do
  match ← resolveLink site headers token with
  | .dead reason => return .page .deadLink 410 (some reason.toList)
  | .broken status message => return .text status (message.toList ++ ['\n'])
  | .live pairing user =>
    match ← perform (.linkPairing pairing.id user.id) with
    | .ok true => return .page .linked 200 none
    | .ok false => return .page .deadLink 410 (some "This link was already used, or it ran out of time.".toList)
    | .error _ => return .text 500 "linking failed\n".toList

end Bento.Auth

namespace Bento
open Library.Decimal Http Api Auth

inductive ApiRoute where
  | createInstance
  | deleteInstance (uuid : Text)
  | action (kind : Action) (uuid : Text)
  | rename (uuid : Text)
  | resize (uuid : Text)
  | port (uuid : Text)
  | visibility (uuid : Text)
  | addShare (uuid : Text)
  | removeShare (uuid user : Text)
  | addImage
  | addSshKey
  | deleteSshKey (id : Text)
  | notAllowed
  | notFound

def ApiRoute.only (route : ApiRoute) (wanted method : Method) :
    ApiRoute := if method = wanted then route else .notAllowed

def apiRoute (method : Method) : List String → ApiRoute
  | ["whoami"] => .notAllowed
  | ["instances"] => ApiRoute.createInstance.only .post method
  | ["instances", uuid] => (ApiRoute.deleteInstance uuid.toList).only .delete method
  | ["instances", uuid, "start"] => (ApiRoute.action .start uuid.toList).only .post method
  | ["instances", uuid, "stop"] => (ApiRoute.action .stop uuid.toList).only .post method
  | ["instances", uuid, "restart"] => (ApiRoute.action .restart uuid.toList).only .post method
  | ["instances", uuid, "rename"] => (ApiRoute.rename uuid.toList).only .post method
  | ["instances", uuid, "resize"] => (ApiRoute.resize uuid.toList).only .post method
  | ["instances", uuid, "port"] => (ApiRoute.port uuid.toList).only .post method
  | ["instances", uuid, "visibility"] => (ApiRoute.visibility uuid.toList).only .post method
  | ["instances", uuid, "shares"] => (ApiRoute.addShare uuid.toList).only .post method
  | ["instances", uuid, "shares", user] => (ApiRoute.removeShare uuid.toList user.toList).only .delete method
  | ["images"] => ApiRoute.addImage.only .post method
  | ["ssh-keys"] => ApiRoute.addSshKey.only .post method
  | ["ssh-keys", id] => (ApiRoute.deleteSshKey id.toList).only .delete method
  | ["db.sqlite"] => .notAllowed
  | _ => .notFound

inductive PageRoute where
  | create
  | saveSettings (uuid : Text)
  | addShare (uuid : Text)
  | removeShare (uuid user : Text)
  | action (kind : Action) (uuid : Text)
  | delete (uuid : Text)
  | addImage
  | addKey
  | removeKey (id : Text)

def pageRoute : List String → Option PageRoute
  | ["new"] => some .create
  | ["vm", uuid, "settings"] => some (.saveSettings uuid.toList)
  | ["vm", uuid, "shares"] => some (.addShare uuid.toList)
  | ["vm", uuid, "shares", user, "remove"] => some (.removeShare uuid.toList user.toList)
  | ["vm", uuid, "start"] => some (.action .start uuid.toList)
  | ["vm", uuid, "stop"] => some (.action .stop uuid.toList)
  | ["vm", uuid, "restart"] => some (.action .restart uuid.toList)
  | ["vm", uuid, "delete"] => some (.delete uuid.toList)
  | ["settings", "images"] => some .addImage
  | ["settings", "account", "keys"] => some .addKey
  | ["settings", "account", "keys", id, "remove"] => some (.removeKey id.toList)
  | _ => none

def ApiRoute.handle (site : Site) (user : User) (request : Incoming) : ApiRoute → Handling Reply
  | .createInstance => Api.createInstance site user request.body
  | .deleteInstance uuid => Api.deleteInstance user uuid
  | .action kind uuid => lifecycleAction user kind uuid
  | .rename uuid => renameInstance site user uuid request.body
  | .resize uuid => resizeInstance site user uuid request.body
  | .port uuid => setPort site user uuid request.body
  | .visibility uuid => setVisibility site user uuid request.body
  | .addShare uuid => Api.addShare site user uuid request.body
  | .removeShare uuid name => Api.removeShare user uuid name
  | .addImage => Api.addImage site user request.body
  | .addSshKey => Api.addSshKey site user request.body
  | .deleteSshKey id => Api.deleteSshKey user id
  | .notAllowed => return .unrouted
  | .notFound => return errorResponse 404 "not found"

def PageRoute.handle (site : Site) (user : User) (request : Incoming) : PageRoute → Handling Reply
  | .create => Api.create site user request.headers request.body
  | .saveSettings uuid => Api.saveSettings site user uuid request.headers request.body
  | .addShare uuid => pageAddShare site user uuid request.headers request.body
  | .removeShare uuid name => pageRemoveShare user uuid name
  | .action kind uuid => pageAction user kind uuid
  | .delete uuid => Api.delete site user uuid request.headers request.body
  | .addImage => pageAddImage site user request.headers request.body
  | .addKey => Api.addKey site user request.headers request.body
  | .removeKey id => Api.removeKey user id

def isDashboardAsset (path : List String) : Bool := path.getLast?.any fun segment => '.' ∈ segment.toList

def dashboardGate (request : Incoming) (next : Handling Reply) : Handling Reply := do
  if isDashboardAsset request.path then next
  else match ← Api.sessionFromHeaders request.headers with
    | some _ => next
    | none => return .gate

def authenticate (request : Incoming) (refusal : Reply) (next : User → Handling Reply) : Handling Reply := do
  match ← userFromHeaders request.headers with
  | some user => next user
  | none => return refusal

def handle (site : Site) (request : Incoming) : Handling Reply :=
  match request.path with
  | "api" :: segment :: rest =>
    authenticate request (errorResponse 401 "unauthorized") fun user =>
      ApiRoute.handle site user request
        (if "" ∈ segment :: rest then .notFound else apiRoute request.method (segment :: rest))
  | ["link", token] =>
    if request.method = .post ∧ token ≠ "" then linkConfirmResponse site request.headers token.toList
    else return .unrouted
  | path =>
    dashboardGate request <| match pageRoute path with
      | some route =>
        authenticate request (.page .signIn 401 none) fun user =>
          if request.method = .post ∧ "" ∉ path then PageRoute.handle site user request route else return .unrouted
      | none => return .unrouted

end Bento
