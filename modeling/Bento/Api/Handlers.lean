import Bento.Api.Basic

/-! The handlers of the API. Each one decodes its body, looks up the instance for the user of
the request, and asks the store or the lifecycle for one change. What the routers stand on
is in the module before. -/

namespace Bento.Api
open Library.Decimal Http Auth

section
variable (site : Site) (user : User)

def decodeJson {α : Type} (decoded : Except Text α) : Handling (Except Reply α) :=
  match decoded with
  | .ok value => return .ok value
  | .error reason => return .error (mappedError (.status 400 ("bad request body: ".toList ++ reason)))

/-- Only the owner may change an instance; to a stranger it does not exist. -/
def ownedInstance (uuid : Text) : Handling (Except Reply Instance) := do
  match ← ask (.instanceByUuid uuid) with
  | .error failure => return .error (mappedError failure)
  | .ok row =>
    if row.ownerId = user.id then return .ok row
    match ← ask (.sharesFor row.uuid) with
    | .ok shares =>
      if user.id ∈ shares then return .error (mappedError (.status 403 "only the owner may do this".toList))
      return .error (mappedError (.status 404 "not found".toList))
    | .error _ => return .error (mappedError (.status 404 "not found".toList))

def orMapped {α : Type} (step : Handling (Except Failure α)) (next : α → Handling Reply) : Handling Reply := do
  match ← step with
  | .error failure => return mappedError failure
  | .ok value => next value

def refreshed (uuid : Text) : Handling Reply :=
  orMapped (ask (.instanceByUuid uuid)) fun row => return .json 200 (.instanceRow row)

def createInstance (body : Text) : Handling Reply :=
  orReply (decodeJson (site.decoders.createRequest body)) fun request =>
    if ¬ validName request.name then return errorResponse 400 badName
    else if request.name ∈ site.reservedNames then return .json 400 (.error (reservedNameMessage site request.name) 0)
    else if request.image = [] then return errorResponse 400 "image is required"
    else
      let spec : CreateSpec :=
        { name := request.name, image := request.image, vcpu := request.vcpu, memoryMib := request.memoryMib,
          diskGib := request.diskGib, nested := request.nested, ksm := request.ksm.getD true }
      orMapped (perform (.create user spec)) fun row => return .json 201 (.instanceRow row)

def deleteInstance (uuid : Text) : Handling Reply :=
  orReply (ownedInstance user uuid) fun row =>
    orMapped (perform (.delete row.uuid)) fun _ => return .noContent

def lifecycleAction (action : Action) (uuid : Text) : Handling Reply :=
  orReply (ownedInstance user uuid) fun row =>
    orMapped (perform (.act action row.uuid)) fun _ => return .json 202 (.action action row.uuid)

def startInstance : Text → Handling Reply := lifecycleAction user .start

def stopInstance : Text → Handling Reply := lifecycleAction user .stop

def restartInstance : Text → Handling Reply := lifecycleAction user .restart

def renameInstance (uuid body : Text) : Handling Reply :=
  orReply (ownedInstance user uuid) fun row =>
    orReply (decodeJson (site.decoders.renameRequest body)) fun newName =>
      if ¬ validName newName then return errorResponse 400 badName
      else if newName ∈ site.reservedNames then return .json 400 (.error (reservedNameMessage site newName) 0)
      else orMapped (perform (.rename row.uuid newName)) fun _ => refreshed row.uuid

def resizeSpec (row : Instance) (request : ResizeRequest) : ResizeSpec where
  vcpu := if request.vcpu = 0 then row.vcpu else request.vcpu
  memoryMib := if request.memoryMib = 0 then row.memoryMib else request.memoryMib
  diskGib := if request.diskGib = 0 then row.diskGib else request.diskGib
  nested := request.nested.getD row.nested

def resizeInstance (uuid body : Text) : Handling Reply :=
  orReply (ownedInstance user uuid) fun row =>
    orReply (decodeJson (site.decoders.resizeRequest body)) fun request =>
      let spec := resizeSpec row request
      if spec.vcpu < 1 ∨ spec.memoryMib < 1 then return errorResponse 400 "vcpu and memory_mib must be positive"
      else if spec.diskGib < row.diskGib then return errorResponse 400 "the disk can grow but never shrink"
      else orMapped (perform (.resize row.uuid spec)) fun _ => refreshed row.uuid

def setPort (uuid body : Text) : Handling Reply :=
  orReply (ownedInstance user uuid) fun row =>
    orReply (decodeJson (site.decoders.portRequest body)) fun port =>
      if port = 0 then return errorResponse 400 "port must be between 1 and 65535"
      else orMapped (perform (.setHttpPort row.uuid port)) fun _ => refreshed row.uuid

def readVisibility (text : Text) : Option Visibility :=
  if text = "off".toList then some .off
  else if text = "private".toList then some .privateOnly
  else if text = "public".toList then some .publicPort
  else none

def setVisibility (uuid body : Text) : Handling Reply :=
  orReply (ownedInstance user uuid) fun row =>
    orReply (decodeJson (site.decoders.visibilityRequest body)) fun text =>
      match readVisibility text with
      | none => return errorResponse 400 "visibility must be \"off\", \"private\", or \"public\""
      | some visibility => orMapped (perform (.setVisibility row.uuid visibility)) fun _ => refreshed row.uuid

def targetByName (name : Text) : Handling (Except Reply User) := do
  match ← ask (.userByName name) with
  | .ok target => return .ok target
  | .error .notFound => return .error (mappedError (.status 404 ("no user named ".toList ++ name)))
  | .error failure => return .error (mappedError failure)

def addShare (uuid body : Text) : Handling Reply :=
  orReply (ownedInstance user uuid) fun row =>
    orReply (decodeJson (site.decoders.shareRequest body)) fun name =>
      orReply (targetByName name) fun target =>
        if target.id = user.id then return errorResponse 400 "you already own this instance"
        else orMapped (perform (.addShare row.uuid target.id)) fun _ => return .json 201 (.share target.name)

def removeShare (uuid name : Text) : Handling Reply :=
  orReply (ownedInstance user uuid) fun row =>
    orReply (targetByName name) fun target =>
      orMapped (perform (.removeShare row.uuid target.id)) fun _ => return .noContent

def addImage (body : Text) : Handling Reply :=
  if ¬ site.isOperator user then return errorResponse 403 "operator only"
  else orReply (decodeJson (site.decoders.addImageRequest body)) fun request =>
    if ¬ site.imageAdmin then return errorResponse 503 "runtime image management is unavailable"
    else orMapped (perform (.addOciImage request.name request.reference)) fun _ =>
      return .json 201 (.image request.name)

def addSshKey (body : Text) : Handling Reply :=
  orReply (decodeJson (site.decoders.addSshKeyRequest body)) fun request =>
    match site.fromOpenssh request.publicKey with
    | none => return errorResponse 400 "not a valid SSH public key"
    | some key =>
      let comment := if request.comment = [] then key.comment else request.comment
      orMapped (perform (.addSshKey user.id request.publicKey key.fingerprint comment)) fun id =>
        return .json 201 (.sshKey id key.fingerprint comment request.publicKey)

def deleteSshKey (id : Text) : Handling Reply :=
  match parseI64 id with
  | none => return errorResponse 400 "bad key id"
  | some id => orMapped (perform (.deleteSshKey user.id id)) fun _ => return .noContent

end

end Bento.Api
