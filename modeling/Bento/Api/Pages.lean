import Bento.Api.Basic

/-! The forms of the dashboard that change something. A form that succeeds redirects to a
page with a message, and most that fail come back as the page they were on. -/

namespace Bento.Api
open Library.Decimal Http Auth

def urlencode (text : Text) : Text :=
  text.flatMap fun char =>
    if char.isAlphanum ∨ char ∈ "-_.~".toList then [char]
    else if char = ' ' then ['+']
    else (String.utf8EncodeChar char).flatMap fun byte =>
      ['%', (Nat.digitChar (byte.toNat / 16)).toUpper, (Nat.digitChar (byte.toNat % 16)).toUpper]

def done (path toast : Text) : Reply := .redirect (path ++ "?toast=".toList ++ urlencode toast)

def warn (path message : Text) : Reply := .redirect (path ++ "?warn=".toList ++ urlencode message)

def vmPath (uuid : Text) (tab : String) : Text := "/vm/".toList ++ uuid ++ tab.toList

section
variable (site : Site) (user : User)

def decodeForm {α : Type} (decoded : Except (Nat × Text) α) : Handling (Except Reply α) :=
  match decoded with
  | .ok form => return .ok form
  | .error (status, message) => return .error (.text status message)

def checkedName (name : Text) : Except Text Text :=
  if ¬ validName (trim name) then .error badName.toList
  else if trim name ∈ site.reservedNames then .error (reservedNameMessage site (trim name))
  else .ok (trim name)

def failed (failure : Failure) : Reply := .page .error (errorParts failure).1 (some (errorParts failure).2)

def readableInstance (uuid : Text) : Handling (Except Failure (Option Instance)) := do
  match ← ask (.instanceByUuid uuid) with
  | .error .notFound => return .ok none
  | .error failure => return .error failure
  | .ok row => if ← canReadInstance row user then return .ok (some row) else return .ok none

def owned (uuid : Text) : Handling (Except Reply Instance) := do
  match ← readableInstance user uuid with
  | .error failure => return .error (failed failure)
  | .ok none => return .error (.page .error 404 (some "No such VM.".toList))
  | .ok (some row) =>
    if row.ownerId = user.id then return .ok row
    return .error (.page .error 403 (some "You cannot change this VM.".toList))

def create (headers : HeaderMap) (body : Text) : Handling Reply :=
  orReply (decodeForm (site.decoders.newForm headers body)) fun form =>
    match checkedName site form.name with
    | .error message => return .page .new 400 (some message)
    | .ok name =>
      if form.image = [] then return .page .new 400 (some "choose an image".toList)
      else if form.vcpu < 1 ∨ form.memoryGib.belowEighth ∨ form.diskGib < 1 then
        return .page .new 400 (some "vCPU, memory, and disk must all be set".toList)
      else do
        let spec : CreateSpec :=
          { name, image := form.image, vcpu := form.vcpu, memoryMib := form.memoryGib.mib, diskGib := form.diskGib,
            nested := form.nested.isSome, ksm := form.ksm.isSome }
        match ← perform (.create user spec) with
        | .error failure => return .page .new (errorParts failure).1 (some (errorParts failure).2)
        | .ok row =>
          -- Creation always starts off, so the switch is a second step.
          if form.isPublic.isSome then do
            match ← perform (.setVisibility row.uuid .publicPort) with
            | .error failure =>
              return warn ("/vm/".toList ++ row.uuid)
                ("created, but not made public: ".toList ++ (errorParts failure).2)
            | .ok _ => return done ("/vm/".toList ++ row.uuid) ("Created ".toList ++ row.name)
          else return done ("/vm/".toList ++ row.uuid) ("Created ".toList ++ row.name)

def switched (form : SettingsForm) (row : Instance) : Visibility :=
  if form.isPublic.isSome then .publicPort
  else if row.visibility = .publicPort then .privateOnly
  else row.visibility

def saveStep (changed : Prop) [Decidable changed] (label : String) (step : Handling (Except Failure Unit))
    (labels : List String) :
    Handling (Except Failure (List String)) :=
  if changed then do
    match ← step with
    | .error failure => return .error failure
    | .ok _ => return .ok (labels ++ [label])
  else return .ok labels

def orSettings {α : Type} (uuid : Text) (step : Handling (Except Failure α)) (next : α → Handling Reply) :
    Handling Reply := do
  match ← step with
  | .error failure => return .page (.settings uuid) (errorParts failure).1 (some (errorParts failure).2)
  | .ok value => next value

/-- Resources, port and visibility come first, and the name last because it changes the
URL. -/
def applySettings (uuid name : Text) (form : SettingsForm) (row : Instance) : Handling Reply :=
  let spec : ResizeSpec := ⟨form.vcpu, form.memoryGib.mib, form.diskGib, form.nested.isSome⟩
  let current : ResizeSpec := ⟨row.vcpu, row.memoryMib, row.diskGib, row.nested⟩
  let visibility := switched form row
  orSettings uuid (saveStep (spec ≠ current) "resources" (perform (.resize row.uuid spec)) []) fun labels =>
    orSettings uuid (saveStep (form.httpPort ≠ row.httpPort) "port" (perform (.setHttpPort row.uuid form.httpPort))
      labels) fun labels =>
      orSettings uuid
          (saveStep (visibility ≠ row.visibility) "visibility" (perform (.setVisibility row.uuid visibility))
            labels) fun labels =>
        orSettings uuid (saveStep (name ≠ row.name) "name" (perform (.rename row.uuid name)) labels) fun labels =>
          let toast := if labels = [] then "Nothing changed" else "Saved " ++ ", ".intercalate labels
          return done (vmPath uuid "/settings") toast.toList

def saveSettings (uuid : Text) (headers : HeaderMap) (body : Text) : Handling Reply :=
  orReply (decodeForm (site.decoders.settingsForm headers body)) fun form =>
    orReply (owned user uuid) fun row =>
      let fail (message : Text) : Handling Reply := return .page (.settings uuid) 400 (some message)
      match checkedName site form.name with
      | .error message => fail message
      | .ok name =>
        if form.vcpu < 1 ∨ form.memoryGib.mib < 128 then fail "vCPU and memory must be positive".toList
        else if form.diskGib < row.diskGib then fail "the disk can grow but never shrink".toList
        else if form.httpPort = 0 then fail "port must be between 1 and 65535".toList
        else applySettings uuid name form row

def orWarn {α : Type} (path : Text) (step : Handling (Except Failure α)) (next : α → Reply) : Handling Reply := do
  match ← step with
  | .error failure => return warn path (errorParts failure).2
  | .ok value => return next value

def actionToast : Action → String
  | .start => "Starting "
  | .stop => "Stopping "
  | .restart => "Restarting "

def pageAction (action : Action) (uuid : Text) : Handling Reply :=
  orReply (owned user uuid) fun row =>
    orWarn (vmPath uuid "/danger") (perform (.act action row.uuid)) fun _ =>
      done (vmPath uuid "/danger") ((actionToast action).toList ++ row.name)

def start : Text → Handling Reply := pageAction user .start

def stop : Text → Handling Reply := pageAction user .stop

def restart : Text → Handling Reply := pageAction user .restart

def delete (uuid : Text) (headers : HeaderMap) (body : Text) : Handling Reply :=
  orReply (decodeForm (site.decoders.deleteForm headers body)) fun confirm =>
    orReply (owned user uuid) fun row =>
      if trim confirm ≠ row.name then return warn (vmPath uuid "/danger") "Name does not match".toList
      else orWarn (vmPath uuid "/danger") (perform (.delete row.uuid)) fun _ =>
        done ['/'] ("Deleted ".toList ++ row.name)

def pageTarget (path name : Text) : Handling (Except Reply User) := do
  match ← ask (.userByName name) with
  | .ok target => return .ok target
  | .error .notFound => return .error (warn path ("no user named ".toList ++ name))
  | .error failure => return .error (failed failure)

def ShareForm.name (form : ShareForm) : Text := if trim form.user = [] then trim form.userText else trim form.user

def pageAddShare (uuid : Text) (headers : HeaderMap) (body : Text) : Handling Reply :=
  let path := vmPath uuid "/sharing"
  orReply (decodeForm (site.decoders.shareForm headers body)) fun form =>
    orReply (owned user uuid) fun row =>
      if form.name = [] then return warn path "Type a user name".toList
      else orReply (pageTarget path form.name) fun target =>
        if target.id = user.id then return warn path "You own this VM".toList
        else orWarn path (perform (.addShare row.uuid target.id)) fun _ =>
          done path ("Shared with ".toList ++ target.name)

def pageRemoveShare (uuid name : Text) : Handling Reply :=
  let path := vmPath uuid "/sharing"
  orReply (owned user uuid) fun row =>
    orReply (pageTarget path name) fun target =>
      orWarn path (perform (.removeShare row.uuid target.id)) fun _ => done path ("Revoked ".toList ++ target.name)

/-- The checks before the web terminal is joined to an instance. It is the one route that
looks at where a request comes from. -/
def socket (uuid : Text) (headers : HeaderMap) : Handling (Except Reply Instance) :=
  if (headers.get origin).bind HeaderValue.toStr ≠ some ("https://".toList ++ site.baseDomain) then
    return .error (.text 403 "the terminal only opens from the dashboard".toList)
  else do
    match ← readableInstance user uuid with
    | .ok (some row) => return .ok row
    | .ok none => return .error (.text (errorParts .notFound).1 (errorParts .notFound).2)
    | .error failure => return .error (.text (errorParts failure).1 (errorParts failure).2)

def renderConfiguration (status : Nat) (error : Option Text) : Reply :=
  if site.isOperator user then .page .configuration status error else .page .error 403 (some "Operators only.".toList)

def pageAddImage (headers : HeaderMap) (body : Text) : Handling Reply :=
  orReply (decodeForm (site.decoders.imageForm headers body)) fun form =>
    if ¬ site.isOperator user then return renderConfiguration site user 403 none
    else if ¬ site.imageAdmin then
      return renderConfiguration site user 503 (some "runtime image management is unavailable".toList)
    else if trim form.name = [] ∨ trim form.reference = [] then
      return renderConfiguration site user 400 (some "both the name and the OCI reference are required".toList)
    else do
      match ← perform (.addOciImage (trim form.name) (trim form.reference)) with
      | .ok _ => return done "/settings/configuration".toList ("Added ".toList ++ trim form.name)
      | .error failure => return renderConfiguration site user (errorParts failure).1 (some (errorParts failure).2)

def accountPath : Text := "/settings/account".toList

def addKey (headers : HeaderMap) (body : Text) : Handling Reply :=
  orReply (decodeForm (site.decoders.keyForm headers body)) fun form =>
    match site.fromOpenssh (trim form.publicKey) with
    | none => return .page .account 400 (some "not a valid SSH public key".toList)
    | some key => do
      let comment := if trim form.comment = [] then key.comment else trim form.comment
      match ← perform (.addSshKey user.id (trim form.publicKey) key.fingerprint comment) with
      | .ok _ => return done accountPath "Key added".toList
      | .error failure => return .page .account (errorParts failure).1 (some (errorParts failure).2)

def removeKey (id : Text) : Handling Reply :=
  match parseI64 id with
  | none => return .redirect (accountPath ++ "?warn=bad+key+id".toList)
  | some id => orWarn accountPath (perform (.deleteSshKey user.id id)) fun _ => done accountPath "Key removed".toList

end

end Bento.Api
