import Bento.Bentod.Routes

/-! What a request from another page can change. A session cookie comes with requests that
any page of the same site makes, and no route that changes something looks at where its
request comes from: what the cookie's owner may change, such a page changes for them. -/

namespace Bento
open Library Library.Decimal Library.Programs Http Api Auth

variable {σ α β : Type} {serve : (call : Call) → σ → call.Answer × σ} {state : σ}
  {reads : (query : Read) → query.Answer} {query : Read} {value : α}

section
variable (serve state)

def Untouched (handling : Handling α) : Prop := handling.Stays serve state

instance [DecidableEq σ] (handling : Handling α) : Decidable (Untouched serve state handling) :=
  inferInstanceAs (Decidable (handling.Stays serve state))

def Leaves (change : Write) : Prop := (serve (.write change) state).2 = state

/-- The state answers reads so, and they do not change it. -/
def Answers (reads : (query : Read) → query.Answer) : Prop := ∀ query, serve (.read query) state = (reads query, state)

def yielded (step : Handling α) : α := step.result fun call => (serve call state).1

/-- The step changes nothing and goes on with what is accepted. -/
structure Settles (step : Handling (Except Reply α)) (accepts : α → Prop) : Prop where
  untouched : Untouched serve state step
  accepted : ∀ value, yielded serve state step = .ok value ↔ accepts value

end

theorem untouched_bind {step : Handling α} {next : α → Handling β} :
    Untouched serve state (step >>= next) ↔ Untouched serve state step ∧
      Untouched serve state (next (yielded serve state step)) :=
  Program.stays_bind step next

@[simp] theorem untouched_pure (value : α) : Untouched serve state (pure value : Handling α) := trivial

@[simp] theorem yielded_pure (value : α) : yielded serve state (pure value : Handling α) = value := rfl

theorem yielded_bind {step : Handling α} {next : α → Handling β} :
    yielded serve state (step >>= next) = yielded serve state (next (yielded serve state step)) :=
  Program.result_bind _ step next

@[simp] theorem untouched_refuse {refused : Prop} [Decidable refused] {rest : Handling α} :
    Untouched serve state (if refused then pure value else rest) ↔ (¬ refused → Untouched serve state rest) := by
  split <;> simp_all

@[simp] theorem untouched_request {change : Write} {next : change.Answer → Handling α} :
    Untouched serve state (.request (.write change) next) ↔
    Leaves serve state change ∧ Untouched serve state (next (serve (.write change) state).1) := Iff.rfl

@[simp] theorem untouched_end (value : α) : Untouched serve state (.pure value) := trivial

theorem untouched_perform {change : Write} : Untouched serve state (perform change) ↔ Leaves serve state change :=
  and_iff_left trivial

theorem untouched_last {step : Handling α} {next : α → Handling β}
    (after : ∀ value, Untouched serve state (next value)) :
    Untouched serve state (step >>= next) ↔ Untouched serve state step :=
  untouched_bind.trans (and_iff_left (after _))

theorem untouched_orMapped {step : Handling (Except Failure α)} {next : α → Handling Reply}
    (after : ∀ value, Untouched serve state (next value)) :
    Untouched serve state (orMapped step next) ↔ Untouched serve state step := by
  refine untouched_last fun answer => ?_
  cases answer with
  | error => trivial
  | ok value => exact after value

@[simp] theorem untouched_orWarn {path : Text} {step : Handling (Except Failure α)} {next : α → Reply} :
    Untouched serve state (orWarn path step next) ↔ Untouched serve state step := by
  refine untouched_last fun answer => ?_
  cases answer <;> trivial

section
variable {accepts : α → Prop}

theorem settles_ok (only : ∀ other, value = other ↔ accepts other) : Settles serve state (pure (.ok value)) accepts :=
  ⟨trivial, by simpa using only⟩

theorem settles_error {reply : Reply} (none : ∀ value, ¬ accepts value) :
    Settles serve state (pure (.error reply)) accepts :=
  ⟨trivial, by simpa using none⟩

theorem Settles.after {step : Handling β} {next : β → Handling (Except Reply α)}
    (untouched : Untouched serve state step) (settles : Settles serve state (next (yielded serve state step)) accepts) :
    Settles serve state (step >>= next) accepts :=
  ⟨untouched_bind.mpr ⟨untouched, settles.untouched⟩, by rw [yielded_bind]; exact settles.accepted⟩

theorem Settles.orReply {step : Handling (Except Reply α)} {next : α → Handling Reply}
    (settles : Settles serve state step accepts) :
    Untouched serve state (orReply step next) ↔ ∀ value, accepts value → Untouched serve state (next value) := by
  unfold Api.orReply
  rw [untouched_bind, and_iff_right settles.untouched]
  simp only [← settles.accepted]
  cases yielded serve state step with
  | error => simp
  | ok => simp

theorem settles_decodeJson (decoded : Except Text α) :
    Settles serve state (decodeJson decoded) fun value => decoded = .ok value := by
  cases decoded with
  | error => exact settles_error (by simp)
  | ok => exact settles_ok (by simp)

theorem settles_decodeForm (decoded : Except (Nat × Text) α) :
    Settles serve state (decodeForm decoded) fun value => decoded = .ok value := by
  cases decoded with
  | error => exact settles_error (by simp)
  | ok => exact settles_ok (by simp)

end

section
variable (reading : Answers serve state reads)
include reading

theorem untouched_ask : Untouched serve state (ask query) := ⟨congrArg Prod.snd (reading query), trivial⟩

theorem yielded_ask : yielded serve state (ask query) = reads query := congrArg Prod.fst (reading query)

theorem Settles.ask {accepts : α → Prop} {next : query.Answer → Handling (Except Reply α)}
    (settles : Settles serve state (next (reads query)) accepts) : Settles serve state (ask query >>= next) accepts :=
  .after (untouched_ask reading) (by rwa [yielded_ask reading])

theorem untouched_refreshed (uuid : Text) : Untouched serve state (refreshed uuid) :=
  (untouched_orMapped fun _ => untouched_pure _).mpr (untouched_ask reading)

end

section
variable (reads : (query : Read) → query.Answer) (site : Site) (user : User)

def OwnsInstance (uuid : Text) (row : Instance) : Prop := reads (.instanceByUuid uuid) = .ok row ∧ row.ownerId = user.id

def OffersName (name : Text) : Prop := validName name ∧ name ∉ site.reservedNames

def sessionOf (headers : HeaderMap) : Option Session :=
  (cookieValue headers sessionCookieName).bind fun id => reads (.session id)

def SignedIn (headers : HeaderMap) : Prop :=
  ∃ session, sessionOf reads headers = some session ∧ reads (.userById session.userId) = .ok user

def LinkLive (headers : HeaderMap) (token : Text) (pairing : Pairing) (user : User) : Prop :=
  site.pairings ∧ ∃ session, sessionOf reads headers = some session ∧
    reads (.loginUser session.userId) = .ok (some user) ∧
    reads (.pairingByTokenHash (site.hashToken token)) = .ok (some pairing) ∧
    pairing.linkedUserId = none ∧ site.now < pairing.expiresAt

end

section
variable {site : Site} {user : User} (reading : Answers serve state reads)
include reading

theorem settles_ownedInstance (uuid : Text) :
    Settles serve state (ownedInstance user uuid) (OwnsInstance reads user uuid) := by
  refine Settles.ask reading ?_
  unfold OwnsInstance
  cases reads (.instanceByUuid uuid) with
  | error => exact settles_error (by simp)
  | ok row =>
    by_cases owner : row.ownerId = user.id
    · simp only [owner, if_true]
      exact settles_ok (by simp +contextual [owner])
    · have stranger : ∀ other, ¬ ((Except.ok row : Except Failure Instance) = .ok other ∧ other.ownerId = user.id) := by
        rintro other ⟨same, mine⟩
        exact owner (Except.ok.inj same ▸ mine)
      simp only [owner, if_false]
      refine Settles.ask reading ?_
      cases reads (.sharesFor row.uuid) with
      | error => exact settles_error stranger
      | ok =>
        dsimp only
        split
        · exact settles_error stranger
        · exact settles_error stranger

theorem canReadInstance_spec (user : User) (row : Instance) : Untouched serve state (canReadInstance row user) ∧
    (row.ownerId = user.id → yielded serve state (canReadInstance row user) = true) := by
  unfold canReadInstance
  split
  · exact ⟨trivial, fun _ => rfl⟩
  · rename_i stranger
    refine ⟨untouched_bind.mpr ⟨untouched_ask reading, ?_⟩, fun owner => absurd owner stranger⟩
    split <;> trivial

theorem readableInstance_spec (user : User) (uuid : Text) : Untouched serve state (readableInstance user uuid) ∧
    (∀ row, OwnsInstance reads user uuid row → yielded serve state (readableInstance user uuid) = .ok (some row)) ∧
    ∀ row, yielded serve state (readableInstance user uuid) = .ok (some row) →
      reads (.instanceByUuid uuid) = .ok row := by
  unfold readableInstance OwnsInstance
  rw [untouched_bind, yielded_bind, yielded_ask reading, and_iff_right (untouched_ask reading)]
  cases reads (.instanceByUuid uuid) with
  | error failure => cases failure <;> exact ⟨trivial, by simp, by simp⟩
  | ok row =>
    obtain ⟨untouched, owner⟩ := canReadInstance_spec reading user row
    dsimp only
    rw [untouched_bind, yielded_bind, and_iff_right untouched]
    cases readable : yielded serve state (canReadInstance row user) with
    | true => exact ⟨trivial, by simp +contextual, by simp⟩
    | false =>
      refine ⟨trivial, ?_, by simp⟩
      rintro other ⟨⟨⟩, mine⟩
      cases readable.symm.trans (owner mine)

theorem settles_owned (uuid : Text) : Settles serve state (owned user uuid) (OwnsInstance reads user uuid) := by
  obtain ⟨untouched, found, only⟩ := readableInstance_spec reading user uuid
  refine .after untouched ?_
  generalize yielded serve state (readableInstance user uuid) = readable at found only
  have hidden (missing : ∀ row, readable ≠ .ok (some row)) : ∀ row, ¬ OwnsInstance reads user uuid row :=
    fun row owns => missing row (found row owns)
  match readable with
  | .error failure => exact settles_error (hidden (by simp))
  | .ok none => exact settles_error (hidden (by simp))
  | .ok (some row) =>
    dsimp only
    split
    · rename_i mine
      refine settles_ok fun other => ⟨?_, fun owns => ?_⟩
      · rintro rfl
        exact ⟨only row rfl, mine⟩
      · cases found other owns
        rfl
    · rename_i stranger
      refine settles_error fun other owns => stranger ?_
      cases found other owns
      exact owns.2

theorem settles_target (path name : Text) :
    Settles serve state (targetByName name) (fun target => reads (.userByName name) = .ok target) ∧
      Settles serve state (pageTarget path name) fun target => reads (.userByName name) = .ok target := by
  constructor
  all_goals
    refine Settles.ask reading ?_
    cases reads (.userByName name) with
    | ok => exact settles_ok (by simp)
    | error failure =>
      have nobody : ∀ target, ¬ (Except.error failure : Except Failure User) = .ok target := by simp
      cases failure <;> exact settles_error nobody

end

section
variable (serve state) (reads : (query : Read) → query.Answer) (site : Site) (user : User)

/-- What the routes grant to the user leaves the state as it is. -/
def ApiRoute.Harmless (body : Text) : ApiRoute → Prop
  | .createInstance =>
    ∀ request, site.decoders.createRequest body = .ok request → OffersName site request.name → request.image ≠ [] →
      Leaves serve state (.create user ⟨request.name, request.image, request.vcpu, request.memoryMib,
        request.diskGib, request.nested,
        request.ksm.getD true⟩)
  | .deleteInstance uuid => ∀ row, OwnsInstance reads user uuid row → Leaves serve state (.delete row.uuid)
  | .action kind uuid => ∀ row, OwnsInstance reads user uuid row → Leaves serve state (.act kind row.uuid)
  | .rename uuid =>
    ∀ row, OwnsInstance reads user uuid row → ∀ name, site.decoders.renameRequest body = .ok name →
      OffersName site name →
      Leaves serve state (.rename row.uuid name)
  | .resize uuid =>
    ∀ row, OwnsInstance reads user uuid row → ∀ request, site.decoders.resizeRequest body = .ok request →
      ¬ ((resizeSpec row request).vcpu < 1 ∨ (resizeSpec row request).memoryMib < 1) →
        ¬ (resizeSpec row request).diskGib < row.diskGib →
      Leaves serve state (.resize row.uuid (resizeSpec row request))
  | .port uuid =>
    ∀ row, OwnsInstance reads user uuid row → ∀ port, site.decoders.portRequest body = .ok port → port ≠ 0 →
      Leaves serve state (.setHttpPort row.uuid port)
  | .visibility uuid =>
    ∀ row, OwnsInstance reads user uuid row → ∀ text, site.decoders.visibilityRequest body = .ok text →
      ∀ visibility ∈ readVisibility text, Leaves serve state (.setVisibility row.uuid visibility)
  | .addShare uuid =>
    ∀ row, OwnsInstance reads user uuid row → ∀ name, site.decoders.shareRequest body = .ok name →
      ∀ target, reads (.userByName name) = .ok target → target.id ≠ user.id →
        Leaves serve state (.addShare row.uuid target.id)
  | .removeShare uuid name =>
    ∀ row, OwnsInstance reads user uuid row → ∀ target, reads (.userByName name) = .ok target →
      Leaves serve state (.removeShare row.uuid target.id)
  | .addImage =>
    site.isOperator user → ∀ request, site.decoders.addImageRequest body = .ok request → site.imageAdmin →
      Leaves serve state (.addOciImage request.name request.reference)
  | .addSshKey =>
    ∀ request, site.decoders.addSshKeyRequest body = .ok request → ∀ key ∈ site.fromOpenssh request.publicKey,
      Leaves serve state (.addSshKey user.id request.publicKey key.fingerprint
        (if request.comment = [] then key.comment else request.comment))
  | .deleteSshKey id => ∀ key ∈ parseI64 id, Leaves serve state (.deleteSshKey user.id key)
  | .notAllowed | .notFound => True

/-- One change of several, each made only if it is called for and those before it were
granted. -/
def InTurn (changed : Prop) (change : Write) (granted rest : Prop) : Prop :=
  (changed → Leaves serve state change) ∧ ((changed → granted) → rest)

def SettingsHarmless (form : SettingsForm) (row : Instance) : Prop :=
  let spec : ResizeSpec := ⟨form.vcpu, form.memoryGib.mib, form.diskGib, form.nested.isSome⟩
  InTurn serve state (spec ≠ ⟨row.vcpu, row.memoryMib, row.diskGib, row.nested⟩) (.resize row.uuid spec)
      ((serve (.write (.resize row.uuid spec)) state).1 = .ok ()) <|
    InTurn serve state (form.httpPort ≠ row.httpPort) (.setHttpPort row.uuid form.httpPort)
      ((serve (.write (.setHttpPort row.uuid form.httpPort)) state).1 = .ok ()) <|
    InTurn serve state (switched form row ≠ row.visibility) (.setVisibility row.uuid (switched form row))
      ((serve (.write (.setVisibility row.uuid (switched form row))) state).1 = .ok ()) <|
    InTurn serve state (trim form.name ≠ row.name) (.rename row.uuid (trim form.name)) True True

def PageRoute.Harmless (headers : HeaderMap) (body : Text) : PageRoute → Prop
  | .create =>
    ∀ form, site.decoders.newForm headers body = .ok form → OffersName site (trim form.name) → form.image ≠ [] →
      ¬ (form.vcpu < 1 ∨ form.memoryGib.belowEighth ∨ form.diskGib < 1) →
      let change : Write := .create user ⟨trim form.name, form.image, form.vcpu, form.memoryGib.mib,
        form.diskGib, form.nested.isSome,
        form.ksm.isSome⟩
      Leaves serve state change ∧ ∀ row : Instance, (serve (.write change) state).1 = .ok row → form.isPublic.isSome →
        Leaves serve state (.setVisibility row.uuid .publicPort)
  | .saveSettings uuid =>
    ∀ form, site.decoders.settingsForm headers body = .ok form → ∀ row, OwnsInstance reads user uuid row →
      OffersName site (trim form.name) → ¬ (form.vcpu < 1 ∨ form.memoryGib.mib < 128) → ¬ form.diskGib < row.diskGib →
      form.httpPort ≠ 0 → SettingsHarmless serve state form row
  | .addShare uuid =>
    ∀ form, site.decoders.shareForm headers body = .ok form → ∀ row, OwnsInstance reads user uuid row → form.name ≠ [] →
      ∀ target, reads (.userByName form.name) = .ok target → target.id ≠ user.id →
        Leaves serve state (.addShare row.uuid target.id)
  | .removeShare uuid name =>
    ∀ row, OwnsInstance reads user uuid row → ∀ target, reads (.userByName name) = .ok target →
      Leaves serve state (.removeShare row.uuid target.id)
  | .action kind uuid => ∀ row, OwnsInstance reads user uuid row → Leaves serve state (.act kind row.uuid)
  | .delete uuid =>
    ∀ confirm, site.decoders.deleteForm headers body = .ok confirm → ∀ row, OwnsInstance reads user uuid row →
      trim confirm = row.name → Leaves serve state (.delete row.uuid)
  | .addImage =>
    ∀ form, site.decoders.imageForm headers body = .ok form → site.isOperator user → site.imageAdmin →
      ¬ (trim form.name = [] ∨ trim form.reference = []) →
        Leaves serve state (.addOciImage (trim form.name) (trim form.reference))
  | .addKey =>
    ∀ form, site.decoders.keyForm headers body = .ok form → ∀ key ∈ site.fromOpenssh (trim form.publicKey),
      Leaves serve state (.addSshKey user.id (trim form.publicKey) key.fingerprint
        (if trim form.comment = [] then key.comment else trim form.comment))
  | .removeKey id => ∀ key ∈ parseI64 id, Leaves serve state (.deleteSshKey user.id key)

def Harmless (request : Incoming) : Prop :=
  match request.path with
  | "api" :: segment :: rest =>
    "" ∉ segment :: rest → ∀ user, SignedIn reads user request.headers →
      (apiRoute request.method (segment :: rest)).Harmless serve state reads site user request.body
  | ["link", token] =>
    request.method = .post → token ≠ "" → ∀ pairing user,
      LinkLive reads site request.headers token.toList pairing user →
      Leaves serve state (.linkPairing pairing.id user.id)
  | path =>
    request.method = .post → "" ∉ path → ∀ route ∈ pageRoute path, ∀ user, SignedIn reads user request.headers →
      route.Harmless serve state reads site user request.headers request.body

end

section
variable {site : Site} {user : User} {headers : HeaderMap} {request : Incoming}

variable (site) in
theorem checkedName_cases (name : Text) : (checkedName site name = .ok (trim name) ∧ OffersName site (trim name)) ∨
      ∃ message, checkedName site name = .error message ∧ ¬ OffersName site (trim name) := by
  unfold checkedName OffersName
  by_cases valid : validName (trim name)
  · by_cases reserved : trim name ∈ site.reservedNames
    · simp [valid, reserved]
    · simp [valid, reserved]
  · simp [valid]

theorem untouched_saveStep {changed : Prop} [Decidable changed] {uuid : Text} {label : String} {change : Write}
    {labels : List String} {step : Handling (Except Failure Unit)} {next : List String → Handling Reply} {rest : Prop}
    (steps : Untouched serve state step ↔ Leaves serve state change)
    (after : ∀ labels, Untouched serve state (next labels) ↔ rest) :
    Untouched serve state (orSettings uuid (saveStep changed label step labels) next) ↔
      InTurn serve state changed change (yielded serve state step = .ok ()) rest := by
  unfold orSettings saveStep InTurn
  rw [untouched_bind]
  by_cases differs : changed
  · rw [if_pos differs, untouched_bind, yielded_bind, steps]
    cases yielded serve state step with
    | error => simp [differs]
    | ok => simp [differs, after]
  · simp [differs, after]

theorem untouched_applySettings {uuid : Text} {form : SettingsForm} {row : Instance} :
    Untouched serve state (applySettings uuid (trim form.name) form row) ↔ SettingsHarmless serve state form row := by
  unfold applySettings SettingsHarmless
  dsimp only
  refine untouched_saveStep untouched_perform fun _ => untouched_saveStep untouched_perform fun _ =>
    untouched_saveStep untouched_perform fun _ => ?_
  have last : ∀ labels, Untouched serve state
    (pure (done (vmPath uuid "/settings") (if labels = [] then "Nothing changed"
      else "Saved " ++ ", ".intercalate labels).toList) : Handling Reply) ↔ True := fun _ => iff_true_intro trivial
  rw [untouched_saveStep untouched_perform last]
  simp [InTurn]

theorem signedIn_iff : SignedIn reads user headers ↔
      (sessionOf reads headers).bind (fun session => (reads (.userById session.userId)).toOption) = some user := by
  unfold SignedIn
  rw [Option.bind_eq_some_iff]
  refine exists_congr fun session => and_congr_right fun _ => ?_
  cases reads (.userById session.userId) with
  | error | ok => simp [Except.toOption]

section
variable (reading : Answers serve state reads)
include reading

theorem untouched_apiRoute (request : Incoming) (route : ApiRoute) :
    Untouched serve state (route.handle site user request) ↔
      route.Harmless serve state reads site user request.body := by
  have owned := @settles_ownedInstance _ _ _ _ user reading
  have after (uuid : Text) := untouched_refreshed reading uuid
  cases route with
  | createInstance =>
    simp only [ApiRoute.handle, ApiRoute.Harmless, createInstance, OffersName, (settles_decodeJson _).orReply,
      untouched_refuse, untouched_orMapped fun _ => untouched_pure _, perform, Program.ask, untouched_request,
      untouched_end, and_true, not_not, and_imp, ne_eq]
  | deleteInstance uuid | action kind uuid =>
    simp only [ApiRoute.handle, ApiRoute.Harmless, deleteInstance, lifecycleAction, (owned _).orReply,
      untouched_orMapped fun _ => untouched_pure _, perform, Program.ask, untouched_request, untouched_end, and_true]
  | rename =>
    simp only [ApiRoute.handle, ApiRoute.Harmless, renameInstance, OffersName, (owned _).orReply,
      (settles_decodeJson _).orReply, untouched_refuse, untouched_orMapped fun _ => after _, perform, Program.ask,
      untouched_request, untouched_end, and_true, and_imp, not_not]
  | resize =>
    simp only [ApiRoute.handle, ApiRoute.Harmless, resizeInstance, (owned _).orReply, (settles_decodeJson _).orReply,
      untouched_refuse, untouched_orMapped fun _ => after _, perform, Program.ask, untouched_request, untouched_end,
      and_true]
  | port =>
    simp only [ApiRoute.handle, ApiRoute.Harmless, setPort, (owned _).orReply, (settles_decodeJson _).orReply,
      untouched_refuse, untouched_orMapped fun _ => after _, perform, Program.ask, untouched_request, untouched_end,
      and_true, ne_eq]
  | visibility =>
    simp only [ApiRoute.handle, ApiRoute.Harmless, setVisibility, (owned _).orReply, (settles_decodeJson _).orReply]
    refine forall_congr' fun row => imp_congr_right fun _ => forall_congr' fun text => imp_congr_right fun _ => ?_
    cases readVisibility text with
    | none => simp
    | some => simp [untouched_orMapped fun _ => after _, perform, Program.ask]
  | addShare =>
    simp only [ApiRoute.handle, ApiRoute.Harmless, addShare, (owned _).orReply, (settles_decodeJson _).orReply,
      (settles_target reading [] _).1.orReply, untouched_refuse, untouched_orMapped fun _ => untouched_pure _,
      perform, Program.ask, untouched_request, untouched_end, and_true, ne_eq]
  | removeShare =>
    simp only [ApiRoute.handle, ApiRoute.Harmless, removeShare, (owned _).orReply,
      (settles_target reading [] _).1.orReply, untouched_orMapped fun _ => untouched_pure _, perform, Program.ask,
      untouched_request, untouched_end, and_true]
  | addImage =>
    simp only [ApiRoute.handle, ApiRoute.Harmless, addImage, (settles_decodeJson _).orReply, untouched_refuse,
      untouched_orMapped fun _ => untouched_pure _, perform, Program.ask, untouched_request, untouched_end, and_true,
      not_not]
  | addSshKey =>
    simp only [ApiRoute.handle, ApiRoute.Harmless, addSshKey, (settles_decodeJson _).orReply]
    refine forall_congr' fun request => imp_congr_right fun _ => ?_
    cases site.fromOpenssh request.publicKey with
    | none => simp
    | some => simp [untouched_orMapped fun _ => untouched_pure _, perform, Program.ask]
  | deleteSshKey id =>
    simp only [ApiRoute.handle, ApiRoute.Harmless, deleteSshKey]
    cases parseI64 id with
    | none => simp
    | some => simp [untouched_orMapped fun _ => untouched_pure _, perform, Program.ask]
  | notAllowed | notFound => exact iff_of_true trivial trivial

theorem untouched_pageRoute (request : Incoming) (route : PageRoute) :
    Untouched serve state (route.handle site user request) ↔
      route.Harmless serve state reads site user request.headers request.body := by
  have own := @settles_owned _ _ _ _ user reading
  cases route with
  | create =>
    simp only [PageRoute.handle, PageRoute.Harmless, create, (settles_decodeForm _).orReply]
    refine forall_congr' fun form => imp_congr_right fun _ => ?_
    obtain ⟨named, offers⟩ | ⟨message, named, offers⟩ := checkedName_cases site form.name
    · simp only [named, offers, untouched_refuse, forall_const, ne_eq]
      refine imp_congr_right fun _ => imp_congr_right fun _ => untouched_bind.trans ?_
      refine and_congr untouched_perform ?_
      change _ ↔ ∀ row : Instance, yielded serve state (perform (.create user _)) = .ok row → _
      generalize yielded serve state (perform (.create user _)) = answer
      cases answer with
      | error => simp
      | ok row =>
        by_cases opened : form.isPublic.isSome
        · simp only [opened, if_true, Except.ok.injEq, forall_eq', true_imp_iff]
          refine (untouched_last fun answer => ?_).trans untouched_perform
          cases answer <;> trivial
        · simp [opened]
    · simp only [named, offers, untouched_pure, false_imp_iff]
  | saveSettings =>
    simp only [PageRoute.handle, PageRoute.Harmless, saveSettings, (settles_decodeForm _).orReply, (own _).orReply]
    refine forall_congr' fun form => imp_congr_right fun _ => forall_congr' fun row => imp_congr_right fun _ => ?_
    obtain ⟨named, offers⟩ | ⟨message, named, offers⟩ := checkedName_cases site form.name
    · simp only [named, offers, untouched_refuse, untouched_applySettings, forall_const, ne_eq]
    · simp only [named, offers, untouched_pure, false_imp_iff]
  | addShare =>
    simp only [PageRoute.handle, PageRoute.Harmless, pageAddShare, (settles_decodeForm _).orReply, (own _).orReply,
      (settles_target reading _ _).2.orReply, untouched_refuse, untouched_orWarn, perform, Program.ask,
      untouched_request, untouched_end, and_true, ne_eq]
  | removeShare =>
    simp only [PageRoute.handle, PageRoute.Harmless, pageRemoveShare, (own _).orReply,
      (settles_target reading _ _).2.orReply, untouched_orWarn, perform, Program.ask, untouched_request,
      untouched_end, and_true]
  | action =>
    simp only [PageRoute.handle, PageRoute.Harmless, pageAction, (own _).orReply, untouched_orWarn, perform,
      Program.ask, untouched_request, untouched_end, and_true]
  | delete =>
    simp only [PageRoute.handle, PageRoute.Harmless, delete, (settles_decodeForm _).orReply, (own _).orReply,
      untouched_refuse, untouched_orWarn, perform, Program.ask, untouched_request, untouched_end, and_true, ne_eq,
      not_not]
  | addImage =>
    simp only [PageRoute.handle, PageRoute.Harmless, pageAddImage, (settles_decodeForm _).orReply, untouched_refuse,
      not_not]
    refine forall_congr' fun form => imp_congr_right fun _ => imp_congr_right fun _ => imp_congr_right fun _ =>
      imp_congr_right fun _ => ?_
    refine (untouched_last fun answer => ?_).trans untouched_perform
    cases answer <;> trivial
  | addKey =>
    simp only [PageRoute.handle, PageRoute.Harmless, addKey, (settles_decodeForm _).orReply]
    refine forall_congr' fun form => imp_congr_right fun _ => ?_
    cases site.fromOpenssh (trim form.publicKey) with
    | none => simp
    | some =>
      simp only [Option.mem_def, Option.some.injEq, forall_eq']
      refine (untouched_last fun answer => ?_).trans untouched_perform
      cases answer <;> trivial
  | removeKey id =>
    simp only [PageRoute.handle, PageRoute.Harmless, removeKey]
    cases parseI64 id with
    | none => simp
    | some => simp [perform, Program.ask]

theorem untouched_sessionFromHeaders (headers : HeaderMap) : Untouched serve state (Api.sessionFromHeaders headers) ∧
    yielded serve state (Api.sessionFromHeaders headers) = sessionOf reads headers := by
  unfold Api.sessionFromHeaders sessionOf
  cases cookieValue headers sessionCookieName with
  | none => exact ⟨trivial, rfl⟩
  | some => exact ⟨untouched_ask reading, yielded_ask reading⟩

theorem untouched_userFromHeaders (cookieOnly : bearerToken headers = none) :
    Untouched serve state (userFromHeaders headers) ∧
    yielded serve state (userFromHeaders headers) =
      (sessionOf reads headers).bind fun session => (reads (.userById session.userId)).toOption := by
  obtain ⟨untouched, same⟩ := untouched_sessionFromHeaders reading headers
  unfold userFromHeaders
  rw [untouched_bind, yielded_bind, and_iff_right untouched, same]
  cases sessionOf reads headers with
  | none => simp [cookieOnly]
  | some =>
    dsimp only
    rw [untouched_bind, yielded_bind, yielded_ask reading]
    exact ⟨⟨untouched_ask reading, trivial⟩, rfl⟩

theorem untouched_authenticate (cookieOnly : bearerToken request.headers = none) {refusal : Reply}
    {next : User → Handling Reply} :
    Untouched serve state (authenticate request refusal next) ↔
      ∀ user, SignedIn reads user request.headers → Untouched serve state (next user) := by
  obtain ⟨untouched, same⟩ := untouched_userFromHeaders reading cookieOnly
  unfold authenticate
  rw [untouched_bind, and_iff_right untouched, same]
  simp only [signedIn_iff]
  cases (sessionOf reads request.headers).bind fun session => (reads (.userById session.userId)).toOption with
  | none => simp
  | some => simp

theorem untouched_dashboardGate {next : Handling Reply}
    (signedIn : (∀ user, ¬ SignedIn reads user request.headers) → Untouched serve state next) :
    Untouched serve state (dashboardGate request next) ↔ Untouched serve state next := by
  obtain ⟨untouched, same⟩ := untouched_sessionFromHeaders reading request.headers
  unfold dashboardGate
  split
  · rfl
  · rw [untouched_bind, and_iff_right untouched, same]
    cases found : sessionOf reads request.headers with
    | some => rfl
    | none =>
      refine iff_of_true trivial (signedIn ?_)
      rintro user ⟨session, other, -⟩
      cases found.symm.trans other

omit reading in
theorem untouched_unspent (site : Site) (pairing : Pairing) (user : User) {used expired : String} :
    let shown : Handling Resolved :=
      if pairing.linkedUserId.isSome then pure (.dead used)
      else if pairing.expiresAt ≤ site.now then pure (.dead expired)
      else pure (.live pairing user)
    Untouched serve state shown ∧ ∀ other visitor, yielded serve state shown = .live other visitor ↔
      user = visitor ∧ pairing = other ∧ other.linkedUserId = none ∧ site.now < other.expiresAt := by
  by_cases spent : pairing.linkedUserId.isSome
  · have taken : pairing.linkedUserId ≠ none := Option.isSome_iff_ne_none.mp spent
    simp only [spent, if_true, untouched_pure, yielded_pure, true_and]
    refine fun other visitor => iff_of_false (by simp) ?_
    rintro ⟨-, rfl, unused, -⟩
    exact taken unused
  · have free : pairing.linkedUserId = none := Option.not_isSome_iff_eq_none.mp spent
    by_cases late : pairing.expiresAt ≤ site.now
    · simp only [spent, late, if_true, Bool.false_eq_true, if_false, untouched_pure, yielded_pure, true_and]
      refine fun other visitor => iff_of_false (by simp) ?_
      rintro ⟨-, rfl, -, live⟩
      exact absurd live (Int.not_lt.mpr late)
    · simp only [spent, late, Bool.false_eq_true, if_false, untouched_pure, yielded_pure, true_and]
      intro other visitor
      constructor
      · rintro ⟨⟩
        exact ⟨rfl, rfl, free, Int.not_le.mp late⟩
      · rintro ⟨rfl, rfl, -⟩
        rfl

theorem untouched_resolveLink (site : Site) (headers : HeaderMap) (token : Text) :
    Untouched serve state (resolveLink site headers token) ∧
    ∀ pairing user, yielded serve state (resolveLink site headers token) = .live pairing user ↔
      LinkLive reads site headers token pairing user := by
  obtain ⟨untouched, same⟩ := untouched_sessionFromHeaders reading headers
  unfold resolveLink LinkLive
  by_cases wired : site.pairings
  · simp only [wired, not_true, if_false, true_and]
    rw [untouched_bind, yielded_bind, and_iff_right untouched, same]
    cases sessionOf reads headers with
    | none => exact ⟨trivial, by simp⟩
    | some session =>
      simp only [Option.some.injEq, exists_eq_left']
      rw [untouched_bind, yielded_bind, and_iff_right (untouched_ask reading), yielded_ask reading]
      match reads (.loginUser session.userId) with
      | .error _ => exact ⟨trivial, by simp⟩
      | .ok none => exact ⟨trivial, by simp⟩
      | .ok (some user) =>
        dsimp only
        rw [untouched_bind, yielded_bind, and_iff_right (untouched_ask reading), yielded_ask reading]
        match reads (.pairingByTokenHash (site.hashToken token)) with
        | .error _ => exact ⟨trivial, by simp⟩
        | .ok none => exact ⟨trivial, by simp⟩
        | .ok (some pairing) =>
          simp only [Except.ok.injEq, Option.some.injEq]
          exact untouched_unspent site pairing user
  · simp [wired]

theorem untouched_linkConfirmResponse {token : Text} : Untouched serve state (linkConfirmResponse site headers token) ↔
    ∀ pairing user, LinkLive reads site headers token pairing user →
      Leaves serve state (.linkPairing pairing.id user.id) := by
  obtain ⟨untouched, live⟩ := untouched_resolveLink reading site headers token
  unfold linkConfirmResponse
  rw [untouched_bind, and_iff_right untouched]
  simp only [← live]
  cases yielded serve state (resolveLink site headers token) with
  | dead => simp
  | broken => simp
  | live pairing user =>
    simp only [Resolved.live.injEq, and_imp, forall_eq', forall_apply_eq_imp_iff]
    refine (untouched_last fun answer => ?_).trans untouched_perform
    split <;> trivial

theorem untouched_handle (cookieOnly : bearerToken request.headers = none) :
    Untouched serve state (handle site request) ↔ Harmless serve state reads site request := by
  unfold handle
  split
  · rename_i segment rest path
    unfold Harmless
    rw [untouched_authenticate reading cookieOnly, path]
    simp only [untouched_apiRoute reading]
    split
    · rename_i empty
      simp [ApiRoute.Harmless, empty]
    · rename_i full
      simp only [full, not_false_eq_true, true_imp_iff]
  · rename_i token path
    simp only [Harmless, path]
    split
    · rename_i posted
      simp only [untouched_linkConfirmResponse reading, posted, true_imp_iff, ne_eq, not_false_eq_true]
    · rename_i refused
      exact iff_of_true trivial fun posted named => absurd ⟨posted, named⟩ refused
  · rename_i path notApi notLink
    have page : Harmless serve state reads site request ↔ (request.method = .post → "" ∉ request.path →
        ∀ route ∈ pageRoute request.path, ∀ user, SignedIn reads user request.headers →
          route.Harmless serve state reads site user request.headers request.body) := by
      unfold Harmless
      split
      · rename_i segment rest same
        exact (notApi segment rest same).elim
      · rename_i token same
        exact (notLink token same).elim
      · rfl
    rw [page, untouched_dashboardGate reading]
    · cases pageRoute request.path with
      | none => simp
      | some =>
        simp only [untouched_authenticate reading cookieOnly]
        by_cases posted : request.method = .post ∧ "" ∉ request.path
        · simp [posted, untouched_pageRoute reading]
        · simp only [if_neg posted, untouched_pure, implies_true, true_iff]
          exact fun post full => absurd ⟨post, full⟩ posted
    · intro nobody
      cases pageRoute request.path with
      | none => exact trivial
      | some => exact (untouched_authenticate reading cookieOnly).mpr fun user signedIn => absurd signedIn (nobody user)

end

end

/-- A request by which another page acts for its visitor: nothing but the cookie says who it
is from, and it does not come from the dashboard. -/
structure CrossSite (site : Site) (request : Incoming) : Prop where
  cookieOnly : bearerToken request.headers = none
  elsewhere : request.origin ≠ some ("https://".toList ++ site.baseDomain)

def visitedSite : Site where
  baseDomain := "bento.example.org".toList
  reservedNames := []
  operator := none
  imageAdmin := false
  pairings := false
  now := 0
  quote := id
  hashToken := id
  fromOpenssh text := some ⟨"guest".toList, text⟩
  decoders :=
    { createRequest := fun _ => .error [], renameRequest := fun _ => .error [], resizeRequest := fun _ => .error []
      portRequest := fun _ => .error [], visibilityRequest := fun _ => .error [], shareRequest := fun _ => .error []
      addImageRequest := fun _ => .error [], addSshKeyRequest := fun _ => .error [], newForm :=
        fun _ _ => .error (422, [])
      settingsForm := fun _ _ => .error (422, []), shareForm := fun _ _ => .error (422, [])
      deleteForm := fun _ _ => .error (422, []), imageForm := fun _ _ => .error (422, [])
      keyForm := fun _ body => .ok ⟨body, []⟩ }

def foreignHeaders : HeaderMap :=
  (Multimap.empty.append .cookie ⟨"bento_session=s1".toList, by decide⟩).append Api.origin
    ⟨"https://web.bento.example.org".toList, by decide⟩

def foreignForm (path : List String) : Incoming := ⟨.post, path, foreignHeaders, "ssh-ed25519 AAAA".toList⟩

def visitorReads : (query : Read) → query.Answer
  | .session id => if id = "s1".toList then some ⟨"s1".toList, 7, 0, 1⟩ else none
  | .token _ => .error ()
  | .userById id => if id = 7 then .ok ⟨7, "ada".toList⟩ else .error .notFound
  | .userByName _ => .error .notFound
  | .instanceByUuid _ => .error .notFound
  | .sharesFor _ => .error .notFound
  | .loginUser _ => .ok none
  | .pairingByTokenHash _ => .ok none

def visitorKeys : (call : Call) → List (Int × Text) → call.Answer × List (Int × Text)
  | .read query, keys => (visitorReads query, keys)
  | .write (.addSshKey user key _ _), keys => (.ok 1, (user, key) :: keys)
  | .write (.linkPairing ..), keys => (.error (), keys)
  | .write (.create ..), keys => (.error .notFound, keys)
  | .write (.deleteSshKey user _), keys => (.ok (), keys.filter fun key => key.1 ≠ user)
  | .write (.addShare ..), keys | .write (.removeShare ..), keys
  | .write (.addOciImage ..), keys | .write (.delete _), keys | .write (.act ..), keys | .write (.rename ..), keys
  | .write (.resize ..), keys | .write (.setHttpPort ..), keys | .write (.setVisibility ..), keys =>
    (.error .notFound, keys)

theorem foreignForm_crossSite (path : List String) : CrossSite visitedSite (foreignForm path) where
  cookieOnly := show bearerToken foreignHeaders = none by decide +kernel
  elsewhere :=
    show (foreignHeaders.get Api.origin).bind HeaderValue.toStr ≠
      some ("https://".toList ++ "bento.example.org".toList) by
      decide +kernel

def addsKey : Incoming := foreignForm ["settings", "account", "keys"]

def removesKey : Incoming := foreignForm ["settings", "account", "keys", "1", "remove"]

end Bento
