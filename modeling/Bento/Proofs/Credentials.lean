import Bento.Proxy.Handle

/-! What an instance gets to see of a visitor's credentials. The proxy reads neither
cookies nor bearer tokens; it asks whoever checks access, and hands both on. So two
requests that differ in credentials alone are handled alike, as far as their access is,
and arrive as they were sent. -/

namespace Bento.Proxy
open Library Library.Decimal Library.Programs Http List Multimap

structure Credentials where
  cookie : Values HeaderValue → Values HeaderValue
  authorization : Values HeaderValue → Values HeaderValue

def Credentials.rewrite (change : Credentials) (name : HeaderName) : Values HeaderValue → Values HeaderValue :=
  if name = .cookie then change.cookie else if name = .authorization then change.authorization else id

variable {β α : Type}

def Credentials.apply (change : Credentials) (request : Request β) : Request β :=
  { request with headers := request.headers.mapValues change.rewrite }

def sent (answers : (call : Call β) → call.Answer) (handling : Handling β α) : List (Request β) :=
  (handling.calls answers).filterMap fun
    | .send request => some request
    | _ => none

def namedByConnection (request : Request β) : List HeaderName :=
  (connectionTokens request.headers).filterMap HeaderName.fromBytes

section
variable {answers : (call : Call β) → call.Answer} {change : Credentials} {request : Request β}

variable {name : HeaderName}

theorem rewrite_other (other : name ≠ .cookie ∧ name ≠ .authorization) (values : Values HeaderValue) :
    change.rewrite name values = values := by
  unfold Credentials.rewrite
  rw [if_neg other.1, if_neg other.2]
  rfl

theorem get_apply (other : name ≠ .cookie ∧ name ≠ .authorization) (headers : HeaderMap) :
    (headers.mapValues change.rewrite).get name = headers.get name :=
  get_mapValues headers (rewrite_other other)

theorem insert_apply (other : name ≠ .cookie ∧ name ≠ .authorization) (headers : HeaderMap) (value : HeaderValue) :
    (headers.mapValues change.rewrite).insert name value = (headers.insert name value).mapValues change.rewrite :=
  insert_mapValues headers (rewrite_other other) value

theorem removeAll_apply (names : List HeaderName) (headers : HeaderMap) :
    names.foldl Multimap.remove (headers.mapValues change.rewrite) =
      (names.foldl Multimap.remove headers).mapValues change.rewrite := by
  induction names generalizing headers with
  | nil => rfl
  | cons name rest ih => rw [foldl_cons, remove_mapValues, ih, foldl_cons]

theorem connectionTokens_apply (headers : HeaderMap) :
    connectionTokens (headers.mapValues change.rewrite) = connectionTokens headers := by
  unfold connectionTokens
  rw [getAll_mapValues headers (rewrite_other (by decide))]

theorem upgradeProtocol_apply (headers : HeaderMap) :
    upgradeProtocol (headers.mapValues change.rewrite) = upgradeProtocol headers := by
  unfold upgradeProtocol
  rw [connectionTokens_apply, get_apply (by decide)]

theorem removeHopByHopHeaders_apply (headers : HeaderMap) : removeHopByHopHeaders (headers.mapValues change.rewrite) =
      (removeHopByHopHeaders headers).mapValues change.rewrite := by
  simp only [removeHopByHopHeaders, connectionTokens_apply, removeAll_apply]

theorem insertUpgrade_apply (headers : HeaderMap) (protocol : Option HeaderValue) :
    insertUpgrade (headers.mapValues change.rewrite) protocol =
      (insertUpgrade headers protocol).mapValues change.rewrite := by
  cases protocol with
  | none => rfl
  | some => simp (disch := decide) only [insertUpgrade, insert_apply]

theorem originalHost_apply (request : Request β) : originalHost (change.apply request) = originalHost request := by
  unfold originalHost Credentials.apply
  rw [get_apply (by decide)]

theorem requestHost_apply (request : Request β) (serverName : Option Text) :
    requestHost (change.apply request) serverName = requestHost request serverName := by
  unfold requestHost
  rw [originalHost_apply]

theorem setForwardedFor_apply (headers : HeaderMap) (remote : Text) :
    setForwardedFor (headers.mapValues change.rewrite) remote =
      (setForwardedFor headers remote).mapValues change.rewrite := by
  unfold setForwardedFor
  split
  · exact insert_apply (by decide) headers _
  · rfl

theorem prepareForward_apply (uri : Uri) (original remote : Text) (tls : Bool) (request : Request β) :
    prepareForward uri original remote tls (change.apply request) =
      change.apply (prepareForward uri original remote tls request) := by
  unfold prepareForward Credentials.apply
  cases HeaderValue.fromStr original <;>
    simp (disch := decide) only [removeAll_apply, insert_apply, setForwardedFor_apply]

theorem sent_bind (program : Handling β α) {γ : Type} (next : α → Handling β γ) :
    sent answers (program >>= next) = sent answers program ++ sent answers (next (program.result answers)) := by
  unfold sent
  rw [Program.calls_bind, filterMap_append]

theorem sent_sendUpgradable (prepare : Request β → Request β) (request : Request β) :
    sent answers (sendUpgradable request prepare) = [prepare { request with
      headers := insertUpgrade (removeHopByHopHeaders request.headers) (upgradeProtocol request.headers) }] := by
  unfold sendUpgradable
  rw [sent_bind]
  refine congrArg (List.cons _) ?_
  split
  · rfl
  · split <;> rfl

def delivered (validAuthority : Text → Bool) (guest : Instance) (targetPort : UInt16) (remote : Text) (tls : Bool)
    (request : Request β) : Option (Request β) :=
  let target := formatAuthority guest.address targetPort
  let uri : Uri := { scheme := some "http".toList, authority := some target,
                     pathAndQuery := some (request.uri.pathAndQuery.getD ['/']) }
  if validAuthority target then
    some (prepareForward uri (originalHost request) remote tls { request with
      headers := insertUpgrade (removeHopByHopHeaders request.headers) (upgradeProtocol request.headers) })
  else none

variable (proxy : Proxy) (validAuthority : Text → Bool) (guest : Instance) (listenerPort : UInt16) (remote : Text)
  (tls : Bool)

theorem sent_forward (targetPort : UInt16) : sent answers (forward validAuthority request guest targetPort remote tls) =
      (delivered validAuthority guest targetPort remote tls request).toList := by
  unfold forward delivered
  dsimp only
  split
  · rw [sent_bind, sent_sendUpgradable]
    refine congrArg (List.cons _) ?_
    split <;> rfl
  · rfl

def Admits (proxy : Proxy) (answers : (call : Call β) → call.Answer) (request : Request β) (listenerPort : UInt16)
    (guest : Instance) : Prop :=
  guest.visibility ≠ .off ∧ (proxy.access request guest listenerPort).result answers = .granted ∧
    guest.state = .running

instance (proxy : Proxy) (request : Request β) (listenerPort : UInt16) (guest : Instance) :
    Decidable (Admits proxy answers request listenerPort guest) := inferInstanceAs (Decidable (_ ∧ _))

def targetPort (proxy : Proxy) (listenerPort : UInt16) (guest : Instance) : UInt16 :=
  if listenerPort = proxy.mainPort then guest.effectiveHttpPort else listenerPort

theorem sent_access : sent answers (proxy.access request guest listenerPort) = [] := by
  unfold access
  split
  · split <;> rfl
  · rfl

theorem sent_recordLastSeen : sent answers (proxy.recordLastSeen guest) = [] := by
  unfold recordLastSeen
  split <;> rfl

theorem sent_handleInstance : sent answers (proxy.handleInstance validAuthority request guest listenerPort remote tls) =
      if Admits proxy answers request listenerPort guest then
        (delivered validAuthority guest (targetPort proxy listenerPort guest) remote tls request).toList else [] := by
  have refused : ∀ {response}, ¬ Admits proxy answers request listenerPort guest →
      sent answers (pure response : Handling β (Response (Body β))) =
        if Admits proxy answers request listenerPort guest then
          (delivered validAuthority guest (targetPort proxy listenerPort guest) remote tls request).toList
        else [] := fun closed => (if_neg closed).symm
  unfold handleInstance
  split
  next off => exact refused fun admits => admits.1 off
  next visible =>
    rw [sent_bind, sent_access, nil_append]
    cases access : (proxy.access request guest listenerPort).result answers with
    | unauthenticated | forbidden => exact refused fun admits => absurd (access.symm.trans admits.2.1) (by decide)
    | granted =>
      dsimp only
      split
      next down => exact refused fun admits => down admits.2.2
      next up =>
        have admits : Admits proxy answers request listenerPort guest := ⟨visible, access, not_not.mp up⟩
        rw [sent_bind, sent_recordLastSeen, sent_forward, nil_append, if_pos admits]
        rfl

def addressed (proxy : Proxy) (answers : (call : Call β) → call.Answer) (request : Request β)
    (serverName : Option Text) : Option Instance :=
  let host := requestHost request serverName
  if host = proxy.baseDomain then none
  else (labelUnder proxy.instanceDomain host).bind fun name =>
    if name = [] ∨ '.' ∈ name then none
    else match answers (.instanceByName name) with
      | .ok guest => guest
      | .error _ => none

theorem sent_handleConnection (serverName : Option Text) :
    sent answers (proxy.handleConnection validAuthority request listenerPort remote serverName tls) =
      (((addressed proxy answers request serverName).filter
        (Admits proxy answers request listenerPort)).bind fun guest =>
        delivered validAuthority guest (targetPort proxy listenerPort guest) remote tls request).toList := by
  unfold handleConnection addressed
  dsimp only
  split
  next => split <;> rfl
  next =>
    cases labelUnder proxy.instanceDomain (requestHost request serverName) with
    | none => rfl
    | some name =>
      simp only [Option.bind_some]
      split
      next => rfl
      next =>
        have quiet : sent answers (instanceByName name) = [] := rfl
        have looked : (instanceByName name).result answers = answers (.instanceByName name) := rfl
        rw [sent_bind, quiet, looked, nil_append]
        cases answers (.instanceByName name) with
        | error => rfl
        | ok found =>
          cases found with
          | none => rfl
          | some guest =>
            dsimp only
            rw [sent_handleInstance]
            by_cases admits : Admits proxy answers request listenerPort guest
            · simp [Option.filter, admits]
            · simp [Option.filter, admits]

theorem delivered_apply (targetPort : UInt16) (request : Request β) :
    delivered validAuthority guest targetPort remote tls (change.apply request) =
      (delivered validAuthority guest targetPort remote tls request).map change.apply := by
  unfold delivered
  rw [originalHost_apply]
  dsimp only
  split
  · rw [Option.map_some, ← prepareForward_apply]
    simp only [Credentials.apply, upgradeProtocol_apply, removeHopByHopHeaders_apply, insertUpgrade_apply]
  · rfl

theorem admits_apply (alike : ∀ uuid, answers (.access (change.apply request) uuid) = answers (.access request uuid)) :
    Admits proxy answers (change.apply request) listenerPort guest ↔
      Admits proxy answers request listenerPort guest := by
  have same : (proxy.access (change.apply request) guest listenerPort).result answers =
      (proxy.access request guest listenerPort).result answers := by
    unfold access
    split
    · split
      · exact alike guest.uuid
      · rfl
    · rfl
  unfold Admits
  rw [same]

theorem values_removeAll {names : List HeaderName} (headers : HeaderMap) :
    (names.foldl Multimap.remove headers).values name = if name ∈ names then none else headers.values name := by
  induction names generalizing headers with
  | nil => rfl
  | cons first rest ih =>
    rw [foldl_cons, ih, values_remove]
    by_cases same : name = first <;> by_cases later : name ∈ rest <;> simp [same, later]

theorem values_insert {key : HeaderName} (other : name ≠ key) (headers : HeaderMap)
    (value : HeaderValue) : (headers.insert key value).values name = headers.values name :=
  values_alter_of_ne other headers _

theorem values_insert_self (headers : HeaderMap) (value : HeaderValue) :
    (headers.insert name value).values name = some (value, []) := values_alter_self headers name _

def ownUpgrade (upgrade : Option HeaderValue) (name : HeaderName) : Option (Values HeaderValue) :=
  upgrade.bind fun protocol =>
    if name = .upgrade then some (protocol, [])
    else if name = .connection then (HeaderValue.fromStr "upgrade".toList).map (·, []) else none

/-- Of the connection's own headers only an upgrade is passed on, in the proxy's words, and
nothing that the `connection` header names. -/
def passedOn (upgrade : Option HeaderValue) (headers : HeaderMap) (name : HeaderName) : Option (Values HeaderValue) :=
  if name ∈ hopByHopHeaders then ownUpgrade upgrade name
  else if name ∈ (connectionTokens headers).filterMap HeaderName.fromBytes then none
  else headers.values name

theorem values_passedOn (headers : HeaderMap) (upgrade : Option HeaderValue) :
    (insertUpgrade (removeHopByHopHeaders headers) upgrade).values name = passedOn upgrade headers name := by
  have removed : (removeHopByHopHeaders headers).values name = passedOn none headers name := by
    unfold removeHopByHopHeaders
    rw [values_removeAll, values_removeAll]
    rfl
  cases upgrade with
  | none => exact removed
  | some =>
    unfold insertUpgrade
    by_cases last : name = .upgrade
    · rw [last, values_insert_self]
      rfl
    rw [values_insert last]
    by_cases first : name = .connection
    · rw [first, values_insert_self]
      rfl
    rw [values_insert first, removed]
    simp [passedOn, ownUpgrade, last, first]

def forwardingHeaders : List HeaderName := [.forwarded, .xForwardedFor, .xForwardedHost, .xForwardedProto, .host]

theorem values_prepareForward (other : name ∉ forwardingHeaders) (uri : Uri) (original : Text) (request : Request β) :
    (prepareForward uri original remote tls request).headers.values name = request.headers.values name := by
  simp only [forwardingHeaders, mem_cons, not_mem_nil, or_false, not_or] at other
  unfold prepareForward setForwardedFor
  cases HeaderValue.fromStr original <;> cases HeaderValue.fromStr remote <;> simp [values_insert, values_remove, other]

variable {validAuthority guest remote tls}

theorem values_delivered (credential : name = .cookie ∨ name = .authorization) {targetPort : UInt16}
    {arrived : Request β} (arrives : delivered validAuthority guest targetPort remote tls request = some arrived) :
    arrived.headers.values name =
      if name ∈ namedByConnection request then none else request.headers.values name := by
  unfold delivered at arrives
  dsimp only at arrives
  split at arrives
  · cases arrives
    rw [values_prepareForward _ _ (by rcases credential with rfl | rfl <;> decide), values_passedOn]
    exact if_neg (by rcases credential with rfl | rfl <;> decide)
  · cases arrives

/-- Two requests that differ in their credentials alone, and have the same access, lead to
the same requests to the instance but for those credentials. Cookies and bearer tokens get
there as they were sent, unless the client's own `connection` header names them. -/
theorem credentials_passed_on (proxy : Proxy) (validAuthority : Text → Bool) (listenerPort : UInt16) (remote : Text)
    (serverName : Option Text) (tls : Bool) (answers : (call : Call β) → call.Answer) (request : Request β)
    (change : Credentials) (alike : ∀ uuid, answers (.access (change.apply request) uuid) =
      answers (.access request uuid)) :
    sent answers (proxy.handleConnection validAuthority (change.apply request) listenerPort remote serverName tls) =
        (sent answers (proxy.handleConnection validAuthority request listenerPort remote serverName tls)).map
          change.apply ∧
      ∀ arrived ∈ sent answers (proxy.handleConnection validAuthority request listenerPort remote serverName tls),
        ∀ name, name = .cookie ∨ name = .authorization → arrived.headers.values name =
          if name ∈ namedByConnection request then none else request.headers.values name := by
  simp only [sent_handleConnection]
  constructor
  · have named : addressed proxy answers (change.apply request) serverName =
      addressed proxy answers request serverName := by
      unfold addressed
      rw [requestHost_apply]
    simp only [named, admits_apply _ _ _ alike, delivered_apply]
    rw [← Option.toList_map, Option.map_bind]
    rfl
  · intro arrived member name credential
    obtain ⟨guest, -, arrives⟩ := Option.bind_eq_some_iff.mp (Option.mem_toList.mp member)
    exact values_delivered credential arrives

end

def exampleGuest : Instance where
  uuid := "a".toList
  name := "web".toList
  state := .running
  address := "10.0.0.2".toList
  httpPort := 0
  visibility := .privateOnly

def exampleProxy : Proxy where
  baseDomain := "bento.example.org".toList
  instanceDomain := "bento.example.org".toList
  sessions := true
  control := true
  lastSeen := true
  loginUrl := "https://bento.example.org/login".toList
  mainPort := 443

def exampleAnswers : (call : Call Unit) → call.Answer
  | .instanceByName _ => .ok (some exampleGuest)
  | .access _ _ => .granted
  | .touchLastSeen _ => .ok ()
  | .control _ => notFound
  | .send _ => .error ()
  | .join => ()

theorem exampleAnswers_access (request : Request Unit) (uuid : Text) :
    exampleAnswers (.access request uuid) = .granted := rfl

def exampleVisit (name : HeaderName) (value : HeaderValue) : Request Unit where
  uri := { scheme := none, authority := none, pathAndQuery := some ['/'] }
  headers := (Multimap.empty.insert .host ⟨"web.bento.example.org".toList, by decide⟩).insert name value
  rest := ()

def exampleUpstream (request : Request Unit) : List (Request Unit) :=
  sent exampleAnswers (exampleProxy.handleConnection (fun _ => true) request 443 "192.0.2.1".toList none true)

def firstSession : Request Unit := exampleVisit .cookie ⟨"bento_session=first".toList, by decide⟩
def secondSession : Request Unit := exampleVisit .cookie ⟨"bento_session=second".toList, by decide⟩
def firstToken : Request Unit := exampleVisit .authorization ⟨"Bearer bento_first".toList, by decide⟩
def secondToken : Request Unit := exampleVisit .authorization ⟨"Bearer bento_second".toList, by decide⟩

def exampleChange : Credentials where
  cookie _ := (⟨"bento_session=second".toList, by decide⟩, [])
  authorization := id

theorem credentials_passed_on_example : exampleChange.apply firstSession = secondSession ∧
    exampleUpstream firstSession ≠ [] ∧
      exampleUpstream (exampleChange.apply firstSession) = (exampleUpstream firstSession).map exampleChange.apply := by
  refine ⟨by decide, by decide, ?_⟩
  apply (credentials_passed_on exampleProxy (fun _ => true) 443 "192.0.2.1".toList none true exampleAnswers
    firstSession exampleChange ?_).1
  intro uuid
  rw [exampleAnswers_access, exampleAnswers_access]

/-- Another session or another token makes another request to the instance. -/
theorem credentials_seen :
    (∀ first second uuid, exampleAnswers (.access first uuid) = exampleAnswers (.access second uuid)) ∧
    exampleUpstream firstSession ≠ exampleUpstream secondSession ∧
      exampleUpstream firstToken ≠ exampleUpstream secondToken := by
  refine ⟨fun first second uuid => ?_, by decide, by decide⟩
  rw [exampleAnswers_access, exampleAnswers_access]

end Bento.Proxy
