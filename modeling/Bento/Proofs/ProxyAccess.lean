import Bento.Proofs.Credentials

/-! Who gets through the proxy, and what a visitor who does not can tell. A request reaches
an instance only past every check on it. An instance that is off, or that the visitor has
no access to, looks like a name that nobody has. -/

namespace Bento.Proxy
open Library.Decimal Http

variable {β α : Type}

def lastSeenWrites (answers : (call : Call β) → call.Answer) (handling : Handling β α) : List Text :=
  (handling.calls answers).filterMap fun
    | .touchLastSeen uuid => some uuid
    | _ => none

def observed (answers : (call : Call β) → call.Answer) (handling : Handling β α) : α × List Text × List (Request β) :=
  (handling.result answers, lastSeenWrites answers handling, sent answers handling)

def requestedName (proxy : Proxy) (request : Request β) (serverName : Option Text) : Option Text :=
  labelUnder proxy.instanceDomain (requestHost request serverName)

def Closed (proxy : Proxy) (answers : (call : Call β) → call.Answer) (request : Request β) (guest : Instance) : Prop :=
  guest.visibility = .off ∨
    guest.visibility = .privateOnly ∧ proxy.sessions = true ∧ answers (.access request guest.uuid) = .forbidden

structure Hides (proxy : Proxy) (request : Request β) (serverName : Option Text)
    (hidden missing : (call : Call β) → call.Answer) : Prop where
  closed : ∀ name, requestedName proxy request serverName = some name →
    ∃ guest, hidden (.instanceByName name) = .ok (some guest) ∧ Closed proxy hidden request guest
  absent : ∀ name, requestedName proxy request serverName = some name → missing (.instanceByName name) = .ok none
  others : ∀ call, (∀ name, call ≠ .instanceByName name) → hidden call = missing call

section
variable {proxy : Proxy} {answers hidden missing : (call : Call β) → call.Answer} {request : Request β}
  {serverName : Option Text}

theorem access_granted {guest : Instance} {listenerPort : UInt16}
    (granted : (proxy.access request guest listenerPort).result answers = .granted) :
    (guest.visibility ≠ .privateOnly ∧ listenerPort = proxy.mainPort) ∨ proxy.sessions = true ∧
      answers (.access request guest.uuid) = .granted := by
  unfold access at granted
  split at granted
  next checked =>
    split at granted
    next wired => exact .inr ⟨wired, granted⟩
    next => cases granted
  next open_ => exact .inl (by simpa using open_)

theorem delivered_authority {validAuthority : Text → Bool} {guest : Instance} {port : UInt16} {remote : Text}
    {tls : Bool} {arrived : Request β}
    (arrives : delivered validAuthority guest port remote tls request = some arrived) :
    arrived.uri.authority = some (formatAuthority guest.address port) := by
  unfold delivered at arrives
  dsimp only at arrives
  split at arrives
  · cases arrives
    rfl
  · cases arrives

theorem observed_checkAccess (uuid : Text) (next : Access → Handling β α) :
    observed answers (checkAccess request uuid >>= next) = observed answers (next (answers (.access request uuid))) :=
  rfl

theorem observed_instanceByName (name : Text) (next : Except Unit (Option Instance) → Handling β α) :
    observed answers (instanceByName name >>= next) = observed answers (next (answers (.instanceByName name))) := rfl

theorem observed_closed {guest : Instance} (closed : Closed proxy answers request guest)
    (validAuthority : Text → Bool) (listenerPort : UInt16) (remote : Text) (tls : Bool) :
    observed answers (proxy.handleInstance validAuthority request guest listenerPort remote tls) =
      (notFound, [], []) := by
  unfold handleInstance
  rcases closed with off | ⟨privateOnly, wired, forbidden⟩
  · rw [if_pos off]
    rfl
  · have visible : guest.visibility ≠ .off := by simp [privateOnly]
    have asked : proxy.access request guest listenerPort = checkAccess request guest.uuid := by
      unfold access
      rw [if_pos (.inl privateOnly), if_pos wired]
    rw [if_neg visible, asked, observed_checkAccess, forbidden]
    rfl

theorem observed_control (same : hidden (.control request) = missing (.control request)) :
    observed hidden (callControl request) = observed missing (callControl request) := by
  unfold observed
  exact congrArg (·, [], []) same

theorem observed_hidden (hides : Hides proxy request serverName hidden missing) (validAuthority : Text → Bool)
    (listenerPort : UInt16) (remote : Text) (tls : Bool) :
    observed hidden (proxy.handleConnection validAuthority request listenerPort remote serverName tls) =
      observed missing (proxy.handleConnection validAuthority request listenerPort remote serverName tls) := by
  unfold handleConnection
  dsimp only
  split
  next =>
    split
    · exact observed_control (hides.others _ (by simp))
    · rfl
  next =>
    cases named : labelUnder proxy.instanceDomain (requestHost request serverName) with
    | none => rfl
    | some name =>
      dsimp only
      split
      next => rfl
      next =>
        obtain ⟨guest, found, closed⟩ := hides.closed name named
        rw [observed_instanceByName, observed_instanceByName, found, hides.absent name named]
        exact observed_closed closed validAuthority listenerPort remote tls

/-- A request is handed to the transport only for an instance that is there, up and open to
it, and then goes to the address of that instance. A name that nobody has and the name of
an instance that is off, or closed to a visitor who is known, are answered alike. -/
theorem proxy_guards_instances (proxy : Proxy) (validAuthority : Text → Bool) (request : Request β)
    (listenerPort : UInt16) (remote : Text) (serverName : Option Text) (tls : Bool)
    (answers : (call : Call β) → call.Answer) :
    (∀ forwarded ∈ sent answers (proxy.handleConnection validAuthority request listenerPort remote serverName tls),
      ∃ guest, addressed proxy answers request serverName = some guest ∧ guest.state = .running ∧
        (guest.visibility = .publicPort ∧ listenerPort = proxy.mainPort ∨
          guest.visibility ≠ .off ∧ proxy.sessions = true ∧ answers (.access request guest.uuid) = .granted) ∧
        forwarded.uri.authority = some (formatAuthority guest.address
          (if listenerPort = proxy.mainPort then guest.effectiveHttpPort else listenerPort))) ∧
    ∀ hidden, Hides proxy request serverName hidden answers →
      observed hidden (proxy.handleConnection validAuthority request listenerPort remote serverName tls) =
        observed answers (proxy.handleConnection validAuthority request listenerPort remote serverName tls) := by
  constructor
  · intro forwarded member
    rw [sent_handleConnection] at member
    obtain ⟨guest, entered, arrives⟩ := Option.bind_eq_some_iff.mp (Option.mem_toList.mp member)
    obtain ⟨found, admits⟩ := Option.filter_eq_some_iff.mp entered
    obtain ⟨visible, granted, running⟩ := of_decide_eq_true admits
    refine ⟨guest, found, running, ?_, delivered_authority arrives⟩
    rcases access_granted granted with ⟨shown, main⟩ | ⟨wired, checked⟩
    · refine .inl ⟨?_, main⟩
      cases shownAs : guest.visibility with
      | off => exact absurd shownAs visible
      | privateOnly => exact absurd shownAs shown
      | publicPort => rfl
    · exact .inr ⟨visible, wired, checked⟩
  · intro hidden hides
    exact observed_hidden hides validAuthority listenerPort remote tls

end

def exampleRefusal : (call : Call Unit) → call.Answer
  | .instanceByName _ => .ok (some exampleGuest)
  | .access _ _ => .forbidden
  | .touchLastSeen _ => .ok ()
  | .control _ => notFound
  | .send _ => .error ()
  | .join => ()

def exampleAbsence : (call : Call Unit) → call.Answer
  | .instanceByName _ => .ok none
  | .access _ _ => .forbidden
  | .touchLastSeen _ => .ok ()
  | .control _ => notFound
  | .send _ => .error ()
  | .join => ()

theorem exampleRefusal_hides : Hides exampleProxy firstSession none exampleRefusal exampleAbsence where
  closed _ _ := ⟨exampleGuest, rfl, .inr ⟨rfl, rfl, rfl⟩⟩
  absent _ _ := rfl
  others call other := by
    cases call with
    | instanceByName name => exact absurd rfl (other name)
    | access => rfl
    | touchLastSeen => rfl
    | control => rfl
    | send => rfl
    | join => rfl

def exampleHandling : Handling Unit (Response (Body Unit)) :=
  exampleProxy.handleConnection (fun _ => true) firstSession 443 "192.0.2.1".toList none true

theorem proxy_guards_instances_refused : exampleUpstream firstSession ≠ [] ∧
      (∀ forwarded ∈ exampleUpstream firstSession, forwarded.uri.authority = some "10.0.0.2:80".toList) ∧
      observed exampleRefusal exampleHandling = observed exampleAbsence exampleHandling := by
  have guarded (answers : (call : Call Unit) → call.Answer) :=
    proxy_guards_instances exampleProxy (fun _ => true) firstSession 443 "192.0.2.1".toList none true answers
  refine ⟨by decide, fun forwarded member => ?_, (guarded exampleAbsence).2 exampleRefusal exampleRefusal_hides⟩
  obtain ⟨guest, found, -, -, target⟩ := (guarded exampleAnswers).1 forwarded member
  have named : addressed exampleProxy exampleAnswers firstSession none = some exampleGuest := by decide
  have only : guest = exampleGuest := Option.some.inj (found.symm.trans named)
  subst only
  exact target.trans (by decide)

end Bento.Proxy
