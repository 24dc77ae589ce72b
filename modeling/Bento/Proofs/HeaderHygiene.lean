import Bento.Proofs.Credentials

/-! The headers that reach a guest: those of the connection are gone, and the ones that the
proxy adds are there once, with what the proxy itself knows. -/

namespace Bento.Proxy
open Library Library.Decimal Library.Programs Http Option

def Once (headers : HeaderMap) (name : HeaderName) (text : Text) : Prop :=
  ∃ value, headers.values name = some (value, []) ∧ value.text = text

section
variable {β : Type} {request : Request β} {validAuthority : Text → Bool} {guest : Instance} {targetPort : UInt16}
  {remote : Text} {tls : Bool}

theorem fromStr_originalHost (authority : ∀ text ∈ request.uri.authority, (HeaderValue.fromStr text).isSome) :
    ∃ host, HeaderValue.fromStr (originalHost request) = some host := by
  apply Option.isSome_iff_exists.mp
  unfold originalHost
  cases sent : (request.headers.get .host).bind HeaderValue.toStr with
  | some text =>
    obtain ⟨value, -, read⟩ := Option.bind_eq_some_iff.mp sent
    unfold HeaderValue.toStr at read
    split at read <;> cases read
    change (HeaderValue.fromStr value.text).isSome
    rw [HeaderValue.fromStr, dif_pos value.valid]
    rfl
  | none =>
    cases known : request.uri.authority with
    | some text => exact authority text known
    | none => rfl

structure Forwarded (original remote : Text) (tls : Bool) (headers : HeaderMap) : Prop where
  peer : Once headers .xForwardedFor remote
  scheme : Once headers .xForwardedProto (if tls then "https".toList else "http".toList)
  host : Once headers .xForwardedHost original
  own : Once headers .host original
  forwarded : headers.values .forwarded = none

theorem forwarded_prepareForward {original : Text} {host peer : HeaderValue}
    (hosted : HeaderValue.fromStr original = some host) (reached : HeaderValue.fromStr remote = some peer) (uri : Uri) :
    Forwarded original remote tls (prepareForward uri original remote tls request).headers := by
  simp only [prepareForward, setForwardedFor, hosted, reached]
  refine ⟨⟨peer, values_insert_self .., text_of_fromStr reached⟩, ?_, ⟨host, ?_, text_of_fromStr hosted⟩,
    ⟨host, ?_, text_of_fromStr hosted⟩, ?_⟩
  · refine ⟨_, (values_insert (by decide) ..).trans (values_insert_self ..), ?_⟩
    cases tls <;> rfl
  · simp (disch := decide) only [values_insert, values_insert_self]
  · simp (disch := decide) only [values_insert, values_insert_self]
  · simp (disch := decide) only [values_insert, values_removeAll]
    rfl

def agreedUpgrade (request : Request β) (response : Response (Body β)) : Option HeaderValue :=
  if response.status = 101 ∧ upgradeProtocol response.headers = upgradeProtocol request.headers then
    upgradeProtocol request.headers else none

theorem headers_forward {arrived : Request β} {answers : (call : Call β) → call.Answer} {response : Response (Body β)}
    (arrives : delivered validAuthority guest targetPort remote tls request = some arrived)
    (answered : answers (.send arrived) = .ok response) :
    ((forward validAuthority request guest targetPort remote tls).result answers).headers =
      insertUpgrade (removeHopByHopHeaders response.headers) (agreedUpgrade request response) := by
  unfold delivered at arrives
  unfold forward
  dsimp only at arrives ⊢
  split at arrives
  next valid =>
    cases arrives
    rw [if_pos valid, Program.result_bind, sendUpgradable, Program.result_bind,
      show (send _ : Handling β _).result answers = _ from answered]
    unfold agreedUpgrade
    cases upgradeProtocol request.headers with
    | none =>
      simp only [isSome_none, Bool.false_eq_true, false_and, if_false, ite_self]
      rfl
    | some protocol =>
      by_cases agreed : response.status = 101 ∧ upgradeProtocol response.headers = some protocol
      · simp only [isSome_some, true_and, if_pos agreed]
        rfl
      · simp only [isSome_some, true_and, if_neg agreed]
        rfl
  next => cases arrives

/-- Neither the peer's address nor the authority of a URI has a character that a header cannot
have. -/
theorem headers_clean (validAuthority : Text → Bool) (request : Request β) (guest : Instance) (targetPort : UInt16)
    (remote : Text) (tls : Bool) (answers : (call : Call β) → call.Answer) (peer : (HeaderValue.fromStr remote).isSome)
    (authority : ∀ text ∈ request.uri.authority, (HeaderValue.fromStr text).isSome) :
    ∀ arrived ∈ sent answers (forward validAuthority request guest targetPort remote tls),
      Forwarded (originalHost request) remote tls arrived.headers ∧
      (∀ name ∉ forwardingHeaders, arrived.headers.values name =
        passedOn (upgradeProtocol request.headers) request.headers name) ∧
      ∀ response, answers (.send arrived) = .ok response → ∀ name,
        ((forward validAuthority request guest targetPort remote tls).result answers).headers.values name =
          passedOn (agreedUpgrade request response) response.headers name := by
  intro arrived listed
  rw [sent_forward, mem_toList] at listed
  obtain ⟨host, hosted⟩ := fromStr_originalHost authority
  obtain ⟨address, reached⟩ := Option.isSome_iff_exists.mp peer
  refine ⟨?_, fun name other => ?_, fun response answered name => ?_⟩
  · unfold delivered at listed
    dsimp only at listed
    split at listed <;> cases listed
    exact forwarded_prepareForward hosted reached _
  · unfold delivered at listed
    dsimp only at listed
    split at listed <;> cases listed
    rw [values_prepareForward _ _ other, values_passedOn]
  · rw [headers_forward listed answered, values_passedOn]

end

def crossed : Request Unit where
  uri := { scheme := none, authority := some "web.bento.example.org".toList, pathAndQuery := some ['/'] }
  headers := ((Multimap.empty.insert .connection ⟨"host".toList, by decide⟩).insert .cookie ⟨['a'], by decide⟩).insert
    .contentType .textPlain
  rest := ()

def crossing : Handling Unit (Response (Body Unit)) :=
  forward (fun _ => true) crossed exampleGuest 80 "192.0.2.1".toList false

theorem headers_clean_crossed : sent exampleAnswers crossing ≠ [] ∧
    ∀ arrived ∈ sent exampleAnswers crossing, Once arrived.headers .xForwardedFor "192.0.2.1".toList :=
  ⟨by decide, fun arrived listed =>
    (headers_clean _ crossed exampleGuest 80 _ false exampleAnswers (by decide) (by decide) arrived listed).1.1⟩

/-- A header that is taken out leaves its place to the last one, and the host is there though
the `connection` header names it. -/
theorem headers_reordered : crossed.headers.entries.map Prod.fst = [.connection, .cookie, .contentType] ∧
    namedByConnection crossed = [.host] ∧
      (sent exampleAnswers crossing).map (fun arrived => arrived.headers.entries.map Prod.fst) =
        [[.contentType, .cookie, .host, .xForwardedHost, .xForwardedProto, .xForwardedFor]] := by
  decide

end Bento.Proxy
