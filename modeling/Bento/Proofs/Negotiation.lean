import Bento.Bentod.Wiring
import Bento.Proxy.Listen

/-! Which protocol a handshake selects, and which one is then read from the connection. The
configuration names HTTP/2 first; the listener reads HTTP/1. -/

namespace Bento.Proxy
open Library Library.Decimal Http Tlscert List

inductive Spoken where
  | http1
  | http2

def TlsSession.spoken (session : TlsSession) : Spoken := if session.protocol = some h2 then .http2 else .http1

section
variable {β : Type}

/-- A text is a request of HTTP/1: a head, and a body that the server takes for that of the
head whatever follows. -/
def Http1Server.Written (server : Http1Server β) (request : Request β) (text : Text) : Prop :=
  ∃ head body, Http1.Head.Valid head ∧ text = head.encode ++ body ∧
    ∀ rest, server.read head (body ++ rest) = some (request, rest)

/-- Requests of HTTP/1 one after another. Nothing follows a request that ends the connection. -/
inductive Http1Server.Stream (server : Http1Server β) : List (Request β) → Text → Prop
  | nil : Stream server [] []
  | last {request : Request β} {text : Text} (written : server.Written request text) : Stream server [request] text
  | cons {request : Request β} {requests : List (Request β)} {text rest : Text} (written : server.Written request text)
      (keeps : server.keeps request = true) (more : Stream server requests rest) :
      Stream server (request :: requests) (text ++ rest)

def Spoken.Sends (server : Http1Server β) (frames : List (Request β) → Text → Prop)
    (requests : List (Request β)) (stream : Text) :
    Spoken → Prop
  | .http1 => server.Stream requests stream
  | .http2 => ∃ rest, stream = Http1.preface ++ rest ∧ frames requests rest

section
variable {server : Http1Server β}

theorem Http1Server.Written.requests {request : Request β} {text : Text} (written : server.Written request text)
    (fuel : Nat) (rest : Text) :
    server.requests (fuel + 1) (text ++ rest) =
      request :: if server.keeps request then server.requests fuel rest else [] := by
  obtain ⟨head, body, valid, rfl, reads⟩ := written
  simp only [Http1Server.requests, append_assoc, Http1.parse_encode valid, Option.bind_some, reads]

theorem Http1Server.Written.length_pos {request : Request β} {text : Text} (written : server.Written request text) :
    0 < text.length := by
  obtain ⟨head, body, -, rfl, -⟩ := written
  simp [Http1.Head.encode]

theorem Http1Server.Stream.requests {requests : List (Request β)} {stream : Text}
    (sent : server.Stream requests stream) {fuel : Nat} (enough : stream.length ≤ fuel) :
    server.requests fuel stream = requests := by
  induction sent generalizing fuel with
  | nil => cases fuel <;> rfl
  | @last request text written =>
    obtain ⟨fuel, rfl⟩ := Nat.exists_eq_succ_of_ne_zero (Nat.ne_of_gt (written.length_pos.trans_le enough))
    have read := written.requests fuel []
    rw [append_nil] at read
    rw [read]
    cases fuel <;> simp [Http1Server.requests, Http1.parse, Http1.takeLine, splitOnce]
  | @cons request requests text rest written keeps more ih =>
    rw [length_append] at enough
    have some := written.length_pos
    obtain ⟨fuel, rfl⟩ := Nat.exists_eq_succ_of_ne_zero (Nat.ne_of_gt (some.trans_le (Nat.le_of_add_right_le enough)))
    rw [written.requests, if_pos keeps, ih (by omega)]

theorem Http1Server.serveConnection_preface (rest : Text) : server.serveConnection (Http1.preface ++ rest) = [] := by
  unfold Http1Server.serveConnection
  cases (Http1.preface ++ rest).length with
  | zero => rfl
  | succ => simp only [Http1Server.requests, Http1.parse_preface, Option.bind_none]

end

theorem protocol_of_accepted {config : ServerConfig} {hello : ClientHello} {session : TlsSession}
    (accepted : acceptTls config hello = some session) :
    (hello.protocols = [] ∨ config.alpnProtocols = []) ∧ session.protocol = none ∨
      ∃ protocol, config.alpnProtocols.find? (· ∈ hello.protocols) = some protocol ∧
        session.protocol = some protocol := by
  unfold acceptTls at accepted
  split at accepted
  · cases accepted
  · split at accepted
    next silent =>
      cases accepted
      exact .inl ⟨silent, rfl⟩
    next =>
      obtain ⟨protocol, found, rfl⟩ := Option.map_eq_some_iff.mp accepted
      exact .inr ⟨protocol, found, rfl⟩

theorem spoken_of_accepted {manager : Manager} {hello : ClientHello} {session : TlsSession}
    (accepted : acceptTls manager.tlsConfig hello = some session) : session.spoken = .http1 ↔ h2 ∉ hello.protocols := by
  have spoken : session.spoken = .http1 ↔ session.protocol ≠ some h2 := by
    unfold TlsSession.spoken
    split <;> simp [*]
  rw [spoken]
  rcases protocol_of_accepted accepted with ⟨silent, none⟩ | ⟨protocol, found, selected⟩
  · rw [none, silent.resolve_right (cons_ne_nil _ _)]
    simp
  · have named := List.find?_some found
    simp only [decide_eq_true_eq] at named
    rw [selected]
    constructor
    · -- The server's first choice is passed over only where the client does not name it.
      intro other offered
      have first : manager.tlsConfig.alpnProtocols.find? (· ∈ hello.protocols) = some h2 :=
        List.find?_cons_of_pos (decide_eq_true offered)
      exact other (found.symm.trans first)
    · rintro absent ⟨⟩
      exact absent named

/-- For every client: the protocol that the handshake selects is read from the connection,
and every request sent in it handled, exactly when the client does not name HTTP/2. -/
theorem selected_is_served_iff (proxy : Proxy) (validAuthority : Text → Bool) (server : Http1Server β)
    (frames : List (Request β) → Text → Prop) (manager : Manager) (accepted : Accepted) (session : TlsSession)
    (completed : acceptTls manager.tlsConfig accepted.hello = some session)
    (requests : List (Request β)) (stream : Text) (sent : session.spoken.Sends server frames requests stream) :
    (session.spoken = .http1 ∧
      proxy.serveConnection validAuthority server accepted (Termination.here manager).tlsConfig stream =
        requests.map fun request =>
          proxy.handleConnection validAuthority request accepted.port accepted.peer session.serverName true) ↔
            h2 ∉ accepted.hello.protocols := by
  rw [← spoken_of_accepted completed, and_iff_left_iff_imp]
  intro older
  rw [older] at sent
  simp only [serveConnection, Termination.tlsConfig, completed, runHttp, Http1Server.serveConnection]
  rw [Http1Server.Stream.requests sent le_rfl]

end

def bodiless : Http1Server Unit where
  read head rest := some (⟨⟨none, none, some head.target⟩, .empty, ()⟩, rest)
  keeps _ := true

def shownCertificate : LoadedCertificate := ⟨⟨["bento.example.org".toList], 90 * day, 1⟩, 1, rfl⟩

def shownManager : Manager :=
  .ofLoaded [] ⟨[], "bento.example.org".toList, [], true, "acme".toList, [], 0⟩ "bento.example.org".toList
    "bento.example.org".toList
    (some shownCertificate)

def offering (protocols : List Text) : Accepted :=
  ⟨443, "192.0.2.7".toList, ⟨some "bento.example.org".toList, protocols⟩⟩

def shownProxy : Proxy := ⟨"bento.example.org".toList, "bento.example.org".toList, true, true, true, [], 443⟩

def getRoot : Http1.Head := ⟨"GET".toList, "/".toList, [("host".toList, "bento.example.org".toList)]⟩

def rootRequest : Request Unit := ⟨⟨none, none, some "/".toList⟩, .empty, ()⟩

theorem selected_is_served_older :
    shownProxy.serveConnection (fun _ => true) bodiless (offering [http11])
      (Termination.here shownManager).tlsConfig getRoot.encode =
      [shownProxy.handleConnection (fun _ => true) rootRequest 443 "192.0.2.7".toList
        (some "bento.example.org".toList) true] := by
  have valid : getRoot.Valid := by
    refine ⟨by decide, by decide, fun field listed => ?_⟩
    cases List.mem_singleton.mp listed
    exact ⟨by decide, by decide, by decide, by decide⟩
  have written : bodiless.Written rootRequest getRoot.encode := ⟨getRoot, [], valid, (append_nil _).symm, fun _ => rfl⟩
  exact ((selected_is_served_iff shownProxy (fun _ => true) bodiless (fun _ _ => False) shownManager (offering [http11])
    ⟨some "bento.example.org".toList, some http11⟩ (by rfl) [rootRequest] getRoot.encode (.last written)).mpr
      (by decide)).2

/-- A client that names both gets HTTP/2, and nothing it then sends is handled. -/
theorem named_http2_unserved :
    ∃ session, acceptTls shownManager.tlsConfig (offering [h2, http11]).hello = some session ∧
    session.protocol = some h2 ∧
    ∀ (server : Http1Server Unit) (rest : Text),
      shownProxy.serveConnection (fun _ => true) server (offering [h2, http11])
        (Termination.here shownManager).tlsConfig
        (Http1.preface ++ rest) = [] := by
  refine ⟨⟨some "bento.example.org".toList, some h2⟩, rfl, rfl, fun server rest => ?_⟩
  have selected : acceptTls shownManager.tlsConfig (offering [h2, http11]).hello =
    some ⟨some "bento.example.org".toList, some h2⟩ := rfl
  simp only [serveConnection, Termination.tlsConfig, selected, runHttp, Http1Server.serveConnection_preface, map_nil]

end Bento.Proxy
