import Bento.Library.Http1
import Bento.Proxy.Handle
import Bento.Tlscert.Manager

/-! The listeners of the proxy: a connection is taken through the TLS handshake, where the
listener terminates TLS, and its requests are then read and handled one after another. -/

namespace Bento.Proxy
open Library Library.Decimal Http Tlscert

structure ClientHello where
  serverName : Option Text
  protocols : List Text

structure TlsSession where
  serverName : Option Text
  protocol : Option Text

/-- How `rustls` answers: with no certificate, or with no protocol in common, the handshake
fails. The first protocol of the server that the client names is selected. -/
def acceptTls (config : ServerConfig) (hello : ClientHello) : Option TlsSession :=
  if config.resolver.isNone then none
  else if hello.protocols = [] ∨ config.alpnProtocols = [] then some ⟨hello.serverName, none⟩
  else (config.alpnProtocols.find? (· ∈ hello.protocols)).map fun protocol => ⟨hello.serverName, some protocol⟩

section
variable {β : Type}

/-- The HTTP/1 server of `hyper` behind the head of a request: `read` takes the body that the
head announces, or refuses the request, and `keeps` tells whether the connection goes on
after the exchange. -/
structure Http1Server (β : Type) where
  read : Http1.Head → Text → Option (Request β × Text)
  keeps : Request β → Bool

def Http1Server.requests (server : Http1Server β) : Nat → Text → List (Request β)
  | 0, _ => []
  | fuel + 1, text =>
    match (Http1.parse text).bind fun (head, rest) => server.read head rest with
    | none => []
    | some (request, rest) => request :: if server.keeps request then server.requests fuel rest else []

def Http1Server.serveConnection (server : Http1Server β) (stream : Text) :
    List (Request β) := server.requests stream.length stream

structure Accepted where
  port : UInt16
  peer : Text
  hello : ClientHello

section
variable (proxy : Proxy) (validAuthority : Text → Bool) (server : Http1Server β)

def runHttp (stream : Text) (port : UInt16) (peer : Text) (serverName : Option Text) (tls : Bool) :
    List (Handling β (Response (Body β))) :=
  (server.serveConnection stream).map fun request =>
    proxy.handleConnection validAuthority request port peer serverName tls

def serveConnection (accepted : Accepted) (tlsConfig : Option ServerConfig) (stream : Text) :
    List (Handling β (Response (Body β))) :=
  match tlsConfig with
  | some config =>
    match acceptTls config accepted.hello with
    | none => []
    | some session => proxy.runHttp validAuthority server stream accepted.port accepted.peer session.serverName true
  | none => proxy.runHttp validAuthority server stream accepted.port accepted.peer none false

end

end

end Bento.Proxy
