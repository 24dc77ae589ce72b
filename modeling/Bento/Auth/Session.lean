import Bento.Auth.Redirect
import Bento.Library.HttpDate
import Bento.Library.Percent

/-! The cookies that the login service writes and reads, and the token a request may carry in
their place. Instants are nanoseconds from 1970-01-01T00:00:00Z. -/

namespace Bento.Auth
open Library Library.Decimal Library.HttpDate Http

def sessionCookieName : Text := "bento_session".toList
def stateCookieName : Text := "bento_oauth_state".toList
def nonceCookieName : Text := "bento_oauth_nonce".toList
def nextCookieName : Text := "bento_login_next".toList

def flowCookieTtlSeconds : Int := 10 * 60

def cookieEncodeSet (char : Char) : Bool := char < ' ' || char = '\x7f' || char ∈ " \"%,;\\".toList

def encodeCookieValue (value : Text) : Text := Percent.encode cookieEncodeSet value

def cookieText (name value : Text) (domain : Option Text) (expires maxAge : Option Int) : Text :=
  let cookie := name ++ '=' :: encodeCookieValue value ++ "; Path=/".toList
  let cookie := match domain with
    | some domain => cookie ++ "; Domain=".toList ++ domain
    | none => cookie
  let cookie := match expires with
    | some expires => cookie ++ "; Expires=".toList ++ httpDate (expires / 1000000000)
    | none => cookie
  let cookie := match maxAge with
    | some maxAge => cookie ++ "; Max-Age=".toList ++ integer maxAge
    | none => cookie
  cookie ++ "; HttpOnly; Secure; SameSite=Lax".toList

def cookieHeader (name value : Text) (domain : Option Text) (expires maxAge : Option Int) : Option HeaderValue :=
  HeaderValue.fromStr (cookieText name value domain expires maxAge)

def hostCookie (name value : Text) (maxAge : Int) : Option HeaderValue :=
  cookieHeader name value none none (some maxAge)

def flowCookie (name value : Text) : Option HeaderValue :=
  hostCookie name value (if value = [] then -1 else flowCookieTtlSeconds)

def cookieValue (headers : HeaderMap) (name : Text) : Option Text :=
  let pairs := ((headers.getAll .cookie).filterMap HeaderValue.toStr).flatMap (List.splitOn ';')
  (pairs.filterMap fun pair => splitOnce '=' (trim pair)).findSome? fun (candidate, value) =>
    if candidate = name then Percent.decode value else none

def bearerToken (headers : HeaderMap) : Option Text :=
  ((headers.get .authorization).bind HeaderValue.toStr).bind fun header =>
    if header.length ≤ 7 ∨ lowercase (header.take 7) ≠ "bearer ".toList then none
    else if trim (header.drop 7) = [] then none
    else some (trim (header.drop 7))

structure Session where
  id : Text
  userId : Int
  createdAt : Int
  expiresAt : Int

def Service.sessionCookie (service : Service) (session : Session) : Option HeaderValue :=
  cookieHeader sessionCookieName session.id (some service.baseDomain.text) (some session.expiresAt) none

structure Claims where
  subject : Text
  email : Text
  nonce : Text
  preferredUsername : Text
  name : Text

structure User where
  id : Int
  name : Text
deriving DecidableEq

end Bento.Auth
