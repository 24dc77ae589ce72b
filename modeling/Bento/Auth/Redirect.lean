import Bento.Http
import Bento.Library.Url

/-! Where the controller sends a browser after a login. The target comes from the browser:
it is checked when the login starts, kept in a cookie, and checked again before the
redirect is written. -/

namespace Bento.Auth
open Library Library.Decimal Http

/-- `instanceNames` tells whether a label names an instance, where that lookup is wired. -/
structure Service where
  baseDomain : Domain
  instanceDomain : Domain
  instanceNames : Option (Text → Bool)

namespace Service

def new (baseDomain : Text) : Service :=
  { baseDomain := .of baseDomain, instanceDomain := .of baseDomain, instanceNames := none }

def withInstanceDomain (service : Service) (domain : Text) : Service :=
  if (Domain.of domain).text = [] then service else { service with instanceDomain := .of domain }

def withInstanceNames (service : Service) (names : Text → Bool) : Service :=
  { service with instanceNames := some names }

end Service

abbrev HttpResponse := Response Text

def textResponse (status : Nat) (message : Text) : HttpResponse where
  status := status
  headers := Multimap.empty.insert .contentType .textPlain
  body := message

def redirectResponse (location : Text) : HttpResponse :=
  match HeaderValue.fromStr location with
  | none => textResponse 500 "invalid redirect target\n".toList
  | some location => { status := 302, headers := Multimap.empty.insert .location location, body := [] }

def appendCookie (response : HttpResponse) (cookie : HeaderValue) : HttpResponse :=
  { response with headers := response.headers.append .setCookie cookie }

def root : Text := ['/']

section
variable (hostParse : Text → Option Text)

namespace Service

def safeNext (service : Service) (next : Text) : Text :=
  match next with
  | [] => root
  | '/' :: '/' :: _ => root
  | '/' :: _ => next
  | _ =>
    match Url.parse hostParse next with
    | .host name =>
      let host := normalHost name
      if host = service.baseDomain.text then next
      else match labelUnder service.instanceDomain.text host with
        | some label => if '.' ∉ label ∧ validName label then next else root
        | none => root
    | _ => root

def checkedNext (service : Service) (next : Text) : Text :=
  let next := service.safeNext hostParse next
  if next.head? = some '/' then next
  else match Url.parse hostParse next with
    | .host name =>
      let host := normalHost name
      if host = service.baseDomain.text then next
      else match labelUnder service.instanceDomain.text host with
        | some label => if service.instanceNames.any (· label) then next else root
        | none => root
    | _ => root

def loginNext (service : Service) (query : Option Text) : Text := service.safeNext hostParse (query.getD [])

def callbackResponse (service : Service) (cookie : Option Text) (cookies : List HeaderValue) : HttpResponse :=
  let next := match cookie with
    | some next => service.checkedNext hostParse next
    | none => root
  cookies.foldl appendCookie (redirectResponse next)

end Service

end

end Bento.Auth
