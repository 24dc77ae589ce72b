import Bento.Proxy.Handle

/-! How a proxy is made from its settings, and the settings that are refused. -/

namespace Bento
open Library.Decimal Http

structure ProxyBuilder where
  baseDomain : Text
  instanceDomain : Option Text
  sessions : Bool
  control : Bool
  loginUrl : Option Text
  lastSeen : Bool
  mainPort : UInt16
  highMin : UInt16
  highMax : UInt16

namespace ProxyBuilder

inductive Error where
  | emptyBaseDomain
  | emptyHighPortRange (min max : UInt16)
  | mainPortInHighRange (main min max : UInt16)

def new (baseDomain : Text) : ProxyBuilder where
  baseDomain := baseDomain
  instanceDomain := none
  sessions := false
  control := false
  loginUrl := none
  lastSeen := false
  mainPort := 443
  highMin := 3000
  highMax := 9999

def withPorts (builder : ProxyBuilder) (main highMin highMax : UInt16) : ProxyBuilder :=
  { builder with
    mainPort := if main ≠ 0 then main else builder.mainPort
    highMin := if highMin ≠ 0 then highMin else builder.highMin
    highMax := if highMax ≠ 0 then highMax else builder.highMax }

def build (builder : ProxyBuilder) : Except Error Proxy :=
  let baseDomain := trimEndDots (lowercase builder.baseDomain)
  if baseDomain = [] then .error .emptyBaseDomain
  else if builder.highMin > builder.highMax then .error (.emptyHighPortRange builder.highMin builder.highMax)
  else if builder.highMin ≤ builder.mainPort ∧ builder.mainPort ≤ builder.highMax then
    .error (.mainPortInHighRange builder.mainPort builder.highMin builder.highMax)
  else .ok
    { baseDomain := baseDomain
      instanceDomain := (builder.instanceDomain.filter (· ≠ [])).getD baseDomain
      sessions := builder.sessions
      control := builder.control
      lastSeen := builder.lastSeen
      loginUrl := builder.loginUrl.getD ("https://".toList ++ baseDomain ++ "/login".toList)
      mainPort := builder.mainPort }

end ProxyBuilder

end Bento
