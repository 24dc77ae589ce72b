import Bento.Library.Programs
import Bento.Tlscert.Manager

/-! How an order for the certificate is completed: for every authorization that is not settled
a TXT record is made and shown to the authority, and all records are removed afterwards. -/

namespace Bento.Tlscert
open Library.Decimal Library.Programs

structure DnsRecord where
  scope : Text
  id : Text
  name : Text
  value : Text

inductive AuthorizationStatus where
  | pending
  | valid
  | invalid
  | revoked
  | expired
  | deactivated
deriving DecidableEq

def AuthorizationStatus.text : AuthorizationStatus → Text
  | .pending => "Pending".toList
  | .valid => "Valid".toList
  | .invalid => "Invalid".toList
  | .revoked => "Revoked".toList
  | .expired => "Expired".toList
  | .deactivated => "Deactivated".toList

structure Authorization where
  identifier : Text
  status : AuthorizationStatus
  dns01 : Option Text

inductive OrderStatus where
  | pending
  | ready
  | processing
  | valid
  | invalid

def OrderStatus.text : OrderStatus → Text
  | .pending => "Pending".toList
  | .ready => "Ready".toList
  | .processing => "Processing".toList
  | .valid => "Valid".toList
  | .invalid => "Invalid".toList

inductive OrderCall where
  | authorization (identifier : Text)
  | zone (name : Text)
  | createRecord (zone name value : Text)
  | waitForPropagation (record : DnsRecord) (timeout : Int)
  | deleteRecord (record : DnsRecord)
  | setReady (identifier : Text)
  | pollReady
  | finalize (names : List Text)

abbrev OrderCall.Answer : OrderCall → Type
  | .zone _ => Except Text (Option Text)
  | .createRecord _ _ _ => Except Text Text
  | .authorization _ | .waitForPropagation _ _ | .deleteRecord _ | .setReady _ => Except Text Unit
  | .pollReady => Except Text OrderStatus
  | .finalize _ => Except Text (Certificate × Nat)

abbrev OrderM := Program OrderCall.Answer

def askOrder (call : OrderCall) : OrderM call.Answer := Program.ask call

def parents : Text → List Text
  | [] => []
  | '.' :: rest => rest :: parents rest
  | _ :: rest => parents rest

def noZone (baseDomain : Text) : Text := "Cloudflare has no active zone containing ".toList ++ baseDomain

def firstZone (baseDomain : Text) : List Text → OrderM (Except Text Text)
  | [] => pure (.error (noZone baseDomain))
  | candidate :: rest => do
    match ← askOrder (.zone candidate) with
    | .error error => return .error error
    | .ok (some zone) => return .ok zone
    | .ok none => firstZone baseDomain rest

def findZone (baseDomain : Text) : OrderM (Except Text Text) := firstZone baseDomain (baseDomain :: parents baseDomain)

def present (baseDomain name value : Text) : OrderM (Except Text DnsRecord) := do
  match ← findZone baseDomain with
  | .error error => return .error error
  | .ok zone => do
    match ← askOrder (.createRecord zone name value) with
    | .error error => return .error error
    | .ok id => return .ok ⟨zone, id, name, value⟩

def challengeName (domain : Text) : Text := "_acme-challenge.".toList ++ domain

namespace Manager
variable (manager : Manager)

/-- The authorizations of the order, as they are when they are fetched one after the other. -/
def presentAll : List Authorization → List DnsRecord → OrderM (List DnsRecord × Except Error Unit)
  | [], records => pure (records, .ok ())
  | authorization :: rest, records => do
    match ← askOrder (.authorization authorization.identifier) with
    | .error error => return (records, .error (.acme error))
    | .ok () =>
      match authorization.status with
      | .valid => presentAll rest records
      | .pending =>
        match authorization.dns01 with
        | none => return (records, .error (.certificate "ACME server offered no DNS-01 challenge".toList))
        | some value => do
          match ← present manager.baseDomain (challengeName manager.baseDomain) value with
          | .error error => return (records, .error (.provider error))
          | .ok record => do
            let records := records ++ [record]
            match ← askOrder (.waitForPropagation record manager.propagationTimeout) with
            | .error error => return (records, .error (.provider error))
            | .ok () => do
              match ← askOrder (.setReady authorization.identifier) with
              | .error error => return (records, .error (.acme error))
              | .ok () => presentAll rest records
      | status => return (records,
        .error (.certificate ("unexpected ACME authorization status: ".toList ++ status.text)))

def finishOrder : OrderM (Except Error (Certificate × Nat)) := do
  match ← askOrder .pollReady with
  | .error error => return .error (.acme error)
  | .ok .ready => do
    match ← askOrder (.finalize manager.domains) with
    | .error error => return .error (.acme error)
    | .ok issued => return .ok issued
  | .ok status => return .error (.certificate ("unexpected ACME order status: ".toList ++ status.text))

def completeOrder (authorizations : List Authorization) :
    OrderM (List DnsRecord × Except Error (Certificate × Nat)) := do
  match ← manager.presentAll authorizations [] with
  | (records, .error error) => return (records, .error error)
  | (records, .ok ()) => do
    let result ← manager.finishOrder
    return (records, result)

def cleanupRecords : List DnsRecord → OrderM (List Text)
  | [] => pure []
  | record :: rest => do
    let removed ← askOrder (.deleteRecord record)
    let failures ← cleanupRecords rest
    return match removed with
      | .ok () => failures
      | .error error => (record.name ++ ": ".toList ++ error) :: failures

def issueOrder (rustls : Text) (authorizations : List Authorization) : OrderM (Except Error (Certificate × Nat)) := do
  let (records, result) ← manager.completeOrder authorizations
  let failures ← cleanupRecords records.reverse
  return match result, failures with
    | result, [] => result
    | .ok _, failures => .error (.cleanup (", ".toList.intercalate failures))
    | .error error, failures =>
      .error (.cleanup ((Error.cleanup (", ".toList.intercalate failures)).text rustls ++
        "; issuance also failed: ".toList ++
        error.text rustls))

end Manager

end Bento.Tlscert
