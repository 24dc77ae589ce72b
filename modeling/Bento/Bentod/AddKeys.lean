import Bento.Api.Handlers
import Bento.Api.Pages
import Bento.Lifecycle.Seed
import Bento.Store.Pairings

/-! How keys get into the database: through the JSON interface, through the account page, and
through links that the SSH frontend hands out. A create reads them back for the seed. -/

namespace Bento.Bentod
open Library.Decimal Library.Transactions Http Store Api

def sshKeysForUser (tables : Tables) (userId : Int) : List SshKeyRow :=
  (tables.sshKeys.filter (·.userId = userId)).insertionSort (·.id ≤ ·.id)

def requestKeys (tables : Tables) (ownerId : Int) (frontendKey : Text) : List Text :=
  let keys := (sshKeysForUser tables ownerId).map fun row => row.publicKey.toList
  if frontendKey = [] then keys else keys ++ [frontendKey]

/-- What answers a handler: one call of it adds a key, at the time given. `explain` is how a
failure of the store is passed on, and `others` what the other calls come to. -/
structure KeyService where
  site : Site
  explain : Store.Error → Failure
  others : (call : Api.Call) → call.Answer

def KeyService.serve (service : KeyService) (now : Int) : (call : Api.Call) → Tables → call.Answer × Tables
  | .write (.addSshKey userId publicKey fingerprint comment), tables =>
    let (result, after) := withTx
      (insertSshKey userId (String.ofList publicKey) (String.ofList fingerprint) (String.ofList comment) now) tables
    (result.mapError service.explain, after)
  | call, tables => (service.others call, tables)

def lineComment (line : Text) : Text := ((line.splitOnP isWhitespace).filter (· ≠ []))[2]?.getD []

inductive KeyEvent where
  | api (user : Auth.User) (now : Int) (body : Text)
  | page (user : Auth.User) (now : Int) (headers : HeaderMap) (body : Text)
  /-- An unknown key is offered a link. `line` is the key as the library writes it. -/
  | offer (now : Int) (tokenHash line fingerprint : Text) (expiresAt : Int)
  | link (now later : Int) (id userId : Int)

def KeyEvent.perform (service : KeyService) (tables : Tables) : KeyEvent → Tables
  | .api user now body => ((addSshKey service.site user body).execute (service.serve now) tables).2
  | .page user now headers body => ((addKey service.site user headers body).execute (service.serve now) tables).2
  | .offer now tokenHash line fingerprint expiresAt =>
    (withTx (createPairing now (String.ofList tokenHash) (String.ofList (trim line)) (String.ofList fingerprint)
      (String.ofList (lineComment (trim line))) expiresAt) tables).2
  | .link now later id userId => (withTx (linkPairing now later id userId) tables).2

def keyRun (service : KeyService) (tables : Tables) (events : List KeyEvent) :
    Tables := events.foldl (KeyEvent.perform service) tables

end Bento.Bentod
