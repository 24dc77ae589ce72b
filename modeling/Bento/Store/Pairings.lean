import Bento.Store.Basic
import Bento.Library.Runs
import Bento.Library.Transactions

/-! Links that attach an SSH key to a user. A pairing waits until it is used or swept;
whether it has expired is decided by comparing texts in the database. -/

namespace Bento.Store
open Library.Decimal Library.Runs Library.Transactions

structure Pairing where
  id : Int
  tokenHash : String
  publicKey : String
  fingerprint : String
  comment : String
  createdAt : Int
  expiresAt : Int
  linkedUserId : Option Int

structure PairingRow where
  id : Int
  tokenHash : String
  publicKey : String
  fingerprint : String
  comment : String
  createdAt : Text
  expiresAt : Text
  linkedUserId : Option Int
deriving DecidableEq

structure SshKeyRow where
  id : Int
  userId : Int
  publicKey : String
  fingerprint : String
  comment : String
  createdAt : Text
deriving DecidableEq

structure Tables where
  users : List Int
  pairings : List PairingRow
  sshKeys : List SshKeyRow
deriving DecidableEq

abbrev PairingTx := Tx Error Tables

def sweep (created : Text) (rows : List PairingRow) : List PairingRow :=
  rows.filter fun row => ¬ (row.linkedUserId = none ∧ ¬ created < row.expiresAt)

def createPairing (now : Int) (tokenHash publicKey fingerprint comment : String) (expiresAt : Int) :
    PairingTx Pairing := do
  let created ← formatTime now
  modify fun tables => { tables with pairings := sweep created tables.pairings }
  let expires ← formatTime expiresAt
  let tables ← get
  refuseIf (∃ row ∈ tables.pairings, row.tokenHash = tokenHash) .sqlite
  let id := nextRowid (tables.pairings.map PairingRow.id)
  let row : PairingRow := ⟨id, tokenHash, publicKey, fingerprint, comment, created, expires, none⟩
  set { tables with pairings := tables.pairings ++ [row] }
  return ⟨id, tokenHash, publicKey, fingerprint, comment, now, expiresAt, none⟩

/-- The one insert for `ssh_keys`; it gives the id of the new row. The unique index on
the fingerprint is the check. -/
def insertSshKey (userId : Int) (publicKey fingerprint comment : String) (now : Int) : PairingTx Int := do
  let created ← formatTime now
  let tables ← get
  refuseIf (∃ row ∈ tables.sshKeys, row.fingerprint = fingerprint) .sshKeyTaken
  refuseIf (userId ∉ tables.users) .sqlite
  let id := nextRowid (tables.sshKeys.map SshKeyRow.id)
  let row : SshKeyRow := ⟨id, userId, publicKey, fingerprint, comment, created⟩
  set { tables with sshKeys := tables.sshKeys ++ [row] }
  return id

def claims (id : Int) (current : Text) (row : PairingRow) : Bool :=
  row.id = id ∧ row.linkedUserId = none ∧ current < row.expiresAt

def claim (id userId : Int) (current : Text) (row : PairingRow) : PairingRow :=
  if claims id current row then { row with linkedUserId := some userId } else row

def pairingById (id : Int) : PairingTx PairingRow := do
  match (← get).pairings.find? (·.id = id) with
  | some row => return row
  | none => throw .sqlite

/-- The claim is a conditional update, so that two confirmations of one link give one
key. The clock is read once for the claim and once more for the key. -/
def linkPairing (now later : Int) (id userId : Int) : PairingTx Int := do
  let current ← formatTime now
  let tables ← get
  let claimed := tables.pairings.filter (claims id current)
  -- An update that names a user who is not there fails.
  refuseIf (claimed ≠ [] ∧ userId ∉ tables.users) .sqlite
  set { tables with pairings := tables.pairings.map (claim id userId current) }
  refuseIf (claimed = []) .notFound
  let row ← pairingById id
  insertSshKey userId row.publicKey row.fingerprint row.comment later

inductive PairingCall where
  | create (now : Int) (tokenHash publicKey fingerprint comment : String) (expiresAt : Int)
  | link (now later : Int) (id userId : Int)

structure Link where
  pairingId : Int
  userId : Int
  keyId : Int

def PairingCall.perform (tables : Tables) : PairingCall → Option Link × Tables
  | .create now tokenHash publicKey fingerprint comment expiresAt =>
    (none, (withTx (createPairing now tokenHash publicKey fingerprint comment expiresAt) tables).2)
  | .link now later id userId =>
    match withTx (linkPairing now later id userId) tables with
    | (.ok keyId, after) => (some ⟨id, userId, keyId⟩, after)
    | (.error _, after) => (none, after)

structure PairingStep where
  call : PairingCall
  before : Tables
  linked : Option Link
  after : Tables

def pairingRun : Tables → List PairingCall → List PairingStep :=
  trace fun tables call =>
    let (linked, after) := call.perform tables
    (⟨call, tables, linked, after⟩, after)

end Bento.Store
