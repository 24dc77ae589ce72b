import Bento.Store.Basic
import Bento.Library.Runs

/-! The controller lease in the shared database. Every call is one write transaction:
it commits what it returns or leaves the row as it was. Times are stored as text. -/

namespace Bento.Store
open Library.Decimal Library.Runs

structure LeaseRow where
  holderId : Option String
  epoch : Int
  expiresAt : Option Text
deriving DecidableEq

def LeaseRow.free : LeaseRow := ⟨none, 0, none⟩

/-- Takes the lease, or reports who holds it. An epoch past the largest integer is not
an integer any more, and reading it back fails the transaction. -/
def acquireLease (now : Int) (holderId : String) (ttl : Nat) (row : LeaseRow) : Except Error (Lease × LeaseRow) := do
  if let (some holder, some expires) := (row.holderId, row.expiresAt) then
    let expiresAt ← parseTime expires
    if holder ≠ holderId ∧ now < expiresAt then
      throw (.leaseHeld holder expiresAt)
  let expiresAt := now + ttl
  let text ← formatTime expiresAt
  if maxInteger < row.epoch + 1 then
    throw .sqlite
  return (⟨holderId, row.epoch + 1, expiresAt⟩, ⟨some holderId, row.epoch + 1, some text⟩)

def renewLease (now : Int) (holderId : String) (ttl : Nat) (row : LeaseRow) : Except Error (Lease × LeaseRow) := do
  let expiresAt := now + ttl
  let text ← formatTime expiresAt
  let current ← formatTime now
  if row.holderId = some holderId ∧ row.expiresAt.any (current < ·) then
    return (⟨holderId, row.epoch, expiresAt⟩, { row with expiresAt := some text })
  else
    throw .leaseLost

def releaseLease (holderId : String) (row : LeaseRow) : LeaseRow :=
  if row.holderId = some holderId then { row with holderId := none, expiresAt := none } else row

inductive LeaseCall where
  | acquire (now : Int) (holderId : String) (ttl : Nat)
  | renew (now : Int) (holderId : String) (ttl : Nat)
  | release (holderId : String)

def LeaseCall.perform (row : LeaseRow) : LeaseCall → Option Lease × LeaseRow
  | .acquire now holderId ttl =>
    match acquireLease now holderId ttl row with
    | .ok (lease, after) => (some lease, after)
    | .error _ => (none, row)
  | .renew now holderId ttl =>
    match renewLease now holderId ttl row with
    | .ok (_, after) => (none, after)
    | .error _ => (none, row)
  | .release holderId => (none, releaseLease holderId row)

structure LeaseStep where
  call : LeaseCall
  acquired : Option Lease
  after : LeaseRow

def leaseRun : LeaseRow → List LeaseCall → List LeaseStep :=
  trace fun row call =>
    let (acquired, after) := call.perform row
    (⟨call, acquired, after⟩, after)

end Bento.Store
