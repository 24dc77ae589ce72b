import Bento.Library.Rfc3339
import Bento.Types

/-! The errors of the store, and instants as it writes and reads them. -/

namespace Bento.Store
open Library.Rfc3339 Library.Decimal

inductive Error where
  | sqlite
  | leaseHeld (holder : String) (expiresAt : Int)
  | leaseLost
  | notFound
  | sshKeyTaken
  | nameTaken
  | nameCooldown (name : String) (remaining : Nat)
  | capacity (resource : Resource) (used requested limit : Nat)
  | runnerPrefix (value : UInt8)
  | runnerPrefixStrandsSlot (runnerPrefix : UInt8) (slot : Nat)
  | runnerPrefixSplitsOwners (runnerPrefix : UInt8) (slot : Nat)
  | noSuchSlot (slot count : Nat)
  | slotInUse (slot occupied : Nat)
  | noPlacement (reasons : String)
deriving DecidableEq

def maxInteger : Int := 2 ^ 63 - 1

/-- The id of a new row: one above the largest in use, so that the ids of deleted rows
at the end of the table come back. -/
def nextRowid (ids : List Int) : Int := ids.foldr max 0 + 1

def formatTime (value : Int) : Except Error Text :=
  match format value with
  | some text => .ok text
  | none => .error .sqlite

def parseTime (value : Text) : Except Error Int :=
  match parse value with
  | some instant => .ok instant
  | none => .error .sqlite

end Bento.Store
