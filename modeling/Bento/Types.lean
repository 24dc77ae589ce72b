import Mathlib.Logic.Basic

/-! The enumerations that the store, the manager and the proxy share. -/

namespace Bento

inductive PowerState where
  | running
  | stopped
  | starting
deriving DecidableEq, Repr

inductive DesiredState where
  | running
  | stopped
deriving DecidableEq, Repr

inductive Visibility where
  | off
  | privateOnly
  | publicPort
deriving DecidableEq, Repr

inductive SlotState where
  | active
  | draining
  | moving
deriving DecidableEq, Repr

inductive Resource where
  | memory
  | disk
deriving DecidableEq, Repr

inductive Ceiling where
  | unbounded
  | limit (value : Nat)
deriving DecidableEq, Repr

structure Capacity where
  memoryMib : Ceiling
  diskGib : Ceiling
deriving DecidableEq, Repr

/-- The controller lease: who may dispatch, under which epoch, until when. Instants
are nanoseconds from the Unix epoch. -/
structure Lease where
  holderId : String
  epoch : Int
  expiresAt : Int
deriving DecidableEq, Repr

end Bento
