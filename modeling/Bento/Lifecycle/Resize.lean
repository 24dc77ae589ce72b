import Bento.Lifecycle.Actions
import Mathlib.Data.Fintype.Basic

/-! Several resizes of one instance, with the virtual size of its overlay. The row is read,
the capacity checked, the overlay grown and the row written in separate calls, which
interleave; the answer to a growth may be lost, and a resize may be dropped at any call. -/

namespace Bento.Lifecycle
open Library.Programs Store

structure Disk where
  world : World
  overlay : Nat

def Disk.stored (disk : Disk) (uuid : String) : Option Nat :=
  (disk.world.fleet.instances.find? (·.uuid = uuid)).map Instance.diskGib

def ManagerCall.growth (manager : Manager) : ManagerCall → Option Nat
  | .resizeOverlay _ diskGib => some diskGib
  | .resizeDisk hostId _ diskGib => if hostId = manager.hostId then none else some diskGib
  | _ => none

def Disk.refusing (disk : Disk) (manager : Manager) (moment : Moment) (call : ManagerCall) : Moment :=
  if ∃ diskGib ∈ call.growth manager, diskGib < disk.overlay then
    { moment with fault := some (.refused (.machine "lifecycle: qemu-img resize")) }
  else moment

/-- The overlay never shrinks. A growth whose answer is lost has grown it all the same. -/
def Disk.serve (manager : Manager) (moment : Moment) (call : ManagerCall) (disk : Disk) : call.Answer × Disk :=
  let moment := disk.refusing manager moment call
  let served := call.serve manager moment disk.world
  (served.1, ⟨served.2, if moment.refuses then disk.overlay else (call.growth manager).getD disk.overlay⟩)

variable {ι : Type}

abbrev Resizes (ι : Type) := Pool ManagerCall.Answer ι Disk (Except Error ResizeResult)

inductive ResizeEvent (ι : Type) where
  | call (resize : ι) (moment : Moment)
  | drop (resize : ι)
  | others (world : World)

namespace Resizes

def begin (manager : Manager) (uuid : String) (requests : ι → ResizeRequest) (disk : Disk) : Resizes ι :=
  ⟨disk, fun i => some (manager.resize ((requests i).named uuid)).run⟩

def step [DecidableEq ι] (manager : Manager) (uuid : String) (pool : Resizes ι) : ResizeEvent ι → Option (Resizes ι)
  | .call i moment => Pool.step (fun _ => Disk.serve manager) pool (.step i moment)
  | .drop i => Pool.step (fun _ => Disk.serve manager) pool (.drop i)
  | .others world =>
    if Disk.stored ⟨world, pool.shared.overlay⟩ uuid = pool.shared.stored uuid then
      some ⟨⟨world, pool.shared.overlay⟩, pool.thread⟩
    else none

/-- Nobody has begun a resize and not ended it. -/
def Idle (pool : Resizes ι) : Prop := ∀ i, ∀ call ∈ (pool.thread i).bind Program.waiting, call.begins = true

instance [Fintype ι] (pool : Resizes ι) : Decidable pool.Idle :=
  inferInstanceAs (Decidable (∀ i, ∀ call ∈ (pool.thread i).bind Program.waiting, call.begins = true))

end Resizes

end Bento.Lifecycle
