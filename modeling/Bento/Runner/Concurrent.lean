import Bento.Runner.Serve

/-! Requests handled at the same time. The transport gives every request a task of its
own and holds no lock across two calls, so the tasks of one runner interleave call by
call: inside an admission at the calls on the store, and inside `serveOne` at the host. -/

namespace Bento.Runner
open Library.Programs

variable {ι : Type} [DecidableEq ι]

abbrev Admissions (ι : Type) := Pool StoreCall.Answer ι FenceStore (Except FenceError Admission)

def Fence.admissions (fence : Fence) (requests : ι → Int × Envelope) (store : FenceStore) : Admissions ι :=
  ⟨store, fun i => some (fence.admitRequest (requests i).1 (requests i).2)⟩

def admissionStep : Admissions ι → PoolEvent ι (Option FenceError) → Option (Admissions ι) :=
  Pool.step fun _ fault => serveStore fun _ => fault

def isAllowed : Option (Program StoreCall.Answer (Except FenceError Admission)) → Bool
  | some (.pure (.ok .allowed)) => true
  | _ => false

abbrev Requests (ι : Type) := Pool RunnerCall.Answer ι (RunnerState ι) (Except HostError Outcome)

def deliveries (encode : Reply → Except HostError String) (envelopes : ι → Envelope) (store : FenceStore) :
    Requests ι :=
  ⟨⟨store, []⟩, fun i => some (serveOne encode (envelopes i))⟩

def Fence.requestStep (fence : Fence) : Requests ι → PoolEvent ι Surroundings → Option (Requests ι) :=
  Pool.step fence.serve

end Bento.Runner
