import Bento.Lifecycle.Resize
import Bento.Proofs.ManagerRuns
import Mathlib.Data.Fin.VecNotation

/-! The stored disk size and the overlay over every interleaving of resizes. The overlay is
never behind the row; it is ahead of it only while some resize that has grown it is about
to write the row. -/

namespace Bento.Lifecycle
open Library.Programs Library.Runs Library.Transactions Store
open Library.Programs.Program (only_pure)

/-- What follows a written row looks up the owner and defines the domain again. -/
def ManagerCall.Redefines : ManagerCall → Prop
  | .store (.userById _) | .isoExists _ | .define _ | .redefine _ => True
  | _ => False

inductive Stage where
  | waiting
  | measuring (row : Instance)
  | checking (row : Instance) (capacity : Capacity)
  | growing (row : Instance) (capacity : Capacity)
  | writing (row : Instance) (capacity : Capacity)
  | finishing (program : ManagerProgram (Except Error ResizeResult)) (only : program.Only ManagerCall.Redefines)

namespace Manager
variable (manager : Manager) (request : ResizeRequest)

def record (row : Instance) (capacity : Capacity) : ManagerM ResizeResult := do
  stored (.resize request.uuid request.vcpu request.memoryMib request.diskGib request.nested capacity)
  manager.redefineResized request row
  return request.result row

def grow (row : Instance) : ManagerM Unit :=
  if row.hostId = manager.hostId then checked (ask (.resizeOverlay row.uuid request.diskGib)) .caused
  else checked (ask (.resizeDisk row.hostId row request.diskGib)) .caused

def weigh (row : Instance) (capacity : Capacity) : ManagerM ResizeResult := do
  stored (.checkResize request.uuid request.memoryMib request.diskGib capacity)
  manager.growDisk request row
  manager.record request row capacity

def rest : Stage → ManagerProgram (Except Error ResizeResult)
  | .waiting => (manager.resize request).run
  | .measuring row => ExceptT.run do
    let capacity ← stored (.hostCapacity row.hostId)
    manager.weigh request row capacity
  | .checking row capacity => (manager.weigh request row capacity).run
  | .growing row capacity => ExceptT.run do
    manager.grow request row
    manager.record request row capacity
  | .writing row capacity => (manager.record request row capacity).run
  | .finishing program _ => program

end Manager

structure Disk.Kept (uuid : String) (disk after : Disk) : Prop where
  stored : after.stored uuid = disk.stored uuid
  overlay : after.overlay = disk.overlay

inductive Turns (request : ResizeRequest) (moment : Moment) (disk after : Disk) : Stage → Stage → Prop where
  | finishes {stage : Stage} {program : ManagerProgram (Except Error ResizeResult)}
      {only : program.Only ManagerCall.Redefines}
      (early : ∀ row capacity, stage ≠ .writing row capacity) (kept : disk.Kept request.uuid after) :
      Turns request moment disk after stage (.finishing program only)
  | reads {row : Instance} (known : disk.stored request.uuid = some row.diskGib) (kept : disk.Kept request.uuid after) :
      Turns request moment disk after .waiting (.measuring row)
  | measures {row : Instance} {capacity : Capacity} (kept : disk.Kept request.uuid after) :
      Turns request moment disk after (.measuring row) (.checking row capacity)
  | larger {row : Instance} {capacity : Capacity} (kept : disk.Kept request.uuid after) :
      Turns request moment disk after (.checking row capacity) (.growing row capacity)
  | same {row : Instance} {capacity : Capacity} (same : request.diskGib ≤ row.diskGib)
      (kept : disk.Kept request.uuid after) :
      Turns request moment disk after (.checking row capacity) (.writing row capacity)
  | grows {row : Instance} {capacity : Capacity} {next : Stage} (larger : disk.overlay ≤ request.diskGib)
      (stored : after.stored request.uuid = disk.stored request.uuid) (grown : after.overlay = request.diskGib)
      (heard : next = .writing row capacity ∨ moment.unheard = true ∧ ∃ program only, next = .finishing program only) :
      Turns request moment disk after (.growing row capacity) next
  | refuses {row : Instance} {capacity : Capacity} {program : ManagerProgram (Except Error ResizeResult)}
      {only : program.Only ManagerCall.Redefines} (kept : disk.Kept request.uuid after)
      (refused : ¬ (moment.fault.isNone ∧
        disk.world.fleet.Resizable request.uuid request.memoryMib request.diskGib capacity)) :
      Turns request moment disk after (.writing row capacity) (.finishing program only)
  | writes {row : Instance} {capacity : Capacity} {program : ManagerProgram (Except Error ResizeResult)}
      {only : program.Only ManagerCall.Redefines} (stored : after.stored request.uuid = some request.diskGib)
      (overlay : after.overlay = disk.overlay) :
      Turns request moment disk after (.writing row capacity) (.finishing program only)

section
variable {manager : Manager} {request : ResizeRequest} {moment : Moment} {disk after : Disk} {call : ManagerCall}
  {row : Instance} {capacity : Capacity} {diskGib : Nat} {uuid : String}

theorem growDisk_larger (larger : row.diskGib < request.diskGib) :
    manager.growDisk request row = manager.grow request row := by
  simp only [Manager.growDisk, ResizeRequest.result, larger, decide_true, not_true, if_false]
  rfl

theorem growDisk_same (same : request.diskGib ≤ row.diskGib) : manager.growDisk request row = pure () := by
  simp [Manager.growDisk, ResizeRequest.result, same]

theorem serve_still (still : call.growth manager = none) :
    disk.serve manager moment call =
      ((call.serve manager moment disk.world).1, ⟨(call.serve manager moment disk.world).2, disk.overlay⟩) := by
  have same : disk.refusing manager moment call = moment := by simp [Disk.refusing, still]
  simp [Disk.serve, same, still]

theorem kept_of_reads (still : call.growth manager = none) (reads : call.Reads) :
    disk.Kept uuid (disk.serve manager moment call).2 := by
  rw [serve_still still]
  refine ⟨?_, rfl⟩
  rw [Disk.stored, serve_reads reads]
  rfl

theorem kept_of_redefines (redefines : call.Redefines) : disk.Kept uuid (disk.serve manager moment call).2 := by
  apply kept_of_reads
  · cases call <;> first | rfl | cases redefines
  · unfold ManagerCall.Redefines at redefines
    split at redefines <;> trivial

theorem growth_cases (moment : Moment) (disk : Disk) (grows : call.growth manager = some diskGib) :
    (disk.serve manager moment call).2.overlay = disk.overlay ∧
      (∃ now cause, (disk.serve manager moment call).1 = call.failed manager now cause) ∨
    disk.overlay ≤ diskGib ∧ (disk.serve manager moment call).2.overlay = diskGib ∧
      ((disk.serve manager moment call).1 = (call.perform manager moment disk.world).1 ∨
        moment.unheard = true ∧ ∃ cause, (disk.serve manager moment call).1 = call.failed manager moment cause) := by
  by_cases smaller : diskGib < disk.overlay
  · left
    simp [Disk.serve, Disk.refusing, grows, smaller, Moment.refuses, ManagerCall.serve]
    exact ⟨_, _, rfl⟩
  · have same : disk.refusing manager moment call = moment := by simp [Disk.refusing, grows, smaller]
    simp only [Disk.serve, same, Moment.refuses, Moment.unheard, ManagerCall.serve, grows]
    cases moment.fault with
    | none => exact .inr ⟨Nat.not_lt.mp smaller, rfl, .inl rfl⟩
    | some fault =>
      cases fault with
      | refused cause => exact .inl ⟨rfl, moment, cause, rfl⟩
      | unanswered cause => exact .inr ⟨Nat.not_lt.mp smaller, rfl, .inr ⟨rfl, cause, rfl⟩⟩

theorem stored_turn {α : Type} {body : StoreCall} {next : body.Reply → ManagerM α}
    {program : ManagerProgram (Except Error α)}
    (moved : Program.resume (Disk.serve manager moment) (stored body >>= next : ManagerM α).run disk =
    some (program, after)) :
    after = (disk.serve manager moment (.store body)).2 ∧
    ((∃ cause, ((ManagerCall.store body).serve manager moment disk.world).1 = .error cause ∧
      program = .pure (.error (.caused cause))) ∨
      ∃ reply, ((ManagerCall.store body).serve manager moment disk.world).1 = .ok reply ∧
        program = (next reply).run) := by
  cases moved
  refine ⟨rfl, ?_⟩
  rw [serve_still rfl]
  cases (ManagerCall.store body).serve manager moment disk.world with
  | mk answer =>
    cases answer with
    | error cause => exact .inl ⟨cause, rfl, rfl⟩
    | ok reply => exact .inr ⟨reply, rfl, rfl⟩

theorem growth_turn {α : Type} (call : ManagerCall) {proceed : call.Answer → ManagerProgram (Except Error α)}
    {next program : ManagerProgram (Except Error α)} (grows : call.growth manager = some diskGib) (reads : call.Reads)
    (stops : ∀ now cause, ∃ error, proceed (call.failed manager now cause) = .pure (.error error))
    (passes : proceed (call.perform manager moment disk.world).1 = next)
    (moved : Program.resume (Disk.serve manager moment) (.request call proceed) disk = some (program, after)) :
    after.stored uuid = disk.stored uuid ∧
    ((∃ error, program = .pure (.error error)) ∧ after.overlay = disk.overlay ∨
      disk.overlay ≤ diskGib ∧ after.overlay = diskGib ∧
        (program = next ∨ moment.unheard = true ∧ ∃ error, program = .pure (.error error))) := by
  cases moved
  constructor
  · simp only [Disk.stored, Disk.serve, serve_reads reads]
  · rcases growth_cases moment disk grows with ⟨kept, now, cause, failed⟩ |
      ⟨larger, grown, done | ⟨unheard, cause, failed⟩⟩
    · rw [failed]
      exact .inl ⟨stops now cause, kept⟩
    · rw [done]
      exact .inr ⟨larger, grown, .inl passes⟩
    · rw [failed]
      exact .inr ⟨larger, grown, .inr ⟨unheard, stops moment cause⟩⟩

theorem grow_turn {α : Type} {next : Unit → ManagerM α} {program : ManagerProgram (Except Error α)}
    (moved : Program.resume (Disk.serve manager moment) (manager.grow request row >>= next : ManagerM α).run disk =
      some (program, after)) :
    after.stored uuid = disk.stored uuid ∧
    ((∃ error, program = .pure (.error error)) ∧ after.overlay = disk.overlay ∨
      disk.overlay ≤ request.diskGib ∧ after.overlay = request.diskGib ∧
        (program = (next ()).run ∨ moment.unheard = true ∧ ∃ error, program = .pure (.error error))) := by
  unfold Manager.grow at moved
  split at moved
  next here => exact growth_turn (.resizeOverlay row.uuid request.diskGib) rfl trivial (fun _ _ => ⟨_, rfl⟩) rfl moved
  next there =>
    refine growth_turn (.resizeDisk row.hostId row request.diskGib) (if_neg there) trivial
      (fun _ _ => ⟨_, rfl⟩) ?_ moved
    simp only [ManagerCall.perform, if_neg there]
    rfl

theorem stored_resized {vcpu memoryMib overlay : Nat} {nested : Bool} {world : World} {fleet : Fleet}
    (written : (Store.resize uuid vcpu memoryMib diskGib nested capacity).run world.fleet = .ok ((), fleet)) :
    Disk.stored ⟨{ world with fleet }, overlay⟩ uuid = some diskGib := by
  obtain ⟨⟨⟨row, known, -⟩, -⟩, rfl⟩ := resize_ok.mp written
  have place : row.uuid = uuid := by simpa using List.find?_some known
  have unmoved (other : Instance) :
      (if other.uuid = uuid then { other with vcpu, memoryMib, diskGib, nested } else other).uuid =
      other.uuid := by
    split <;> rfl
  rw [Disk.stored, List.find?_map]
  simp only [Function.comp_def, unmoved]
  rw [Option.mem_def.mp known, Option.map_some, Option.map_some, if_pos place]

theorem record_turn {program : ManagerProgram (Except Error ResizeResult)}
    (moved : Program.resume (Disk.serve manager moment) (manager.record request row capacity).run disk =
      some (program, after)) :
    program.Only ManagerCall.Redefines ∧ after.overlay = disk.overlay ∧
    (after.stored request.uuid = some request.diskGib ∨ after.stored request.uuid = disk.stored request.uuid ∧
      ¬ (moment.fault.isNone ∧ disk.world.fleet.Resizable request.uuid request.memoryMib
        request.diskGib capacity)) := by
  obtain ⟨rfl, turned⟩ := stored_turn moved
  rw [serve_still rfl]
  rcases store_cases manager moment disk.world
    (.resize request.uuid request.vcpu request.memoryMib request.diskGib request.nested capacity)
    with ⟨reply, fleet, answer, ran, same⟩ | ⟨⟨cause, answer⟩, same⟩
  · obtain ⟨cause, refused, -⟩ | ⟨_, -, rfl⟩ := turned
    · cases answer.symm.trans refused
    · refine ⟨only_except ?_ fun _ => only_pure, rfl, .inl ?_⟩
      · unfold Manager.redefineResized
        split
        next => exact only_redefine trivial (fun _ => trivial) trivial fun _ _ => trivial
        next => exact only_pure
      · rw [same]
        exact stored_resized ran
  · obtain ⟨_, -, rfl⟩ | ⟨_, written, -⟩ := turned
    · refine ⟨only_pure, rfl, .inr ⟨by rw [same], fun passes => ?_⟩⟩
      obtain ⟨fleet, ran⟩ : ∃ fleet,
        (Store.resize request.uuid request.vcpu request.memoryMib request.diskGib request.nested capacity).run
          disk.world.fleet = .ok ((), fleet) := ⟨_, resize_ok.mpr ⟨passes.2, rfl⟩⟩
      rw [ManagerCall.serve, Option.isNone_iff_eq_none.mp passes.1] at answer
      simp only [ManagerCall.perform, StoreCall.tx, withTx, ran] at answer
      cases answer
    · cases answer.symm.trans written

theorem Manager.rest_turns {stage : Stage} {program : ManagerProgram (Except Error ResizeResult)}
    (moved : Program.resume (Disk.serve manager moment) (manager.rest request stage) disk = some (program, after)) :
    ∃ next, program = manager.rest request next ∧ Turns request moment disk after stage next := by
  cases stage with
  | waiting =>
    obtain ⟨rfl, ⟨cause, -, rfl⟩ | ⟨row, answer, rfl⟩⟩ := stored_turn moved
    · exact ⟨.finishing _ only_pure, rfl, .finishes (by simp) (kept_of_reads rfl trivial)⟩
    · have known := (instance_serve manager moment request.uuid disk.world).2 row answer
      have size : disk.stored request.uuid = some row.diskGib := by rw [Disk.stored, known, Option.map_some]
      cases passed : checkRequest manager.nested request row with
      | error error =>
        exact ⟨.finishing (.pure (.error error)) only_pure, rfl, .finishes (by simp) (kept_of_reads rfl trivial)⟩
      | ok => exact ⟨.measuring row, rfl, .reads size (kept_of_reads rfl trivial)⟩
  | measuring row =>
    obtain ⟨rfl, ⟨cause, -, rfl⟩ | ⟨capacity, -, rfl⟩⟩ := stored_turn moved
    · exact ⟨.finishing _ only_pure, rfl, .finishes (by simp) (kept_of_reads rfl trivial)⟩
    · exact ⟨.checking row capacity, rfl, .measures (kept_of_reads rfl trivial)⟩
  | checking row capacity =>
    obtain ⟨rfl, ⟨cause, -, rfl⟩ | ⟨_, -, rfl⟩⟩ := stored_turn moved
    · exact ⟨.finishing _ only_pure, rfl, .finishes (by simp) (kept_of_reads rfl trivial)⟩
    · by_cases larger : row.diskGib < request.diskGib
      · refine ⟨.growing row capacity, ?_, .larger (kept_of_reads rfl trivial)⟩
        rw [growDisk_larger larger]
        rfl
      · refine ⟨.writing row capacity, ?_, .same (Nat.not_lt.mp larger) (kept_of_reads rfl trivial)⟩
        rw [growDisk_same (Nat.not_lt.mp larger)]
        rfl
  | growing row capacity =>
    obtain ⟨stored, ⟨⟨error, rfl⟩, kept⟩ | ⟨larger, grown, rfl | ⟨unheard, error, rfl⟩⟩⟩ := grow_turn moved
    · exact ⟨.finishing _ only_pure, rfl, .finishes (by simp) ⟨stored, kept⟩⟩
    · exact ⟨.writing row capacity, rfl, .grows larger stored grown (.inl rfl)⟩
    · exact ⟨.finishing _ only_pure, rfl, .grows larger stored grown (.inr ⟨unheard, _, only_pure, rfl⟩)⟩
  | writing row capacity =>
    obtain ⟨only, overlay, written | ⟨kept, refused⟩⟩ := record_turn moved
    · exact ⟨.finishing program only, rfl, .writes written overlay⟩
    · exact ⟨.finishing program only, rfl, .refuses ⟨kept, overlay⟩ refused⟩
  | finishing program only =>
    cases program with
    | pure => cases moved
    | request call proceed =>
      cases moved
      exact ⟨.finishing _ (only.2 _), rfl, .finishes (by simp) (kept_of_redefines only.1)⟩

end

/-- The answer to a growth is not lost; a row is written only with a size not below the
stored one, and the write that brings the row up to the overlay is not refused. -/
def ManagerCall.KeepsSize (moment : Moment) (disk : Disk) : ManagerCall → Prop
  | .resizeOverlay _ diskGib | .resizeDisk _ _ diskGib => moment.unheard = true → diskGib ≤ disk.overlay
  | .store (.resize uuid _ memoryMib diskGib _ capacity) => ∀ size ∈ disk.stored uuid, size ≤ diskGib ∧
      (size < diskGib → diskGib = disk.overlay →
        moment.fault.isNone ∧ disk.world.fleet.Resizable uuid memoryMib diskGib capacity)
  | _ => True

/-- Nor is the resize dropped that is about to make this write. -/
def ManagerCall.KeepsWrite (disk : Disk) : ManagerCall → Prop
  | .store (.resize uuid _ _ diskGib _ _) => ∀ size ∈ disk.stored uuid, size < diskGib → diskGib ≠ disk.overlay
  | _ => True

instance (moment : Moment) (disk : Disk) (call : ManagerCall) : Decidable (call.KeepsSize moment disk) := by
  unfold ManagerCall.KeepsSize
  split <;> infer_instance

instance (disk : Disk) (call : ManagerCall) : Decidable (call.KeepsWrite disk) := by
  unfold ManagerCall.KeepsWrite
  split <;> infer_instance

def Stage.reached (request : ResizeRequest) : Stage → Option Nat
  | .measuring row | .checking row _ | .growing row _ => some row.diskGib
  | .writing _ _ => some request.diskGib
  | .waiting | .finishing _ _ => none

def Pending {ι : Type} (requests : ι → ResizeRequest) (stages : ι → Option Stage) (size : Nat) : Prop :=
  ∃ i row capacity, stages i = some (.writing row capacity) ∧ (requests i).diskGib = size

structure Recorded {ι : Type} (uuid : String) (requests : ι → ResizeRequest) (stages : ι → Option Stage)
    (disk : Disk) : Prop where
  stored : ∃ size, disk.stored uuid = some size ∧ size ≤ disk.overlay ∧
    (size < disk.overlay → Pending requests stages disk.overlay)
  reached : ∀ i stage, stages i = some stage → ∀ size ∈ stage.reached (requests i), size ≤ disk.overlay

structure Disk.Grows (uuid : String) (before after : Disk) : Prop where
  overlay : before.overlay ≤ after.overlay
  stored : ∀ old ∈ before.stored uuid, ∃ size ∈ after.stored uuid, old ≤ size

section
variable {ι : Type} [DecidableEq ι] {uuid : String} {requests : ι → ResizeRequest} {stages : ι → Option Stage}
  {moment : Moment} {disk after : Disk}

theorem Disk.Grows.refl (disk : Disk) : disk.Grows uuid disk :=
  ⟨Nat.le_refl _, fun old known => ⟨old, known, Nat.le_refl _⟩⟩

theorem Disk.Grows.trans {first middle last : Disk} (early : first.Grows uuid middle) (late : middle.Grows uuid last) :
    first.Grows uuid last := by
  refine ⟨Nat.le_trans early.overlay late.overlay, ?_⟩
  intro old known
  obtain ⟨between, seen, grown⟩ := early.stored old known
  obtain ⟨size, now, larger⟩ := late.stored between seen
  exact ⟨size, now, Nat.le_trans grown larger⟩

theorem Disk.Kept.grows (kept : disk.Kept uuid after) : disk.Grows uuid after := by
  refine ⟨Nat.le_of_eq kept.overlay.symm, fun old known => ⟨old, ?_, Nat.le_refl _⟩⟩
  rw [kept.stored]
  exact known

omit [DecidableEq ι] in
theorem Recorded.keep (recorded : Recorded uuid requests stages disk) (kept : disk.Kept uuid after) :
    Recorded uuid requests stages after := by
  constructor
  · rw [kept.stored, kept.overlay]
    exact recorded.stored
  · rw [kept.overlay]
    exact recorded.reached

theorem Pending.move {i : ι} {size : Nat} {next : Option Stage} (pending : Pending requests stages size)
    (other : ∀ row capacity, stages i = some (.writing row capacity) → (requests i).diskGib ≠ size) :
    Pending requests (Function.update stages i next) size := by
  obtain ⟨j, row, capacity, stands, same⟩ := pending
  have apart : j ≠ i := by
    rintro rfl
    exact other row capacity stands same
  exact ⟨j, row, capacity, by rw [Function.update_of_ne apart, stands], same⟩

theorem reached_move {i : ι} {next : Option Stage}
    (others : ∀ j stage, stages j = some stage → ∀ size ∈ stage.reached (requests j), size ≤ disk.overlay)
    (bounded : ∀ stage ∈ next, ∀ size ∈ stage.reached (requests i), size ≤ disk.overlay) :
    ∀ j stage, Function.update stages i next j = some stage →
      ∀ size ∈ stage.reached (requests j), size ≤ disk.overlay := by
  intro j stage stands
  obtain ⟨rfl, moved⟩ | ⟨apart, stays⟩ := update_eq_some stands
  · exact bounded stage moved
  · exact others j stage stays

theorem Recorded.move {i : ι} {next : Option Stage} (recorded : Recorded uuid requests stages disk)
    (bounded : ∀ stage ∈ next, ∀ size ∈ stage.reached (requests i), size ≤ disk.overlay)
    (other : ∀ size ∈ disk.stored uuid, size < disk.overlay → ∀ row capacity, stages i = some (.writing row capacity) →
      (requests i).diskGib ≠ disk.overlay) : Recorded uuid requests (Function.update stages i next) disk := by
  obtain ⟨⟨size, known, below, pending⟩, reached⟩ := recorded
  exact ⟨⟨size, known, below, fun behind => (pending behind).move (other size known behind)⟩,
    reached_move reached bounded⟩

theorem Recorded.grow {i : ι} {row : Instance} {capacity : Capacity} (recorded : Recorded uuid requests stages disk)
    (larger : disk.overlay ≤ (requests i).diskGib) (stored : after.stored uuid = disk.stored uuid)
    (grown : after.overlay = (requests i).diskGib) :
    Recorded uuid requests (Function.update stages i (some (.writing row capacity))) after ∧ disk.Grows uuid after := by
  obtain ⟨⟨size, known, below, -⟩, reached⟩ := recorded
  refine ⟨⟨⟨size, stored.trans known, ?_, fun _ => ?_⟩, reached_move ?_ ?_⟩, ?_, ?_⟩
  · exact grown ▸ Nat.le_trans below larger
  · exact ⟨i, row, capacity, Function.update_self .., grown.symm⟩
  · intro j stage stays bound held
    exact grown ▸ Nat.le_trans (reached j stage stays bound held) larger
  · rintro _ ⟨⟩ _ ⟨⟩
    exact Nat.le_of_eq grown.symm
  · exact grown ▸ larger
  · exact fun old before => ⟨old, stored.trans before, Nat.le_refl _⟩

/-- A write that does not lower the recorded size leaves it behind the overlay only where another
write is pending. -/
theorem Recorded.write {i : ι} {program : ManagerProgram (Except Error ResizeResult)}
    {only : program.Only ManagerCall.Redefines} (recorded : Recorded uuid requests stages disk)
    (larger : ∀ size ∈ disk.stored uuid, size ≤ (requests i).diskGib) (fits : (requests i).diskGib ≤ disk.overlay)
    (now : after.stored uuid = some (requests i).diskGib) (overlay : after.overlay = disk.overlay) :
    Recorded uuid requests (Function.update stages i (some (.finishing program only))) after ∧
      disk.Grows uuid after := by
  obtain ⟨⟨size, known, -, pending⟩, reached⟩ := recorded
  refine ⟨⟨⟨(requests i).diskGib, now, overlay ▸ fits, fun behind => ?_⟩, reached_move ?_ ?_⟩,
    Nat.le_of_eq overlay.symm, ?_⟩
  · rw [overlay] at behind ⊢
    apply (pending (Nat.lt_of_le_of_lt (larger size known) behind)).move
    exact fun row capacity writes => Nat.ne_of_lt behind
  · rw [overlay]
    exact reached
  · rintro _ ⟨⟩ _ ⟨⟩
  · exact fun old before => ⟨_, now, larger old before⟩

theorem Recorded.turn {i : ι} {stage next : Stage} (recorded : Recorded uuid requests stages disk)
    (same : (requests i).uuid = uuid) (stands : stages i = some stage)
    (heard : ∀ row capacity, stage = .growing row capacity → moment.unheard = true →
      (requests i).diskGib ≤ disk.overlay)
    (kept : ∀ row capacity, stage = .writing row capacity → ManagerCall.KeepsSize moment disk
      (.store (.resize uuid (requests i).vcpu (requests i).memoryMib (requests i).diskGib
        (requests i).nested capacity)))
    (turns : Turns (requests i) moment disk after stage next) :
    Recorded uuid requests (Function.update stages i (some next)) after ∧ disk.Grows uuid after := by
  subst same
  obtain ⟨size, known, below, -⟩ := recorded.stored
  have reached := recorded.reached i stage stands
  -- A resize that is not about to write has no write that could be taken away.
  have early (early : ∀ row capacity, stage ≠ .writing row capacity) (still : disk.Kept (requests i).uuid after)
      (bounded : ∀ size ∈ next.reached (requests i), size ≤ disk.overlay) :
      Recorded (requests i).uuid requests (Function.update stages i (some next)) after ∧
        disk.Grows (requests i).uuid after := by
    refine ⟨Recorded.keep (recorded.move ?_ ?_) still, still.grows⟩
    · rintro _ ⟨⟩
      exact bounded
    · intro size known behind row capacity writes
      exact absurd (Option.some.inj (stands.symm.trans writes)) (early row capacity)
  cases turns with
  | finishes late still => exact early late still nofun
  | @reads row stored still =>
    apply early (by simp) still
    rintro _ ⟨⟩
    cases known.symm.trans stored
    exact below
  | measures still | larger still => exact early (by simp) still reached
  | @same row capacity smaller still =>
    apply early (by simp) still
    rintro _ ⟨⟩
    exact Nat.le_trans smaller (reached _ rfl)
  | @grows row capacity _ larger stored grown answer =>
    rcases answer with rfl | ⟨unheard, program, only, rfl⟩
    · exact recorded.grow larger stored grown
    · have still := Nat.le_antisymm (heard row capacity rfl unheard) larger
      exact early (by simp) ⟨stored, grown.trans still⟩ nofun
  | @refuses row capacity _ _ still refused =>
    refine ⟨Recorded.keep (recorded.move ?_ ?_) still, still.grows⟩
    · rintro _ ⟨⟩ _ ⟨⟩
    · intro size known behind row' capacity' writes full
      obtain ⟨-, passes⟩ := kept row capacity rfl size known
      exact refused (passes (full ▸ behind) full)
  | @writes row capacity _ _ now overlay =>
    exact recorded.write (fun size known => (kept row capacity rfl size known).1) (reached _ rfl) now overlay

end

namespace Resizes
variable {ι : Type}

def KeepsSize (pool : Resizes ι) : ResizeEvent ι → Prop
  | .call i moment => ∀ call ∈ (pool.thread i).bind Program.waiting, call.KeepsSize moment pool.shared
  | .drop i => ∀ call ∈ (pool.thread i).bind Program.waiting, call.KeepsWrite pool.shared
  | .others _ => True

instance (pool : Resizes ι) : DecidablePred pool.KeepsSize := by
  intro event
  cases event <;> unfold Resizes.KeepsSize <;> infer_instance

def Sound (manager : Manager) (uuid : String) (requests : ι → ResizeRequest) (pool : Resizes ι) : Prop :=
  ∃ stages, pool.Tracks (fun i => manager.rest ((requests i).named uuid)) stages ∧
    Recorded uuid (fun i => (requests i).named uuid) stages pool.shared

variable {manager : Manager} {uuid : String} {requests : ι → ResizeRequest} {pool next : Resizes ι}

theorem Sound.begin {disk : Disk} (same : disk.stored uuid = some disk.overlay) :
    (begin manager uuid requests disk).Sound manager uuid requests := by
  refine ⟨fun _ => some .waiting, fun i => rfl, ⟨disk.overlay, same, Nat.le_refl _, ?_⟩, ?_⟩
  · exact fun behind => absurd behind (Nat.lt_irrefl _)
  · rintro i stage ⟨⟩ size ⟨⟩

theorem Sound.step [DecidableEq ι] {event : ResizeEvent ι} (sound : pool.Sound manager uuid requests)
    (kept : pool.KeepsSize event) (moved : pool.step manager uuid event = some next) :
    next.Sound manager uuid requests ∧ pool.shared.Grows uuid next.shared := by
  obtain ⟨stages, tracks, recorded⟩ := sound
  cases event with
  | call i moment =>
    have called : Pool.step (fun _ => Disk.serve manager) pool (.step i moment) = some next := moved
    obtain ⟨j, input, stage, program, shared, same, stands, resumed, rfl⟩ | ⟨_, _, _, _, dropped, -⟩ :=
      tracks.step_cases called
    · cases same
      obtain ⟨after, rfl, turns⟩ := Manager.rest_turns resumed
      rw [Resizes.KeepsSize, tracks i, stands] at kept
      have heard : ∀ row capacity, stage = .growing row capacity → moment.unheard = true →
        (requests i).diskGib ≤ pool.shared.overlay := by
        rintro row capacity rfl
        by_cases here : row.hostId = manager.hostId
        · exact kept (.resizeOverlay row.uuid (requests i).diskGib) (by simp [Manager.rest, Manager.grow, here]; rfl)
        · exact kept (.resizeDisk row.hostId row (requests i).diskGib) (by simp [Manager.rest, Manager.grow, here]; rfl)
      have writes : ∀ row capacity, stage = .writing row capacity → ManagerCall.KeepsSize moment pool.shared (.store
          (.resize uuid (requests i).vcpu (requests i).memoryMib (requests i).diskGib
            (requests i).nested capacity)) := by
        rintro row capacity rfl
        exact kept _ rfl
      obtain ⟨still, grows⟩ := recorded.turn rfl stands heard writes turns
      exact ⟨⟨_, tracks.set i shared (some after), still⟩, grows⟩
    · cases dropped
  | drop i =>
    have called : Pool.step (fun _ => Disk.serve manager) pool (.drop i) = some next := moved
    obtain ⟨_, _, _, _, _, stepped, -⟩ | ⟨j, stage, call, left, same, stands, waits, rfl⟩ := tracks.step_cases called
    · cases stepped
    · cases same
      refine ⟨⟨_, tracks.set i pool.shared none, recorded.move (by simp) ?_⟩, .refl _⟩
      intro size known behind row capacity writes full
      rw [Resizes.KeepsSize, tracks i, writes] at kept
      exact kept _ rfl size known (full ▸ behind) full
  | others =>
    simp only [Resizes.step] at moved
    split at moved
    next unchanged =>
      cases moved
      have still : pool.shared.Kept uuid ⟨_, pool.shared.overlay⟩ := ⟨unchanged, rfl⟩
      exact ⟨⟨stages, tracks, recorded.keep still⟩, still.grows⟩
    next => cases moved

theorem Sound.idle (sound : pool.Sound manager uuid requests) (idle : pool.Idle) :
    pool.shared.stored uuid = some pool.shared.overlay := by
  obtain ⟨stages, tracks, ⟨size, known, below, pending⟩, -⟩ := sound
  rw [known]
  congr 1
  by_contra differ
  obtain ⟨i, row, capacity, stands, -⟩ := pending (Nat.lt_of_le_of_ne below differ)
  have waits : (pool.thread i).bind Program.waiting =
    some (.store (.resize uuid (requests i).vcpu (requests i).memoryMib
      (requests i).diskGib (requests i).nested capacity)) := by
    rw [tracks i, stands]
    rfl
  cases idle i _ waits

end Resizes

/-- In every run of resizes whose steps keep the size, the stored size is the overlay's
whenever nobody is at work, and neither ever gets smaller. -/
theorem resizes_keep_sizes {ι : Type} [DecidableEq ι] (manager : Manager) (uuid : String) (requests : ι → ResizeRequest)
    (disk : Disk) (events more : List (ResizeEvent ι)) (middle final : Resizes ι)
    (same : disk.stored uuid = some disk.overlay)
    (ran : exec (Resizes.step manager uuid) (.begin manager uuid requests disk) events = some middle)
    (kept : Obeys (Resizes.step manager uuid) Resizes.KeepsSize (.begin manager uuid requests disk) events)
    (went : exec (Resizes.step manager uuid) middle more = some final)
    (onward : Obeys (Resizes.step manager uuid) Resizes.KeepsSize middle more) :
    (middle.Idle → middle.shared.stored uuid = some middle.shared.overlay) ∧
    middle.shared.overlay ≤ final.shared.overlay ∧
    ∃ before after, middle.shared.stored uuid = some before ∧
      final.shared.stored uuid = some after ∧ before ≤ after := by
  have sound : middle.Sound manager uuid requests := by
    apply invariant _ ran kept (Resizes.Sound.begin same)
    intro pool event next allowed moved sound
    exact (sound.step allowed moved).1
  have later : final.Sound manager uuid requests ∧ middle.shared.Grows uuid final.shared := by
    apply invariant _ went onward ⟨sound, .refl _⟩
    rintro pool event next allowed moved ⟨sound, grown⟩
    obtain ⟨still, grows⟩ := sound.step allowed moved
    exact ⟨still, grown.trans grows⟩
  obtain ⟨before, known, -⟩ := sound.choose_spec.2.stored
  obtain ⟨after, now, larger⟩ := later.2.stored before known
  exact ⟨sound.idle, later.2.overlay, before, after, known, now, larger⟩

def smallWorld (uuids : List String) : World :=
  ⟨smallFleet (uuids.map fun uuid => plainGuest uuid uuid 2), fun _ => ⟨[], uuids, []⟩⟩

def threeRequests : Fin 3 → ResizeRequest :=
  ![⟨"0b5e", 1, 512, 20, false⟩, ⟨"0b5e", 1, 1024, 10, false⟩, ⟨"0b5e", 1, 1024, 20, false⟩]

def smallResizes : Resizes (Fin 3) := .begin exampleManager "0b5e" threeRequests ⟨smallWorld ["0b5e"], 10⟩

def tightMoment : Moment :=
  { calm with catalog := { exampleCatalog with hostCapacity := fun _ => .ok ⟨.unbounded, .limit 25⟩ } }

def turns (i : Fin 3) (count : Nat) : List (ResizeEvent (Fin 3)) := List.replicate count (.call i tightMoment)

def lostTurn (i : Fin 3) : ResizeEvent (Fin 3) :=
  .call i { tightMoment with fault := some (.unanswered (.machine "runner request timed out after 300 seconds")) }

def smallSizes (events : List (ResizeEvent (Fin 3))) : Option (Bool × Option Nat × Nat) :=
  (exec (Resizes.step exampleManager "0b5e") smallResizes events).map fun final =>
    (decide final.Idle, final.shared.stored "0b5e", final.shared.overlay)

/-- The answer to the second growth is lost, but the first has made the file as large. -/
def grownEvents : List (ResizeEvent (Fin 3)) := turns 2 3 ++ turns 0 5 ++ [lostTurn 2]

theorem resizes_keep_sizes_grown :
    ∃ final, exec (Resizes.step exampleManager "0b5e") smallResizes grownEvents = some final ∧ final.Idle ∧
    final.shared.overlay = 20 ∧ final.shared.stored "0b5e" = some final.shared.overlay := by
  have kept : Obeys (Resizes.step exampleManager "0b5e") Resizes.KeepsSize smallResizes grownEvents := by decide +kernel
  have grown : ((exec (Resizes.step exampleManager "0b5e") smallResizes grownEvents).map fun final =>
      (decide final.Idle, final.shared.overlay)) = some (true, 20) := by decide +kernel
  obtain ⟨final, ran, sizes⟩ := Option.map_eq_some_iff.mp grown
  obtain ⟨ended, overlay⟩ := Prod.mk.inj sizes
  have idle : final.Idle := of_decide_eq_true ended
  have same := (resizes_keep_sizes exampleManager "0b5e" threeRequests _ grownEvents [] final final rfl
    ran kept rfl trivial).1
  exact ⟨final, ran, idle, overlay, same idle⟩

/-- The answer to a growth is lost; a resize is dropped before its write; a new instance
takes the room before the write, which is refused; and a resize writes the size that it
read before another one grew the disk. -/
theorem resizes_part_sizes : smallSizes (turns 0 3 ++ [lostTurn 0]) = some (true, some 10, 20) ∧
    smallSizes (turns 0 4 ++ [.drop 0]) = some (true, some 10, 20) ∧
    smallSizes (turns 0 4 ++ [.others (smallWorld ["0b5e", "1c6f"])] ++ turns 0 1) = some (true, some 10, 20) ∧
    smallSizes (turns 1 3 ++ turns 0 5) = some (false, some 20, 20) ∧
    smallSizes (turns 1 3 ++ turns 0 5 ++ turns 1 3) = some (true, some 10, 20) := by
  decide +kernel

end Bento.Lifecycle
