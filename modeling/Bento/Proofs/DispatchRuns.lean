import Bento.Bentod.Runners
import Bento.Proofs.Conflicts

/-! The generations that a controller sends with. The counter only rises, so no two dispatches
of one object share a generation, unless they are one envelope. -/

namespace Bento.Store
open Library.Runs Function

variable {objectId : String} {generation epoch : Int}

def Generations.Rises (before after : Generations) : Prop :=
  ∀ objectId current, before objectId = some current → ∃ later, after objectId = some later ∧ current ≤ later

theorem Generations.Rises.refl (rows : Generations) : rows.Rises rows :=
  fun _ current found => ⟨current, found, Int.le_refl _⟩

theorem Generations.Rises.trans {before middle after : Generations} (first : before.Rises middle)
    (last : middle.Rises after) : before.Rises after := by
  intro objectId current found
  obtain ⟨next, kept, reached⟩ := first objectId current found
  obtain ⟨later, left, beyond⟩ := last objectId next kept
  exact ⟨later, left, Int.le_trans reached beyond⟩

def Generations.Below (rows : Generations) (objectId : String) (generation : Int) : Prop :=
  ∀ current, rows objectId = some current → current < generation

theorem Generations.Below.of_rises {before after : Generations}
    (below : after.Below objectId generation) (rises : before.Rises after) : before.Below objectId generation := by
  intro current found
  obtain ⟨later, kept, reached⟩ := rises objectId current found
  exact Int.lt_of_le_of_lt reached (below later kept)

theorem Generations.Below.rises {rows : Generations}
    (below : rows.Below objectId generation) : rows.Rises (Function.update rows objectId (some generation)) := by
  intro other current found
  by_cases touched : other = objectId
  · subst touched
    exact ⟨generation, update_self .., Int.le_of_lt (below current found)⟩
  · exact ⟨current, by rwa [update_of_ne touched], Int.le_refl _⟩

theorem floor_lt_excluded (small : epoch * 1000000 < 2 ^ 63) :
    epoch * 1000000 < (saturatingMul epoch 1000000 + 1).bmod (2 ^ 64) := by
  have low : epoch * 1000000 ≤ saturatingMul epoch 1000000 := by
    unfold saturatingMul maxInteger
    omega
  have range : -2 ^ 63 ≤ saturatingMul epoch 1000000 ∧ saturatingMul epoch 1000000 + 1 < 2 ^ 63 := by
    unfold saturatingMul maxInteger
    omega
  rw [Int.bmod_eq_of_le_mul_two (by omega) (by omega)]
  omega

theorem nextDispatchGeneration_ok {rows after : Generations}
    (taken : nextDispatchGeneration objectId epoch rows = .ok (generation, after)) :
    rows.Below objectId generation ∧ after = Function.update rows objectId (some generation) ∧
      (epoch * 1000000 < 2 ^ 63 → epoch * 1000000 < generation) := by
  have above := @floor_lt_excluded epoch
  unfold nextDispatchGeneration at taken
  cases found : rows objectId with
  | none =>
    simp only [found] at taken
    split at taken
    next => cases taken
    cases taken
    exact ⟨fun current stored => by simp [found] at stored, rfl, above⟩
  | some current =>
    simp only [found] at taken
    split at taken
    next => cases taken
    cases taken
    refine ⟨fun other stored => ?_, rfl, fun small => Int.lt_of_lt_of_le (above small) (Int.le_max_right _ _)⟩
    cases found.symm.trans stored
    exact Int.lt_of_lt_of_le (Int.lt_succ current) (Int.le_max_left _ _)

theorem GenerationCall.perform_sound (rows : Generations) (call : GenerationCall) :
    rows.Rises (call.perform rows).2 ∧ ∀ generation, (call.perform rows).1 = some generation →
      rows.Below call.objectId generation ∧ (call.perform rows).2 call.objectId = some generation ∧
        (call.epoch * 1000000 < 2 ^ 63 → call.epoch * 1000000 < generation) := by
  unfold perform
  cases taken : nextDispatchGeneration call.objectId call.epoch rows with
  | error => exact ⟨.refl rows, nofun⟩
  | ok =>
    obtain ⟨below, after, above⟩ := nextDispatchGeneration_ok taken
    refine ⟨after ▸ below.rises, fun generation same => ?_⟩
    cases same
    exact ⟨below, by rw [after, update_self], above⟩

theorem generationRun_follows (calls : List GenerationCall) : Follows (fun rows (call : GenerationCall) =>
    ((call, (call.perform rows).1), (call.perform rows).2)) calls Generations.Rises :=
  ⟨.refl, .trans, fun rows call _ => (call.perform_sound rows).1⟩

theorem generationRun_rises (rows : Generations) (calls : List GenerationCall) :
    (generationRun rows calls).Pairwise fun first last => ∀ earlier ∈ first.2, ∀ later ∈ last.2,
      first.1.objectId = last.1.objectId → earlier < later := by
  refine ((generationRun_follows calls).pairwise rows).imp ?_
  rintro _ _ ⟨before, call, middle, late, _, rfl, rises, rfl⟩ earlier taken later given same
  obtain ⟨_, stored, _⟩ := (call.perform_sound before).2 earlier taken
  obtain ⟨below, _, _⟩ := (late.perform_sound middle).2 later given
  exact below.of_rises rises earlier (same ▸ stored)

theorem generationRun_exceeds (rows : Generations) (calls : List GenerationCall) :
    ∀ step ∈ generationRun rows calls, ∀ generation ∈ step.2,
      step.1.epoch * 1000000 < 2 ^ 63 → step.1.epoch * 1000000 < generation := by
  intro step member generation given
  obtain ⟨before, _, call, _, rfl⟩ := (generationRun_follows calls).member member
  exact ((call.perform_sound before).2 generation given).2.2

end Bento.Store

namespace Bento.Bentod
open Runner Store Library.Runs

section
variable {α β : Type}

theorem run_bind (step : DispatchM α) (next : α → DispatchM β) (rows : Generations) :
    (step >>= next).run.run rows = match step.run.run rows with
      | (.ok value, after) => (next value).run.run after
      | (.error error, after) => (.error error, after) := by
  change (match step.run.run rows with | (result, after) => (ExceptT.bindCont next result).run after) = _
  obtain ⟨result, after⟩ := step.run.run rows
  cases result <;> rfl

def Reads (step : DispatchM α) : Prop := ∀ rows, (step.run.run rows).2 = rows

/-- How a dispatch can end: without a generation, or with the next one of some object.
`made` says what then comes of the object. -/
inductive Took (epoch : Int) (made : Option ObjectFence → α → Prop) (rows : Generations) :
    Except DispatchError α × Generations → Prop
  | nothing {result : Except DispatchError α} (plain : ∀ value, result = .ok value → made none value) :
      Took epoch made rows (result, rows)
  | next {result : Except DispatchError α} {objectId : String} (digest : String) {generation : Int}
      {after : Generations}
      (taken : nextDispatchGeneration objectId epoch rows = .ok (generation, after))
      (carried : ∀ value, result = .ok value → made (some ⟨objectId, generation, digest⟩) value) :
      Took epoch made rows (result, after)

def Fences (epoch : Int) (made : Option ObjectFence → α → Prop) (program : DispatchM α) : Prop :=
  ∀ rows, Took epoch made rows (program.run.run rows)

theorem reads_bailIf (broken : Bool) (text : String) : Reads (bailIf broken text) := by
  intro rows
  cases broken <;> rfl

theorem reads_fallible (result : Except String α) : Reads (fallible result) := by
  intro rows
  cases result <;> rfl

variable {epoch : Int} {made : Option ObjectFence → α → Prop}

theorem Fences.pure {value : α} (plain : made none value) : Fences epoch made (pure value) :=
  fun _ => .nothing fun _ same => Except.ok.inj same ▸ plain

theorem Fences.bind {made : Option ObjectFence → β → Prop} {step : DispatchM α} {next : α → DispatchM β}
    (reads : Reads step) (rest : ∀ value, Fences epoch made (next value)) : Fences epoch made (step >>= next) := by
  intro rows
  have same := reads rows
  rw [run_bind]
  generalize step.run.run rows = ended at same
  obtain ⟨result, after⟩ := ended
  cases same
  cases result with
  | error => exact .nothing nofun
  | ok value => exact rest value after

def Carries (made : Option ObjectFence → α → Prop) (object : ObjectFence) (program : DispatchM α) : Prop :=
  Reads program ∧ ∀ rows value, (program.run.run rows).1 = .ok value → made (some object) value

theorem Carries.pure {object : ObjectFence} {value : α} (carried : made (some object) value) :
    Carries made object (pure value) :=
  ⟨fun _ => rfl, fun _ _ same => Except.ok.inj same ▸ carried⟩

theorem Carries.bind {made : Option ObjectFence → β → Prop} {object : ObjectFence} {step : DispatchM α}
    {next : α → DispatchM β} (reads : Reads step) (rest : ∀ value, Carries made object (next value)) :
    Carries made object (step >>= next) := by
  constructor
  · intro rows
    have same := reads rows
    rw [run_bind]
    generalize step.run.run rows = ended at same
    obtain ⟨result, after⟩ := ended
    cases same
    cases result with
    | error => rfl
    | ok value => exact (rest value).1 after
  · intro rows sent
    rw [run_bind]
    obtain ⟨result, after⟩ := step.run.run rows
    cases result with
    | error => exact nofun
    | ok value => exact (rest value).2 after sent

theorem Fences.take {digest : String} {next : ObjectFence → DispatchM α}
    (rest : ∀ object, Carries made object (next object)) :
    Fences epoch made (objectFence objectId digest epoch >>= next) := by
  intro rows
  rw [run_bind]
  cases taken : nextDispatchGeneration objectId epoch rows with
  | error error =>
    have failed : (objectFence objectId digest epoch).run.run rows = (.error (.store error), rows) := by
      simp only [objectFence, ExceptT.run_mk, StateT.run, taken]
    rw [failed]
    exact .nothing nofun
  | ok result =>
    have fenced : (objectFence objectId digest epoch).run.run rows =
        (.ok ⟨objectId, result.1, digest⟩, result.2) := by
      simp only [objectFence, ExceptT.run_mk, StateT.run, taken]
    rw [fenced]
    obtain ⟨reads, makes⟩ := rest ⟨objectId, result.1, digest⟩
    have same := reads result.2
    have carried := makes result.2
    simp only
    generalize (next ⟨objectId, result.1, digest⟩).run.run result.2 = last at same carried
    obtain ⟨sent, final⟩ := last
    cases same
    exact .next digest taken carried

end

def Sends (sending : Sending) (object : Option ObjectFence) (envelope : Envelope) : Prop :=
  ∃ op, envelope = send sending op object

def MaySend (sending : Sending) (object : Option ObjectFence) (sent : Option Envelope) : Prop :=
  ∀ envelope, sent = some envelope → Sends sending object envelope

theorem Sends.maySend {sending : Sending} {object : Option ObjectFence} {envelope : Envelope}
    (sends : Sends sending object envelope) : MaySend sending object (some envelope) :=
  fun _ same => Option.some.inj same ▸ sends

theorem Fences.sent {sending : Sending} {program : DispatchM Envelope}
    (fences : Fences epoch (Sends sending) program) : Fences epoch (MaySend sending) (do return some (← program)) := by
  intro rows
  have took := fences rows
  rw [run_bind]
  generalize program.run.run rows = last at took
  cases took with
  | @nothing result plain =>
    cases result with
    | error => exact .nothing fun _ same => by cases same
    | ok envelope => exact .nothing fun _ same => Except.ok.inj same ▸ (plain envelope rfl).maySend
  | @next result objectId digest generation after taken carried =>
    cases result with
    | error => exact .next digest taken fun _ same => by cases same
    | ok envelope => exact .next digest taken fun _ same => Except.ok.inj same ▸ (carried envelope rfl).maySend

section
variable (codec : Codec) (sending : Sending)

theorem ensure_fences (request : ImageRequest) :
    Fences sending.lease.epoch (Sends sending) (ImageSync.ensure codec sending request) :=
  .bind (reads_bailIf _ _) fun _ => .take fun _ => .bind (reads_bailIf _ _) fun _ => .pure ⟨_, rfl⟩

theorem provision_fences (request : ProvisionRequest) :
    Fences sending.lease.epoch (Sends sending) (InstanceSync.provision codec sending request) :=
  .bind (reads_bailIf _ _) fun _ => .bind (reads_bailIf _ _) fun _ => .bind (reads_fallible _) fun _ =>
    .take fun _ => .pure ⟨_, rfl⟩

theorem redefine_fences (request : RedefineRequest) :
    Fences sending.lease.epoch (Sends sending) (InstanceSync.redefine codec sending request) :=
  .bind (reads_bailIf _ _) fun _ => .bind (reads_fallible _) fun _ => .take fun _ => .pure ⟨_, rfl⟩

theorem change_fences (op : Runner.Operation) :
    Fences sending.lease.epoch (Sends sending) (InstanceSync.change codec sending op) := by
  have reads : Reads (InstanceSync.instanceOf op) := by
    intro rows
    cases op <;> rfl
  exact .bind (reads_bailIf _ _) fun _ => .bind reads fun _ => .bind (reads_fallible _) fun _ =>
    .take fun _ => .pure ⟨_, rfl⟩

theorem syncHost_fences (planned : Except String Network.MachineNetwork) (applied : Option String) :
    Fences sending.lease.epoch (MaySend sending) (NetworkSync.syncHost codec sending planned applied) := by
  refine .bind (reads_bailIf _ _) fun _ => .bind (reads_fallible _) fun network =>
    .bind (reads_fallible _) fun text => ?_
  dsimp only
  split
  · exact .pure fun _ same => by cases same
  · refine .take fun object => .bind (reads_bailIf _ _) fun _ => .pure ?_
    exact Sends.maySend ⟨.applyNetwork network, rfl⟩

theorem Order.dispatch_fences (order : Order) :
    Fences sending.lease.epoch (MaySend sending) (order.dispatch codec sending) := by
  cases order with
  | image request => exact (ensure_fences codec sending request).sent
  | network planned applied => exact syncHost_fences codec sending planned applied
  | provision request => exact (provision_fences codec sending request).sent
  | redefine request => exact (redefine_fences codec sending request).sent
  | resizeDisk => exact (change_fences codec sending _).sent
  | change op => exact (change_fences codec sending op).sent
  | read op =>
    have reads : Fences sending.lease.epoch (Sends sending) (InstanceSync.read sending op) :=
      .bind (reads_bailIf _ _) fun _ => .pure ⟨op, rfl⟩
    exact reads.sent

end

def Named (sent : List (Option Envelope)) (object : ObjectFence) : Prop :=
  ∃ envelope, some envelope ∈ sent ∧ envelope.object = some object

section
variable (codec : Codec)

theorem Order.dispatch_sound (rows : Generations) (sending : Sending) (order : Order) :
    rows.Rises ((order.dispatch codec sending).run.run rows).2 ∧
      ∀ envelope, ((order.dispatch codec sending).run.run rows).1 = .ok (some envelope) →
        envelope.epoch = sending.lease.epoch ∧
        ∀ object, envelope.object = some object → nextDispatchGeneration object.objectId sending.lease.epoch rows =
            .ok (object.generation, ((order.dispatch codec sending).run.run rows).2) := by
  have took := order.dispatch_fences codec sending rows
  generalize (order.dispatch codec sending).run.run rows = ended at took
  cases took with
  | nothing plain =>
    refine ⟨.refl rows, fun envelope sent => ?_⟩
    obtain ⟨op, rfl⟩ := plain (some envelope) sent envelope rfl
    exact ⟨rfl, fun _ named => by cases named⟩
  | next digest taken carried =>
    obtain ⟨below, after, _⟩ := nextDispatchGeneration_ok taken
    refine ⟨after ▸ below.rises, fun envelope sent => ?_⟩
    obtain ⟨op, rfl⟩ := carried (some envelope) sent envelope rfl
    refine ⟨rfl, fun object named => ?_⟩
    cases named
    exact taken

theorem dispatchRun_follows (orders : List (Sending × Order)) : Follows (fun rows (call : Sending × Order) =>
    (((call.2.dispatch codec call.1).run.run rows).1.toOption.join, ((call.2.dispatch codec call.1).run.run rows).2))
      orders Generations.Rises :=
  ⟨.refl, .trans, fun rows call _ => (call.2.dispatch_sound codec rows call.1).1⟩

theorem sent_iff {result : Except DispatchError (Option Envelope)} {envelope : Envelope} :
    result.toOption.join = some envelope ↔ result = .ok (some envelope) := by
  cases result with
  | error | ok => simp [Except.toOption]

theorem dispatchRun_rises (rows : Generations) (orders : List (Sending × Order)) :
    (dispatchRun codec rows orders).Pairwise fun first last => ∀ early ∈ first, ∀ late ∈ last,
      ∀ before after, early.object = some before → late.object = some after →
        before.objectId = after.objectId → before.generation < after.generation := by
  refine ((dispatchRun_follows codec orders).pairwise rows).imp ?_
  rintro _ _ ⟨start, call, middle, next, _, rfl, rises, rfl⟩ early sent late given before after
    earlyNamed lateNamed same
  obtain ⟨_, earlyTook⟩ := (call.2.dispatch_sound codec start call.1).2 early (sent_iff.mp sent)
  obtain ⟨_, lateTook⟩ := (next.2.dispatch_sound codec middle next.1).2 late (sent_iff.mp given)
  obtain ⟨_, stored, _⟩ := nextDispatchGeneration_ok (earlyTook before earlyNamed)
  obtain ⟨below, _, _⟩ := nextDispatchGeneration_ok (lateTook after lateNamed)
  refine below.of_rises rises before.generation ?_
  rw [stored, ← same, Function.update_self]

theorem dispatchRun_samePayload (rows : Generations) (orders : List (Sending × Order)) {first last : ObjectFence}
    (firstNamed : Named (dispatchRun codec rows orders) first)
    (lastNamed : Named (dispatchRun codec rows orders) last) : SamePayload first last := by
  obtain ⟨early, earlySent, earlyNames⟩ := firstNamed
  obtain ⟨late, lateSent, lateNames⟩ := lastNamed
  have apart : (dispatchRun codec rows orders).Pairwise fun first last => ∀ early ∈ first, ∀ late ∈ last,
      ∀ before after, early.object = some before → late.object = some after → SamePayload before after :=
    (dispatchRun_rises codec rows orders).imp fun rises early sent late given before after named other ids tie =>
      absurd tie (Int.ne_of_lt (rises early sent late given before after named other ids))
  refine apart.forall_of_forall_of_flip ?_ ?_ earlySent lateSent early rfl late rfl first last earlyNames lateNames
  · rintro _ _ early rfl late same before after named other
    cases same
    cases named.symm.trans other
    exact fun _ _ => rfl
  · exact apart.imp fun known early sent late given before after named other =>
      (known late given early sent after before other named).symm

end

/-- Generations over every run of the calls that take them, and the envelopes that carry
them at a runner, one after another and admitted at the same time. -/
theorem dispatches_never_conflict {ι : Type} [DecidableEq ι] (codec : Codec) (rows : Generations)
    (calls : List GenerationCall) (orders : List (Sending × Order)) :
    (generationRun rows calls).Pairwise (fun first last => ∀ earlier ∈ first.2, ∀ later ∈ last.2,
      first.1.objectId = last.1.objectId → earlier < later) ∧ (∀ step ∈ generationRun rows calls, ∀ generation ∈ step.2,
      step.1.epoch * 1000000 < 2 ^ 63 → step.1.epoch * 1000000 < generation) ∧
    (∀ fence encode requests, (∀ request ∈ requests, some request.2 ∈ dispatchRun codec rows orders) →
      ∀ served ∈ serveAll fence encode .empty requests, ∀ objectId generation,
        served.result ≠ .ok (.refused (.generationConflict objectId generation))) ∧
    ∀ (fence : Fence) (requests : ι → Int × Envelope), (∀ i, some (requests i).2 ∈ dispatchRun codec rows orders) →
      ∀ events pool, exec admissionStep (fence.admissions requests .empty) events = some pool → ∀ i objectId generation,
          pool.thread i ≠ some (.pure (.ok (.refused (.generationConflict objectId generation)))) := by
  have one : ∀ first last, Named (dispatchRun codec rows orders) first → Named (dispatchRun codec rows orders) last →
      SamePayload first last := fun first last => dispatchRun_samePayload codec rows orders
  refine ⟨generationRun_rises rows calls, generationRun_exceeds rows calls, ?_, ?_⟩
  · intro fence encode requests sent
    exact serveAll_never_conflicts one fence encode requests fun request listed object named =>
      ⟨request.2, sent request listed, named⟩
  · intro fence requests sent events pool ran
    exact admissions_never_conflict one (fun i object named => ⟨(requests i).2, sent i, named⟩) ran

def plainCodec : Codec where
  sha256 _ := [0]
  provision request := .ok request.target.uuid
  redefine request := .ok request.target.uuid
  operation _ := .ok "operation"
  network _ := .ok "network"

def plainSending (requestId : String) : Sending where
  host := ⟨1, some "m1", "host", some "10.0.0.97"⟩
  lease := ⟨"controller", 1, 1000000000⟩
  now := 0
  requestId := requestId

def plainOrders : List (Sending × Order) :=
  [(plainSending "r1", .change (.startInstance ⟨"i1", "box"⟩)),
    (plainSending "r2", .change (.stopInstance ⟨"i1", "box"⟩))]

def plainSent (late : Bool) : Envelope :=
  if late then send (plainSending "r2") (.stopInstance ⟨"i1", "box"⟩) (some ⟨"i1", 1000002, "sha256-00"⟩)
  else send (plainSending "r1") (.startInstance ⟨"i1", "box"⟩) (some ⟨"i1", 1000001, "sha256-00"⟩)

/-- Two changes of one instance reach the runner the wrong way round, and the first twice;
or both at once. -/
theorem dispatches_never_conflict_reordered :
    (∀ step ∈ generationRun (fun _ => none) [⟨"i1", 1⟩, ⟨"i1", 1⟩], ∀ generation ∈ step.2, 1000000 < generation) ∧
    dispatchRun plainCodec (fun _ => none) plainOrders = [some (plainSent false), some (plainSent true)] ∧
    (∀ served ∈ serveAll ⟨"m1", 60⟩ plainEncode .empty
      ([true, false, false].map fun late => (plainSurroundings, plainSent late)),
      ∀ objectId generation, served.result ≠ .ok (.refused (.generationConflict objectId generation))) ∧
    ∃ pool, exec admissionStep (Fence.admissions ⟨"m1", 60⟩ (fun late => (0, plainSent late)) .empty)
        [.step true none, .step false none, .step true none, .step false none] = some pool ∧ ∀ i objectId generation,
        pool.thread i ≠ some (.pure (.ok (.refused (.generationConflict objectId generation)))) := by
  obtain ⟨_, exceeds, inTurn, together⟩ :=
    dispatches_never_conflict (ι := Bool) plainCodec (fun _ => none) [⟨"i1", 1⟩, ⟨"i1", 1⟩] plainOrders
  have sent : dispatchRun plainCodec (fun _ => none) plainOrders = [some (plainSent false), some (plainSent true)] := by
    decide
  have listed : ∀ late, some (plainSent late) ∈ dispatchRun plainCodec (fun _ => none) plainOrders := by
    rw [sent]
    decide
  obtain ⟨pool, ran, _⟩ := Option.map_eq_some_iff.mp (by decide :
    (exec admissionStep (Fence.admissions ⟨"m1", 60⟩ (fun late => (0, plainSent late)) .empty)
      [.step true none, .step false none, .step true none, .step false none]).map (fun _ => ()) = some ())
  refine ⟨?_, sent, inTurn _ _ _ ?_, pool, ran, together _ _ listed _ pool ran⟩
  · intro step member generation given
    have epochs : ∀ step ∈ generationRun (fun _ => none) [⟨"i1", 1⟩, ⟨"i1", 1⟩], step.1.epoch = 1 := by decide
    have above := exceeds step member generation given
    rw [epochs step member] at above
    exact above (by decide)
  · intro request member
    obtain ⟨late, _, rfl⟩ := List.mem_map.mp member
    exact listed late

end Bento.Bentod
