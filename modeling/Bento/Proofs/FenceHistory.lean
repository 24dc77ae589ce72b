import Bento.Proofs.Serving

/-! Requests handled one after another. The store only grows: its epoch and its
generations rise and a recorded outcome stays recorded. What one exchange shows about
the store before and after it then holds between any two of a history. -/

namespace Bento.Runner
open Library.Programs Library.Runs FenceStore

namespace FenceStore

def Covers (store : FenceStore) (object : ObjectFence) : Prop :=
  ∃ accepted digest, store.objectGenerations object.objectId = some (accepted, digest) ∧
    object.generation ≤ accepted ∧ (object.generation = accepted → object.digest = digest)

structure Grows (before after : FenceStore) : Prop where
  epoch : before.acceptedEpoch ≤ after.acceptedEpoch
  objects : ∀ object, before.Covers object → after.Covers object
  outcomes : ∀ requestId, (before.requestOutcomes requestId).isSome → (after.requestOutcomes requestId).isSome

theorem Grows.refl (store : FenceStore) : Grows store store :=
  ⟨Int.le_refl _, fun _ covers => covers, fun _ recorded => recorded⟩

theorem Grows.trans {before middle after : FenceStore} (first : Grows before middle) (last : Grows middle after) :
    Grows before after :=
  ⟨Int.le_trans first.epoch last.epoch, fun object covers => last.objects object (first.objects object covers),
    fun requestId recorded => last.outcomes requestId (first.outcomes requestId recorded)⟩

theorem grows_acceptEpoch (store : FenceStore) (epoch : Int) : Grows store (store.acceptEpoch epoch) :=
  ⟨Int.le_max_left _ _, fun _ covers => covers, fun _ recorded => recorded⟩

theorem acceptObject_other (store : FenceStore) {objectId other : String} (differ : other ≠ objectId)
    (generation : Int) (digest : String) :
    (store.acceptObject objectId generation digest).objectGenerations other = store.objectGenerations other := by
  unfold acceptObject
  split
  next => split <;> simp [differ]
  next => simp [differ]

theorem acceptObject_same (store : FenceStore) (objectId : String) (generation : Int) (digest : String) :
    (store.acceptObject objectId generation digest).objectGenerations objectId =
      match store.objectGenerations objectId with
      | some (accepted, kept) => if accepted < generation then some (generation, digest) else some (accepted, kept)
      | none => some (generation, digest) := by
  cases found : store.objectGenerations objectId with
  | none => simp [acceptObject, found]
  | some row =>
    by_cases newer : row.1 < generation
    · simp [acceptObject, found, newer]
    · simp [acceptObject, found, newer]

theorem acceptObject_rest (store : FenceStore) (objectId : String) (generation : Int) (digest : String) :
    (store.acceptObject objectId generation digest).acceptedEpoch = store.acceptedEpoch ∧
      (store.acceptObject objectId generation digest).requestOutcomes = store.requestOutcomes := by
  unfold acceptObject
  split
  next => split <;> exact ⟨rfl, rfl⟩
  next => exact ⟨rfl, rfl⟩

theorem grows_acceptObject (store : FenceStore) (objectId : String) (generation : Int) (digest : String) :
    Grows store (store.acceptObject objectId generation digest) := by
  have rest := store.acceptObject_rest objectId generation digest
  refine ⟨Int.le_of_eq rest.1.symm, ?_, fun _ recorded => by rwa [rest.2]⟩
  intro object covers
  obtain ⟨accepted, kept, found, reached, same⟩ := covers
  by_cases touched : object.objectId = objectId
  · subst touched
    unfold Covers
    rw [acceptObject_same, found]
    by_cases newer : accepted < generation
    · exact ⟨generation, digest, if_pos newer, by omega, fun tie => by omega⟩
    · exact ⟨accepted, kept, if_neg newer, reached, same⟩
  · exact ⟨accepted, kept, by rw [acceptObject_other store touched, found], reached, same⟩

theorem grows_recordOutcome (store : FenceStore) (requestId outcome : String) :
    Grows store (store.recordOutcome requestId outcome) := by
  refine ⟨Int.le_refl _, fun _ covers => covers, fun other recorded => ?_⟩
  simp only [recordOutcome, Function.update_apply]
  split
  · rfl
  · exact recorded

structure Draws (envelope : Envelope) (before after : FenceStore) : Prop where
  epoch : after.acceptedEpoch = before.acceptedEpoch ∨ after.acceptedEpoch = envelope.epoch
  objects : ∀ objectId generation digest, after.objectGenerations objectId = some (generation, digest) →
    before.objectGenerations objectId = some (generation, digest) ∨
      envelope.object = some ⟨objectId, generation, digest⟩

theorem Draws.refl (envelope : Envelope) (store : FenceStore) : Draws envelope store store :=
  ⟨.inl rfl, fun _ _ _ found => .inl found⟩

theorem Draws.trans {envelope : Envelope} {before middle after : FenceStore} (first : Draws envelope before middle)
    (last : Draws envelope middle after) : Draws envelope before after := by
  refine ⟨last.epoch.elim (fun same => same ▸ first.epoch) .inr, fun objectId generation digest found => ?_⟩
  obtain kept | named := last.objects objectId generation digest found
  · exact first.objects objectId generation digest kept
  · exact .inr named

theorem draws_acceptEpoch (store : FenceStore) (envelope : Envelope) :
    Draws envelope store (store.acceptEpoch envelope.epoch) := by
  refine ⟨?_, fun _ _ _ found => .inl found⟩
  simp only [acceptEpoch]
  omega

variable {object : ObjectFence} {store : FenceStore}

theorem draws_acceptObject (store : FenceStore) {envelope : Envelope} (named : envelope.object = some object) :
    Draws envelope store (store.acceptObject object.objectId object.generation object.digest) := by
  refine ⟨.inl (store.acceptObject_rest _ _ _).1, fun objectId generation digest found => ?_⟩
  by_cases touched : objectId = object.objectId
  · subst touched
    rw [acceptObject_same] at found
    split at found
    next accepted kept row =>
      split at found
      next =>
        cases found
        exact .inr named
      next => exact .inl (row.trans found)
    next =>
      cases found
      exact .inr named
  · rw [acceptObject_other store touched] at found
    exact .inl found

def Agrees (store : FenceStore) (object : ObjectFence) : Prop :=
  ∀ accepted digest, store.objectGenerations object.objectId = some (accepted, digest) →
    object.generation = accepted → object.digest = digest

theorem Follows.agrees (follows : store.Follows object) : store.Agrees object :=
  fun accepted digest found => (follows accepted digest found).2

theorem Agrees.covers (agrees : store.Agrees object) :
    (store.acceptObject object.objectId object.generation object.digest).Covers object := by
  unfold Covers
  rw [acceptObject_same]
  cases found : store.objectGenerations object.objectId with
  | none => exact ⟨_, _, rfl, Int.le_refl _, fun _ => rfl⟩
  | some row =>
    obtain ⟨accepted, digest⟩ := row
    by_cases newer : accepted < object.generation
    · exact ⟨_, _, if_pos newer, Int.le_refl _, fun _ => rfl⟩
    · exact ⟨accepted, digest, if_neg newer, Int.not_lt.mp newer, agrees accepted digest found⟩

theorem Covers.precedes {first last : ObjectFence} (covers : store.Covers first)
    (follows : store.Follows last) (same : first.objectId = last.objectId) :
    first.generation ≤ last.generation ∧ (first.generation = last.generation → first.digest = last.digest) := by
  obtain ⟨accepted, digest, found, reached, digests⟩ := covers
  rw [same] at found
  obtain ⟨later, wanted⟩ := follows accepted digest found
  refine ⟨by omega, fun tie => ?_⟩
  rw [digests (by omega), wanted (by omega)]

end FenceStore

variable {fence : Fence} {now : Int} {envelope : Envelope} {mutates : Bool} {store after : FenceStore}
  {result : Except FenceError Admission}

theorem Fence.Admits.grows (admits : fence.Admits now envelope mutates store result after) : store.Grows after := by
  cases admits with
  | failed | refused | read | replayed => exact .refl store
  | halfway => exact store.grows_acceptEpoch _
  | changed => exact (store.grows_acceptEpoch _).trans (grows_acceptObject _ _ _ _)

theorem Fence.Admits.draws (admits : fence.Admits now envelope mutates store result after) :
    store.Draws envelope after := by
  cases admits with
  | failed | refused | read | replayed => exact .refl envelope store
  | halfway => exact store.draws_acceptEpoch envelope
  | changed _ admissible => exact (store.draws_acceptEpoch envelope).trans (draws_acceptObject _ admissible.named)

theorem Fence.Admits.outcomes (admits : fence.Admits now envelope mutates store result after) :
    after.requestOutcomes = store.requestOutcomes := by
  cases admits with
  | failed => rfl
  | refused => rfl
  | read => rfl
  | replayed => rfl
  | halfway => rfl
  | changed => exact (acceptObject_rest _ _ _ _).2

structure FenceStore.Remembers (store : FenceStore) (epoch : Int) (object : ObjectFence) : Prop where
  epoch : epoch ≤ store.acceptedEpoch
  object : store.Covers object

theorem FenceStore.Remembers.grow {before : FenceStore} {epoch : Int} {object : ObjectFence}
    (remembers : before.Remembers epoch object) (grows : before.Grows after) : after.Remembers epoch object :=
  ⟨Int.le_trans remembers.epoch grows.epoch, grows.objects object remembers.object⟩

theorem Fence.Admissible.remembers {object : ObjectFence} (admissible : fence.Admissible now envelope store object) :
    ((store.acceptEpoch envelope.epoch).acceptObject object.objectId object.generation object.digest).Remembers
      envelope.epoch object :=
  ⟨Int.le_trans (Int.le_max_right _ _) (grows_acceptObject _ _ _ _).epoch,
    (show (store.acceptEpoch envelope.epoch).Agrees object from admissible.follows.agrees).covers⟩

section
variable (fence : Fence) (encode : Reply → Except HostError String) (around : Surroundings) (envelope : Envelope)

structure Undisturbed (start : FenceStore) (phase : Phase) (state : RunnerState Unit) : Prop where
  grows : start.Grows state.store
  draws : start.Draws envelope state.store
  waiting : phase = .waiting → state = ⟨start, []⟩
  reads : envelope.op.mutates = false → state.store = start
  refused : ∀ refusal, phase = .settled (.ok (.refused refusal)) →
    state.store = start ∧ fence.Refuses around.now envelope start refusal
  recording : ∀ reply recorded, phase = .recording reply recorded → envelope.op.mutates = true
  changes : phase = .admitted ∨ state.started ≠ [] → envelope.op.mutates = true →
    ∃ object, fence.Admissible around.now envelope start object ∧ state.store.Remembers envelope.epoch object

theorem undisturbed_quiet (start : FenceStore) (result : Except HostError Outcome)
    (reason : ∀ refusal, result = .ok (.refused refusal) → fence.Refuses around.now envelope start refusal) :
    Undisturbed fence around envelope start (.settled result) ⟨start, []⟩ where
  grows := .refl start
  draws := .refl envelope start
  waiting := nofun
  reads _ := rfl
  refused refusal same := ⟨rfl, reason refusal (Phase.settled.inj same)⟩
  recording := nofun
  changes begun := by simp at begun

theorem undisturbed_admits {start store : FenceStore} {admission : Except FenceError Admission}
    (admits : fence.Admits around.now envelope envelope.op.mutates start admission store) :
    Undisturbed fence around envelope start (.ofAdmission admission) ⟨store, []⟩ := by
  have grows := admits.grows
  have draws := admits.draws
  cases admits with
  | failed | replayed => exact undisturbed_quiet fence around envelope start _ nofun
  | refused reason =>
    refine undisturbed_quiet fence around envelope start _ fun refusal same => ?_
    cases same
    exact reason
  | read reads =>
    refine ⟨grows, draws, nofun, fun _ => rfl, nofun, nofun, fun _ changes => ?_⟩
    rw [reads] at changes
    cases changes
  | halfway error changes =>
    refine ⟨grows, draws, nofun, fun reads => ?_, nofun, nofun, fun begun => by simp [Phase.ofAdmission] at begun⟩
    rw [reads] at changes
    cases changes
  | changed changes admissible =>
    refine ⟨grows, draws, nofun, fun reads => ?_, nofun, nofun, fun _ _ => ⟨_, admissible, admissible.remembers⟩⟩
    rw [reads] at changes
    cases changes

theorem undisturbed_serves {start : FenceStore} {phase next : Phase} {state after : RunnerState Unit}
    (known : Undisturbed fence around envelope start phase state)
    (serves : Serves fence encode envelope () around state phase next after) :
    Undisturbed fence around envelope start next after := by
  cases serves with
  | admits admits =>
    obtain rfl := known.waiting rfl
    exact undisturbed_admits fence around envelope admits
  | starts => exact ⟨known.grows, known.draws, nofun, known.reads, nofun, nofun, fun _ => known.changes (.inl rfl)⟩
  | breaks =>
    exact ⟨known.grows, known.draws, nofun, known.reads, nofun, nofun, fun begun =>
      known.changes (.inr (by simpa using begun))⟩
  | reads =>
    exact ⟨known.grows, known.draws, nofun, known.reads, nofun, nofun, fun begun =>
      known.changes (by simpa using begun)⟩
  | answers changes =>
    exact ⟨known.grows, known.draws, nofun, known.reads, nofun, fun _ _ _ => changes,
      fun begun => known.changes (by simpa using begun)⟩
  | @records reply recorded =>
    have grows := state.store.grows_recordOutcome envelope.requestId recorded
    have draws : state.store.Draws envelope (state.store.recordOutcome envelope.requestId recorded) :=
      ⟨.inl rfl, fun _ _ _ found => .inl found⟩
    refine ⟨known.grows.trans grows, known.draws.trans draws, nofun, fun reads =>
      ?_, nofun, nofun, fun begun changes => ?_⟩
    · have changes := known.recording reply recorded rfl
      rw [reads] at changes
      cases changes
    · obtain ⟨object, admissible, remembers⟩ := known.changes (by simpa using begun) changes
      exact ⟨object, admissible, remembers.grow grows⟩

end

namespace Exchange

def Refused (served : Exchange) : Prop := ∃ refusal, served.result = .ok (.refused refusal)

def Changed (served : Exchange) : Prop := served.envelope.op.mutates = true ∧ served.hostCalls ≠ []

structure Sound (fence : Fence) (served : Exchange) : Prop where
  grows : served.before.Grows served.after
  draws : served.before.Draws served.envelope served.after
  refused : ∀ refusal, served.result = .ok (.refused refusal) →
    fence.Refuses served.around.now served.envelope served.before refusal
  unchanged : served.Refused ∨ served.envelope.op.mutates = false → served.after = served.before
  changed : served.Changed → ∃ object,
    fence.Admissible served.around.now served.envelope served.before object ∧
      served.after.Remembers served.envelope.epoch object

end Exchange

theorem exchange_sound (fence : Fence) (encode : Reply → Except HostError String) (store : FenceStore)
    (around : Surroundings) (envelope : Envelope) : (exchange fence encode store around envelope).Sound fence := by
  have kept : ∀ program state rest after, Program.resume (fence.serve () around) program state = some (rest, after) →
      (∃ phase, program = serveRest encode envelope phase ∧ Undisturbed fence around envelope store phase state) →
      ∃ phase, rest = serveRest encode envelope phase ∧ Undisturbed fence around envelope store phase after := by
    intro program state rest after moved known
    obtain ⟨phase, same, known⟩ := known
    subst same
    obtain ⟨next, left, serves⟩ := serveRest_serves moved
    exact ⟨next, left, undisturbed_serves fence encode around envelope known serves⟩
  have initial : Undisturbed fence around envelope store .waiting ⟨store, []⟩ :=
    ⟨.refl store, .refl envelope store, fun _ => rfl, fun _ => rfl, nofun, nofun, fun begun => by simp at begun⟩
  obtain ⟨phase, done, known⟩ :=
    Program.execute_invariant _ kept (serveOne encode envelope) ⟨store, []⟩ ⟨.waiting, rfl, initial⟩
  obtain rfl := serveRest_settled done
  refine ⟨known.grows, known.draws, fun refusal refused => (known.refused refusal (congrArg Phase.settled refused)).2,
    fun quiet => ?_, fun changed => ?_⟩
  · obtain ⟨refusal, refused⟩ | reads := quiet
    · exact (known.refused refusal (congrArg Phase.settled refused)).1
    · exact known.reads reads
  · exact known.changes (.inr fun none => changed.2 (congrArg (List.map Prod.snd) none)) changed.1

structure Fence.Contract (fence : Fence) (history : List Exchange) : Prop where
  epochs : (∀ served ∈ history, served.before.acceptedEpoch ≤ served.after.acceptedEpoch) ∧
    history.Pairwise fun first last => first.after.acceptedEpoch ≤ last.before.acceptedEpoch
  admitted : ∀ served ∈ history, served.Changed →
    served.envelope.targetMachineId = some fence.machineId ∧
      served.around.now < served.envelope.leaseExpiresAt.instant ∧
      served.before.acceptedEpoch ≤ served.envelope.epoch
  newest : history.Pairwise fun first last => last.Changed →
    first.after.acceptedEpoch ≤ last.envelope.epoch ∧ (first.Changed → first.envelope.epoch ≤ last.envelope.epoch)
  generations : history.Pairwise fun first last => first.Changed → last.Changed →
    ∀ before after, first.envelope.object = some before → last.envelope.object = some after →
      before.objectId = after.objectId →
      before.generation ≤ after.generation ∧ (before.generation = after.generation → before.digest = after.digest)
  replays : (∀ served ∈ history, (served.before.requestOutcomes served.envelope.requestId).isSome → ¬ served.Changed) ∧
    history.Pairwise fun first last =>
      (first.after.requestOutcomes last.envelope.requestId).isSome → ¬ last.Changed
  unchanged : ∀ served ∈ history, served.Refused ∨ served.envelope.op.mutates = false →
    served.after = served.before

section
variable (fence : Fence) (encode : Reply → Except HostError String)

theorem serveAll_follows (requests : List (Surroundings × Envelope)) :
    Follows (fun store (request : Surroundings × Envelope) =>
      (exchange fence encode store request.1 request.2, (exchange fence encode store request.1 request.2).after))
        requests FenceStore.Grows :=
  ⟨.refl, .trans, fun store request _ => (exchange_sound fence encode store request.1 request.2).grows⟩

theorem serveAll_sound (store : FenceStore) (requests : List (Surroundings × Envelope)) :
    ∀ served ∈ serveAll fence encode store requests, served.Sound fence := by
  intro served member
  obtain ⟨before, _, request, _, rfl⟩ := (serveAll_follows fence encode requests).member member
  exact exchange_sound fence encode before request.1 request.2

theorem serveAll_chain (store : FenceStore) (requests : List (Surroundings × Envelope)) :
    (serveAll fence encode store requests).Pairwise fun first last => first.after.Grows last.before := by
  refine ((serveAll_follows fence encode requests).pairwise store).imp ?_
  rintro _ _ ⟨before, request, later, next, _, rfl, grows, rfl⟩
  exact grows

theorem serveAll_contract (store : FenceStore) (requests : List (Surroundings × Envelope)) :
    fence.Contract (serveAll fence encode store requests) := by
  have sound := serveAll_sound fence encode store requests
  have chain := serveAll_chain fence encode store requests
  have unrecorded : ∀ served ∈ serveAll fence encode store requests, served.Changed →
      served.before.requestOutcomes served.envelope.requestId = none := by
    intro served member changed
    obtain ⟨object, admissible, _⟩ := (sound served member).changed changed
    exact admissible.unrecorded
  refine ⟨⟨fun served member => (sound served member).grows.epoch, chain.imp fun grows => grows.epoch⟩,
    ?_, ?_, ?_, ⟨?_, ?_⟩, fun served member => (sound served member).unchanged⟩
  · intro served member changed
    obtain ⟨object, admissible, _⟩ := (sound served member).changed changed
    exact ⟨admissible.addressed, admissible.live, admissible.current⟩
  · refine chain.imp_of_mem fun {first last} firstMember lastMember grows changed => ?_
    obtain ⟨object, admissible, _⟩ := (sound last lastMember).changed changed
    refine ⟨Int.le_trans grows.epoch admissible.current, fun firstChanged => ?_⟩
    obtain ⟨_, _, remembers⟩ := (sound first firstMember).changed firstChanged
    exact Int.le_trans remembers.epoch (Int.le_trans grows.epoch admissible.current)
  · refine chain.imp_of_mem fun {first last} firstMember lastMember grows firstChanged lastChanged => ?_
    intro before after firstNamed lastNamed same
    obtain ⟨object, firstAdmissible, remembers⟩ := (sound first firstMember).changed firstChanged
    obtain ⟨wanted, lastAdmissible, _⟩ := (sound last lastMember).changed lastChanged
    obtain rfl := Option.some.inj (firstNamed.symm.trans firstAdmissible.named)
    obtain rfl := Option.some.inj (lastNamed.symm.trans lastAdmissible.named)
    exact (grows.objects _ remembers.object).precedes lastAdmissible.follows same
  · intro served member recorded changed
    simp [unrecorded served member changed] at recorded
  · refine chain.imp_of_mem fun {first last} firstMember lastMember grows recorded changed => ?_
    have kept := grows.outcomes _ recorded
    simp [unrecorded last lastMember changed] at kept

end

def plainHost : Host where
  health := .ok ⟨protocolVersion, "m1", "host", 0, "boot"⟩
  capabilities := .error "unknown"
  inventory := .ok []
  sample := .error "unknown"
  ensureImage _ := .error "unknown"
  applyNetwork _ := .error "unknown"
  provision _ := .error "unknown"
  start _ := .ok .running
  stop _ := .ok .stopped
  reboot _ := .ok .running
  remove _ := .ok .stopped
  redefine _ := .error "unknown"
  resizeDisk _ _ := .error "unknown"

def plainSurroundings : Surroundings := ⟨0, .none, plainHost⟩

def plainEncode : Reply → Except HostError String
  | .changed .running => .ok "running"
  | .changed .stopped => .ok "stopped"
  | .changed .starting => .ok "starting"
  | _ => .ok "other"

def plainEnvelope (requestId : String) (object : Option ObjectFence) (op : Operation) : Envelope where
  protocolVersion := protocolVersion
  targetMachineId := some "m1"
  epoch := 1
  holderId := "controller"
  leaseExpiresAt := ⟨1000000000, 0⟩
  sentAt := ⟨0, 0⟩
  requestId := requestId
  object := object
  op := op

def plainChange (requestId : String) (epoch : Int) (object : ObjectFence) : Envelope :=
  { plainEnvelope requestId (some object) (.startInstance ⟨object.objectId, "box"⟩) with epoch }

/-- A read under the id of a finished change runs: a read is neither answered from
memory nor recorded. -/
theorem serveAll_read_under_recorded_id : ¬ (serveAll ⟨"m1", 60⟩ plainEncode .empty
        [(plainSurroundings, plainChange "r1" 1 ⟨"i1", 1, "a"⟩),
         (plainSurroundings, plainEnvelope "r1" none .health)]).Pairwise fun first last =>
      (first.after.requestOutcomes last.envelope.requestId).isSome → last.hostCalls = [] := by
  decide

end Bento.Runner
