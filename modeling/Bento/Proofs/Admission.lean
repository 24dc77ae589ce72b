import Bento.Runner.Serve

/-! What an admission can do, call by call. The stages name where in `admitAs` a
request stands; `Turn` says once what serving its next call leads to. The result of
an undisturbed admission and the invariants of interleaved ones both follow from it. -/

namespace Bento.Runner
open Library.Rfc3339 Library.Programs

/-- The object is placed at or after the last accepted order, and one generation
stands for one payload. -/
def FenceStore.Follows (store : FenceStore) (object : ObjectFence) : Prop :=
  ∀ accepted digest, store.objectGenerations object.objectId = some (accepted, digest) →
    accepted ≤ object.generation ∧ (object.generation = accepted → object.digest = digest)

/-- A change of `object`, addressed to this machine by a controller that holds its lease
and that no newer one was seen to replace. -/
structure Fence.Judged (fence : Fence) (now : Int) (envelope : Envelope) (store : FenceStore)
    (object : ObjectFence) : Prop where
  named : envelope.object = some object
  addressed : envelope.targetMachineId = some fence.machineId
  live : now < envelope.leaseExpiresAt.instant
  current : store.acceptedEpoch ≤ envelope.epoch

def Fence.Refuses (fence : Fence) (now : Int) (envelope : Envelope) (store : FenceStore) : Refusal → Prop
  | .protocolVersion yours theirs =>
    yours = envelope.protocolVersion ∧ theirs = protocolVersion ∧ yours ≠ theirs
  | .wrongMachine yours theirs =>
    envelope.targetMachineId = some yours ∧ theirs = fence.machineId ∧ yours ≠ theirs
  | .unaddressedChange => envelope.targetMachineId = none
  | .staleEpoch yours theirs => yours = envelope.epoch ∧ theirs = store.acceptedEpoch ∧ yours < theirs
  | .clockUntrusted skew =>
    skew = (now - envelope.sentAt.instant).tdiv nanosPerSecond ∧ fence.maxSkewSeconds < skew.natAbs
  | .leaseExpired text => envelope.leaseExpiresAt.format = .ok text ∧ envelope.leaseExpiresAt.instant ≤ now
  | .unfencedChange => envelope.object = none
  | .staleGeneration objectId yours theirs =>
    ∃ digest accepted, envelope.object = some ⟨objectId, yours, digest⟩ ∧
      store.objectGenerations objectId = some (theirs, accepted) ∧ yours < theirs
  | .generationConflict objectId generation =>
    ∃ digest accepted, envelope.object = some ⟨objectId, generation, digest⟩ ∧
      store.objectGenerations objectId = some (generation, accepted) ∧ digest ≠ accepted

inductive Stage where
  | entering
  | judged (object : ObjectFence)
  | compared (object : ObjectFence)
  | fresh (object : ObjectFence)
  | moved (object : ObjectFence)
  | settled (result : Except FenceError Admission)

def Stage.waits : Stage → Bool
  | .settled _ => false
  | _ => true

def afterMoved (object : ObjectFence) : FenceM Admission := do
  storeCall (.acceptObject object.objectId object.generation object.digest)
  return .allowed

def afterFresh (envelope : Envelope) (object : ObjectFence) : FenceM Admission := do
  storeCall (.acceptEpoch envelope.epoch)
  afterMoved object

def afterCompared (envelope : Envelope) (object : ObjectFence) : FenceM Admission := do
  if let some outcome ← storeCall (.outcome envelope.requestId) then
    return .alreadyDone outcome
  afterFresh envelope object

def compare (envelope : Envelope) (object : ObjectFence)
    (row : (StoreCall.objectGeneration object.objectId).Result) : FenceM Admission := do
  if let some (accepted, digest) := row then
    if object.generation < accepted then
      return .refused (.staleGeneration object.objectId object.generation accepted)
    if object.generation = accepted ∧ object.digest ≠ digest then
      return .refused (.generationConflict object.objectId object.generation)
  afterCompared envelope object

def afterJudged (envelope : Envelope) (object : ObjectFence) : FenceM Admission := do
  let row ← storeCall (.objectGeneration object.objectId)
  compare envelope object row

def Fence.judge (fence : Fence) (now : Int) (envelope : Envelope) (mutates : Bool) (accepted : Int) :
    FenceM Admission := do
  if envelope.epoch < accepted then
    return .refused (.staleEpoch envelope.epoch accepted)
  let skew := (now - envelope.sentAt.instant).tdiv nanosPerSecond
  if skew.natAbs > fence.maxSkewSeconds then
    return .refused (.clockUntrusted skew)
  if envelope.leaseExpiresAt.instant ≤ now then
    match envelope.leaseExpiresAt.format with
    | .ok text => return .refused (.leaseExpired text)
    | .error message => throw (.time message)
  if !mutates then
    return .allowed
  let some object := envelope.object | return .refused .unfencedChange
  afterJudged envelope object

section
variable (fence : Fence) (now : Int) (envelope : Envelope) (mutates : Bool)

def Fence.rest : Stage → FenceM Admission
  | .entering => fence.admitAs now envelope mutates
  | .judged object => afterJudged envelope object
  | .compared object => afterCompared envelope object
  | .fresh object => afterFresh envelope object
  | .moved object => afterMoved object
  | .settled result => ExceptT.mk (.pure result)

inductive Fence.Turn (store : FenceStore) : Stage → Stage → FenceStore → Prop
  | failed {stage : Stage} (waits : stage.waits = true) (error : FenceError) :
      Turn store stage (.settled (.error error)) store
  | refused {refusal : Refusal} (reason : fence.Refuses now envelope store refusal) :
      Turn store .entering (.settled (.ok (.refused refusal))) store
  | read (reads : mutates = false) (current : store.acceptedEpoch ≤ envelope.epoch)
      (live : now < envelope.leaseExpiresAt.instant) : Turn store .entering (.settled (.ok .allowed)) store
  | judged {object : ObjectFence} (changes : mutates = true) (judged : fence.Judged now envelope store object) :
      Turn store .entering (.judged object) store
  | outdated {object : ObjectFence} {refusal : Refusal}
      (reason : envelope.object = some object → fence.Refuses now envelope store refusal) :
      Turn store (.judged object) (.settled (.ok (.refused refusal))) store
  | compared {object : ObjectFence} (follows : store.Follows object) :
      Turn store (.judged object) (.compared object) store
  | replayed {object : ObjectFence} {outcome : String}
      (recorded : store.requestOutcomes envelope.requestId = some outcome) :
      Turn store (.compared object) (.settled (.ok (.alreadyDone outcome))) store
  | fresh {object : ObjectFence} (unrecorded : store.requestOutcomes envelope.requestId = none) :
      Turn store (.compared object) (.fresh object) store
  | moved {object : ObjectFence} : Turn store (.fresh object) (.moved object) (store.acceptEpoch envelope.epoch)
  | allowed {object : ObjectFence} : Turn store (.moved object) (.settled (.ok .allowed))
      (store.acceptObject object.objectId object.generation object.digest)

end

variable {fence : Fence} {now : Int} {envelope : Envelope} {mutates : Bool}

theorem Fence.admitAs_eq : fence.admitAs now envelope mutates = (do
  if envelope.protocolVersion ≠ protocolVersion then
    return .refused (.protocolVersion envelope.protocolVersion protocolVersion)
  match envelope.targetMachineId with
  | some target =>
    if target ≠ fence.machineId then return .refused (.wrongMachine target fence.machineId)
  | none =>
    if mutates then return .refused .unaddressedChange
  let accepted : Int ← storeCall .acceptedEpoch
  fence.judge now envelope mutates accepted) := by
  rfl

theorem serveStore_cases (faults : Faults) (call : StoreCall) (store : FenceStore) :
    (∃ error, serveStore faults call store = (.error error, store)) ∨
      serveStore faults call store = (.ok (store.perform call).1, (store.perform call).2) := by
  unfold serveStore
  split
  next error _ => exact .inl ⟨error, rfl⟩
  next => exact .inr rfl

/-- Before its first call an admission refuses what it cannot read and what is not
addressed to this machine; otherwise it asks for the accepted epoch. -/
theorem Fence.admitAs_opening (fence : Fence) (now : Int) (envelope : Envelope) (mutates : Bool) :
    (∃ refusal, fence.admitAs now envelope mutates = pure (.refused refusal) ∧
      ∀ store, fence.Refuses now envelope store refusal) ∨
    ((mutates = true → envelope.targetMachineId = some fence.machineId) ∧ fence.admitAs now envelope mutates = (do
        let accepted : Int ← storeCall .acceptedEpoch
        fence.judge now envelope mutates accepted)) := by
  rw [Fence.admitAs_eq]
  by_cases readable : envelope.protocolVersion ≠ protocolVersion
  · exact .inl ⟨.protocolVersion _ _, if_pos readable, fun _ => ⟨rfl, rfl, readable⟩⟩
  rw [if_neg readable]
  cases named : envelope.targetMachineId with
  | some target =>
    by_cases elsewhere : target ≠ fence.machineId
    · exact .inl ⟨.wrongMachine target fence.machineId, if_pos elsewhere, fun _ => ⟨named, rfl, elsewhere⟩⟩
    · exact .inr ⟨fun _ => congrArg some (not_not.mp elsewhere), if_neg elsewhere⟩
  | none =>
    cases mutates with
    | true => exact .inl ⟨.unaddressedChange, rfl, fun _ => named⟩
    | false => exact .inr ⟨nofun, rfl⟩

variable {store : FenceStore} {stage : Stage}

theorem judge_turn (addressed : mutates = true → envelope.targetMachineId = some fence.machineId) :
    ∃ next, fence.judge now envelope mutates store.acceptedEpoch = fence.rest now envelope mutates next ∧
      fence.Turn now envelope mutates store .entering next store := by
  unfold Fence.judge
  by_cases stale : envelope.epoch < store.acceptedEpoch
  · exact ⟨.settled (.ok (.refused _)), if_pos stale, .refused ⟨rfl, rfl, stale⟩⟩
  rw [if_neg stale]
  by_cases untrusted : ((now - envelope.sentAt.instant).tdiv nanosPerSecond).natAbs > fence.maxSkewSeconds
  · exact ⟨.settled (.ok (.refused _)), if_pos untrusted, .refused ⟨rfl, untrusted⟩⟩
  by_cases expired : envelope.leaseExpiresAt.instant ≤ now
  · simp only [untrusted, expired, ↓reduceIte]
    cases written : envelope.leaseExpiresAt.format with
    | ok text => exact ⟨.settled (.ok (.refused (.leaseExpired text))), rfl, .refused ⟨written, expired⟩⟩
    | error message => exact ⟨.settled (.error (.time message)), rfl, .failed rfl _⟩
  simp only [untrusted, expired, ↓reduceIte]
  cases mutates with
  | false => exact ⟨.settled (.ok .allowed), rfl, .read rfl (Int.not_lt.mp stale) (Int.not_le.mp expired)⟩
  | true =>
    cases named : envelope.object with
    | none => exact ⟨.settled (.ok (.refused .unfencedChange)), rfl, .refused named⟩
    | some object =>
      exact ⟨.judged object, rfl, .judged rfl ⟨named, addressed rfl, Int.not_le.mp expired, Int.not_lt.mp stale⟩⟩

theorem compare_turn (object : ObjectFence) :
    ∃ next, compare envelope object (store.objectGenerations object.objectId) = fence.rest now envelope mutates next ∧
      fence.Turn now envelope mutates store (.judged object) next store := by
  cases found : store.objectGenerations object.objectId with
  | none =>
    refine ⟨.compared object, rfl, .compared fun accepted digest stored => ?_⟩
    rw [found] at stored
    cases stored
  | some row =>
    obtain ⟨accepted, digest⟩ := row
    by_cases late : object.generation < accepted
    · exact ⟨.settled (.ok (.refused _)), if_pos late,
        .outdated fun named => ⟨object.digest, digest, named, found, late⟩⟩
    by_cases conflict : object.generation = accepted ∧ object.digest ≠ digest
    · refine ⟨.settled (.ok (.refused (.generationConflict object.objectId object.generation))),
        (if_neg late).trans (if_pos conflict), .outdated fun named => ?_⟩
      exact ⟨object.digest, digest, named, by rw [found, conflict.1], conflict.2⟩
    · refine ⟨.compared object, (if_neg late).trans (if_neg conflict), .compared ?_⟩
      intro other wanted stored
      rw [found] at stored
      cases stored
      exact ⟨Int.not_lt.mp late, fun same => by_contra fun differ => conflict ⟨same, differ⟩⟩

theorem Fence.rest_turn {faults : Faults} {after : FenceStore} {program : FenceM Admission}
    (moved : Program.resume (serveStore faults) (fence.rest now envelope mutates stage) store = some (program, after)) :
    ∃ next, program = fence.rest now envelope mutates next ∧
      fence.Turn now envelope mutates store stage next after := by
  cases stage with
  | entering =>
    obtain ⟨refusal, same, _⟩ | ⟨addressed, same⟩ := fence.admitAs_opening now envelope mutates
    · rw [Fence.rest, same] at moved
      cases moved
    · rw [Fence.rest, same] at moved
      cases moved
      obtain ⟨error, served⟩ | served := serveStore_cases faults .acceptedEpoch store
      · rw [served]
        exact ⟨.settled (.error error), rfl, .failed rfl _⟩
      · rw [served]
        exact judge_turn addressed
  | judged object =>
    cases moved
    obtain ⟨error, served⟩ | served := serveStore_cases faults (.objectGeneration object.objectId) store
    · rw [served]
      exact ⟨.settled (.error error), rfl, .failed rfl _⟩
    · rw [served]
      exact compare_turn object
  | compared object =>
    cases moved
    obtain ⟨error, served⟩ | served := serveStore_cases faults (.outcome envelope.requestId) store
    · rw [served]
      exact ⟨.settled (.error error), rfl, .failed rfl _⟩
    · rw [served]
      cases recorded : store.requestOutcomes envelope.requestId with
      | none => exact ⟨.fresh object, by simp only [FenceStore.perform, recorded]; rfl, .fresh recorded⟩
      | some outcome =>
        exact ⟨.settled (.ok (.alreadyDone outcome)),
          by simp only [FenceStore.perform, recorded]; rfl, .replayed recorded⟩
  | fresh object =>
    cases moved
    obtain ⟨error, served⟩ | served := serveStore_cases faults (.acceptEpoch envelope.epoch) store
    · rw [served]
      exact ⟨.settled (.error error), rfl, .failed rfl _⟩
    · rw [served]
      exact ⟨.moved object, rfl, .moved⟩
  | moved object =>
    cases moved
    obtain ⟨error, served⟩ | served :=
      serveStore_cases faults (.acceptObject object.objectId object.generation object.digest) store
    · rw [served]
      exact ⟨.settled (.error error), rfl, .failed rfl _⟩
    · rw [served]
      exact ⟨.settled (.ok .allowed), rfl, .allowed⟩
  | settled => cases moved

theorem Fence.rest_ended {result : Except FenceError Admission}
    (ended : fence.rest now envelope mutates stage = ExceptT.mk (.pure result)) : stage = .settled result ∨
      stage = .entering ∧ ∃ refusal, result = .ok (.refused refusal) ∧
        ∀ store, fence.Refuses now envelope store refusal := by
  cases stage with
  | entering =>
    obtain ⟨refusal, same, reason⟩ | ⟨_, same⟩ := fence.admitAs_opening now envelope mutates
    · rw [Fence.rest, same] at ended
      cases ended
      exact .inr ⟨rfl, refusal, rfl, reason⟩
    · rw [Fence.rest, same] at ended
      cases ended
  | judged | compared | fresh | moved => cases ended
  | settled =>
    cases ended
    exact .inl rfl

structure Fence.Admissible (fence : Fence) (now : Int) (envelope : Envelope) (store : FenceStore)
    (object : ObjectFence) : Prop extends fence.Judged now envelope store object where
  follows : store.Follows object
  unrecorded : store.requestOutcomes envelope.requestId = none

inductive Fence.Admits (fence : Fence) (now : Int) (envelope : Envelope) (mutates : Bool) (store : FenceStore) :
    Except FenceError Admission → FenceStore → Prop
  | failed (error : FenceError) : Admits fence now envelope mutates store (.error error) store
  | refused {refusal : Refusal} (reason : fence.Refuses now envelope store refusal) :
      Admits fence now envelope mutates store (.ok (.refused refusal)) store
  | read (reads : mutates = false) (current : store.acceptedEpoch ≤ envelope.epoch)
      (live : now < envelope.leaseExpiresAt.instant) : Admits fence now envelope mutates store (.ok .allowed) store
  | replayed {outcome : String} (changes : mutates = true)
      (recorded : store.requestOutcomes envelope.requestId = some outcome) :
      Admits fence now envelope mutates store (.ok (.alreadyDone outcome)) store
  | halfway {object : ObjectFence} (error : FenceError) (changes : mutates = true)
      (admissible : fence.Admissible now envelope store object) :
      Admits fence now envelope mutates store (.error error) (store.acceptEpoch envelope.epoch)
  | changed {object : ObjectFence} (changes : mutates = true)
      (admissible : fence.Admissible now envelope store object) :
      Admits fence now envelope mutates store (.ok .allowed)
        ((store.acceptEpoch envelope.epoch).acceptObject object.objectId object.generation object.digest)

/-- What is known at a stage of an admission that began at `start`, when nobody else
touched the store. -/
inductive Alone (fence : Fence) (now : Int) (envelope : Envelope) (mutates : Bool) (start : FenceStore) :
    Stage → FenceStore → Prop
  | entering : Alone fence now envelope mutates start .entering start
  | judged {object : ObjectFence} (changes : mutates = true) (judged : fence.Judged now envelope start object) :
      Alone fence now envelope mutates start (.judged object) start
  | compared {object : ObjectFence} (changes : mutates = true) (judged : fence.Judged now envelope start object)
      (follows : start.Follows object) : Alone fence now envelope mutates start (.compared object) start
  | fresh {object : ObjectFence} (changes : mutates = true)
      (admissible : fence.Admissible now envelope start object) :
      Alone fence now envelope mutates start (.fresh object) start
  | moved {object : ObjectFence} (changes : mutates = true)
      (admissible : fence.Admissible now envelope start object) :
      Alone fence now envelope mutates start (.moved object) (start.acceptEpoch envelope.epoch)
  | settled {result : Except FenceError Admission} {store : FenceStore}
      (admits : fence.Admits now envelope mutates start result store) :
      Alone fence now envelope mutates start (.settled result) store

theorem alone_turn {start after : FenceStore} {next : Stage}
    (alone : Alone fence now envelope mutates start stage store)
    (turn : fence.Turn now envelope mutates store stage next after) :
    Alone fence now envelope mutates start next after := by
  cases alone with
  | entering =>
    cases turn with
    | failed _ error => exact .settled (.failed error)
    | refused reason => exact .settled (.refused reason)
    | read reads current live => exact .settled (.read reads current live)
    | judged changes judged => exact .judged changes judged
  | judged changes judged =>
    cases turn with
    | failed _ error => exact .settled (.failed error)
    | outdated reason => exact .settled (.refused (reason judged.named))
    | compared follows => exact .compared changes judged follows
  | compared changes judged follows =>
    cases turn with
    | failed _ error => exact .settled (.failed error)
    | replayed recorded => exact .settled (.replayed changes recorded)
    | fresh unrecorded => exact .fresh changes { judged with follows, unrecorded }
  | fresh changes admissible =>
    cases turn with
    | failed _ error => exact .settled (.failed error)
    | moved => exact .moved changes admissible
  | moved changes admissible =>
    cases turn with
    | failed _ error => exact .settled (.halfway error changes admissible)
    | allowed => exact .settled (.changed changes admissible)
  | settled =>
    cases turn with
    | failed waits => cases waits

theorem alone_done {start store : FenceStore} {stage : Stage} {result : Except FenceError Admission}
    (alone : Alone fence now envelope mutates start stage store)
    (done : ExceptT.mk (.pure result) = fence.rest now envelope mutates stage) :
    fence.Admits now envelope mutates start result store := by
  obtain rfl | ⟨rfl, refusal, rfl, reason⟩ := Fence.rest_ended done.symm
  · cases alone with
    | settled admits => exact admits
  · cases alone with
    | entering => exact .refused (reason start)

theorem Fence.admitAs_admits (fence : Fence) (now : Int) (envelope : Envelope) (mutates : Bool) (faults : Faults)
    (store : FenceStore) : fence.Admits now envelope mutates store
      ((fence.admitAs now envelope mutates).execute (serveStore faults) store).1
      ((fence.admitAs now envelope mutates).execute (serveStore faults) store).2 := by
  have kept : ∀ program current rest after, Program.resume (serveStore faults) program current = some (rest, after) →
      (∃ stage, program = fence.rest now envelope mutates stage ∧
        Alone fence now envelope mutates store stage current) →
      ∃ stage, rest = fence.rest now envelope mutates stage ∧ Alone fence now envelope mutates store stage after := by
    intro program current rest after moved known
    obtain ⟨stage, same, alone⟩ := known
    subst same
    obtain ⟨next, left, turn⟩ := Fence.rest_turn moved
    exact ⟨next, left, alone_turn alone turn⟩
  obtain ⟨stage, done, alone⟩ :=
    Program.execute_invariant _ kept (fence.admitAs now envelope mutates) store ⟨.entering, rfl, .entering⟩
  exact alone_done alone done

end Bento.Runner
