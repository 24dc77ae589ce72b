import Bento.Proofs.AdmissionRaces

/-! When a runner can never see a conflict of generations: all requests for one object that
bear one generation have one payload, whatever their order and interleaving. -/

namespace Bento.Runner
open Library.Programs Library.Runs

def FenceStore.From (objects : ObjectFence → Prop) (store : FenceStore) : Prop :=
  ∀ objectId generation digest, store.objectGenerations objectId = some (generation, digest) →
    objects ⟨objectId, generation, digest⟩

section
variable {objects : ObjectFence → Prop} {envelope : Envelope} {store after : FenceStore}

theorem FenceStore.From.draws (known : store.From objects) (draws : store.Draws envelope after)
    (names : ∀ object, envelope.object = some object → objects object) : after.From objects := by
  intro objectId generation digest found
  obtain kept | named := draws.objects objectId generation digest found
  · exact known objectId generation digest kept
  · exact names _ named

theorem FenceStore.From.agrees (known : store.From objects)
    (one : ∀ first last, objects first → objects last → SamePayload first last)
    (names : ∀ object, envelope.object = some object → objects object) {fence : Fence} {now : Int}
    {objectId : String} {generation : Int} :
    ¬ fence.Refuses now envelope store (.generationConflict objectId generation) := by
  rintro ⟨digest, accepted, named, stored, differ⟩
  exact differ (one _ _ (names _ named) (known _ _ _ stored) rfl rfl)

theorem serveAll_never_conflicts (one : ∀ first last, objects first → objects last → SamePayload first last)
    (fence : Fence) (encode : Reply → Except HostError String) (requests : List (Surroundings × Envelope))
    (names : ∀ request ∈ requests, ∀ object, request.2.object = some object → objects object) :
    ∀ served ∈ serveAll fence encode .empty requests, ∀ objectId generation,
      served.result ≠ .ok (.refused (.generationConflict objectId generation)) := by
  have follows : Follows (fun store (request : Surroundings × Envelope) =>
      (exchange fence encode store request.1 request.2, (exchange fence encode store request.1 request.2).after))
      requests fun before after => before.From objects → after.From objects :=
    ⟨fun _ known => known, fun first last known => last (first known), fun store request listed known =>
      known.draws (exchange_sound fence encode store request.1 request.2).draws (names request listed)⟩
  intro served member objectId generation conflict
  obtain ⟨store, reached, request, listed, rfl⟩ := follows.member member
  have known : store.From objects := reached nofun
  exact known.agrees one (names request listed)
    ((exchange_sound fence encode store request.1 request.2).refused _ conflict)

end

variable {fence : Fence} {envelope : Envelope} {mutates : Bool} {store after : FenceStore} {stage : Stage}

theorem Fence.Turn.draws {now : Int} {next : Stage} (turn : fence.Turn now envelope mutates store stage next after)
    (named : ∀ object, stage.judging = some object → envelope.object = some object) : store.Draws envelope after := by
  cases turn with
  | moved => exact store.draws_acceptEpoch envelope
  | @allowed object => exact store.draws_acceptObject (named object rfl)
  | failed | refused | read | judged | outdated | compared | replayed | fresh => exact .refl envelope store

theorem Fence.Turn.named {now : Int} {next : Stage} (turn : fence.Turn now envelope mutates store stage next after)
    (named : ∀ object, stage.judging = some object → envelope.object = some object) :
    ∀ object, next.judging = some object → envelope.object = some object := by
  intro object found
  cases turn with
  | judged _ judged =>
    cases found
    exact judged.named
  | compared | fresh | moved => exact named object found
  | failed | refused | read | outdated | replayed | allowed => cases found

theorem Fence.Turn.reason {now : Int} {refusal : Refusal}
    (turn : fence.Turn now envelope mutates store stage (.settled (.ok (.refused refusal))) after)
    (named : ∀ object, stage.judging = some object → envelope.object = some object) :
    fence.Refuses now envelope store refusal := by
  cases turn with
  | refused reason => exact reason
  | @outdated object _ reason => exact reason (named object rfl)

section
variable {ι : Type} [DecidableEq ι] {objects : ObjectFence → Prop} {fence : Fence} {requests : ι → Int × Envelope}

structure Concordant (objects : ObjectFence → Prop) (fence : Fence) (requests : ι → Int × Envelope)
    (stages : ι → Option Stage) (pool : Admissions ι) : Prop where
  tracks : pool.Tracks (fence.restOf requests) stages
  store : pool.shared.From objects
  named : ∀ i stage, stages i = some stage → ∀ object, stage.judging = some object → (requests i).2.object = some object
  settled : ∀ i objectId generation,
    stages i ≠ some (.settled (.ok (.refused (.generationConflict objectId generation))))

theorem Concordant.step (one : ∀ first last, objects first → objects last → SamePayload first last)
    (names : ∀ i object, (requests i).2.object = some object → objects object)
    {stages : ι → Option Stage} {pool next : Admissions ι} {event : PoolEvent ι (Option FenceError)}
    (known : Concordant objects fence requests stages pool) (moved : admissionStep pool event = some next) :
    ∃ stages, Concordant objects fence requests stages next := by
  obtain ⟨i, fault, stage, program, shared, rfl, found, resumed, rfl⟩ | ⟨i, stage, call, left, rfl, found, _, rfl⟩ :=
    known.tracks.step_cases moved
  · obtain ⟨next, rfl, turn⟩ := Fence.rest_turn resumed
    have named := known.named i stage found
    refine ⟨_, known.tracks.set i shared (some next), known.store.draws (turn.draws named) (names i), ?_, ?_⟩
    · intro j stage held
      obtain ⟨rfl, same⟩ | ⟨_, held⟩ := update_eq_some held
      · cases same
        exact turn.named named
      · exact known.named j stage held
    · intro j objectId generation held
      obtain ⟨rfl, same⟩ | ⟨_, held⟩ := update_eq_some held
      · cases same
        exact known.store.agrees one (names j) (turn.reason named)
      · exact known.settled j objectId generation held
  · refine ⟨_, known.tracks.set i pool.shared none, known.store, ?_, ?_⟩
    · intro j stage held
      obtain ⟨_, same⟩ | ⟨_, held⟩ := update_eq_some held
      · cases same
      · exact known.named j stage held
    · intro j objectId generation held
      obtain ⟨_, same⟩ | ⟨_, held⟩ := update_eq_some held
      · cases same
      · exact known.settled j objectId generation held

theorem admissions_never_conflict (one : ∀ first last, objects first → objects last → SamePayload first last)
    (names : ∀ i object, (requests i).2.object = some object → objects object)
    {events : List (PoolEvent ι (Option FenceError))} {pool : Admissions ι}
    (ran : exec admissionStep (fence.admissions requests .empty) events = some pool) (i : ι)
    (objectId : String) (generation : Int) :
    pool.thread i ≠ some (.pure (.ok (.refused (.generationConflict objectId generation)))) := by
  have kept : ∀ pool event next, admissionStep pool event = some next →
      (∃ stages, Concordant objects fence requests stages pool) →
        ∃ stages, Concordant objects fence requests stages next := by
    intro pool event next moved known
    obtain ⟨stages, concordant⟩ := known
    exact concordant.step one names moved
  have initial : Concordant objects fence requests (fun _ => some .entering) (fence.admissions requests .empty) := by
    refine ⟨fun _ => rfl, nofun, fun i stage held object judging => ?_, nofun⟩
    cases held
    cases judging
  obtain ⟨stages, known⟩ := stable kept ran ⟨_, initial⟩
  intro ended
  rw [known.tracks i] at ended
  obtain ⟨stage, found, same⟩ := Option.map_eq_some_iff.mp ended
  obtain rfl | ⟨_, refusal, refused, reason⟩ := Fence.rest_ended same
  · exact known.settled i objectId generation found
  · cases refused
    obtain ⟨_, _, _, stored, _⟩ := reason .empty
    cases stored

end

end Bento.Runner
