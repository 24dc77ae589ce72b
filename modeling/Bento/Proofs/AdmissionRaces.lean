import Bento.Proofs.FenceHistory
import Mathlib.Data.Fintype.Basic

/-! Admissions that interleave call by call. An admission reads the epoch and the
generation first and records them later, so another one may record in between. Both
promises of the fence hold in the runs where nobody records past an admission that has
made the check but has not ended. -/

namespace Bento.Runner
open Library.Programs Library.Runs Function Pool

variable {ι : Type} [DecidableEq ι]

def epochChecked (task : Option (Program StoreCall.Answer (Except FenceError Admission))) : Bool :=
  match task.bind Program.waiting with
  | some (.objectGeneration _) | some (.outcome _) | some (.acceptEpoch _) | some (.acceptObject _ _ _) => true
  | _ => false

def generationChecked (task : Option (Program StoreCall.Answer (Except FenceError Admission))) : Bool :=
  match task.bind Program.waiting with
  | some (.outcome _) | some (.acceptEpoch _) | some (.acceptObject _ _ _) => true
  | _ => false

/-- Task `i` may make this call: an epoch is recorded only when no other admission holds
a lower one that it found current, and a generation only when no other admission holds
the same one with another payload. -/
def RecordsLast (requests : ι → Int × Envelope) (pool : Admissions ι) (i : ι) : Option StoreCall → Prop
  | some (.acceptEpoch epoch) =>
    ∀ j, j ≠ i → epochChecked (pool.thread j) → epoch ≤ (requests j).2.epoch
  | some (.acceptObject objectId generation digest) =>
    ∀ j, j ≠ i → generationChecked (pool.thread j) → ∀ other ∈ (requests j).2.object,
      other.objectId = objectId → other.generation = generation → other.digest = digest
  | _ => True

def Unraced (requests : ι → Int × Envelope) (pool : Admissions ι) : PoolEvent ι (Option FenceError) → Prop
  | .drop _ => True
  | .step i _ => RecordsLast requests pool i ((pool.thread i).bind Program.waiting)

instance [Fintype ι] (requests : ι → Int × Envelope) (pool : Admissions ι) (i : ι) :
    DecidablePred (RecordsLast requests pool i) := by
  intro call
  unfold RecordsLast
  split <;> infer_instance

instance [Fintype ι] (requests : ι → Int × Envelope) (pool : Admissions ι) : DecidablePred (Unraced requests pool)
  | .drop _ => .isTrue trivial
  | .step i _ => inferInstanceAs (Decidable (RecordsLast requests pool i _))

namespace Stage

def judging : Stage → Option ObjectFence
  | .judged object | .compared object | .fresh object | .moved object => some object
  | _ => none

def following : Stage → Option ObjectFence
  | .compared object | .fresh object | .moved object => some object
  | _ => none

def done : Stage := .settled (.ok .allowed)

end Stage

def Stage.Final (stage : Stage) (envelope : Envelope) (object : ObjectFence) : Prop :=
  stage = .done ∧ envelope.op.mutates = true ∧ envelope.object = some object

structure Stage.Holds (stage : Stage) (store : FenceStore) (envelope : Envelope) : Prop where
  named : ∀ object, stage.judging = some object → envelope.object = some object
  epoch : ∀ object, stage.judging = some object → store.acceptedEpoch ≤ envelope.epoch
  agrees : ∀ object, stage.following = some object → store.Agrees object
  covers : ∀ object, stage.Final envelope object → store.Covers object

variable {stage : Stage}

theorem following_judging {object : ObjectFence} (found : stage.following = some object) :
    stage.judging = some object := by
  cases stage <;> first | exact found | cases found

section
variable {fence : Fence} {now : Int} {envelope : Envelope} {mutates : Bool} {stage : Stage} {object : ObjectFence}

theorem epochChecked_rest (judging : stage.judging = some object) :
    epochChecked (some (fence.rest now envelope mutates stage)) := by
  cases stage <;> first | rfl | cases judging

theorem generationChecked_rest (following : stage.following = some object) :
    generationChecked (some (fence.rest now envelope mutates stage)) := by
  cases stage <;> first | rfl | cases following

theorem rest_allowed (allowed : isAllowed (some (fence.rest now envelope mutates stage))) : stage = .done := by
  unfold isAllowed at allowed
  split at allowed
  next same =>
    obtain settled | ⟨_, _, refused, _⟩ := Fence.rest_ended (Option.some.inj same)
    · exact settled
    · cases refused
  next => cases allowed

end

theorem Stage.Holds.acceptEpoch {store : FenceStore} {envelope : Envelope} {epoch : Int}
    (holds : stage.Holds store envelope) (behind : ∀ object, stage.judging = some object → epoch ≤ envelope.epoch) :
    stage.Holds (store.acceptEpoch epoch) envelope :=
  { holds with epoch := fun object found => Int.max_le.mpr ⟨holds.epoch object found, behind object found⟩ }

theorem Stage.Holds.acceptObject {store : FenceStore} {envelope : Envelope} {objectId : String}
    {generation : Int} {digest : String} (holds : stage.Holds store envelope)
    (same : ∀ object, stage.following = some object → object.objectId = objectId → object.generation = generation →
      object.digest = digest) :
    stage.Holds (store.acceptObject objectId generation digest) envelope := by
  have grows := store.grows_acceptObject objectId generation digest
  refine ⟨holds.named, fun object found => ?_, fun object found => ?_, fun object final =>
    grows.objects object (holds.covers object final)⟩
  · rw [(store.acceptObject_rest objectId generation digest).1]
    exact holds.epoch object found
  · intro accepted kept stored tie
    by_cases touched : object.objectId = objectId
    · have before : ∀ row, store.objectGenerations objectId = some row → object.generation = row.1 →
          object.digest = row.2 := fun row found' => holds.agrees object found row.1 row.2 (touched ▸ found')
      rw [touched, store.acceptObject_same] at stored
      split at stored
      next older payload row =>
        split at stored
        next =>
          cases stored
          exact same object found touched tie
        next =>
          cases stored
          exact before _ row tie
      next =>
        cases stored
        exact same object found touched tie
    · rw [store.acceptObject_other touched] at stored
      exact holds.agrees object found accepted kept stored tie

def SamePayload (first last : ObjectFence) : Prop :=
  first.objectId = last.objectId → first.generation = last.generation → first.digest = last.digest

theorem SamePayload.symm {first last : ObjectFence} (same : SamePayload first last) : SamePayload last first :=
  fun ids generations => (same ids.symm generations.symm).symm

section
variable (fence : Fence) (requests : ι → Int × Envelope)

abbrev Fence.restOf (i : ι) (stage : Stage) : Program StoreCall.Answer (Except FenceError Admission) :=
  fence.rest (requests i).1 (requests i).2 (requests i).2.op.mutates stage

structure Orderly (stages : ι → Option Stage) (pool : Admissions ι) : Prop where
  tasks : pool.Tracks (fence.restOf requests) stages
  holds : ∀ i stage, stages i = some stage → stage.Holds pool.shared (requests i).2
  payload : ∀ i j first last before after, stages i = some first → stages j = some last →
    first.Final (requests i).2 before → last.following = some after ∨ last.Final (requests j).2 after →
    SamePayload before after

variable {fence requests}

variable {stages : ι → Option Stage} {pool : Admissions ι} {i : ι}

theorem Orderly.move {next : Stage} {after : FenceStore} (orderly : Orderly fence requests stages pool)
    (others : ∀ j stage, j ≠ i → stages j = some stage → stage.Holds after (requests j).2)
    (mine : next.Holds after (requests i).2)
    (final : ∀ first, next.Final (requests i).2 first → ∀ j stage last, j ≠ i → stages j = some stage →
      stage.following = some last ∨ stage.Final (requests j).2 last → SamePayload first last)
    (following : ∀ last, next.following = some last → ∀ j stage first, j ≠ i → stages j = some stage →
      stage.Final (requests j).2 first → SamePayload first last) :
    Orderly fence requests (Function.update stages i (some next))
      (pool.set i after (some (fence.restOf requests i next))) := by
  refine ⟨orderly.tasks.set i after (some next), fun j stage found => ?_, ?_⟩
  · by_cases same : j = i
    · subst same
      simp only [update_self, Option.some.injEq] at found
      exact found ▸ mine
    · rw [update_of_ne same] at found
      exact others j stage same found
  · intro j k first last before payload firstFound lastFound finished stands
    by_cases same : j = i
    · subst same
      simp only [update_self, Option.some.injEq] at firstFound
      subst firstFound
      by_cases same : k = j
      · subst same
        simp only [update_self, Option.some.injEq] at lastFound
        subst lastFound
        obtain ⟨rfl, changes, named⟩ := finished
        cases stands with
        | inl following => cases following
        | inr finished =>
          obtain rfl := Option.some.inj (named.symm.trans finished.2.2)
          exact fun _ _ => rfl
      · rw [update_of_ne same] at lastFound
        exact final before finished k last payload same lastFound stands
    · rw [update_of_ne same] at firstFound
      by_cases other : k = i
      · subst other
        simp only [update_self, Option.some.injEq] at lastFound
        subst lastFound
        cases stands with
        | inl follows => exact following payload follows j first before same firstFound finished
        | inr ended => exact (final payload ended j first before same firstFound (.inr finished)).symm
      · rw [update_of_ne other] at lastFound
        exact orderly.payload j k first last before payload firstFound lastFound finished stands

theorem Orderly.quits {result : Except FenceError Admission} (orderly : Orderly fence requests stages pool)
    (idle : ∀ object, ¬ (Stage.settled result).Final (requests i).2 object) :
    Orderly fence requests (Function.update stages i (some (.settled result)))
      (pool.set i pool.shared (some (fence.restOf requests i (.settled result)))) :=
  orderly.move (fun j stage _ found => orderly.holds j stage found)
    (⟨nofun, nofun, nofun, fun object final => absurd final (idle object)⟩)
    (fun first final => absurd final (idle first)) nofun

theorem Orderly.turn {stage next : Stage} {after : FenceStore} {fault : Option FenceError}
    (orderly : Orderly fence requests stages pool) (found : stages i = some stage)
    (unraced : Unraced requests pool (.step i fault))
    (turn : fence.Turn (requests i).1 (requests i).2 (requests i).2.op.mutates pool.shared stage next after) :
    Orderly fence requests (Function.update stages i (some next))
      (pool.set i after (some (fence.restOf requests i next))) := by
  have holds := orderly.holds i stage found
  have others : ∀ j stage, j ≠ i → stages j = some stage → stage.Holds pool.shared (requests j).2 :=
    fun j stage _ found => orderly.holds j stage found
  have task := orderly.tasks i
  rw [found] at task
  cases turn with
  | failed | refused | outdated | replayed => exact orderly.quits fun object final => nomatch final.1
  | read reads =>
    refine orderly.quits fun object final => ?_
    have changes := final.2.1
    rw [reads] at changes
    cases changes
  | @judged object changes judged =>
    refine orderly.move others ⟨?_, ?_, nofun, nofun⟩ nofun nofun
    · intro other same
      cases same
      exact judged.named
    · exact fun _ _ => judged.current
  | @compared object follows =>
    refine orderly.move others ⟨holds.named, holds.epoch, ?_, nofun⟩ nofun ?_
    · intro other same
      cases same
      exact follows.agrees
    · intro last same j stage first _ found final
      cases same
      exact fun ids generations =>
        ((orderly.holds j stage found).covers first final).precedes follows ids |>.2 generations
  | @fresh object unrecorded =>
    refine orderly.move others ⟨holds.named, holds.epoch, holds.agrees, nofun⟩ nofun ?_
    intro last same j other first _ otherFound final
    exact orderly.payload j i other _ first last otherFound found final (.inl same)
  | @moved object =>
    have behind : ∀ j, j ≠ i → epochChecked (pool.thread j) → (requests i).2.epoch ≤ (requests j).2.epoch := by
      rw [Unraced, task] at unraced
      exact unraced
    refine orderly.move ?_ ⟨holds.named, ?_, holds.agrees, nofun⟩ nofun ?_
    · intro j stage other otherFound
      refine (orderly.holds j stage otherFound).acceptEpoch fun payload judging => behind j other ?_
      rw [orderly.tasks j, otherFound]
      exact epochChecked_rest judging
    · exact fun payload same => Int.max_le.mpr ⟨holds.epoch payload same, Int.le_refl _⟩
    · intro last same j other first _ otherFound final
      exact orderly.payload j i other _ first last otherFound found final (.inl same)
  | @allowed object =>
    have named := holds.named object rfl
    have agreed : ∀ j, j ≠ i → generationChecked (pool.thread j) → ∀ payload, (requests j).2.object = some payload →
        payload.objectId = object.objectId → payload.generation = object.generation →
        payload.digest = object.digest := by
      rw [Unraced, task] at unraced
      exact unraced
    have same : ∀ j stage payload, j ≠ i → stages j = some stage → stage.following = some payload →
        SamePayload payload object := by
      intro j stage payload other otherFound following
      refine agreed j other ?_ payload ((orderly.holds j stage otherFound).named payload (following_judging following))
      rw [orderly.tasks j, otherFound]
      exact generationChecked_rest following
    refine orderly.move ?_ ⟨nofun, nofun, nofun, ?_⟩ ?_ nofun
    · exact fun j stage other otherFound =>
        (orderly.holds j stage otherFound).acceptObject fun payload => same j stage payload other otherFound
    · intro payload final
      obtain rfl := Option.some.inj (named.symm.trans final.2.2)
      exact (holds.agrees object rfl).covers
    · intro first final j stage last other otherFound stands
      obtain rfl := Option.some.inj (named.symm.trans final.2.2)
      cases stands with
      | inl following => exact (same j stage last other otherFound following).symm
      | inr ended =>
        exact (orderly.payload j i stage _ last object otherFound found ended (.inl rfl)).symm

theorem Orderly.step {next : Admissions ι} {event : PoolEvent ι (Option FenceError)}
    (orderly : Orderly fence requests stages pool) (unraced : Unraced requests pool event)
    (moved : admissionStep pool event = some next) : ∃ stages, Orderly fence requests stages next := by
  obtain ⟨i, fault, stage, program, shared, rfl, found, resumed, rfl⟩ | ⟨i, stage, call, left, rfl, _, _, rfl⟩ :=
    orderly.tasks.step_cases moved
  · obtain ⟨next, rfl, turn⟩ := Fence.rest_turn resumed
    exact ⟨_, orderly.turn found unraced turn⟩
  · have kept : ∀ k stage, Function.update stages i none k = some stage → stages k = some stage := by
      intro k stage found
      by_cases same : k = i
      · subst same
        simp at found
      · rwa [update_of_ne same] at found
    refine ⟨Function.update stages i none, orderly.tasks.set i pool.shared none, ?_, ?_⟩
    · exact fun j stage found => orderly.holds j stage (kept j stage found)
    · exact fun j k first last before after firstFound lastFound =>
        orderly.payload j k first last before after (kept j first firstFound) (kept k last lastFound)

omit [DecidableEq ι] in
theorem orderly_start (store : FenceStore) :
    Orderly fence requests (fun _ => some .entering) (fence.admissions requests store) := by
  refine ⟨fun _ => rfl, fun i stage found => ?_, ?_⟩
  · cases found
    exact ⟨nofun, nofun, nofun, nofun⟩
  · intro i j first last before after found _ final
    cases found
    cases final.1

theorem orderly_run {store : FenceStore} {events : List (PoolEvent ι (Option FenceError))}
    (ran : exec admissionStep (fence.admissions requests store) events = some pool)
    (obeyed : Obeys admissionStep (Unraced requests) (fence.admissions requests store) events) :
    ∃ stages, Orderly fence requests stages pool := by
  have kept : ∀ pool event next, Unraced requests pool event → admissionStep pool event = some next →
      (∃ stages, Orderly fence requests stages pool) → ∃ stages, Orderly fence requests stages next := by
    intro pool event next unraced moved known
    obtain ⟨stages, orderly⟩ := known
    exact orderly.step unraced moved
  exact invariant kept ran obeyed ⟨_, orderly_start store⟩

variable (requests)

def OnePayload (pool : Admissions ι) : Prop :=
  ∀ i j first last, isAllowed (pool.thread i) → isAllowed (pool.thread j) →
    (requests i).2.op.mutates = true → (requests j).2.op.mutates = true →
    (requests i).2.object = some first → (requests j).2.object = some last → SamePayload first last

def AllowsCurrent (pool next : Admissions ι) : Prop :=
  ∀ i, isAllowed (pool.thread i) = false → isAllowed (next.thread i) = true →
    next.shared.acceptedEpoch ≤ (requests i).2.epoch

variable {requests}

omit [DecidableEq ι] in
theorem Orderly.allowed (orderly : Orderly fence requests stages pool) (allowed : isAllowed (pool.thread i)) :
    stages i = some .done := by
  rw [orderly.tasks i] at allowed
  cases found : stages i with
  | none =>
    rw [found] at allowed
    cases allowed
  | some =>
    rw [found] at allowed
    exact congrArg some (rest_allowed allowed)

theorem Orderly.allowsCurrent {next : Admissions ι} {event : PoolEvent ι (Option FenceError)}
    (orderly : Orderly fence requests stages pool) (moved : admissionStep pool event = some next) :
    AllowsCurrent requests pool next := by
  intro k before after
  obtain ⟨i, fault, stage, program, shared, rfl, found, resumed, rfl⟩ | ⟨i, stage, call, left, rfl, _, _, rfl⟩ :=
    orderly.tasks.step_cases moved
  · by_cases other : k ≠ i
    · rw [set_thread_other pool other, before] at after
      cases after
    obtain rfl := not_not.mp other
    obtain ⟨next, rfl, turn⟩ := Fence.rest_turn resumed
    rw [set_thread_same] at after
    obtain rfl := rest_allowed after
    cases turn with
    | read reads current => exact current
    | @allowed object =>
      rw [set_shared, (pool.shared.acceptObject_rest _ _ _).1]
      exact (orderly.holds k _ found).epoch object rfl
  · by_cases other : k ≠ i
    · rw [set_thread_other pool other, before] at after
      cases after
    obtain rfl := not_not.mp other
    rw [set_thread_same] at after
    cases after

/-- In every run where nobody records past a check, the fence keeps both promises. -/
theorem admissions_unraced (fence : Fence) (requests : ι → Int × Envelope) (store : FenceStore)
    (events : List (PoolEvent ι (Option FenceError))) (pool : Admissions ι)
    (ran : exec admissionStep (fence.admissions requests store) events = some pool)
    (obeyed : Obeys admissionStep (Unraced requests) (fence.admissions requests store) events) :
    OnePayload requests pool ∧
      ∀ event next, admissionStep pool event = some next → AllowsCurrent requests pool next := by
  obtain ⟨stages, orderly⟩ := orderly_run ran obeyed
  refine ⟨?_, fun event next moved => orderly.allowsCurrent moved⟩
  intro i j first last firstAllowed lastAllowed firstChanges lastChanges firstNamed lastNamed
  exact orderly.payload i j .done .done first last (orderly.allowed firstAllowed) (orderly.allowed lastAllowed)
    ⟨rfl, firstChanges, firstNamed⟩ (.inr ⟨rfl, lastChanges, lastNamed⟩)

end

def turns (i : Bool) (count : Nat) : List (PoolEvent Bool (Option FenceError)) :=
  List.replicate count (.step i none)

def successors (i : Bool) : Int × Envelope :=
  (0, if i then plainChange "r2" 2 ⟨"i2", 1, "b"⟩ else plainChange "r1" 1 ⟨"i1", 1, "a"⟩)

def contenders (i : Bool) : Int × Envelope :=
  (0, if i then plainChange "r2" 1 ⟨"i1", 1, "b"⟩ else plainChange "r1" 1 ⟨"i1", 1, "a"⟩)

theorem admissions_unraced_in_turn :
    ∃ pool, exec admissionStep (Fence.admissions ⟨"m1", 60⟩ successors .empty)
      (turns false 5 ++ turns true 5) = some pool ∧
      isAllowed (pool.thread false) ∧ isAllowed (pool.thread true) ∧ OnePayload successors pool := by
  obtain ⟨pool, ran, both⟩ := Option.map_eq_some_iff.mp (by decide :
    (exec admissionStep (Fence.admissions ⟨"m1", 60⟩ successors .empty) (turns false 5 ++ turns true 5)).map
      (fun pool => (isAllowed (pool.thread false), isAllowed (pool.thread true))) = some (true, true))
  refine ⟨pool, ran, (Prod.mk.inj both).1, (Prod.mk.inj both).2, (admissions_unraced _ _ _ _ pool ran ?_).1⟩
  decide

/-- When both contenders check before either records, both are allowed; and an admission
that checked its epoch is allowed after a newer controller was accepted. -/
theorem admissions_race :
    (¬ ∀ events pool, exec admissionStep (Fence.admissions ⟨"m1", 60⟩ contenders .empty) events = some pool →
      OnePayload contenders pool) ∧
    (¬ ∀ events pool event next, exec admissionStep (Fence.admissions ⟨"m1", 60⟩ successors .empty) events = some pool →
      admissionStep pool event = some next → AllowsCurrent successors pool next) := by
  constructor
  · intro every
    obtain ⟨pool, ran, both⟩ := Option.map_eq_some_iff.mp (by decide :
      (exec admissionStep (Fence.admissions ⟨"m1", 60⟩ contenders .empty)
          (turns false 2 ++ turns true 2 ++ turns false 3 ++ turns true 3)).map
        (fun pool => (isAllowed (pool.thread false), isAllowed (pool.thread true))) = some (true, true))
    have same := every _ pool ran false true ⟨"i1", 1, "a"⟩ ⟨"i1", 1, "b"⟩ (Prod.mk.inj both).1 (Prod.mk.inj both).2
      rfl rfl rfl rfl rfl rfl
    exact absurd same (by decide)
  · intro every
    obtain ⟨pool, ran, checked⟩ := Option.map_eq_some_iff.mp (by decide :
      (exec admissionStep (Fence.admissions ⟨"m1", 60⟩ successors .empty)
          (turns false 1 ++ turns true 5 ++ turns false 3)).map
        (fun pool => (isAllowed (pool.thread false), (admissionStep pool (.step false none)).map fun next =>
          (isAllowed (next.thread false), next.shared.acceptedEpoch))) = some (false, some (true, 2)))
    obtain ⟨next, moved, allowed⟩ := Option.map_eq_some_iff.mp (Prod.mk.inj checked).2
    have current := every _ pool _ next ran moved false (Prod.mk.inj checked).1 (Prod.mk.inj allowed).1
    rw [(Prod.mk.inj allowed).2] at current
    exact absurd current (by decide)

end Bento.Runner
