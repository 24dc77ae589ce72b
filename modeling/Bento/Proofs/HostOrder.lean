import Bento.Proofs.FenceHistory
import Mathlib.Data.Fintype.Basic

/-! Requests that interleave at the host. The order of two changes of one object is
fixed when they are admitted, but their host calls start later and without a lock. They
start in that order in the runs where no change starts before an older one of the same
object that was let through and has not started. -/

namespace Bento.Runner
open Library.Programs Library.Runs Function

variable {ι : Type} [DecidableEq ι]

def Envelope.changes (envelope : Envelope) : Option ObjectFence :=
  if envelope.op.mutates then envelope.object else none

def Precedes (first last : Envelope) : Prop :=
  ∀ before ∈ first.changes, ∀ after ∈ last.changes, before.objectId = after.objectId →
    before.generation ≤ after.generation

instance (first last : Envelope) : Decidable (Precedes first last) :=
  inferInstanceAs (Decidable (∀ before ∈ first.changes, ∀ after ∈ last.changes, _))

def waitsToStart (task : Option (Program RunnerCall.Answer (Except HostError Outcome))) : Bool :=
  match task.bind Program.waiting with
  | some (.start _) => true
  | _ => false

def StartsInOrder (envelopes : ι → Envelope) (pool : Requests ι) : PoolEvent ι Surroundings → Prop
  | .drop _ => True
  | .step i _ => waitsToStart (pool.thread i) → ∀ j, j ≠ i → waitsToStart (pool.thread j) →
      Precedes (envelopes i) (envelopes j)

instance [Fintype ι] (envelopes : ι → Envelope) (pool : Requests ι) : DecidablePred (StartsInOrder envelopes pool) := by
  intro event
  cases event <;> unfold StartsInOrder <;> infer_instance

def StartedInOrder (envelopes : ι → Envelope) (pool : Requests ι) : Prop :=
  pool.shared.started.Pairwise fun first last => Precedes (envelopes first.1) (envelopes last.1)

section
variable (encode : Reply → Except HostError String) (envelopes : ι → Envelope)

/-- The store covers what was let through, and nothing that waits to start is older than
what started. -/
structure Ranked (phases : ι → Option Phase) (pool : Requests ι) : Prop where
  tracks : InPhases encode envelopes phases pool
  waiting : ∀ i, phases i = some .admitted → ∀ object ∈ (envelopes i).changes, pool.shared.store.Covers object
  started : ∀ call ∈ pool.shared.started, ∀ object ∈ (envelopes call.1).changes, pool.shared.store.Covers object
  behind : ∀ call ∈ pool.shared.started, ∀ i, phases i = some .admitted → Precedes (envelopes call.1) (envelopes i)
  ordered : StartedInOrder envelopes pool

variable {encode envelopes} {fence : Fence}

variable {phases : ι → Option Phase} {pool next : Requests ι}

theorem Ranked.pass {i : ι} {phase : Option Phase} (ranked : Ranked encode envelopes phases pool)
    (tracks : InPhases encode envelopes (Function.update phases i phase) next)
    (grows : pool.shared.store.Grows next.shared.store) (same : next.shared.started = pool.shared.started)
    (follows : phase = some .admitted → ∀ object ∈ (envelopes i).changes, pool.shared.store.Follows object ∧
      next.shared.store.Covers object) :
    Ranked encode envelopes (Function.update phases i phase) next := by
  refine ⟨tracks, ?_, ?_, ?_, ?_⟩
  · intro j found object member
    by_cases mine : j = i
    · subst mine
      rw [update_self] at found
      exact (follows found object member).2
    · rw [update_of_ne mine] at found
      exact grows.objects object (ranked.waiting j found object member)
  · rw [same]
    exact fun call member object changes => grows.objects object (ranked.started call member object changes)
  · rw [same]
    intro call member j found
    by_cases mine : j = i
    · subst mine
      rw [update_self] at found
      intro before changes after named ids
      exact ((ranked.started call member before changes).precedes (follows found after named).1 ids).1
    · rw [update_of_ne mine] at found
      exact ranked.behind call member j found
  · rw [StartedInOrder, same]
    exact ranked.ordered

theorem Ranked.starts {i : ι} {around : Surroundings} (ranked : Ranked encode envelopes phases pool)
    (found : phases i = some .admitted) (inOrder : StartsInOrder envelopes pool (.step i around))
    (tracks : InPhases encode envelopes (Function.update phases i (some .calling)) next)
    (shared : next.shared = { pool.shared with started := pool.shared.started ++ [(i, (envelopes i).op)] }) :
    Ranked encode envelopes (Function.update phases i (some .calling)) next := by
  have waits : ∀ j, phases j = some .admitted → waitsToStart (pool.thread j) := by
    intro j found
    rw [ranked.tracks j, found]
    rfl
  have others : ∀ j, Function.update phases i (some .calling) j = some .admitted →
    j ≠ i ∧ phases j = some .admitted := by
    intro j found
    by_cases other : j = i
    · subst other
      rw [update_self] at found
      cases found
    · rw [update_of_ne other] at found
      exact ⟨other, found⟩
  refine ⟨tracks, ?_, ?_, ?_, ?_⟩
  · rw [shared]
    exact fun j found => ranked.waiting j (others j found).2
  · rw [shared]
    intro call member
    cases List.mem_append.mp member with
    | inl before => exact ranked.started call before
    | inr last =>
      cases List.mem_singleton.mp last
      exact ranked.waiting i found
  · rw [shared]
    intro call member j waiting
    cases List.mem_append.mp member with
    | inl before => exact ranked.behind call before j (others j waiting).2
    | inr last =>
      cases List.mem_singleton.mp last
      exact inOrder (waits i found) j (others j waiting).1 (waits j (others j waiting).2)
  · rw [StartedInOrder, shared]
    refine List.pairwise_append.mpr ⟨ranked.ordered, List.pairwise_singleton _ _, ?_⟩
    intro call before last member
    cases List.mem_singleton.mp member
    exact ranked.behind call before i found

theorem Ranked.step {event : PoolEvent ι Surroundings} (ranked : Ranked encode envelopes phases pool)
    (inOrder : StartsInOrder envelopes pool event) (moved : fence.requestStep pool event = some next) :
    ∃ phases, Ranked encode envelopes phases next := by
  obtain ⟨i, around, phase, nextPhase, rfl, found, serves, tracks⟩ | ⟨i, phase, rfl, found, _, same, tracks⟩ :=
    Fence.requestStep_cases ranked.tracks moved
  · refine ⟨Function.update phases i (some nextPhase), ?_⟩
    generalize after : next.shared = shared at serves
    have quiet : shared = pool.shared → some nextPhase ≠ some .admitted →
        Ranked encode envelopes (Function.update phases i (some nextPhase)) next := by
      intro same idle
      rw [same] at after
      exact ranked.pass tracks (by rw [after]; exact .refl _) (by rw [after]) fun admitted => absurd admitted idle
    cases serves with
    | admits admits =>
      refine ranked.pass tracks (by rw [after]; exact admits.grows) (by rw [after]) ?_
      intro admitted object member
      cases admits with
      | failed | refused | replayed | halfway => cases admitted
      | read reads =>
        rw [Envelope.changes, reads] at member
        cases member
      | changed changes admissible =>
        rw [Envelope.changes, changes, if_pos rfl, admissible.named] at member
        cases member
        exact ⟨admissible.follows, by rw [after]; exact admissible.remembers.object⟩
    | starts => exact ranked.starts found inOrder tracks after
    | breaks | reads | answers => exact quiet rfl nofun
    | records =>
      exact ranked.pass tracks (by rw [after]; exact FenceStore.grows_recordOutcome _ _ _) (by rw [after]) nofun
  · exact ⟨_, ranked.pass tracks (by rw [same]; exact .refl _) (by rw [same]) nofun⟩

end

/-- In every run where no host call starts ahead of an older change of its object, the
host calls on one object start in the order of its generations. -/
theorem host_calls_start_in_order (fence : Fence) (encode : Reply → Except HostError String)
    (envelopes : ι → Envelope) (store : FenceStore) (events : List (PoolEvent ι Surroundings)) (pool : Requests ι)
    (ran : exec fence.requestStep (deliveries encode envelopes store) events = some pool)
    (obeyed : Obeys fence.requestStep (StartsInOrder envelopes) (deliveries encode envelopes store) events) :
    StartedInOrder envelopes pool := by
  have kept : ∀ pool event next, StartsInOrder envelopes pool event → fence.requestStep pool event = some next →
      (∃ phases, Ranked encode envelopes phases pool) → ∃ phases, Ranked encode envelopes phases next := by
    intro pool event next inOrder moved known
    obtain ⟨phases, ranked⟩ := known
    exact ranked.step inOrder moved
  obtain ⟨phases, ranked⟩ :=
    invariant kept ran obeyed ⟨_, ⟨deliveries_inPhases store, nofun, nofun, nofun, List.Pairwise.nil⟩⟩
  exact ranked.ordered

def orders (i : Bool) : Envelope :=
  if i then plainChange "r2" 1 ⟨"i1", 2, "b"⟩ else plainChange "r1" 1 ⟨"i1", 1, "a"⟩

theorem host_calls_start_in_order_in_turn :
    ∃ pool, exec (Fence.requestStep ⟨"m1", 60⟩) (deliveries plainEncode orders .empty)
        [.step false plainSurroundings, .step false plainSurroundings, .step true plainSurroundings,
          .step true plainSurroundings] = some pool ∧
      pool.shared.started.map Prod.fst = [false, true] ∧ StartedInOrder orders pool := by
  obtain ⟨pool, ran, started⟩ := Option.map_eq_some_iff.mp (by decide :
    (exec (Fence.requestStep ⟨"m1", 60⟩) (deliveries plainEncode orders .empty)
        [.step false plainSurroundings, .step false plainSurroundings,
         .step true plainSurroundings, .step true plainSurroundings]).map
      (fun pool => pool.shared.started.map Prod.fst) = some [false, true])
  refine ⟨pool, ran, started, host_calls_start_in_order _ _ _ _ _ pool ran ?_⟩
  decide

/-- Both orders are let through, and the older one starts last. -/
theorem host_calls_overtaken :
    ¬ ∀ events pool, exec (Fence.requestStep ⟨"m1", 60⟩) (deliveries plainEncode orders .empty) events = some pool →
      StartedInOrder orders pool := by
  intro every
  obtain ⟨pool, ran, started⟩ := Option.map_eq_some_iff.mp (by decide :
    (exec (Fence.requestStep ⟨"m1", 60⟩) (deliveries plainEncode orders .empty)
        [.step false plainSurroundings, .step true plainSurroundings,
         .step true plainSurroundings, .step false plainSurroundings]).map
      (fun pool => pool.shared.started) = some [(true, (orders true).op), (false, (orders false).op)])
  have ordered := every _ pool ran
  rw [StartedInOrder, started] at ordered
  exact absurd ordered (by decide)

end Bento.Runner
