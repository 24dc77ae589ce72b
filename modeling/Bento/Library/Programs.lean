import Bento.Library.Runs
import Mathlib.Logic.Function.Basic

/-! Programs that talk to shared state through typed calls. One program has two
readings: run alone from start to end, or as a thread of a pool where every call is
a step of its own and other threads may act between two of them. What a call does
is decided by whoever serves it, so failures and clocks stay outside the program. -/

namespace Bento.Library.Programs
open Runs List

variable {Call : Type} {Answer : Call → Type} {α β σ ι ε : Type}

inductive Program {Call : Type} (Answer : Call → Type) (α : Type) where
  | pure (value : α)
  | request (call : Call) (next : Answer call → Program Answer α)

namespace Program

def bind : Program Answer α → (α → Program Answer β) → Program Answer β
  | .pure value, next => next value
  | .request call rest, next => .request call fun answer => (rest answer).bind next

instance : Monad (Program Answer) where
  pure := .pure
  bind := .bind

def ask (call : Call) : Program Answer (Answer call) := .request call .pure

def waiting : Program Answer α → Option Call
  | .pure _ => none
  | .request call _ => some call

def ended : Program Answer α → Option α
  | .pure value => some value
  | .request _ _ => none

theorem ended_eq_some {program : Program Answer α} {value : α} :
    program.ended = some value ↔ program = .pure value := by
  cases program <;> simp [ended]

def resume (serve : (call : Call) → σ → Answer call × σ) : Program Answer α → σ → Option (Program Answer α × σ)
  | .pure _, _ => none
  | .request call next, state => some (next (serve call state).1, (serve call state).2)

def execute (serve : (call : Call) → σ → Answer call × σ) : Program Answer α → σ → α × σ
  | .pure value, state => (value, state)
  | .request call next, state => (next (serve call state).1).execute serve (serve call state).2

variable {serve : (call : Call) → σ → Answer call × σ}

theorem execute_invariant (holds : Program Answer α → σ → Prop)
    (kept : ∀ program state rest after, program.resume serve state = some (rest, after) →
      holds program state → holds rest after) (program : Program Answer α) (state : σ) (initial : holds program state) :
    holds (.pure (program.execute serve state).1) (program.execute serve state).2 := by
  induction program generalizing state with
  | pure => exact initial
  | request call next ih => exact ih _ _ (kept _ _ _ _ rfl initial)

abbrev Reporting (Answer : Call → Type) (α : Type) : Call ⊕ α → Type
  | .inl call => Answer call
  | .inr _ => Unit

def reporting : Program Answer α → Program (Reporting Answer α) α
  | .pure value => .request (.inr value) fun _ => .pure value
  | .request call next => .request (.inl call) fun answer => (next answer).reporting

section
variable (answers : (call : Call) → Answer call)

def result : Program Answer α → α
  | .pure value => value
  | .request call next => (next (answers call)).result

def calls : Program Answer α → List Call
  | .pure _ => []
  | .request call next => call :: (next (answers call)).calls

theorem result_bind (program : Program Answer α) (next : α → Program Answer β) :
    (program >>= next).result answers = (next (program.result answers)).result answers := by
  induction program with
  | pure => rfl
  | request call rest ih => exact ih (answers call)

theorem calls_bind (program : Program Answer α) (next : α → Program Answer β) :
    (program >>= next).calls answers = program.calls answers ++ (next (program.result answers)).calls answers := by
  induction program with
  | pure => rfl
  | request call rest ih => exact congrArg (call :: ·) (ih (answers call))

end

/-- No call of the program changes the state. -/
def Stays (serve : (call : Call) → σ → Answer call × σ) (state : σ) : Program Answer α → Prop
  | .pure _ => True
  | .request call next => (serve call state).2 = state ∧ (next (serve call state).1).Stays serve state

instance decidableStays [DecidableEq σ] {state : σ} :
    (program : Program Answer α) → Decidable (program.Stays serve state)
  | .pure _ => .isTrue trivial
  | .request call next =>
    have : Decidable ((next (serve call state).1).Stays serve state) := decidableStays _
    inferInstanceAs (Decidable (_ ∧ _))

theorem stays_bind {state : σ} (program : Program Answer α) (next : α → Program Answer β) :
    (program >>= next).Stays serve state ↔
    program.Stays serve state ∧ (next (program.result fun call => (serve call state).1)).Stays serve state := by
  induction program with
  | pure => exact (iff_of_eq (true_and _)).symm
  | request call rest ih =>
    rw [Stays, and_assoc]
    exact and_congr_right fun _ => ih _

section
variable (serve : ε → (call : Call) → σ → Answer call × σ)

def perform : Program Answer α → List ε → σ → Option (α × σ)
  | .pure value, [], state => some (value, state)
  | .request call next, input :: inputs, state =>
    (next (serve input call state).1).perform inputs (serve input call state).2
  | _, _, _ => none

def Along (rule : ε → Call → Prop) : Program Answer α → List ε → σ → Prop
  | .request call next, input :: inputs, state =>
    rule input call ∧ (next (serve input call state).1).Along rule inputs (serve input call state).2
  | _, _, _ => True

instance decidableAlong (rule : ε → Call → Prop) [∀ input call, Decidable (rule input call)] :
    ∀ (program : Program Answer α) (inputs : List ε) (state : σ), Decidable (program.Along serve rule inputs state)
  | .request call next, input :: inputs, state =>
    have := decidableAlong rule (next (serve input call state).1) inputs (serve input call state).2
    inferInstanceAs (Decidable (_ ∧ _))
  | .pure _, _, _ => .isTrue (by simp [Along])
  | .request _ _, [], _ => .isTrue trivial

structure Ran (rule : ε → Call → Prop) (program : Program Answer α) (inputs : List ε) (state : σ) (value : α)
    (after : σ) : Prop where
  ends : program.perform serve inputs state = some (value, after)
  along : program.Along serve rule inputs state

variable {serve} {rule : ε → Call → Prop} {inputs : List ε} {state after : σ}

theorem ran_pure {result value : α} :
    Ran serve rule (pure value : Program Answer α) inputs state result after ↔
      inputs = [] ∧ result = value ∧ after = state := by
  constructor
  · rintro ⟨ends, -⟩
    cases inputs with
    | nil =>
      cases ends
      exact ⟨rfl, rfl, rfl⟩
    | cons => cases ends
  · rintro ⟨rfl, rfl, rfl⟩
    exact ⟨rfl, trivial⟩

theorem ran_request {call : Call} {next : Answer call → Program Answer α} {result : α} :
    Ran serve rule (.request call next) inputs state result after ↔
      ∃ input rest, inputs = input :: rest ∧ rule input call ∧
      Ran serve rule (next (serve input call state).1) rest (serve input call state).2 result after := by
  constructor
  · rintro ⟨ends, along⟩
    cases inputs with
    | nil => cases ends
    | cons input rest => exact ⟨input, rest, rfl, along.1, ends, along.2⟩
  · rintro ⟨input, rest, rfl, allowed, ends, along⟩
    exact ⟨ends, allowed, along⟩

theorem ran_ask {call : Call} {answer : Answer call} : Ran serve rule (ask call) inputs state answer after ↔
      ∃ input, inputs = [input] ∧ rule input call ∧ (serve input call state).1 = answer ∧
        (serve input call state).2 = after := by
  constructor
  · intro ran
    obtain ⟨input, rest, rfl, allowed, ended⟩ := ran_request.mp ran
    obtain ⟨rfl, rfl, rfl⟩ := ran_pure.mp ended
    exact ⟨input, rfl, allowed, rfl, rfl⟩
  · rintro ⟨input, rfl, allowed, rfl, rfl⟩
    exact ran_request.mpr ⟨input, [], rfl, allowed, ran_pure.mpr ⟨rfl, rfl, rfl⟩⟩

variable {program : Program Answer α}

theorem ran_bind {next : α → Program Answer β} {result : β} :
    Ran serve rule (program >>= next) inputs state result after ↔ ∃ first rest value middle, inputs = first ++ rest ∧
      Ran serve rule program first state value middle ∧ Ran serve rule (next value) rest middle result after := by
  constructor
  · intro ran
    induction program generalizing inputs state with
    | pure value => exact ⟨[], inputs, value, state, rfl, ran_pure.mpr ⟨rfl, rfl, rfl⟩, ran⟩
    | request call more ih =>
      obtain ⟨input, rest, rfl, allowed, ended⟩ := ran_request.mp ran
      obtain ⟨first, last, value, middle, rfl, begun, finished⟩ := ih _ ended
      exact ⟨input :: first, last, value, middle, rfl, ran_request.mpr ⟨input, first, rfl, allowed, begun⟩, finished⟩
  · rintro ⟨first, rest, value, middle, rfl, begun, finished⟩
    induction program generalizing first state with
    | pure =>
      obtain ⟨rfl, rfl, rfl⟩ := ran_pure.mp begun
      exact finished
    | request call more ih =>
      obtain ⟨input, last, rfl, allowed, later⟩ := ran_request.mp begun
      exact ran_request.mpr ⟨input, last ++ rest, rfl, allowed, ih _ _ later⟩

section
variable {δ : Type} {step : ExceptT δ (Program Answer) α} {next : α → ExceptT δ (Program Answer) β}

theorem ran_bind_ok {result : β} :
    Ran serve rule (step >>= next).run inputs state (.ok result) after ↔
      ∃ first rest value middle, inputs = first ++ rest ∧
      Ran serve rule step.run first state (.ok value) middle ∧
        Ran serve rule (next value).run rest middle (.ok result) after := by
  constructor
  · intro ran
    obtain ⟨first, rest, value, middle, same, begun, finished⟩ := ran_bind.mp ran
    cases value with
    | ok value => exact ⟨first, rest, value, middle, same, begun, finished⟩
    | error =>
      obtain ⟨-, impossible, -⟩ := ran_pure.mp finished
      cases impossible
  · rintro ⟨first, rest, value, middle, same, begun, finished⟩
    exact ran_bind.mpr ⟨first, rest, .ok value, middle, same, begun, finished⟩

theorem ran_lift {program : Program Answer α} {result : Except δ α} :
    Ran serve rule (ExceptT.lift program : ExceptT δ (Program Answer) α).run inputs state result after ↔
      ∃ value, result = .ok value ∧ Ran serve rule program inputs state value after := by
  constructor
  · intro ran
    obtain ⟨first, rest, value, middle, rfl, begun, finished⟩ := ran_bind.mp ran
    obtain ⟨rfl, rfl, rfl⟩ := ran_pure.mp finished
    exact ⟨value, rfl, (append_nil first).symm ▸ begun⟩
  · rintro ⟨value, rfl, begun⟩
    exact ran_bind.mpr ⟨inputs, [], value, after, (append_nil inputs).symm, begun, ran_pure.mpr ⟨rfl, rfl, rfl⟩⟩

theorem ran_bind_error {error : δ} (ran : Ran serve rule (step >>= next).run inputs state (.error error) after) :
    Ran serve rule step.run inputs state (.error error) after ∨ ∃ first rest value middle, inputs = first ++ rest ∧
      Ran serve rule step.run first state (.ok value) middle ∧
        Ran serve rule (next value).run rest middle (.error error) after := by
  obtain ⟨first, rest, value, middle, same, begun, finished⟩ := ran_bind.mp ran
  cases value with
  | ok value => exact .inr ⟨first, rest, value, middle, same, begun, finished⟩
  | error =>
    obtain ⟨rfl, failed, rfl⟩ := ran_pure.mp finished
    cases failed
    rw [append_nil] at same
    exact .inl (same ▸ begun)

end

theorem along_of_inputs (kept : ∀ input ∈ inputs, ∀ call, rule input call) : program.Along serve rule inputs state := by
  induction program generalizing inputs state with
  | pure => simp [Along]
  | request call next ih =>
    cases inputs with
    | nil => trivial
    | cons input =>
      exact ⟨kept input mem_cons_self call, ih _ fun other listed => kept other (mem_cons_of_mem _ listed)⟩

theorem perform_invariant {value : α} {fits : ε → Prop} (holds : Program Answer α → σ → Prop)
    (kept : ∀ input call next state, fits input → holds (.request call next) state →
      holds (next (serve input call state).1) (serve input call state).2)
    (ends : program.perform serve inputs state = some (value, after)) (fitting : ∀ input ∈ inputs, fits input)
    (initial : holds program state) : holds (.pure value) after := by
  induction program generalizing inputs state with
  | pure =>
    cases inputs with
    | nil =>
      cases ends
      exact initial
    | cons => cases ends
  | request call next ih =>
    cases inputs with
    | nil => cases ends
    | cons input =>
      apply ih _ ends
      · exact fun other listed => fitting other (mem_cons_of_mem _ listed)
      · exact kept input call next state (fitting input mem_cons_self) initial

variable (serve) in
def Sees (seen : (call : Call) → Answer call → Prop) : Program Answer α → List ε → σ → Prop
  | .request call next, input :: inputs, state =>
    seen call (serve input call state).1 ∨ (next (serve input call state).1).Sees seen inputs (serve input call state).2
  | _, _, _ => False

variable (serve) in
instance decidableSees (seen : (call : Call) → Answer call → Prop) [∀ call answer, Decidable (seen call answer)] :
    ∀ (program : Program Answer α) (inputs : List ε) (state : σ), Decidable (program.Sees serve seen inputs state)
  | .request call next, input :: inputs, state =>
    have := decidableSees seen (next (serve input call state).1) inputs (serve input call state).2
    inferInstanceAs (Decidable (_ ∨ _))
  | .pure _, _, _ => .isFalse (by simp [Sees])
  | .request _ _, [], _ => .isFalse nofun

/-- Every call that the program may make is of the kind, whatever is answered, and every
value that it may return is as the condition says. -/
def Ensures (kind : Call → Prop) (post : α → Prop) : Program Answer α → Prop
  | .pure value => post value
  | .request call next => kind call ∧ ∀ answer, (next answer).Ensures kind post

abbrev Only (kind : Call → Prop) (program : Program Answer α) : Prop := program.Ensures kind fun _ => True

section
variable {seen : (call : Call) → Answer call → Prop} {kind : Call → Prop} {program : Program Answer α} {value : α}
  {post weaker : α → Prop}

theorem ensures_pure (holds : post value) : (pure value : Program Answer α).Ensures kind post := holds

theorem ensures_ask {call : Call} (allowed : kind call) :
    (ask call : Program Answer (Answer call)).Ensures kind fun _ => True :=
  ⟨allowed, fun _ => trivial⟩

variable {next : α → Program Answer β}

theorem ensures_bind {last : β → Prop} (first : program.Ensures kind post)
    (rest : ∀ value, post value → (next value).Ensures kind last) : (program >>= next).Ensures kind last := by
  induction program with
  | pure value => exact rest value first
  | request call more ih => exact ⟨first.1, fun answer => ih answer (first.2 answer)⟩

theorem Ensures.mono (ensures : program.Ensures kind post) (implies : ∀ value, post value → weaker value) :
    program.Ensures kind weaker := by
  induction program with
  | pure value => exact implies value ensures
  | request call next ih => exact ⟨ensures.1, fun answer => ih answer (ensures.2 answer)⟩

theorem only_pure : (pure value : Program Answer α).Only kind := trivial

theorem only_ask {call : Call} (allowed : kind call) : (ask call : Program Answer (Answer call)).Only kind :=
  ensures_ask allowed

theorem only_bind (first : program.Only kind) (rest : ∀ value, (next value).Only kind) : (program >>= next).Only kind :=
  ensures_bind first fun value _ => rest value

/-- The calls are of the kind, up to one where the condition says what is left. -/
def Until (kind : Call → Prop) (last : (call : Call) → (Answer call → Program Answer α) → Prop) :
    Program Answer α → Prop
  | .pure _ => True
  | .request call next => last call next ∨ kind call ∧ ∀ answer, (next answer).Until kind last

section
variable {last : (call : Call) → (Answer call → Program Answer β) → Prop}

theorem until_bind {next : α → Program Answer β} (first : program.Only kind)
    (rest : ∀ value, (next value).Until kind last) :
    (program >>= next).Until kind last := by
  induction program with
  | pure value => exact rest value
  | request call more ih => exact .inr ⟨first.1, fun answer => ih answer (first.2 answer)⟩

theorem until_only {program : Program Answer β} (only : program.Only kind) : program.Until kind last := by
  induction program with
  | pure => trivial
  | request call next ih => exact .inr ⟨only.1, fun answer => ih answer (only.2 answer)⟩

theorem until_bind_except {δ : Type} {last : (call : Call) → (Answer call → Program Answer (Except δ β)) → Prop}
    {step : ExceptT δ (Program Answer) α} {next : α → ExceptT δ (Program Answer) β} (first : step.run.Only kind)
    (rest : ∀ value, (next value).run.Until kind last) : (step >>= next).run.Until kind last := by
  refine until_bind first fun result => ?_
  cases result with
  | ok value => exact rest value
  | error => trivial

end

theorem Only.invariant (holds : σ → Prop) (only : program.Only kind)
    (kept : ∀ input call state, kind call → holds state → holds (serve input call state).2)
    (ran : Ran serve rule program inputs state value after) (initial : holds state) : holds after := by
  induction program generalizing inputs state with
  | pure =>
    obtain ⟨-, -, rfl⟩ := ran_pure.mp ran
    exact initial
  | request call next ih =>
    obtain ⟨input, rest, rfl, -, ended⟩ := ran_request.mp ran
    exact ih _ (only.2 _) ended (kept input call state only.1 initial)

theorem Only.unseen (only : program.Only kind) (never : ∀ call answer, kind call → ¬ seen call answer) :
    ¬ program.Sees serve seen inputs state := by
  intro sees
  induction program generalizing inputs state with
  | pure => cases sees
  | request call next ih =>
    cases inputs with
    | nil => cases sees
    | cons =>
      rcases sees with now | later
      · exact never call _ only.1 now
      · exact ih _ (only.2 _) later

theorem sees_bind {first rest : List ε} {middle : σ} (begun : Ran serve rule program first state value middle)
    (sees : (program >>= next).Sees serve seen (first ++ rest) state) :
    program.Sees serve seen first state ∨ (next value).Sees serve seen rest middle := by
  induction program generalizing first state with
  | pure =>
    obtain ⟨rfl, rfl, rfl⟩ := ran_pure.mp begun
    exact .inr sees
  | request call more ih =>
    obtain ⟨input, later, rfl, -, ended⟩ := ran_request.mp begun
    rcases sees with now | sees
    · exact .inl (.inl now)
    · exact (ih _ ended sees).imp_left .inr

theorem ran_past {δ : Type} {step : ExceptT δ (Program Answer) α} {next : α → ExceptT δ (Program Answer) β}
    {result : Except δ β} (unseen : ∀ first, ¬ step.run.Sees serve seen first state)
    (ran : Ran serve rule (step >>= next).run inputs state result after)
    (sees : (step >>= next).run.Sees serve seen inputs state) : ∃ first rest value middle, inputs = first ++ rest ∧
      Ran serve rule step.run first state (.ok value) middle ∧
        Ran serve rule (next value).run rest middle result after ∧
      (next value).run.Sees serve seen rest middle := by
  obtain ⟨first, rest, begins, middle, rfl, begun, finished⟩ := ran_bind.mp ran
  have later := (sees_bind begun sees).resolve_left (unseen first)
  cases begins with
  | ok value => exact ⟨first, rest, value, middle, rfl, begun, finished, later⟩
  | error =>
    cases rest with
    | nil | cons => cases later

end

end

end Program

structure Pool {Call : Type} (Answer : Call → Type) (ι σ α : Type) where
  shared : σ
  thread : ι → Option (Program Answer α)

inductive PoolEvent (ι ε : Type) where
  | step (thread : ι) (input : ε)
  | drop (thread : ι)

theorem update_eq_some {τ : Type} [DecidableEq ι] {stages : ι → Option τ} {i j : ι} {moved : Option τ} {stage : τ}
    (found : Function.update stages i moved j = some stage) :
    (j = i ∧ moved = some stage) ∨ (j ≠ i ∧ stages j = some stage) := by
  by_cases same : j = i
  · subst same
    rw [Function.update_self] at found
    exact .inl ⟨rfl, found⟩
  · rw [Function.update_of_ne same] at found
    exact .inr ⟨same, found⟩

namespace Pool
variable [DecidableEq ι]

def set (pool : Pool Answer ι σ α) (i : ι) (shared : σ) (program : Option (Program Answer α)) : Pool Answer ι σ α :=
  ⟨shared, Function.update pool.thread i program⟩

@[simp] theorem set_shared (pool : Pool Answer ι σ α) (i : ι) (shared : σ) (program : Option (Program Answer α)) :
    (pool.set i shared program).shared = shared := rfl

@[simp] theorem set_thread_same (pool : Pool Answer ι σ α) (i : ι) (shared : σ)
    (program : Option (Program Answer α)) : (pool.set i shared program).thread i = program := by
  simp [set]

theorem set_thread_other (pool : Pool Answer ι σ α) {i j : ι} (other : j ≠ i) (shared : σ)
    (program : Option (Program Answer α)) : (pool.set i shared program).thread j = pool.thread j := by
  simp [set, other]

def step (serve : ι → ε → (call : Call) → σ → Answer call × σ) (pool : Pool Answer ι σ α) :
    PoolEvent ι ε → Option (Pool Answer ι σ α)
  | .step i input =>
    (pool.thread i).bind fun program =>
      (program.resume (serve i input) pool.shared).map fun (rest, shared) => pool.set i shared (some rest)
  | .drop i =>
    match pool.thread i with
    | some (.request _ _) => some (pool.set i pool.shared none)
    | _ => none

variable {serve : ι → ε → (call : Call) → σ → Answer call × σ}

theorem step_cases {pool next : Pool Answer ι σ α} {event : PoolEvent ι ε} (moved : pool.step serve event = some next) :
    (∃ i input program rest shared, event = .step i input ∧ pool.thread i = some program ∧
      program.resume (serve i input) pool.shared = some (rest, shared) ∧ next = pool.set i shared (some rest)) ∨
    (∃ i call rest, event = .drop i ∧ pool.thread i = some (.request call rest) ∧
      next = pool.set i pool.shared none) := by
  cases event with
  | step i input =>
    simp only [step, Option.bind_eq_some_iff, Option.map_eq_some_iff] at moved
    obtain ⟨program, found, ⟨rest, shared⟩, resumed, same⟩ := moved
    exact .inl ⟨i, input, program, rest, shared, rfl, found, resumed, same.symm⟩
  | drop i =>
    simp only [step] at moved
    split at moved
    next call rest found =>
      cases moved
      exact .inr ⟨i, call, rest, rfl, found, rfl⟩
    next => cases moved

def Tracks {τ : Type} (rest : ι → τ → Program Answer α) (stages : ι → Option τ) (pool : Pool Answer ι σ α) : Prop :=
  ∀ i, pool.thread i = (stages i).map (rest i)

section
variable {τ : Type} {rest : ι → τ → Program Answer α} {stages : ι → Option τ} {pool next : Pool Answer ι σ α}

theorem Tracks.set (tracks : Tracks rest stages pool) (i : ι) (shared : σ) (stage : Option τ) :
    Tracks rest (Function.update stages i stage) (pool.set i shared (stage.map (rest i))) := by
  intro j
  by_cases same : j = i
  · subst same
    simp
  · rw [set_thread_other pool same, Function.update_of_ne same]
    exact tracks j

theorem Tracks.step_cases {event : PoolEvent ι ε} (tracks : Tracks rest stages pool)
    (moved : pool.step serve event = some next) :
    (∃ i input stage program shared, event = .step i input ∧ stages i = some stage ∧
      (rest i stage).resume (serve i input) pool.shared = some (program, shared) ∧
        next = pool.set i shared (some program)) ∨
    (∃ i stage call left, event = .drop i ∧ stages i = some stage ∧ rest i stage = .request call left ∧
      next = pool.set i pool.shared none) := by
  obtain ⟨i, input, program, left, shared, same, found, resumed, after⟩ | ⟨i, call, left, same, found, after⟩ :=
    Pool.step_cases moved
  · rw [tracks i] at found
    obtain ⟨stage, stageFound, rfl⟩ := Option.map_eq_some_iff.mp found
    exact .inl ⟨i, input, stage, left, shared, same, stageFound, resumed, after⟩
  · rw [tracks i] at found
    obtain ⟨stage, stageFound, waits⟩ := Option.map_eq_some_iff.mp found
    exact .inr ⟨i, stage, call, left, same, stageFound, waits, after⟩

end

end Pool

end Bento.Library.Programs
