import Bento.Library.Programs

/-! Assertions for the threads of a pool. A thread relies on what the others may do to the
shared state and guarantees what it does itself; an assertion holds on to a suspended
program as long as it survives what the thread relies on. Which steps are taken at all is
part of the rules, so that one program can be judged under a rule on its runs. -/

namespace Bento.Library.Contracts
open Programs Runs

variable {Call : Type} {Answer : Call → Type} {α β σ ι ε δ : Type}

structure Rules {Call : Type} (Answer : Call → Type) (ι σ ε : Type) where
  serve : ι → ε → (call : Call) → σ → Answer call × σ
  invariant : σ → Prop
  allowed : ι → ε → Call → σ → Prop
  safe : ι → Call → σ → Prop
  rely : ι → σ → σ → Prop
  guarantee : ι → σ → σ → Prop
  compatible : ∀ {i j}, i ≠ j → ∀ {before after}, invariant before → guarantee j before after → rely i before after

namespace Rules
variable (rules : Rules Answer ι σ ε)

def Stable (i : ι) (assertion : σ → Prop) : Prop :=
  ∀ before after, rules.invariant before → rules.invariant after → rules.rely i before after →
    assertion before → assertion after

def Implies (first second : σ → Prop) : Prop := ∀ state, rules.invariant state → first state → second state

structure Operation (i : ι) (call : Call) (pre : σ → Prop) (post : Answer call → σ → Prop) : Prop where
  waiting : rules.Stable i pre
  safe : ∀ state, rules.invariant state → pre state → rules.safe i call state
  execute : ∀ state input, rules.invariant state → pre state → rules.allowed i input call state →
    rules.invariant (rules.serve i input call state).2 ∧
    rules.guarantee i state (rules.serve i input call state).2 ∧
    post (rules.serve i input call state).1 (rules.serve i input call state).2

/-- From a state with `pre` the program meets every rule, and ends with `post`. -/
def Valid (i : ι) : (σ → Prop) → Program Answer α → (α → σ → Prop) → Prop
  | pre, .pure value, post => rules.Implies pre (post value)
  | pre, .request call next, post => ∃ required reply, rules.Implies pre required ∧
      rules.Operation i call required reply ∧ ∀ answer, Valid i (reply answer) (next answer) post

def outcome (post : α → σ → Prop) (fail : σ → Prop) : Except δ α → σ → Prop
  | .ok value => post value
  | .error _ => fail

variable {rules} {i : ι}

theorem Stable.and {first second : σ → Prop} (one : rules.Stable i first) (other : rules.Stable i second) :
    rules.Stable i fun state => first state ∧ second state :=
  fun before after kept still relies holds =>
    ⟨one before after kept still relies holds.1, other before after kept still relies holds.2⟩

theorem Implies.rfl {assertion : σ → Prop} : rules.Implies assertion assertion := fun _ _ holds => holds

theorem Operation.mono {call : Call} {pre : σ → Prop} {reply weaker : Answer call → σ → Prop}
    (operation : rules.Operation i call pre reply) (implies : ∀ answer, rules.Implies (reply answer) (weaker answer)) :
    rules.Operation i call pre weaker where
  waiting := operation.waiting
  safe := operation.safe
  execute state input kept holds permitted := by
    obtain ⟨still, gives, answered⟩ := operation.execute state input kept holds permitted
    exact ⟨still, gives, implies _ _ still answered⟩

theorem outcome_mono {post weaker : α → σ → Prop} {fail looser : σ → Prop}
    (done : ∀ value, rules.Implies (post value) (weaker value)) (failed : rules.Implies fail looser) :
    ∀ result : Except δ α, rules.Implies (outcome post fail result) (outcome weaker looser result)
  | .ok value => done value
  | .error _ => failed

theorem Operation.given {call : Call} {pre : σ → Prop} {reply : Answer call → σ → Prop} {fact : Prop}
    (operation : fact → rules.Operation i call pre reply) :
    rules.Operation i call (fun state => fact ∧ pre state) reply where
  waiting before after kept still relies holds :=
    ⟨holds.1, (operation holds.1).waiting before after kept still relies holds.2⟩
  safe state kept holds := (operation holds.1).safe state kept holds.2
  execute state input kept holds := (operation holds.1).execute state input kept holds.2

namespace Valid
variable {pre required : σ → Prop} {post weaker : α → σ → Prop} {program : Program Answer α}

theorem of_pure {value : α} (holds : rules.Implies pre (post value)) :
    rules.Valid i pre (pure value : Program Answer α) post := holds

theorem ask {call : Call} {reply : Answer call → σ → Prop} (operation : rules.Operation i call pre reply) :
    rules.Valid i pre (Program.ask call) reply :=
  ⟨pre, reply, fun _ _ holds => holds, operation, fun _ _ _ holds => holds⟩

theorem weaken (valid : rules.Valid i required program post) (implies : rules.Implies pre required) :
    rules.Valid i pre program post := by
  cases program with
  | pure => exact fun state kept holds => valid state kept (implies state kept holds)
  | request =>
    obtain ⟨needed, reply, entails, operation, rest⟩ := valid
    exact ⟨needed, reply, fun state kept holds => entails state kept (implies state kept holds), operation, rest⟩

theorem post_mono (valid : rules.Valid i pre program post)
    (implies : ∀ value, rules.Implies (post value) (weaker value)) :
    rules.Valid i pre program weaker := by
  induction program generalizing pre with
  | pure value => exact fun state kept holds => implies value state kept (valid state kept holds)
  | request call next ih =>
    obtain ⟨needed, reply, entails, operation, rest⟩ := valid
    exact ⟨needed, reply, entails, operation, fun answer => ih answer (rest answer)⟩

theorem unreached (never : ∀ state, ¬ pre state) : rules.Valid i pre program post := by
  induction program generalizing pre with
  | pure => exact fun state _ holds => (never state holds).elim
  | request call next ih =>
    refine ⟨fun _ => False, fun _ _ => False, fun state _ holds => never state holds, ⟨?_, ?_, ?_⟩, fun answer =>
      ih answer fun _ holds => holds⟩
    · exact fun _ _ _ _ _ holds => holds
    · exact fun _ _ holds => holds.elim
    · exact fun _ _ _ holds => holds.elim

theorem given {fact : Prop} (valid : fact → rules.Valid i pre program post) :
    rules.Valid i (fun state => fact ∧ pre state) program post := by
  by_cases learned : fact
  · exact (valid learned).weaken fun _ _ holds => holds.2
  · exact unreached fun _ holds => learned holds.1

theorem of_operations (operations : ∀ call, rules.Operation i call (fun _ => True) fun _ _ => True) :
    rules.Valid i (fun _ => True) program fun _ _ => True := by
  induction program with
  | pure => exact fun _ _ _ => trivial
  | request call next ih => exact ⟨_, _, fun _ _ holds => holds, operations call, ih⟩

theorem of_ensures {kind : Call → Prop} {ensured : α → Prop}
    (kept : ∀ call, kind call → rules.Operation i call pre fun _ => pre) (ensures : program.Ensures kind ensured) :
    rules.Valid i pre program fun value state => ensured value ∧ pre state := by
  induction program with
  | pure => exact fun _ _ holds => ⟨ensures, holds⟩
  | request call next ih =>
    exact ⟨pre, fun _ => pre, fun _ _ holds => holds, kept call ensures.1, fun answer => ih answer (ensures.2 answer)⟩

theorem of_only {kind : Call → Prop} (kept : ∀ call, kind call → rules.Operation i call pre fun _ => pre)
    (only : program.Only kind) :
    rules.Valid i pre program fun _ => pre :=
  (of_ensures kept only).post_mono fun _ _ _ holds => holds.2

theorem bind {middle : α → σ → Prop} {next : α → Program Answer β} {last : β → σ → Prop}
    (first : rules.Valid i pre program middle) (rest : ∀ value, rules.Valid i (middle value) (next value) last) :
    rules.Valid i pre (program >>= next) last := by
  induction program generalizing pre with
  | pure value => exact (rest value).weaken first
  | request call more ih =>
    obtain ⟨needed, reply, entails, operation, later⟩ := first
    exact ⟨needed, reply, entails, operation, fun answer => ih answer (later answer)⟩

theorem bind_except {step : ExceptT δ (Program Answer) α} {next : α → ExceptT δ (Program Answer) β}
    {middle : α → σ → Prop} {last : β → σ → Prop} {fail : σ → Prop}
    (first : rules.Valid i pre step.run (outcome middle fail))
    (rest : ∀ value, rules.Valid i (middle value) (next value).run (outcome last fail)) :
    rules.Valid i pre (step >>= next).run (outcome last fail) := by
  refine bind first fun result => ?_
  cases result with
  | ok value => exact rest value
  | error => exact of_pure fun _ _ holds => holds

end Valid

section
variable (rules)

def Allowed (pool : Pool Answer ι σ α) : PoolEvent ι ε → Prop
  | .step i input => ∀ call ∈ (pool.thread i).bind Program.waiting, rules.allowed i input call pool.shared
  | .drop _ => True

def Suspended (i : ι) (post : α → σ → Prop) (program : Program Answer α) (state : σ) : Prop :=
  match program with
  | .pure value => post value state
  | .request call next => ∃ required reply, required state ∧ rules.Operation i call required reply ∧
      ∀ answer, rules.Valid i (reply answer) (next answer) post

structure Sound (posts : ι → α → σ → Prop) (pool : Pool Answer ι σ α) : Prop where
  invariant : rules.invariant pool.shared
  threads : ∀ i program, pool.thread i = some program → rules.Suspended i (posts i) program pool.shared

variable {rules} {posts : ι → α → σ → Prop}

theorem Valid.suspended {pre : σ → Prop} {post : α → σ → Prop} {program : Program Answer α} {state : σ}
    (valid : rules.Valid i pre program post) (kept : rules.invariant state) (holds : pre state) :
    rules.Suspended i post program state := by
  cases program with
  | pure => exact valid state kept holds
  | request =>
    obtain ⟨required, reply, entails, operation, rest⟩ := valid
    exact ⟨required, reply, entails state kept holds, operation, rest⟩

theorem Suspended.interfered {post : α → σ → Prop} {program : Program Answer α} {before after : σ}
    (suspended : rules.Suspended i post program before) (stable : ∀ value, rules.Stable i (post value))
    (kept : rules.invariant before) (still : rules.invariant after) (relies : rules.rely i before after) :
    rules.Suspended i post program after := by
  cases program with
  | pure value => exact stable value before after kept still relies suspended
  | request =>
    obtain ⟨required, reply, holds, operation, rest⟩ := suspended
    exact ⟨required, reply, operation.waiting before after kept still relies holds, operation, rest⟩

variable [DecidableEq ι] in
theorem Sound.step {pool next : Pool Answer ι σ α} {event : PoolEvent ι ε}
    (stable : ∀ i value, rules.Stable i (posts i value)) (sound : rules.Sound posts pool)
    (allowed : rules.Allowed pool event) (moved : pool.step rules.serve event = some next) :
    rules.Sound posts next := by
  rcases Pool.step_cases moved with ⟨i, input, program, rest, shared, rfl, found, resumed, rfl⟩ |
    ⟨i, call, rest, rfl, _, rfl⟩
  · cases program with
    | pure => cases resumed
    | request call =>
      cases resumed
      obtain ⟨required, reply, holds, operation, later⟩ := sound.threads i _ found
      have permitted : rules.allowed i input call pool.shared := allowed call (by simp [found, Program.waiting])
      obtain ⟨kept, gives, answered⟩ := operation.execute pool.shared input sound.invariant holds permitted
      refine ⟨kept, fun j other known => ?_⟩
      by_cases same : j = i
      · subst same
        rw [Pool.set_thread_same] at known
        cases known
        exact (later _).suspended kept answered
      · rw [Pool.set_thread_other pool same] at known
        exact (sound.threads j other known).interfered (stable j) sound.invariant kept
          (rules.compatible same sound.invariant gives)
  · refine ⟨sound.invariant, fun j other known => ?_⟩
    by_cases same : j = i
    · subst same
      rw [Pool.set_thread_same] at known
      cases known
    · rw [Pool.set_thread_other pool same] at known
      exact sound.threads j other known

variable [DecidableEq ι] in
theorem sound {start final : Pool Answer ι σ α} {events : List (PoolEvent ι ε)}
    (stable : ∀ i value, rules.Stable i (posts i value)) (ran : exec (Pool.step rules.serve) start events = some final)
    (obeyed : Obeys (Pool.step rules.serve) rules.Allowed start events) (initial : rules.Sound posts start) :
    rules.Sound posts final := by
  apply Runs.invariant _ ran obeyed initial
  exact fun pool event next allowed moved sound => sound.step stable allowed moved

theorem Sound.guarantees [DecidableEq ι] {pool next : Pool Answer ι σ α} {input : ε} (sound : rules.Sound posts pool)
    (allowed : rules.Allowed pool (.step i input)) (moved : pool.step rules.serve (.step i input) = some next) :
    rules.guarantee i pool.shared next.shared := by
  rcases Pool.step_cases moved with ⟨j, _, program, rest, shared, same, found, resumed, rfl⟩ | ⟨_, _, _, impossible, -⟩
  · cases same
    cases program with
    | pure => cases resumed
    | request call =>
      cases resumed
      obtain ⟨required, reply, holds, operation, -⟩ := sound.threads i _ found
      have permitted : rules.allowed i input call pool.shared := allowed call (by simp [found, Program.waiting])
      exact (operation.execute pool.shared input sound.invariant holds permitted).2.1
  · cases impossible

theorem Sound.safe {pool : Pool Answer ι σ α} (sound : rules.Sound posts pool) {call : Call}
    (waits : (pool.thread i).bind Program.waiting = some call) : rules.safe i call pool.shared := by
  obtain ⟨program, found, waiting⟩ := Option.bind_eq_some_iff.mp waits
  cases program with
  | pure => cases waiting
  | request =>
    cases waiting
    obtain ⟨required, reply, holds, operation, -⟩ := sound.threads i _ found
    exact operation.safe pool.shared sound.invariant holds

end

section
variable {rules : Rules (Program.Reporting Answer α) ι σ ε}

variable (rules) in
def silent : Rules Answer ι σ ε where
  serve i input call state := rules.serve i input (.inl call) state
  invariant := rules.invariant
  allowed i input call := rules.allowed i input (.inl call)
  safe i call := rules.safe i (.inl call)
  rely := rules.rely
  guarantee := rules.guarantee
  compatible := rules.compatible

theorem Valid.reporting {pre : σ → Prop} {post : α → σ → Prop} {program : Program Answer α} {required : α → σ → Prop}
    (valid : rules.silent.Valid i pre program required)
    (returns : ∀ value, rules.Operation i (.inr value) (required value) fun _ => post value) :
    rules.Valid i pre program.reporting post := by
  induction program generalizing pre with
  | pure value => exact ⟨required value, fun _ => post value, valid, returns value, fun _ _ _ holds => holds⟩
  | request call next ih =>
    obtain ⟨needed, reply, entails, operation, rest⟩ := valid
    exact ⟨needed, reply, entails, ⟨operation.waiting, operation.safe, operation.execute⟩, fun answer =>
      ih answer (rest answer)⟩

end

end Rules

end Bento.Library.Contracts
