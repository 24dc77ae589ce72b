import Mathlib.Logic.Basic

/-! Transactions on a database: each statement sees what the ones before it wrote, and a
transaction that fails leaves nothing behind. The rules say when a transaction succeeds
and with what, one statement at a time. -/

namespace Bento.Library.Transactions

variable {ε σ α β : Type}

abbrev Tx (ε σ : Type) := StateT σ (Except ε)

def withTx (body : Tx ε σ α) (state : σ) : Except ε α × σ :=
  match body.run state with
  | .ok (value, after) => (.ok value, after)
  | .error error => (.error error, state)

def refuseIf (broken : Prop) [Decidable broken] (error : ε) : Tx ε σ Unit :=
  if broken then throw error else return

variable {body : Tx ε σ α} {state after : σ} {error : ε}

theorem withTx_ok {value : α} : withTx body state = (.ok value, after) ↔ body.run state = .ok (value, after) := by
  unfold withTx
  cases body.run state with
  | error => simp
  | ok => simp [Prod.ext_iff]

theorem withTx_refused : (withTx body state).1 = .error error ↔ body.run state = .error error := by
  unfold withTx
  cases body.run state with
  | error => simp
  | ok => simp

theorem withTx_error (failed : withTx body state = (.error error, after)) : after = state := by
  unfold withTx at failed
  cases ended : body.run state with
  | error =>
    simp only [ended] at failed
    exact (Prod.mk.inj failed).2.symm
  | ok =>
    simp only [ended] at failed
    cases failed

section
variable {state after : σ}

theorem run_bind_ok {step : Tx ε σ α} {next : α → Tx ε σ β} {value : β} :
    (step >>= next).run state = .ok (value, after) ↔
      ∃ middle, ∃ between, step.run state = .ok (middle, between) ∧ (next middle).run between = .ok (value, after) := by
  rw [StateT.run_bind]
  cases step.run state with
  | error => simp [bind, Except.bind]
  | ok result =>
    constructor
    · exact fun rest => ⟨result.1, result.2, rfl, rest⟩
    · rintro ⟨middle, between, same, rest⟩
      cases same
      exact rest

theorem run_pure_ok {result value : α} : (pure result : Tx ε σ α).run state = .ok (value, after) ↔
    result = value ∧ state = after := by
  rw [StateT.run_pure]
  simp [pure, Except.pure]

theorem run_lift_ok {result : Except ε α} {value : α} :
    (liftM result : Tx ε σ α).run state = .ok (value, after) ↔ result = .ok value ∧ state = after := by
  cases result with
  | error => simp [liftM, monadLift, MonadLift.monadLift, bind, Except.bind]
  | ok => simp [liftM, monadLift, MonadLift.monadLift, bind, Except.bind, pure, Except.pure]

theorem run_get_ok {value : σ} : (get : Tx ε σ σ).run state = .ok (value, after) ↔ state = value ∧ state = after := by
  simp [pure, Except.pure]

theorem run_set_ok {written : σ} {value : PUnit} : (set written : Tx ε σ PUnit).run state = .ok (value, after) ↔
    written = after := by
  simp [pure, Except.pure]

theorem run_modify_ok {change : σ → σ} {value : PUnit} :
    (modify change : Tx ε σ PUnit).run state = .ok (value, after) ↔ change state = after := by
  simp [pure, Except.pure]

theorem run_refuseIf_ok {broken : Prop} [Decidable broken] {error : ε} {value : Unit} :
    (refuseIf broken error : Tx ε σ Unit).run state = .ok (value, after) ↔ ¬ broken ∧ state = after := by
  unfold refuseIf
  split
  next holds => simp [holds, throw, throwThe, MonadExceptOf.throw, bind, Except.bind]
  next fails =>
    rw [run_pure_ok]
    simp [fails]

end

theorem run_get_bind (next : σ → Tx ε σ α) (state : σ) :
    (get >>= next : Tx ε σ α).run state = (next state).run state := rfl

theorem run_refuseIf (broken : Prop) [Decidable broken] (error : ε) (state : σ) :
    (refuseIf broken error : Tx ε σ Unit).run state = if broken then .error error else .ok ((), state) := by
  unfold refuseIf
  split <;> rfl

theorem run_refuseIf_bind (broken : Prop) [Decidable broken] (error : ε) (next : Unit → Tx ε σ α) (state : σ) :
    (refuseIf broken error >>= next : Tx ε σ α).run state = if broken then .error error else (next ()).run state := by
  unfold refuseIf
  split <;> rfl

theorem run_bind_passed {step : Tx ε σ α} {value : α} (passed : step.run state = .ok (value, after))
    (next : α → Tx ε σ β) :
    (step >>= next).run state = (next value).run after := by
  rw [StateT.run_bind, passed]
  rfl

theorem run_bind_failed {step : Tx ε σ α} (failed : step.run state = .error error) (next : α → Tx ε σ β) :
    (step >>= next).run state = .error error := by
  rw [StateT.run_bind, failed]
  rfl

def Raises (allowed : ε → Prop) (body : Tx ε σ α) : Prop := ∀ state error, body.run state = .error error → allowed error

namespace Raises
variable {allowed : ε → Prop}

theorem bind {step : Tx ε σ α} {next : α → Tx ε σ β} (first : Raises allowed step)
    (rest : ∀ value, Raises allowed (next value)) : Raises allowed (step >>= next) := by
  intro state error failed
  rw [StateT.run_bind] at failed
  cases ended : step.run state with
  | error =>
    rw [ended] at failed
    cases failed
    exact first state error ended
  | ok result =>
    rw [ended] at failed
    exact rest result.1 result.2 error failed

theorem pure (value : α) : Raises allowed (pure value : Tx ε σ α) := by
  intro state error failed
  cases failed

theorem get : Raises allowed (get : Tx ε σ σ) := by
  intro state error failed
  cases failed

theorem set (written : σ) : Raises allowed (set written : Tx ε σ PUnit) := by
  intro state error failed
  cases failed

theorem refuseIf {broken : Prop} [Decidable broken] {error : ε} (listed : allowed error) :
    Raises allowed (refuseIf broken error : Tx ε σ Unit) := by
  intro state other failed
  unfold Transactions.refuseIf at failed
  split at failed
  · cases failed
    exact listed
  · cases failed

theorem lift {result : Except ε α} (listed : ∀ error, result = .error error → allowed error) :
    Raises allowed (liftM result : Tx ε σ α) := by
  intro state error failed
  cases result with
  | error =>
    cases failed
    exact listed error rfl
  | ok => cases failed

end Raises

end Bento.Library.Transactions
