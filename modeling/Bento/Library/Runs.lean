import Mathlib.Logic.Basic

/-! Finite runs of a machine that is driven one event at a time. An event that
is not enabled has no successor, so a run names only steps that really happen.
A rule on steps is stated apart from the machine: one machine then serves both
the runs that exist and the runs whose every step was allowed. -/

namespace Bento.Library.Runs
open List

variable {σ ε ω : Type}

def exec (step : σ → ε → Option σ) : σ → List ε → Option σ
  | state, [] => some state
  | state, event :: events => (step state event).bind (exec step · events)

def Obeys (step : σ → ε → Option σ) (allowed : σ → ε → Prop) : σ → List ε → Prop
  | _, [] => True
  | state, event :: events => allowed state event ∧
      match step state event with
      | some next => Obeys step allowed next events
      | none => True

instance decidableObeys (step : σ → ε → Option σ) (allowed : σ → ε → Prop)
    [∀ state event, Decidable (allowed state event)] :
    ∀ (state : σ) (events : List ε), Decidable (Obeys step allowed state events)
  | _, [] => .isTrue trivial
  | state, event :: events =>
    match seen : step state event with
    | some next =>
      have := decidableObeys step allowed next events
      decidable_of_iff (allowed state event ∧ Obeys step allowed next events) (by simp [Obeys, seen])
    | none => decidable_of_iff (allowed state event) (by simp [Obeys, seen])

variable {step : σ → ε → Option σ} {allowed : σ → ε → Prop}

theorem exec_cons {state final : σ} {event : ε} {events : List ε} : exec step state (event :: events) = some final ↔
      ∃ next, step state event = some next ∧ exec step next events = some final := by
  simp [exec, Option.bind_eq_some_iff]

theorem exec_append {state final : σ} {first second : List ε} : exec step state (first ++ second) = some final ↔
      ∃ next, exec step state first = some next ∧ exec step next second = some final := by
  induction first generalizing state with
  | nil => simp [exec]
  | cons event first ih =>
    simp only [cons_append, exec_cons, ih]
    exact ⟨fun ⟨next, moved, later, ran, rest⟩ => ⟨later, ⟨next, moved, ran⟩, rest⟩,
      fun ⟨later, ⟨next, moved, ran⟩, rest⟩ => ⟨next, moved, later, ran, rest⟩⟩

theorem obeys_of_events {rule : ε → Prop} {events : List ε} (kept : ∀ event ∈ events, rule event) (state : σ) :
    Obeys step (fun _ event => rule event) state events := by
  induction events generalizing state with
  | nil => trivial
  | cons event events ih =>
    refine ⟨kept event mem_cons_self, ?_⟩
    split
    next => exact ih (fun other listed => kept other (mem_cons_of_mem _ listed)) _
    next => trivial

theorem invariant {holds : σ → Prop}
    (kept : ∀ state event next, allowed state event → step state event = some next → holds state → holds next)
    {start final : σ} {events : List ε} (ran : exec step start events = some final)
    (obeyed : Obeys step allowed start events) (initial : holds start) : holds final := by
  induction events generalizing start with
  | nil =>
    cases ran
    exact initial
  | cons event events ih =>
    obtain ⟨next, moved, rest⟩ := exec_cons.mp ran
    simp only [Obeys, moved] at obeyed
    exact ih rest obeyed.2 (kept start event next obeyed.1 moved initial)

theorem stable {holds : σ → Prop} (kept : ∀ state event next, step state event = some next → holds state → holds next)
    {start final : σ} {events : List ε} (ran : exec step start events = some final) (initial : holds start) :
    holds final := by
  induction events generalizing start with
  | nil =>
    cases ran
    exact initial
  | cons event events ih =>
    obtain ⟨next, moved, rest⟩ := exec_cons.mp ran
    exact ih rest (kept start event next moved initial)

theorem exists_rest {measure : σ → Nat}
    (uses : ∀ state event next, step state event = some next → measure next < measure state) (start : σ) :
    ∃ events final, exec step start events = some final ∧ ∀ event, step final event = none := by
  by_cases rests : ∀ event, step start event = none
  · exact ⟨[], start, rfl, rests⟩
  · obtain ⟨event, moves⟩ := not_forall.mp rests
    obtain ⟨next, moved⟩ := Option.ne_none_iff_exists'.mp moves
    have less := uses start event next moved
    obtain ⟨events, final, ran, rest⟩ := exists_rest uses next
    exact ⟨event :: events, final, exec_cons.mpr ⟨next, moved, ran⟩, rest⟩
termination_by measure start

def trace (step : σ → ε → ω × σ) : σ → List ε → List ω
  | _, [] => []
  | state, event :: events => (step state event).1 :: trace step (step state event).2 events

structure Follows (step : σ → ε → ω × σ) (events : List ε) (order : σ → σ → Prop) : Prop where
  refl : ∀ state, order state state
  trans : ∀ {first middle last}, order first middle → order middle last → order first last
  moves : ∀ state, ∀ event ∈ events, order state (step state event).2

section
variable {step : σ → ε → ω × σ} {order : σ → σ → Prop} {events : List ε}

theorem Follows.tail {event : ε} (follows : Follows step (event :: events) order) : Follows step events order :=
  { follows with moves := fun state late listed => follows.moves state late (mem_cons_of_mem event listed) }

theorem Follows.member (follows : Follows step events order) {start : σ} {output : ω}
    (member : output ∈ trace step start events) :
    ∃ state, order start state ∧ ∃ event ∈ events, output = (step state event).1 := by
  induction events generalizing start with
  | nil => exact absurd member not_mem_nil
  | cons event events ih =>
    cases List.mem_cons.mp member with
    | inl first => exact ⟨start, follows.refl start, event, mem_cons_self, first⟩
    | inr later =>
      obtain ⟨state, beyond, other, listed, same⟩ := ih follows.tail later
      have moved := follows.moves start event mem_cons_self
      exact ⟨state, follows.trans moved beyond, other, mem_cons_of_mem event listed, same⟩

theorem Follows.pairwise (follows : Follows step events order) (start : σ) :
    (trace step start events).Pairwise fun first last => ∃ state event other late,
      order start state ∧ first = (step state event).1 ∧ order (step state event).2 other ∧
        last = (step other late).1 := by
  induction events generalizing start with
  | nil => exact .nil
  | cons event events ih =>
    refine .cons (fun last member => ?_) ((ih follows.tail (step start event).2).imp ?_)
    · obtain ⟨other, beyond, late, _, same⟩ := follows.tail.member member
      exact ⟨start, event, other, late, follows.refl start, rfl, beyond, same⟩
    · rintro first last ⟨state, early, other, late, beyond, same, rest⟩
      have moved := follows.moves start event mem_cons_self
      exact ⟨state, early, other, late, follows.trans moved beyond, same, rest⟩

end

end Bento.Library.Runs
