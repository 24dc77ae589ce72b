import Mathlib.Logic.Basic

/-! When a chain of results succeeds: one rule for each way to combine them, and what a fold or
a map over a list has done when none of its steps failed. -/

namespace Bento.Library.Results
open List

variable {ε α β : Type}

theorem bind_ok {step : Except ε α} {next : α → Except ε β} {value : β} :
    (step >>= next) = .ok value ↔ ∃ middle, step = .ok middle ∧ next middle = .ok value := by
  cases step <;> simp [bind, Except.bind]

theorem check_ok {check : Except ε Unit} {next : Unit → Except ε β} {value : β} :
    (check >>= next) = .ok value ↔ check = .ok () ∧ next () = .ok value := by
  cases check <;> simp [bind, Except.bind]

theorem pure_ok {result value : α} : (pure result : Except ε α) = .ok value ↔ result = value := by
  simp [pure, Except.pure]

theorem map_ok {result : Except ε α} {change : α → β} {value : β} :
    result.map change = .ok value ↔ ∃ middle, result = .ok middle ∧ change middle = value := by
  cases result <;> simp [Except.map]

theorem eq_ok {result : Except ε α} (succeeds : result.isOk = true) (other : α) :
    result = .ok (result.toOption.getD other) := by
  cases result with
  | error => cases succeeds
  | ok => rfl

theorem forM_ok {items : List α} {body : α → Except ε Unit} {value : Unit} :
    forM items body = .ok value ↔ ∀ item ∈ items, body item = .ok () := by
  induction items with
  | nil => simp [pure_ok]
  | cons item items ih =>
    simp only [forM_cons, bind_ok, ih, mem_cons, forall_eq_or_imp]
    exact ⟨fun ⟨_, first, rest⟩ => ⟨first, rest⟩, fun ⟨first, rest⟩ => ⟨(), first, rest⟩⟩

theorem mapM_ok {items : List α} {body : α → Except ε β} {result : α → β}
    (rounds : ∀ item ∈ items, body item = .ok (result item)) : items.mapM body = .ok (items.map result) := by
  induction items with
  | nil => rfl
  | cons item items ih =>
    have first := rounds item mem_cons_self
    have rest := ih fun item listed => rounds item (mem_cons_of_mem _ listed)
    rw [mapM_cons, first, rest]
    rfl

theorem mem_of_mapM_ok {items : List α} {body : α → Except ε β} {results : List β}
    (collected : items.mapM body = .ok results) : ∀ result ∈ results, ∃ item ∈ items, body item = .ok result := by
  induction items generalizing results with
  | nil =>
    rw [mapM_nil, pure_ok] at collected
    simp [← collected]
  | cons item items ih =>
    simp only [mapM_cons, bind_ok, pure_ok] at collected
    obtain ⟨first, made, rest, others, rfl⟩ := collected
    intro result listed
    rcases List.mem_cons.mp listed with rfl | later
    · exact ⟨item, mem_cons_self, made⟩
    · obtain ⟨other, known, same⟩ := ih others result later
      exact ⟨other, mem_cons_of_mem item known, same⟩

end Bento.Library.Results
