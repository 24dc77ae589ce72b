import Bento.Store.Basic

/-! Times are compared as the texts that the database has of them, and the order of the texts
is that of the instants but for some fractions of a second. -/

namespace Bento.Store
open Library.Rfc3339 Library.Decimal

theorem formatTime_ok {value : Int} {text : Text} : formatTime value = .ok text ↔ format value = some text := by
  unfold formatTime
  cases format value <;> simp

def Passes (now also expires : Int) : Prop :=
  (Writable now ∧ Writable also) ∧ if Clash now expires then expires < now else now < expires

def Comparable (now also expires : Int) : Prop :=
  if Writable now ∧ Writable also then ¬ Clash now expires else expires ≤ now

theorem clash_ne {a b : Int} (clash : Clash a b) : a ≠ b := by
  rintro rfl
  exact clash.2.1 rfl

theorem passes_iff_comparable {now also expires : Int} :
    (Passes now also expires ↔ now < expires) ↔ Comparable now also expires := by
  unfold Passes Comparable
  by_cases writable : Writable now ∧ Writable also
  · rw [if_pos writable]
    by_cases clash : Clash now expires
    · have differ := clash_ne clash
      simp only [writable, clash, true_and, and_true, if_true, not_true, iff_false]
      intro same
      by_cases runs : now < expires
      · have reversed := same.mpr runs
        omega
      · exact runs (same.mp (by omega))
    · simp [writable, clash]
  · rw [if_neg writable]
    simp only [writable, false_and, false_iff, Int.not_lt]

end Bento.Store
