import Mathlib.Algebra.BigOperators.Group.List.Basic
import Mathlib.Algebra.Ring.Nat

/-! Days counted from the first day of year 0 of the proleptic Gregorian calendar,
and the civil date of a day. Consecutive units of given lengths split a position
into the unit it falls in and the offset there, and that pair sorts as the position
does; years and months are two uses of it. -/

namespace Bento.Library.Calendar
open List Nat

def locate : List Nat → Nat → Nat × Nat
  | [], offset => (0, offset)
  | length :: rest, offset =>
    if offset < length then (0, offset) else ((locate rest (offset - length)).1 + 1, (locate rest (offset - length)).2)

theorem locate_spec {lengths : List Nat} {offset : Nat} (inside : offset < lengths.sum) :
    (lengths.take (locate lengths offset).1).sum + (locate lengths offset).2 = offset ∧
      ∃ length, lengths[(locate lengths offset).1]? = some length ∧ (locate lengths offset).2 < length := by
  induction lengths generalizing offset with
  | nil => simp at inside
  | cons length rest ih =>
    simp only [locate]
    split
    next here => simp [here]
    next past =>
      simp only [sum_cons] at inside
      obtain ⟨total, found⟩ := @ih (offset - length) (by omega)
      refine ⟨?_, by simpa using found⟩
      simp only [take_succ_cons, sum_cons]
      omega

theorem locate_lt {lengths : List Nat} {a b : Nat} (first : a < lengths.sum) (last : b < lengths.sum) :
    a < b ↔ (locate lengths a).1 < (locate lengths b).1 ∨
      (locate lengths a).1 = (locate lengths b).1 ∧ (locate lengths a).2 < (locate lengths b).2 := by
  induction lengths generalizing a b with
  | nil => simp at first
  | cons length rest ih =>
    simp only [sum_cons] at first last
    simp only [locate]
    by_cases left : a < length <;> by_cases right : b < length <;> simp only [left, right, if_true, if_false]
    · simp
    · simp only [zero_lt_succ, true_or, iff_true]
      omega
    · simp only [Nat.not_lt_zero, succ_ne_zero, false_and, or_self, iff_false]
      omega
    · rw [Nat.add_lt_add_iff_right, Nat.add_right_cancel_iff, ← ih (by omega) (by omega)]
      omega

def isLeap (year : Nat) : Bool := year % 4 == 0 && (year % 100 != 0 || year % 400 == 0)

def daysBefore (year : Nat) : Nat := 365 * year + (year + 3) / 4 + (year + 399) / 400 - (year + 99) / 100

/-- A 400 year cycle has 146097 days, so the guess is off by at most one year. -/
def yearOf (day : Nat) : Nat :=
  let guess := day * 400 / 146097
  if day < daysBefore guess then guess - 1 else if daysBefore (guess + 1) ≤ day then guess + 1 else guess

theorem isLeap_toNat (year : Nat) : (isLeap year).toNat + (if year % 100 = 0 then 1 else 0) =
    (if year % 4 = 0 then 1 else 0) + (if year % 400 = 0 then 1 else 0) := by
  unfold isLeap
  by_cases four : year % 4 = 0
  · by_cases hundred : year % 100 = 0
    · by_cases cycle : year % 400 = 0 <;> simp [four, hundred, cycle]
    · have cycle : year % 400 ≠ 0 := by omega
      simp [four, hundred, cycle]
  · have hundred : year % 100 ≠ 0 := by omega
    have cycle : year % 400 ≠ 0 := by omega
    simp [four, hundred, cycle]

theorem daysBefore_succ (year : Nat) : daysBefore (year + 1) = daysBefore year + 365 + (isLeap year).toNat := by
  have leap := isLeap_toNat year
  have four : (year + 1 + 3) / 4 = (year + 3) / 4 + if year % 4 = 0 then 1 else 0 := by split <;> omega
  have hundred : (year + 1 + 99) / 100 = (year + 99) / 100 + if year % 100 = 0 then 1 else 0 := by split <;> omega
  have cycle : (year + 1 + 399) / 400 = (year + 399) / 400 + if year % 400 = 0 then 1 else 0 := by split <;> omega
  have enough : (year + 99) / 100 ≤ 365 * year := by omega
  simp only [daysBefore, four, hundred, cycle]
  omega

theorem daysBefore_mono {first last : Nat} (order : first ≤ last) : daysBefore first ≤ daysBefore last := by
  induction last, order using le_induction with
  | base => exact Nat.le_refl _
  | succ last _ ih =>
    have := daysBefore_succ last
    omega

theorem daysBefore_bounds (year : Nat) : 400 * daysBefore year ≤ 146097 * year + 699 ∧
    146097 * year ≤ 400 * daysBefore year + 396 := by
  unfold daysBefore
  omega

theorem yearOf_spec (day : Nat) : daysBefore (yearOf day) ≤ day ∧ day < daysBefore (yearOf day + 1) := by
  unfold yearOf
  simp only
  generalize guessed : day * 400 / 146097 = guess
  have here := daysBefore_bounds guess
  have next := daysBefore_bounds (guess + 1)
  split
  next early =>
    have positive : guess ≠ 0 := by
      rintro rfl
      simp [daysBefore] at early
    obtain ⟨before, rfl⟩ := exists_eq_succ_of_ne_zero positive
    have earlier := daysBefore_bounds before
    simp only [succ_eq_add_one, Nat.add_sub_cancel] at *
    omega
  next =>
    have later := daysBefore_bounds (guess + 2)
    split
    next late => exact ⟨late, by change day < daysBefore (guess + 2); omega⟩
    next => omega

theorem yearOf_lt {day year : Nat} : yearOf day < year ↔ day < daysBefore year := by
  obtain ⟨start, stop⟩ := yearOf_spec day
  constructor
  · intro earlier
    exact Nat.lt_of_lt_of_le stop (daysBefore_mono earlier)
  · intro below
    refine Nat.lt_of_not_le fun later => ?_
    have := daysBefore_mono later
    omega

structure Date where
  year : Nat
  month : Nat
  day : Nat
deriving DecidableEq

def monthLengths (year : Nat) : List Nat :=
  [31, 28 + (isLeap year).toNat, 31, 30, 31, 30, 31, 31, 30, 31, 30, 31]

def civil (day : Nat) : Date :=
  let year := yearOf day
  let (month, offset) := locate (monthLengths year) (day - daysBefore year)
  ⟨year, month + 1, offset + 1⟩

def Date.valid (date : Date) : Bool :=
  1 ≤ date.month && 1 ≤ date.day && date.day ≤ (monthLengths date.year).getD (date.month - 1) 0

def dayOf (date : Date) : Nat :=
  daysBefore date.year + ((monthLengths date.year).take (date.month - 1)).sum + (date.day - 1)

theorem civil_year (day : Nat) : (civil day).year = yearOf day := rfl

theorem civil_month (day : Nat) :
    (civil day).month = (locate (monthLengths (yearOf day)) (day - daysBefore (yearOf day))).1 + 1 := rfl

theorem civil_day (day : Nat) :
    (civil day).day = (locate (monthLengths (yearOf day)) (day - daysBefore (yearOf day))).2 + 1 := rfl

theorem ordinal_lt (day : Nat) : day - daysBefore (yearOf day) < (monthLengths (yearOf day)).sum := by
  have spec := yearOf_spec day
  have next := daysBefore_succ (yearOf day)
  simp only [monthLengths, sum_cons, sum_nil]
  omega

theorem dayOf_civil (day : Nat) : dayOf (civil day) = day := by
  have year := yearOf_spec day
  have month := (locate_spec (ordinal_lt day)).1
  simp only [dayOf, civil_year, civil_month, civil_day, Nat.add_sub_cancel]
  omega

theorem civil_valid (day : Nat) : (civil day).valid = true := by
  obtain ⟨length, found, within⟩ := (locate_spec (ordinal_lt day)).2
  simp only [Date.valid, civil_year, civil_month, civil_day, Nat.add_sub_cancel, getD_eq_getElem?_getD, found,
    Option.getD_some, Bool.and_eq_true, decide_eq_true_eq]
  exact ⟨⟨by simp, by simp⟩, within⟩

theorem civil_small (day : Nat) : (civil day).month < 100 ∧ (civil day).day < 100 := by
  obtain ⟨length, found, within⟩ := (locate_spec (ordinal_lt day)).2
  have months := (List.getElem?_eq_some_iff.mp found).1
  have short : length ≤ 31 := by
    have every : ∀ length ∈ monthLengths (yearOf day), length ≤ 31 := by
      have := Bool.toNat_le (isLeap (yearOf day))
      simp [monthLengths]
      omega
    exact every length (mem_of_getElem? found)
  have twelve : (monthLengths (yearOf day)).length = 12 := rfl
  rw [civil_month, civil_day]
  constructor <;> omega

theorem civil_lt {a b : Nat} : a < b ↔ (civil a).year < (civil b).year ∨ (civil a).year = (civil b).year ∧
    ((civil a).month < (civil b).month ∨ (civil a).month = (civil b).month ∧ (civil a).day < (civil b).day) := by
  have left := yearOf_spec a
  have right := yearOf_spec b
  rcases Nat.lt_trichotomy (yearOf a) (yearOf b) with less | same | more
  · have := daysBefore_mono (show yearOf a + 1 ≤ yearOf b from less)
    simp only [civil_year, less, true_or, iff_true]
    omega
  · have first := ordinal_lt a
    have last := ordinal_lt b
    simp only [civil_year, civil_month, civil_day, same, Nat.lt_irrefl, true_and, false_or] at first left ⊢
    have order := locate_lt first last
    omega
  · have := daysBefore_mono (show yearOf b + 1 ≤ yearOf a from more)
    simp only [civil_year]
    omega

end Bento.Library.Calendar
