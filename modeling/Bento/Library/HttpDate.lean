import Bento.Library.Calendar
import Bento.Library.Decimal

/-! Dates as HTTP headers write them, for seconds from 1970-01-01T00:00:00Z, and the few
characters they are made of. -/

namespace Bento.Library.HttpDate
open Decimal Calendar List

def weekdays : List Text := ["Sat", "Sun", "Mon", "Tue", "Wed", "Thu", "Fri"].map String.toList

def months : List Text :=
  ["Jan", "Feb", "Mar", "Apr", "May", "Jun", "Jul", "Aug", "Sep", "Oct", "Nov", "Dec"].map String.toList

def httpDate (second : Int) : Text :=
  let second := (second + 62167219200).toNat
  let date := civil (second / 86400)
  let time := second % 86400
  weekdays.getD (second / 86400 % 7) [] ++ ", ".toList ++ pad 2 date.day ++ ' ' :: months.getD (date.month - 1) [] ++
    ' ' :: pad 4 date.year ++ ' ' :: pad 2 (time / 3600) ++ ':' :: pad 2 (time / 60 % 60) ++ ':' :: pad 2 (time % 60) ++
    " GMT".toList

example : httpDate 784111777 = "Sun, 06 Nov 1994 08:49:37 GMT".toList := by decide

def isDateChar (char : Char) : Bool := char.isAlphanum || char ∈ " ,:".toList

theorem pad_plain (width value : Nat) : ∀ char ∈ pad width value, isDateChar char = true := by
  have table : ∀ digit : Fin 10, isDateChar (Nat.digitChar digit) = true := by decide
  induction width generalizing value with
  | zero => simp [pad]
  | succ width ih =>
    intro char listed
    rcases List.mem_cons.mp listed with rfl | later
    · exact table ⟨_, Nat.mod_lt _ (by decide)⟩
    · exact ih _ char later

theorem getD_plain (names : List Text) (plain : names.all (List.all · isDateChar) = true) (index : Nat) :
    ∀ char ∈ names.getD index [], isDateChar char = true := by
  intro char listed
  rw [getD_eq_getElem?_getD] at listed
  cases found : names[index]? with
  | none => simp [found] at listed
  | some name =>
    rw [found] at listed
    exact List.all_eq_true.mp (List.all_eq_true.mp plain name (mem_of_getElem? found)) char listed

theorem httpDate_plain (second : Int) : ∀ char ∈ httpDate second, isDateChar char = true := by
  have day := getD_plain weekdays (by decide)
  have month := getD_plain months (by decide)
  have rest : ∀ char ∈ " GMT".toList, isDateChar char = true := List.all_eq_true.mp (by decide)
  have comma : ∀ char ∈ ", ".toList, isDateChar char = true := List.all_eq_true.mp (by decide)
  have colon : isDateChar ':' = true := by decide
  have space : isDateChar ' ' = true := by decide
  unfold httpDate
  simp only [mem_append, mem_cons]
  grind [pad_plain]

end Bento.Library.HttpDate
