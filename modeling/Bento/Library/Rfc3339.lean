import Bento.Library.Calendar
import Bento.Library.Decimal

/-! RFC 3339 text of an instant as the `time` crate writes and reads it. An instant is
its count of nanoseconds from 1970-01-01T00:00:00Z. In the text the fraction loses its
trailing zeros and is left out when it is zero. The text is fixed in width up to the
seconds, so it sorts by seconds; within one second the fraction is compared with the
`Z` that ends a shorter one. -/

namespace Bento.Library.Rfc3339
open Decimal Calendar List Nat

def nanosPerSecond : Nat := 1000000000

def sinceZero (instant : Int) : Int := instant + 62167219200 * nanosPerSecond

def secondLimit : Nat := daysBefore 10000 * 86400

def Writable (instant : Int) : Prop :=
  0 ≤ sinceZero instant ∧ sinceZero instant < secondLimit * nanosPerSecond

instance (instant : Int) : Decidable (Writable instant) := inferInstanceAs (Decidable (_ ∧ _))

def secondText (second : Nat) : Text :=
  let date := civil (second / 86400)
  let time := second % 86400
  pad 4 date.year ++ ('-' :: (pad 2 date.month ++ ('-' :: (pad 2 date.day ++ ('T' ::
    (pad 2 (time / 3600) ++ (':' :: (pad 2 (time / 60 % 60) ++ (':' :: pad 2 (time % 60))))))))))

def fractionText (nanos : Nat) : Text := if nanos = 0 then [] else '.' :: trimmed 9 nanos

def localText (nanos : Nat) : Text := secondText (nanos / nanosPerSecond) ++ fractionText (nanos % nanosPerSecond)

def format (instant : Int) : Option Text :=
  if Writable instant then some (localText (sinceZero instant).toNat ++ ['Z']) else none

structure OffsetDateTime where
  instant : Int
  offset : Int
deriving DecidableEq

def offsetText (offset : Int) : Text :=
  if offset = 0 then ['Z']
  else (if offset < 0 then '-' else '+') ::
    (pad 2 (offset.natAbs / 3600) ++ (':' :: pad 2 (offset.natAbs / 60 % 60)))

def invalidComponent (component : String) : String :=
  "The " ++ component ++ " component cannot be formatted into the requested format."

def OffsetDateTime.format (value : OffsetDateTime) : Except String Text :=
  let localTime := value.instant + value.offset * nanosPerSecond
  if ¬ Writable localTime then .error (invalidComponent "year")
  else if 23 < value.offset.natAbs / 3600 then .error (invalidComponent "offset_hour")
  else if value.offset.natAbs % 60 ≠ 0 then .error (invalidComponent "offset_second")
  else .ok (localText (sinceZero localTime).toNat ++ offsetText value.offset)

def exactlyDigits (width : Nat) (text : Text) : Option (Nat × Text) :=
  if width ≤ text.length then (read 0 (text.take width)).map (·, text.drop width) else none

def asciiChar (char : Char) : Text → Option Text
  | first :: rest => if first = char then some rest else none
  | [] => none

def subsecond : Text → Option (Nat × Text)
  | '.' :: rest =>
    if rest.takeWhile isDigit = [] then none
    else (readFraction 9 (rest.takeWhile isDigit)).map (·, rest.dropWhile isDigit)
  | text => some (0, text)

/-- `parse` of a text in UTC. Numeric offsets and leap seconds, which `format` of an
instant never writes, are not read. -/
def parse (text : Text) : Option Int := do
  let (year, text) ← exactlyDigits 4 text
  let text ← asciiChar '-' text
  let (month, text) ← exactlyDigits 2 text
  let text ← asciiChar '-' text
  let (day, text) ← exactlyDigits 2 text
  let text ← asciiChar 'T' text
  let (hour, text) ← exactlyDigits 2 text
  let text ← asciiChar ':' text
  let (minute, text) ← exactlyDigits 2 text
  let text ← asciiChar ':' text
  let (second, text) ← exactlyDigits 2 text
  let (nanos, text) ← subsecond text
  let text ← asciiChar 'Z' text
  if text = [] ∧ (Date.mk year month day).valid ∧ hour < 24 ∧ minute < 60 ∧ second < 60 then
    some (((dayOf ⟨year, month, day⟩ * 86400 + hour * 3600 + minute * 60 + second) * nanosPerSecond + nanos : Nat)
      - 62167219200 * nanosPerSecond)
  else none

example : format 1700000000510000000 = some "2023-11-14T22:13:20.51Z".toList := by decide

/-- Two instants of one second of which one is the other cut to fewer digits. -/
def Clash (a b : Int) : Prop :=
  sinceZero a / nanosPerSecond = sinceZero b / nanosPerSecond ∧
    CutShort 9 (sinceZero a % nanosPerSecond).toNat (sinceZero b % nanosPerSecond).toNat

instance (a b : Int) : Decidable (Clash a b) := inferInstanceAs (Decidable (_ ∧ _))

@[simp] theorem length_secondText (second : Nat) : (secondText second).length = 19 := by simp [secondText]

theorem year_small {second : Nat} (bound : second < secondLimit) : (civil (second / 86400)).year < 10 ^ 4 := by
  rw [civil_year]
  apply yearOf_lt.mpr
  apply Nat.div_lt_of_lt_mul
  rwa [Nat.mul_comm]

variable {a b : Nat} {instant : Int}

theorem secondText_lt (first : a < secondLimit) (last : b < secondLimit) : secondText a < secondText b ↔ a < b := by
  have left := civil_small (a / 86400)
  have right := civil_small (b / 86400)
  have days := @civil_lt (a / 86400) (b / 86400)
  have same : (civil (a / 86400)).year = (civil (b / 86400)).year ∧
      (civil (a / 86400)).month = (civil (b / 86400)).month ∧ (civil (a / 86400)).day = (civil (b / 86400)).day ↔
      a / 86400 = b / 86400 := by
    have back := @civil_lt (b / 86400) (a / 86400)
    omega
  simp only [secondText]
  rw [append_lt_append (by simp), pad_lt_pad (year_small first) (year_small last),
    pad_inj (year_small first) (year_small last), cons_lt_cons_iff,
    append_lt_append (by simp), pad_lt_pad left.1 right.1, pad_inj left.1 right.1, cons_lt_cons_iff,
    append_lt_append (by simp), pad_lt_pad left.2 right.2, pad_inj left.2 right.2, cons_lt_cons_iff,
    append_lt_append (by simp), pad_lt_pad (by omega) (by omega), pad_inj (by omega) (by omega), cons_lt_cons_iff,
    append_lt_append (by simp), pad_lt_pad (by omega) (by omega), pad_inj (by omega) (by omega), cons_lt_cons_iff,
    pad_lt_pad (by omega) (by omega)]
  simp only [Char.lt_irrefl, true_and, false_or]
  omega

theorem secondText_inj (first : a < secondLimit) (last : b < secondLimit) : secondText a = secondText b ↔ a = b := by
  refine ⟨fun same => ?_, fun same => same ▸ rfl⟩
  have below := secondText_lt first last
  have above := secondText_lt last first
  rw [same] at below above
  simp only [List.lt_irrefl, false_iff] at below above
  omega

theorem fractionText_lt (first : a < nanosPerSecond) (last : b < nanosPerSecond) :
    fractionText a ++ ['Z'] < fractionText b ++ ['Z'] ↔ if CutShort 9 a b then b < a else a < b := by
  have digits := trimmed_lt_trimmed (by decide : '9' < 'Z') (show a < 10 ^ 9 from first) (show b < 10 ^ 9 from last)
  by_cases empty : a = 0
  · subst a
    by_cases none : b = 0
    · simp [none, CutShort]
    · have cut : CutShort 9 0 b := ⟨Ne.symm none, Or.inl (by simp [trimmed])⟩
      simp [cut, fractionText, none, cons_lt_cons_iff, -List.not_lt]
  by_cases none : b = 0
  · subst b
    have cut : CutShort 9 a 0 := ⟨empty, Or.inr (by simp [trimmed])⟩
    simp [cut, fractionText, empty, cons_lt_cons_iff, Nat.pos_of_ne_zero empty]
  simpa [fractionText, empty, none, cons_lt_cons_iff] using digits

theorem localText_lt (first : a < secondLimit * nanosPerSecond) (last : b < secondLimit * nanosPerSecond) :
    localText a ++ ['Z'] < localText b ++ ['Z'] ↔
      if a / nanosPerSecond = b / nanosPerSecond ∧ CutShort 9 (a % nanosPerSecond) (b % nanosPerSecond)
      then b < a else a < b := by
  have left : a / nanosPerSecond < secondLimit := Nat.div_lt_of_lt_mul (by rwa [Nat.mul_comm])
  have right : b / nanosPerSecond < secondLimit := Nat.div_lt_of_lt_mul (by rwa [Nat.mul_comm])
  have fractions := fractionText_lt (mod_lt a (by decide : 0 < nanosPerSecond))
    (mod_lt b (by decide : 0 < nanosPerSecond))
  simp only [localText, append_assoc]
  rw [append_lt_append (by simp), secondText_lt left right, secondText_inj left right, fractions]
  unfold nanosPerSecond
  by_cases same : a / 1000000000 = b / 1000000000
  · by_cases cut : CutShort 9 (a % 1000000000) (b % 1000000000) <;>
      simp only [same, cut, true_and, if_true, if_false] <;> omega
  · simp only [same, false_and, if_false, or_false]
    omega

theorem format_eq_some {text : Text} : format instant = some text ↔
    Writable instant ∧ localText (sinceZero instant).toNat ++ ['Z'] = text := by
  simp [format]

theorem format_eq_none : format instant = none ↔ ¬ Writable instant := by
  simp [format]

theorem Writable.count (writable : Writable instant) :
    ∃ count : Nat, sinceZero instant = count ∧ count < secondLimit * nanosPerSecond := by
  obtain ⟨low, high⟩ := writable
  obtain ⟨count, same⟩ := Int.eq_ofNat_of_zero_le low
  refine ⟨count, same, ?_⟩
  rw [same] at high
  exact_mod_cast high

theorem format_lt {a b : Int} {first last : Text} (left : format a = some first) (right : format b = some last) :
    first < last ↔ if Clash a b then b < a else a < b := by
  obtain ⟨leftWritable, rfl⟩ := format_eq_some.mp left
  obtain ⟨rightWritable, rfl⟩ := format_eq_some.mp right
  obtain ⟨m, leftCount, leftBound⟩ := leftWritable.count
  obtain ⟨n, rightCount, rightBound⟩ := rightWritable.count
  have order : a < b ↔ m < n := by unfold sinceZero at leftCount rightCount; omega
  have reverse : b < a ↔ n < m := by unfold sinceZero at leftCount rightCount; omega
  simp only [Clash, leftCount, rightCount, order, reverse, Int.toNat_natCast]
  rw [localText_lt leftBound rightBound]
  norm_cast

theorem exactlyDigits_pad {width value : Nat} (bound : value < 10 ^ width) (rest : Text) :
    exactlyDigits width (pad width value ++ rest) = some (value, rest) := by
  have front : (pad width value ++ rest).take width = pad width value := take_left' (by simp)
  have back : (pad width value ++ rest).drop width = rest := drop_left' (by simp)
  simp [exactlyDigits, front, back, read_pad bound]

@[simp] theorem asciiChar_cons (char : Char) (rest : Text) : asciiChar char (char :: rest) = some rest := by
  simp [asciiChar]

theorem subsecond_fractionText {nanos : Nat} (bound : nanos < nanosPerSecond) :
    subsecond (fractionText nanos ++ ['Z']) = some (nanos, ['Z']) := by
  by_cases empty : nanos = 0
  · simp [fractionText, empty, subsecond]
  have digits := trimmed_digits 9 nanos
  have front : (trimmed 9 nanos ++ ['Z']).takeWhile isDigit = trimmed 9 nanos := by
    rw [takeWhile_append_of_pos digits]
    simp [isDigit]
  have back : (trimmed 9 nanos ++ ['Z']).dropWhile isDigit = ['Z'] := by
    rw [dropWhile_append_of_pos digits]
    simp [isDigit]
  have some : trimmed 9 nanos ≠ [] := fun none => empty ((trimmed_eq_nil bound).mp none)
  simp [fractionText, empty, subsecond, front, back, some, readFraction_trimmed (show nanos < 10 ^ 9 from bound)]

theorem parse_format {text : Text} (written : format instant = some text) : parse text = some instant := by
  obtain ⟨writable, rfl⟩ := format_eq_some.mp written
  obtain ⟨count, same, bound⟩ := writable.count
  have second : count / nanosPerSecond < secondLimit := Nat.div_lt_of_lt_mul (by rwa [Nat.mul_comm])
  have small := civil_small (count / nanosPerSecond / 86400)
  have whole := dayOf_civil (count / nanosPerSecond / 86400)
  have valid := civil_valid (count / nanosPerSecond / 86400)
  have nanos := subsecond_fractionText (mod_lt count (by decide : 0 < nanosPerSecond))
  simp only [same, Int.toNat_natCast, localText, secondText, append_assoc, cons_append]
  -- The fields are read off one by one; each digit group has the width it was written with.
  simp only [parse, bind, Option.bind_some, asciiChar_cons, exactlyDigits_pad (year_small second),
    exactlyDigits_pad (show (civil (count / nanosPerSecond / 86400)).month < 10 ^ 2 from small.1),
    exactlyDigits_pad (show (civil (count / nanosPerSecond / 86400)).day < 10 ^ 2 from small.2),
    exactlyDigits_pad (show count / nanosPerSecond % 86400 / 3600 < 10 ^ 2 by omega),
    exactlyDigits_pad (show count / nanosPerSecond % 86400 / 60 % 60 < 10 ^ 2 by omega),
    exactlyDigits_pad (show count / nanosPerSecond % 86400 % 60 < 10 ^ 2 by omega), nanos]
  have fields : (count / nanosPerSecond / 86400) * 86400 + count / nanosPerSecond % 86400 / 3600 * 3600 +
      count / nanosPerSecond % 86400 / 60 % 60 * 60 + count / nanosPerSecond % 86400 % 60 = count / nanosPerSecond := by
    omega
  rw [if_pos ⟨trivial, valid, by omega, by omega, by omega⟩, whole, fields, div_add_mod' count]
  simp only [sinceZero] at same
  simp only [Option.some.injEq]
  omega

end Bento.Library.Rfc3339
