import Bento.Library.Calendar
import Bento.Library.Wire

/-! The end of a certificate, as it is read from the DER encoding: what the encoding states is
what is returned, whichever form its lengths have, and no slice leaves the input. -/

namespace Bento.Tlscert.X509
open Library.Calendar Library.Wire List

structure Tlv where
  tag : UInt8
  value : Bytes

/-- A certificate is refused with a message. A slice outside of its bytes is a panic. -/
inductive Fault
  | certificate (message : String)
  | outside

abbrev Read := Except Fault

def refuse {α : Type} (message : String) : Read α := .error (.certificate message)

def slice (bytes : Bytes) (start stop : Nat) : Read Bytes :=
  if start ≤ stop ∧ stop ≤ bytes.length then .ok ((bytes.drop start).take (stop - start)) else .error .outside

def pushByte (name : String) (length : Nat) (byte : UInt8) : Read Nat :=
  if length * 256 + byte.toNat < 2 ^ 64 then .ok (length * 256 + byte.toNat) else refuse ("length overflow in " ++ name)

def longLength (name : String) (count : Nat) (input : Bytes) : Read (Nat × Nat) :=
  if count = 0 ∨ 8 < count ∨ input.length < 2 + count then refuse ("invalid length in " ++ name)
  else do return (← (← slice input 2 (2 + count)).foldlM (pushByte name) 0, 2 + count)

def tlvLength (name : String) (initial : UInt8) (input : Bytes) : Read (Nat × Nat) :=
  if initial.toNat < 0x80 then .ok (initial.toNat, 2) else longLength name (initial.toNat - 0x80) input

def takeTlv (name : String) (input : Bytes) : Read (Tlv × Bytes) :=
  match input with
  | tag :: initial :: _ => do
    let (length, header) ← tlvLength name initial input
    if 2 ^ 64 ≤ header + length ∨ input.length < header + length then refuse ("truncated " ++ name)
    else return (⟨tag, ← slice input header (header + length)⟩, ← slice input (header + length) input.length)
  | _ => refuse ("truncated " ++ name)

def expectTlv (input : Bytes) (tag : UInt8) (name : String) : Read Bytes := do
  let (tlv, _) ← takeTlv name input
  if tlv.tag = tag then .ok tlv.value else refuse (name ++ " has unexpected ASN.1 tag")

def pushDigit (value : Nat) (digit : UInt8) : Read Nat :=
  if 48 ≤ digit.toNat ∧ digit.toNat ≤ 57 then .ok (value * 10 + (digit.toNat - 48))
  else refuse "invalid digit in certificate notAfter"

def number (digits : Bytes) : Read Nat := digits.foldlM pushDigit 0

def instant (date : Date) (hour minute second : Nat) : Int :=
  ((dayOf date * 86400 + hour * 3600 + minute * 60 + second : Nat) - 62167219200) * 1000000000

section
variable (outOfRange : String)

/-- `outOfRange` is what the calendar library says of a component that is out of its range. -/
def dated (year : Nat) (zone : Option UInt8) (digits : Bytes) : Read Int := do
  if zone ≠ some 90 then refuse "certificate notAfter is not UTC" else
  let month ← number (← slice digits 0 2)
  if month < 1 ∨ 12 < month then refuse ("invalid certificate notAfter: " ++ outOfRange) else
  let day ← number (← slice digits 2 4)
  let hour ← number (← slice digits 4 6)
  let minute ← number (← slice digits 6 8)
  let second ← number (← slice digits 8 10)
  if (Date.mk year month day).valid = false ∨ 24 ≤ hour ∨ 60 ≤ minute ∨ 60 ≤ second then
    refuse ("invalid certificate notAfter: " ++ outOfRange)
  else return instant ⟨year, month, day⟩ hour minute second

def parseAsn1Time (tag : UInt8) (value : Bytes) : Read Int :=
  if tag = 0x17 ∧ value.length = 13 then do
    let short ← number (← slice value 0 2)
    dated outOfRange ((if 50 ≤ short then 1900 else 2000) + short) value.getLast? (← slice value 2 12)
  else if tag = 0x18 ∧ value.length = 15 then do
    let year ← number (← slice value 0 4)
    dated outOfRange year value.getLast? (← slice value 4 14)
  else refuse "unsupported certificate notAfter time"

def skipVersion (fields : Bytes) : Read Bytes :=
  if fields.head? = some 0xa0 then return (← takeTlv "certificate version" fields).2 else .ok fields

def notAfter (der : Bytes) : Read Int := do
  let certificate ← expectTlv der 0x30 "certificate"
  let (tbs, _) ← takeTlv "certificate body" certificate
  if tbs.tag ≠ 0x30 then refuse "certificate body is not a sequence" else
  let rest ← skipVersion tbs.value
  let (_, rest) ← takeTlv "serial number" rest
  let (_, rest) ← takeTlv "signature algorithm" rest
  let (_, rest) ← takeTlv "issuer" rest
  let (validity, _) ← takeTlv "certificate validity" rest
  if validity.tag ≠ 0x30 then refuse "certificate validity is not a sequence" else
  let (_, rest) ← takeTlv "notBefore" validity.value
  let (time, _) ← takeTlv "notAfter" rest
  parseAsn1Time outOfRange time.tag time.value

end

section
variable {α β : Type}

def Inside : Read α → Prop
  | .error .outside => False
  | _ => True

@[simp] theorem inside_ok (value : α) : Inside (.ok value) := trivial

@[simp] theorem inside_pure (value : α) : Inside (pure value) := trivial

@[simp] theorem inside_refuse (message : String) : Inside (refuse message : Read α) := trivial

@[simp] theorem inside_bind {result : Read α} {next : α → Read β} :
    Inside (result >>= next) ↔ Inside result ∧ ∀ value, result = .ok value → Inside (next value) := by
  cases result with
  | ok value => exact ⟨fun inside => ⟨trivial, fun _ same => Except.ok.inj same ▸ inside⟩, fun both => both.2 value rfl⟩
  | error fault => cases fault <;> exact ⟨fun inside => ⟨inside, nofun⟩, And.left⟩

@[simp] theorem inside_ite {condition : Prop} [Decidable condition] {yes no : Read α} :
    Inside (if condition then yes else no) ↔ (condition → Inside yes) ∧ (¬ condition → Inside no) := by
  split <;> simp [*]

theorem inside_foldlM {step : β → α → Read β} (inside : ∀ total entry, Inside (step total entry))
    (entries : List α) (total : β) :
    Inside (entries.foldlM step total) := by
  induction entries generalizing total with
  | nil => trivial
  | cons entry entries ih => exact inside_bind.mpr ⟨inside total entry, fun next _ => ih next⟩

end

theorem inside_slice {bytes : Bytes} {start stop : Nat} :
    Inside (slice bytes start stop) ↔ start ≤ stop ∧ stop ≤ bytes.length := by
  unfold slice
  split
  next bounds => exact iff_of_true trivial bounds
  next outside => exact iff_of_false id outside

theorem inside_longLength (name : String) (count : Nat) (input : Bytes) : Inside (longLength name count input) := by
  have push : ∀ digits : Bytes, Inside (digits.foldlM (pushByte name) 0) := (inside_foldlM (by simp [pushByte]) · 0)
  simp [longLength, inside_slice, push, -bind_pure_comp]

theorem inside_takeTlv (name : String) (input : Bytes) : Inside (takeTlv name input) := by
  unfold takeTlv
  split
  next tag initial tail =>
    have sized : Inside (tlvLength name initial (tag :: initial :: tail)) := by simp [tlvLength, inside_longLength]
    refine inside_bind.mpr ⟨sized, fun size _ => ?_⟩
    obtain ⟨length, header⟩ := size
    refine inside_ite.mpr ⟨fun _ => trivial, fun fits => inside_bind.mpr ⟨inside_slice.mpr (by omega), fun _ _ => ?_⟩⟩
    exact inside_bind.mpr ⟨inside_slice.mpr (by omega), fun _ _ => trivial⟩
  next => trivial

theorem inside_number (digits : Bytes) : Inside (number digits) := inside_foldlM (by simp [pushDigit]) digits 0

section
variable (outOfRange : String)

theorem inside_dated (year : Nat) (zone : Option UInt8) {digits : Bytes} (ten : digits.length = 10) :
    Inside (dated outOfRange year zone digits) := by
  simp [dated, inside_number, inside_slice, ten]

theorem inside_parseAsn1Time (tag : UInt8) (value : Bytes) : Inside (parseAsn1Time outOfRange tag value) := by
  have rest {start stop year : Nat} (bounds : start ≤ stop ∧ stop ≤ value.length) (ten : stop - start = 10) :
      Inside (slice value start stop >>= dated outOfRange year value.getLast?) := by
    refine inside_bind.mpr ⟨inside_slice.mpr bounds, fun digits cut => inside_dated outOfRange year _ ?_⟩
    rw [slice, if_pos bounds] at cut
    cases cut
    rw [length_take, length_drop]
    omega
  have read {start stop : Nat} {next : Nat → Read Int} (bounds : start ≤ stop ∧ stop ≤ value.length)
    (later : ∀ read, Inside (next read)) :
      Inside (slice value start stop >>= fun digits => number digits >>= next) := by
    simp [inside_slice, bounds, inside_number, later]
  refine inside_ite.mpr ⟨fun short => ?_, fun _ => inside_ite.mpr ⟨fun long => ?_, fun _ => trivial⟩⟩
  · exact read (by omega) fun _ => rest (by omega) rfl
  · exact read (by omega) fun _ => rest (by omega) rfl

theorem inside_notAfter (der : Bytes) : Inside (notAfter outOfRange der) := by
  have take {α : Type} {name : String} {input : Bytes} {next : Tlv × Bytes → Read α}
    (later : ∀ taken, Inside (next taken)) :
      Inside (takeTlv name input >>= next) := inside_bind.mpr ⟨inside_takeTlv name input, fun taken _ => later taken⟩
  refine inside_bind.mpr ⟨take fun _ => inside_ite.mpr ⟨fun _ => trivial, fun _ => trivial⟩,
    fun _ _ => take fun tbs => ?_⟩
  refine inside_ite.mpr ⟨fun _ => trivial, fun _ => inside_bind.mpr ⟨?_, fun _ _ => ?_⟩⟩
  · exact inside_ite.mpr ⟨fun _ => take fun _ => trivial, fun _ => trivial⟩
  · refine take fun _ => take fun _ => take fun _ => take fun validity => inside_ite.mpr ⟨fun _ => trivial, fun _ => ?_⟩
    exact take fun _ => take fun time => inside_parseAsn1Time outOfRange _ _

end

/-- The bytes begin with a value of this tag, whose length is in the short or the long form. -/
def Begins (tlv : Tlv) (rest bytes : Bytes) : Prop :=
  ∃ initial digits, bytes = tlv.tag :: initial :: (digits ++ (tlv.value ++ rest)) ∧
    (digits = [] ∧ initial.toNat < 0x80 ∧ initial.toNat = tlv.value.length ∨
      initial.toNat = 0x80 + digits.length ∧ 0 < digits.length ∧ digits.length ≤ 8 ∧
        digits.foldl (fun length byte => length * 256 + byte.toNat) 0 = tlv.value.length)

theorem foldlM_pushByte (name : String) {digits : Bytes} {count length : Nat} (small : length < 256 ^ count)
    (fits : count + digits.length ≤ 8) :
    digits.foldlM (pushByte name) length =
      .ok (digits.foldl (fun length byte => length * 256 + byte.toNat) length) := by
  induction digits generalizing count length with
  | nil => rfl
  | cons byte digits ih =>
    rw [length_cons] at fits
    have next : length * 256 + byte.toNat < 256 ^ (count + 1) := by
      have bound := byte.toNat_lt
      rw [Nat.pow_succ]
      omega
    have limit : 256 ^ (count + 1) ≤ 2 ^ 64 := Nat.pow_le_pow_right (by decide : 0 < 256) (by omega : count + 1 ≤ 8)
    rw [foldlM_cons, pushByte, if_pos (Nat.lt_of_lt_of_le next limit)]
    exact ih next (by omega)

theorem slice_middle {bytes : Bytes} (front middle back : Bytes) {start stop : Nat}
    (whole : bytes = front ++ (middle ++ back)) (first : start = front.length) (last : stop = start + middle.length) :
    slice bytes start stop = .ok middle := by
  subst whole first last
  rw [slice, if_pos ⟨Nat.le_add_right _ _, by simp only [length_append]; omega⟩, drop_left,
    Nat.add_sub_cancel_left, take_left]

section
variable {tlv : Tlv} {rest bytes : Bytes}

theorem Begins.take (begins : Begins tlv rest bytes) (small : bytes.length < 2 ^ 64) (name : String) :
    takeTlv name bytes = .ok (tlv, rest) := by
  obtain ⟨initial, digits, rfl, form⟩ := begins
  simp only [length_cons, length_append] at small
  generalize same : tlv.tag :: initial :: (digits ++ (tlv.value ++ rest)) = input
  have whole : input.length = 2 + digits.length + tlv.value.length + rest.length := by
    simp only [← same, length_cons, length_append]
    omega
  have sized : tlvLength name initial input = .ok (tlv.value.length, 2 + digits.length) := by
    unfold tlvLength
    rcases form with ⟨rfl, short, counted⟩ | ⟨counted, some, few, total⟩
    · rw [if_pos short, counted]
      rfl
    · have long : ¬ initial.toNat < 0x80 := by omega
      have count : initial.toNat - 0x80 = digits.length := by omega
      have read := @foldlM_pushByte name digits 0 0 (by decide) (by omega)
      have cut : slice input 2 (2 + digits.length) = .ok digits :=
        slice_middle [tlv.tag, initial] digits (tlv.value ++ rest) same.symm rfl rfl
      rw [if_neg long, count, longLength, if_neg (by omega), cut]
      change (digits.foldlM (pushByte name) 0 >>= _) = _
      rw [read, total]
      rfl
  have value : slice input (2 + digits.length) (2 + digits.length + tlv.value.length) = .ok tlv.value :=
    slice_middle (tlv.tag :: initial :: digits) tlv.value rest same.symm (Nat.add_comm _ _) rfl
  have behind : slice input (2 + digits.length + tlv.value.length) input.length = .ok rest := by
    refine slice_middle (tlv.tag :: initial :: (digits ++ tlv.value)) rest [] ?_ ?_ whole
    · simp [← same]
    · simp only [length_cons, length_append]
      omega
  subst same
  change (tlvLength name initial _ >>= _) = _
  rw [sized]
  change (if _ then _ else _) = _
  rw [if_neg (by omega), value]
  change (slice _ _ _ >>= _) = _
  rw [behind]
  rfl

theorem Begins.shorter {limit : Nat} (begins : Begins tlv rest bytes) (small : bytes.length < limit) :
    tlv.value.length < limit ∧ rest.length < limit := by
  obtain ⟨initial, digits, rfl, -⟩ := begins
  simp only [length_cons, length_append] at small
  omega

end

/-- The fields of a certificate up to the end of its validity. What follows them is any. -/
inductive Certified (time : Tlv) (der : Bytes) : Prop
  | intro {contents tbs fields second third fourth validity last rest₁ rest₂ rest₃ rest₄ : Bytes}
      {serial algorithm issuer start : Tlv}
      (outer : Begins ⟨0x30, contents⟩ rest₁ der) (body : Begins ⟨0x30, tbs⟩ rest₂ contents)
      (version : fields = tbs ∧ tbs.head? ≠ some 0xa0 ∨ ∃ version, version.tag = 0xa0 ∧ Begins version fields tbs)
      (first : Begins serial second fields) (next : Begins algorithm third second) (named : Begins issuer fourth third)
      (valid : Begins ⟨0x30, validity⟩ rest₃ fourth) (starts : Begins start last validity)
        (ends : Begins time rest₄ last)

theorem Certified.notAfter_eq {outOfRange : String} {time : Tlv} {der : Bytes} (certified : Certified time der)
    (small : der.length < 2 ^ 64) :
    notAfter outOfRange der = parseAsn1Time outOfRange time.tag time.value := by
  obtain @⟨_, tbs, fields, _, _, _, _, _, _, _, _, _, _, _, _, _, outer, body, version, first, next, named, valid,
    starts, ends⟩ := certified
  have inside := (outer.shorter small).1
  have within := (body.shorter inside).1
  obtain ⟨skipped, short⟩ : skipVersion tbs = .ok fields ∧ fields.length < 2 ^ 64 := by
    rcases version with ⟨rfl, other⟩ | ⟨version, tag, begins⟩
    · exact ⟨if_neg other, within⟩
    · refine ⟨?_, (begins.shorter within).2⟩
      have first : tbs.head? = some 0xa0 := by
        obtain ⟨_, _, rfl, -⟩ := begins
        exact congrArg some tag
      rw [skipVersion, if_pos first, begins.take within]
      rfl
  have short₂ := (first.shorter short).2
  have short₃ := (next.shorter short₂).2
  have short₄ := (named.shorter short₃).2
  have period := (valid.shorter short₄).1
  simp [notAfter, expectTlv, outer.take small, body.take inside, skipped, first.take short, next.take short₂,
    named.take short₃, valid.take short₄, starts.take period, ends.take (starts.shorter period).2, bind, Except.bind]

def two (value : Nat) : Bytes := [.ofNat (48 + value / 10), .ofNat (48 + value % 10)]

def stamp (date : Date) (hour minute second : Nat) : Bytes :=
  two date.month ++ (two date.day ++ (two hour ++ (two minute ++ two second)))

theorem foldlM_two {value : Nat} (small : value < 100) (total : Nat) :
    (two value).foldlM pushDigit total = .ok (total * 100 + value) := by
  have digit {value : Nat} (small : value < 10) (total : Nat) :
      pushDigit total (.ofNat (48 + value)) = .ok (total * 10 + value) := by
    have code : (UInt8.ofNat (48 + value)).toNat = 48 + value :=
      UInt8.toNat_ofNat_of_lt (Nat.lt_trans (by omega : _ < 58) (by decide))
    rw [pushDigit, code, if_pos (by omega), Nat.add_sub_cancel_left]
  have total : (total * 10 + value / 10) * 10 + value % 10 = total * 100 + value := by omega
  rw [two, foldlM_cons, digit (by omega)]
  exact (congrArg (· >>= pure) (digit (by omega) _)).trans (congrArg Except.ok total)

theorem number_two {value : Nat} (small : value < 100) : number (two value) = .ok value := by
  have read := foldlM_two small 0
  rwa [Nat.zero_mul, Nat.zero_add] at read

theorem small_of_valid {date : Date} (valid : date.valid = true) :
    1 ≤ date.month ∧ date.month ≤ 12 ∧ date.day < 100 := by
  simp only [Date.valid, Bool.and_eq_true, decide_eq_true_eq, getD_eq_getElem?_getD] at valid
  obtain ⟨⟨first, least⟩, last⟩ := valid
  have leap := (isLeap date.year).toNat_le
  cases found : (monthLengths date.year)[date.month - 1]? with
  | none =>
    rw [found] at last
    exact absurd last (by simp; omega)
  | some length =>
    rw [found, Option.getD_some] at last
    have listed := mem_of_getElem? found
    obtain ⟨inside, -⟩ := List.getElem?_eq_some_iff.mp found
    have twelve : (monthLengths date.year).length = 12 := rfl
    simp only [monthLengths, mem_cons, not_mem_nil, or_false] at listed
    omega

theorem dated_stamp {outOfRange : String} {date : Date} {hour minute second : Nat}
    (valid : date.valid = true) (hours : hour < 24) (minutes : minute < 60) (seconds : second < 60) :
    dated outOfRange date.year (some 90) (stamp date hour minute second) = .ok (instant date hour minute second) := by
  obtain ⟨first, last, days⟩ := small_of_valid valid
  have month : ¬ (date.month < 1 ∨ 12 < date.month) := by omega
  have time : ¬ (date.valid = false ∨ 24 ≤ hour ∨ 60 ≤ minute ∨ 60 ≤ second) := by
    rw [valid]
    simp
    omega
  change (number (two date.month) >>= _) = _
  rw [number_two (by omega)]
  change (if _ then _ else number (two date.day) >>= _) = _
  rw [if_neg month, number_two days]
  change (number (two hour) >>= _) = _
  rw [number_two (by omega)]
  change (number (two minute) >>= _) = _
  rw [number_two (by omega)]
  change (number (two second) >>= _) = _
  rw [number_two (by omega)]
  change (if _ then _ else _) = _
  rw [if_neg time]
  rfl

/-- A time from 1950 to 2049 has two digits for its year under one tag, and four under the other. -/
inductive Stamped (date : Date) (hour minute second : Nat) : Tlv → Prop
  | utc (early : 1950 ≤ date.year) (late : date.year ≤ 2049) :
      Stamped date hour minute second ⟨0x17, two (date.year % 100) ++ (stamp date hour minute second ++ [90])⟩
  | general (late : date.year < 10000) :
      Stamped date hour minute second
        ⟨0x18, two (date.year / 100) ++ (two (date.year % 100) ++ (stamp date hour minute second ++ [90]))⟩

/-- The end that a certificate states is returned, and no input is read outside of its bytes. -/
theorem expiry_read (outOfRange : String) :
    (∀ (date : Date) (hour minute second : Nat) (time : Tlv) (der : Bytes), date.valid = true → hour < 24 →
      minute < 60 → second < 60 →
      Stamped date hour minute second time → Certified time der → der.length < 2 ^ 64 →
      notAfter outOfRange der = .ok (instant date hour minute second)) ∧
        ∀ der, notAfter outOfRange der ≠ .error .outside := by
  refine ⟨fun date hour minute second time der valid hours minutes seconds stamped certified small =>
    ?_, fun der left => ?_⟩
  · have read := @dated_stamp outOfRange date hour minute second valid hours minutes seconds
    rw [certified.notAfter_eq small]
    unfold parseAsn1Time
    cases stamped with
    | utc early late =>
      have same : (if 50 ≤ date.year % 100 then 1900 else 2000) + date.year % 100 = date.year := by
        split
        all_goals omega
      rw [if_pos ⟨rfl, rfl⟩]
      change (number (two (date.year % 100)) >>= fun short =>
        dated outOfRange _ (some 90) (stamp date hour minute second)) = _
      rw [number_two (by omega)]
      exact (congrArg (fun year => dated outOfRange year (some 90) (stamp date hour minute second)) same).trans read
    | general late =>
      have year : number (two (date.year / 100) ++ two (date.year % 100)) = .ok date.year := by
        rw [number, foldlM_append, foldlM_two (by omega)]
        exact (foldlM_two (by omega) _).trans (congrArg Except.ok (by omega))
      rw [if_neg fun both => absurd both.1 (show (0x18 : UInt8) ≠ 0x17 by decide), if_pos ⟨rfl, rfl⟩]
      change (number (two (date.year / 100) ++ two (date.year % 100)) >>= fun year =>
        dated outOfRange year (some 90) (stamp date hour minute second)) = _
      rw [year]
      exact read
  · have inside := inside_notAfter outOfRange der
    rwa [left] at inside

def sealed (tag : UInt8) (value rest : Bytes) : Bytes := tag :: .ofNat value.length :: (value ++ rest)

theorem expiry_read_short :
    notAfter "" (sealed 0x30 (sealed 0x30 (sealed 2 [1] (sealed 0x30 [] (sealed 0x30 [] (sealed 0x30
    (sealed 0x17 [] (sealed 0x17 (two 30 ++ (stamp ⟨2030, 1, 2⟩ 3 4 5 ++ [90])) [])) [])))) []) []) =
      .ok (instant ⟨2030, 1, 2⟩ 3 4 5) := by
  have begins {tag : UInt8} {value rest : Bytes} (short : value.length < 0x80) :
      Begins ⟨tag, value⟩ rest (sealed tag value rest) := by
    have same : (UInt8.ofNat value.length).toNat = value.length :=
      UInt8.toNat_ofNat_of_lt (Nat.lt_trans short (by decide))
    exact ⟨_, [], rfl, .inl ⟨rfl, same.symm ▸ short, same⟩⟩
  refine (expiry_read "").1 _ 3 4 5 _ _ (by decide) (by decide) (by decide) (by decide)
    (.utc (by decide) (by decide)) ?_ (by decide)
  exact ⟨begins (by decide), begins (by decide), .inl ⟨rfl, by decide⟩, begins (by decide),
    begins (by decide), begins (by decide),
    begins (by decide), begins (by decide), begins (by decide)⟩

end Bento.Tlscert.X509
