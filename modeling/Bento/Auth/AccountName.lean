import Bento.Auth.Session

/-! The account names that are derived from what an identity provider claims. -/

namespace Bento.Auth
open Library.Decimal List

def maxDerivedName : Nat := 28

def isPlain (char : Char) : Bool := char.isLower || isDigit char

def pushSanitized (name : Text) (char : Char) : Text :=
  if isPlain char.toLower then name ++ [char.toLower]
  else if name.getLast? ≠ some '-' ∧ name ≠ [] then name ++ ['-']
  else name

/-- The characters are read until the name is long enough. -/
def sanitizeFrom (name : Text) : Text → Text
  | [] => name
  | char :: rest =>
    if maxDerivedName ≤ (pushSanitized name char).length then pushSanitized name char
    else sanitizeFrom (pushSanitized name char) rest

def sanitizeAccountName (value : Text) : Text := ((sanitizeFrom [] value).take maxDerivedName).rdropWhile (· = '-')

def accountNameFrom (claims : Claims) : Text :=
  ([claims.preferredUsername, claims.email.takeWhile (· ≠ '@'), claims.name].findSome? fun candidate =>
    let name := sanitizeAccountName candidate
    if name = [] then none else some name).getD "user".toList

def nameVariants : Nat := 100

def variant (preferred : Text) (suffix : Nat) : Text :=
  if suffix = 1 then preferred else preferred ++ '-' :: integer suffix

/-- The names that are taken are those of the `users` table; none is left for `NameTaken`. -/
def availableName (taken : List Text) (preferred : Text) : Option Text :=
  ((List.range' 1 nameVariants).map (variant preferred)).find? (· ∉ taken)

structure Legal (limit : Nat) (name : Text) : Prop where
  given : name ≠ []
  short : name.length ≤ limit
  plain : ∀ char ∈ name, isPlain char = true ∨ char = '-'
  first : name.head? ≠ some '-'
  last : name.getLast? ≠ some '-'

theorem not_plain_hyphen {char : Char} (plain : isPlain char = true) :
    char ≠ '-' := fun same => absurd (same ▸ plain) (by decide)

def Begun (name : Text) : Prop := (∀ char ∈ name, isPlain char = true ∨ char = '-') ∧ name.head? ≠ some '-'

theorem begun_push {name : Text} (begun : Begun name) (char : Char) : Begun (pushSanitized name char) := by
  obtain ⟨plain, first⟩ := begun
  have joined {last : Char} (fits : isPlain last = true ∨ last = '-') (starts : name = [] → last ≠ '-') :
      Begun (name ++ [last]) := by
    refine ⟨fun char listed => ?_, ?_⟩
    · rcases List.mem_append.mp listed with old | new
      · exact plain char old
      · exact List.mem_singleton.mp new ▸ fits
    · cases name with
      | nil => simpa using starts rfl
      | cons => simpa using first
  unfold pushSanitized
  split_ifs with letter follows
  · exact joined (.inl letter) fun _ => not_plain_hyphen letter
  · exact joined (.inr rfl) fun empty => absurd empty follows.2
  · exact ⟨plain, first⟩

theorem begun_sanitizeFrom {name : Text} (begun : Begun name) (value : Text) : Begun (sanitizeFrom name value) := by
  induction value generalizing name with
  | nil => exact begun
  | cons char value ih =>
    unfold sanitizeFrom
    split
    · exact begun_push begun char
    · exact ih (begun_push begun char)

theorem legal_sanitized {value : Text} (given : sanitizeAccountName value ≠ []) :
    Legal maxDerivedName (sanitizeAccountName value) := by
  obtain ⟨plain, first⟩ := begun_sanitizeFrom ⟨fun _ listed => absurd listed not_mem_nil, nofun⟩ value
  have trimmed : sanitizeAccountName value <+: (sanitizeFrom [] value).take maxDerivedName := rdropWhile_prefix _ _
  have front : sanitizeAccountName value <+: sanitizeFrom [] value := trimmed.trans <| take_prefix _ _
  have short : (sanitizeAccountName value).length ≤ maxDerivedName := trimmed.length_le.trans (length_take_le _ _)
  refine ⟨given, short, fun char listed => plain char (front.subset listed), ?_, ?_⟩
  · obtain ⟨rest, whole⟩ := front
    rw [← whole, List.head?_append_of_ne_nil _ given] at first
    exact first
  · have last := rdropWhile_last_not _ _ given
    rw [List.getLast?_eq_getLast_of_ne_nil given, ne_eq, Option.some_inj]
    exact fun same => last (decide_eq_true same)

theorem legal_accountNameFrom (claims : Claims) : Legal maxDerivedName (accountNameFrom claims) := by
  unfold accountNameFrom
  cases found : List.findSome? _ _ with
  | none =>
    have plain : "user".toList.all isPlain = true := by decide
    exact ⟨by decide, by decide, fun char listed => .inl (List.all_eq_true.mp plain char listed), by decide, by decide⟩
  | some name =>
    obtain ⟨candidate, _, survived⟩ := exists_of_findSome?_eq_some found
    obtain ⟨given, same⟩ := Option.ite_none_left_eq_some.mp survived
    cases same
    exact legal_sanitized given

theorem legal_variant {preferred : Text} (legal : Legal maxDerivedName preferred) {suffix : Nat}
    (known : suffix ∈ List.range' 1 nameVariants) :
    Legal 32 (variant preferred suffix) := by
  have digits : (List.range' 1 nameVariants).all (fun suffix =>
    (integer suffix).length ≤ 3 && (integer suffix).all isPlain &&
      ((integer suffix).getLast?.any isPlain)) = true := by decide
  have fits := List.all_eq_true.mp digits suffix known
  simp only [Bool.and_eq_true, decide_eq_true_eq, all_eq_true, Option.any_eq_true] at fits
  obtain ⟨⟨short, plain⟩, last, ends, letter⟩ := fits
  obtain ⟨given, limit, chars, first, final⟩ := legal
  unfold maxDerivedName at limit
  unfold variant
  split
  · exact ⟨given, by omega, chars, first, final⟩
  · refine ⟨by simp, ?_, ?_, ?_, ?_⟩
    · simp only [length_append, length_cons]
      omega
    · simp only [mem_append, mem_cons]
      rintro char (old | rfl | digit)
      · exact chars char old
      · exact .inr rfl
      · exact .inl (plain char digit)
    · rwa [List.head?_append_of_ne_nil _ given]
    · simp [List.getLast?_append, List.getLast?_cons, ends, not_plain_hyphen letter]

/-- While a variant of the name is free, a login gets one that is legal and not taken. -/
theorem account_names_available (claims : Claims) (taken : List Text)
    (free : ((List.range' 1 nameVariants).filter (variant (accountNameFrom claims) · ∈ taken)).length < nameVariants) :
    ∃ name, availableName taken (accountNameFrom claims) = some name ∧ name ∉ taken ∧ Legal 32 name := by
  obtain ⟨suffix, known, absent⟩ : ∃ suffix ∈ List.range' 1 nameVariants,
    variant (accountNameFrom claims) suffix ∉ taken := by
    by_contra all
    push Not at all
    rw [List.filter_eq_self.mpr fun suffix listed => decide_eq_true (all suffix listed), length_range'] at free
    exact lt_irrefl _ free
  cases found : availableName taken (accountNameFrom claims) with
  | none =>
    have all := List.find?_eq_none.mp found _ (mem_map_of_mem known)
    simp [absent] at all
  | some name =>
    obtain ⟨suffix, listed, rfl⟩ := List.mem_map.mp (mem_of_find?_eq_some found)
    exact ⟨_, rfl, by simpa using List.find?_some found, legal_variant (legal_accountNameFrom claims) listed⟩

theorem account_names_available_suffixed :
    availableName ["riley".toList] (accountNameFrom ⟨[], [], [], "Riley!".toList, []⟩) = some "riley-2".toList ∧
      ∃ name, availableName ["riley".toList] (accountNameFrom ⟨[], [], [], "Riley!".toList, []⟩) = some name ∧
        name ∉ ["riley".toList] ∧ Legal 32 name :=
  ⟨by decide, account_names_available _ _ (by decide)⟩

end Bento.Auth
