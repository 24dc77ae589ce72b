import Bento.Library.Decimal
import Mathlib.Data.List.DropRight

/-! How the URL standard reads text: what it takes away first, where it finds a scheme and
where a host. Only what an `https` URL needs is here, with the standard's names for the
states. Reading a host's own text is left to a parameter: whoever reads URLs by the
standard reads it alike. -/

namespace Bento.Library.Url
open Decimal List

def isC0ControlOrSpace (char : Char) : Bool := char ≤ ' '

def isTabOrNewline (char : Char) : Bool := char = '\t' ∨ char = '\n' ∨ char = '\r'

def preprocess (input : Text) : Text :=
  ((input.dropWhile isC0ControlOrSpace).rdropWhile isC0ControlOrSpace).filter (!isTabOrNewline ·)

def isSchemeChar (char : Char) : Bool := char.isAlphanum ∨ char = '+' ∨ char = '-' ∨ char = '.'

def splitScheme (input : Text) : Option (Text × Text) :=
  match input.head?.any Char.isAlpha, input.dropWhile isSchemeChar with
  | true, ':' :: rest => some ((input.takeWhile isSchemeChar).map Char.toLower, rest)
  | _, _ => none

def isSlash (char : Char) : Bool := char = '/' ∨ char = '\\'

def endsAuthority (char : Char) : Bool := isSlash char ∨ char = '?' ∨ char = '#'

def splitPort (insideBrackets : Bool) : Text → Text × Option Text
  | [] => ([], none)
  | char :: rest =>
    if char = ':' ∧ insideBrackets = false then ([], some rest)
    else
      let (host, port) := splitPort (char = '[' ∨ insideBrackets ∧ char ≠ ']') rest
      (char :: host, port)

def validPort (port : Text) : Bool := (read 0 port).any (· ≤ 65535)

def byteSerialize (text : Text) : Text :=
  text.flatMap fun char =>
    if char.isAlphanum ∨ char ∈ "*-._".toList then [char]
    else if char = ' ' then ['+']
    else (String.utf8EncodeChar char).flatMap fun byte =>
      ['%', (Nat.digitChar (byte.toNat / 16)).toUpper, (Nat.digitChar (byte.toNat % 16)).toUpper]

inductive Target where
  | host (name : Text)
  | invalid
  | otherScheme (scheme : Text)
deriving DecidableEq

section
variable (hostParse : Text → Option Text)

def authority (input : Text) : Target :=
  let (host, port) := splitPort false ((input.takeWhile (!endsAuthority ·)).rtakeWhile (· ≠ '@'))
  if host = [] ∨ ¬ port.all validPort then .invalid
  else match hostParse host with
    | some name => .host name
    | none => .invalid

def specialAuthorityIgnoreSlashes (input : Text) : Target := authority hostParse (input.dropWhile isSlash)

def specialAuthoritySlashes : Text → Target
  | '/' :: '/' :: rest => specialAuthorityIgnoreSlashes hostParse rest
  | input => specialAuthorityIgnoreSlashes hostParse input

def relativeSlash (base : Text) : Text → Target
  | char :: rest => if isSlash char then specialAuthorityIgnoreSlashes hostParse rest else .host base
  | [] => .host base

def relative (base : Text) : Text → Target
  | char :: rest => if isSlash char then relativeSlash hostParse base rest else .host base
  | [] => .host base

def specialRelativeOrAuthority (base : Text) : Text → Target
  | '/' :: '/' :: rest => specialAuthorityIgnoreSlashes hostParse rest
  | input => relative hostParse base input

def parse (input : Text) : Target :=
  match splitScheme (preprocess input) with
  | some (scheme, rest) =>
    if scheme = "https".toList then specialAuthoritySlashes hostParse rest else .otherScheme scheme
  | none => .invalid

def resolve (base input : Text) : Target :=
  match splitScheme (preprocess input) with
  | some (scheme, rest) =>
    if scheme = "https".toList then specialRelativeOrAuthority hostParse base rest else .otherScheme scheme
  | none => relative hostParse base (preprocess input)

variable {hostParse}

theorem ignoreSlashes_cons {char : Char} (slash : isSlash char = true) (rest : Text) :
    specialAuthorityIgnoreSlashes hostParse (char :: rest) = specialAuthorityIgnoreSlashes hostParse rest := by
  unfold specialAuthorityIgnoreSlashes
  rw [dropWhile_cons_of_pos slash]

theorem specialAuthoritySlashes_eq (input : Text) :
    specialAuthoritySlashes hostParse input = specialAuthorityIgnoreSlashes hostParse input := by
  unfold specialAuthoritySlashes
  split
  next rest => rw [ignoreSlashes_cons rfl, ignoreSlashes_cons rfl]
  next => rfl

theorem relative_cases (base input : Text) : relative hostParse base input = .host base ∨
    relative hostParse base input = specialAuthorityIgnoreSlashes hostParse input := by
  unfold relative
  split
  next first rest =>
    split
    next slash =>
      unfold relativeSlash
      split
      next second rest =>
        split
        next again => exact .inr (by rw [ignoreSlashes_cons slash, ignoreSlashes_cons again])
        next => exact .inl rfl
      next => exact .inl rfl
    next => exact .inl rfl
  next => exact .inl rfl

theorem resolve_of_parse (base : Text) {input name : Text} (found : parse hostParse input = .host name) :
    resolve hostParse base input = .host base ∨ resolve hostParse base input = .host name := by
  unfold parse at found
  split at found
  next scheme rest split =>
    split at found
    next https =>
      simp only [resolve, split, if_pos https]
      rw [specialAuthoritySlashes_eq] at found
      unfold specialRelativeOrAuthority
      split
      next => exact .inr (by rw [← found, ignoreSlashes_cons rfl, ignoreSlashes_cons rfl])
      next => exact found ▸ relative_cases base rest
    next => cases found
  next => cases found

theorem rdropWhile_cons {p : Char → Bool} {first : Char} (kept : ¬ p first) (rest : Text) :
    (first :: rest).rdropWhile p = first :: rest.rdropWhile p := by
  induction rest using List.reverseRecOn with
  | nil => simp [rdropWhile_singleton, kept]
  | append_singleton rest last ih =>
    rw [← cons_append, rdropWhile_concat, rdropWhile_concat, ih]
    split <;> rfl

theorem preprocess_slash (rest : Text) : ∃ tail, preprocess ('/' :: rest) = '/' :: tail := by
  unfold preprocess
  rw [dropWhile_cons_of_neg (by decide), rdropWhile_cons (by decide), filter_cons_of_pos (by decide)]
  exact ⟨_, rfl⟩

theorem parse_slash (rest : Text) : parse hostParse ('/' :: rest) = .invalid := by
  obtain ⟨tail, read⟩ := preprocess_slash rest
  unfold parse
  rw [read]
  rfl

theorem resolve_slash {base input tail : Text} (read : preprocess input = '/' :: tail) :
    resolve hostParse base input = relativeSlash hostParse base tail := by
  unfold resolve
  rw [read]
  rfl

end

end Bento.Library.Url
