import Bento.Library.Decimal

/-! The words of a command that comes over SSH. What a shell would quote comes out as it was,
and nothing of a command is lost but a backslash at its end where no word has begun. -/

namespace Bento.Sshfront
open Library.Decimal

def isQuote (char : Char) : Bool := char = '\'' || char = '"'

structure Splitter where
  words : List Text
  current : Text
  quote : Option Char
  escaped : Bool
  started : Bool

namespace Splitter

def new : Splitter := ⟨[], [], none, false, false⟩

def push (splitter : Splitter) (char : Char) : Splitter :=
  { splitter with current := splitter.current ++ [char], escaped := false, started := true }

def step (splitter : Splitter) (char : Char) : Splitter := if splitter.escaped then splitter.push char
  else if isQuote char ∧ splitter.quote = some char then { splitter with quote := none }
  else if isQuote char ∧ splitter.quote = none then { splitter with quote := some char, started := true }
  else if splitter.quote = some '\'' then splitter.push char
  else if char = '\\' then { splitter with escaped := true }
  else if isWhitespace char ∧ splitter.quote = none then
    if splitter.started then { splitter with words := splitter.words ++ [splitter.current], current := [], started := false }
    else splitter
  else splitter.push char

/-- A backslash at the end joins the last word, and starts none. -/
def finish (splitter : Splitter) : List Text :=
  let current := if splitter.escaped then splitter.current ++ ['\\'] else splitter.current
  if splitter.started then splitter.words ++ [current] else splitter.words

end Splitter

def splitCommand (command : Text) : List Text := (command.foldl Splitter.step .new).finish

def quoteWord (word : Text) : Text :=
  '\'' :: word.flatMap (fun char => if char = '\'' then "'\\''".toList else [char]) ++ ['\'']

/-- What a text says apart from its quotes, its escapes and the blanks between words. -/
def literal (quote : Option Char) (escaped : Bool) : Text → Text
  | [] => if escaped then ['\\'] else []
  | char :: rest =>
    if escaped then char :: literal quote false rest
    else if isQuote char ∧ quote = some char then literal none false rest
    else if isQuote char ∧ quote = none then literal (some char) false rest
    else if char = '\\' ∧ quote ≠ some '\'' then literal quote true rest
    else if isWhitespace char ∧ quote = none then literal none false rest
    else char :: literal quote false rest

/-- Read from inside the given quote, or from outside of quotes, the text ends outside of
quotes and not within an escape. Between single quotes a backslash is a character like any
other. -/
inductive Balanced : Option Char → Text → Prop where
  | nil : Balanced none []
  | escape {quote : Option Char} {char : Char} {rest : Text} (outside : quote ≠ some '\'') :
      Balanced quote rest → Balanced quote ('\\' :: char :: rest)
  | opens {char : Char} {rest : Text} (delimiter : isQuote char) :
      Balanced (some char) rest → Balanced none (char :: rest)
  | closes {char : Char} {rest : Text} (delimiter : isQuote char) :
      Balanced none rest → Balanced (some char) (char :: rest)
  | plain {quote : Option Char} {char : Char} {rest : Text} (delimits : isQuote char → quote ≠ none ∧ quote ≠ some char)
      (escapes : char = '\\' → quote = some '\'') : Balanced quote rest → Balanced quote (char :: rest)

/-- No word has begun where a text is empty or ends in a blank outside of quotes. -/
def BetweenWords (text : Text) : Prop :=
  text = [] ∨ ∃ front blank, text = front ++ [blank] ∧ isWhitespace blank = true ∧ Balanced none front

def EndsInStrayBackslash (command : Text) : Prop := ∃ front, command = front ++ ['\\'] ∧ BetweenWords front

namespace Splitter

theorem foldl_quoted (words : List Text) (front word : Text) :
    (word.flatMap fun char => if char = '\'' then "'\\''".toList else [char]).foldl step
      ⟨words, front, some '\'', false, true⟩ =
      ⟨words, front ++ word, some '\'', false, true⟩ := by
  induction word generalizing front with
  | nil => simp
  | cons char word ih =>
    have one : (if char = '\'' then "'\\''".toList else [char]).foldl step ⟨words, front, some '\'', false, true⟩ =
        ⟨words, front ++ [char], some '\'', false, true⟩ := by
      by_cases quote : char = '\''
      · subst quote
        rfl
      · simp [step, push, quote, Ne.symm quote]
    rw [List.flatMap_cons, List.foldl_append, one, ih, List.append_assoc, List.singleton_append]

theorem foldl_quoteWord (words : List Text) (word : Text) :
    (quoteWord word).foldl step ⟨words, [], none, false, false⟩ = ⟨words, word, none, false, true⟩ := by
  have opened : step ⟨words, [], none, false, false⟩ '\'' = ⟨words, [], some '\'', false, true⟩ := rfl
  rw [quoteWord, List.cons_append, List.foldl_cons, opened, List.foldl_append, foldl_quoted]
  rfl

theorem finish_quoted (words front : List Text) :
    (([' '].intercalate (words.map quoteWord)).foldl step ⟨front, [], none, false, false⟩).finish = front ++ words := by
  induction words generalizing front with
  | nil => simp [finish]
  | cons word words ih =>
    cases words with
    | nil => simp [foldl_quoteWord, finish]
    | cons next words =>
      have blank : step ⟨front, word, none, false, true⟩ ' ' = ⟨front ++ [word], [], none, false, false⟩ := rfl
      rw [List.map_cons, List.map_cons, List.intercalate_cons_cons, List.foldl_append, List.foldl_append,
        foldl_quoteWord, List.foldl_cons, List.foldl_nil, blank]
      exact (ih (front ++ [word])).trans (List.append_assoc front [word] _)

/-- Where no word has begun there is nothing of one, and no quote is open. -/
structure Sane (splitter : Splitter) : Prop where
  empty : splitter.started = false → splitter.current = []
  outside : splitter.started = false → splitter.quote = none

/-- All that was read is in a finished word or in the current one. -/
theorem step_keeps {splitter : Splitter} (sane : splitter.Sane) (char : Char) (rest : Text) :
    (splitter.step char).Sane ∧
      (splitter.step char).words.flatten ++ (splitter.step char).current ++
          literal (splitter.step char).quote (splitter.step char).escaped rest =
        splitter.words.flatten ++ splitter.current ++ literal splitter.quote splitter.escaped (char :: rest) := by
  obtain ⟨words, current, quote, escaped, started⟩ := splitter
  obtain ⟨empty, outside⟩ := sane
  simp only [step, push, literal] at empty outside ⊢
  split_ifs <;> refine ⟨⟨?_, ?_⟩, ?_⟩ <;> simp_all

theorem foldl_keeps {splitter : Splitter} (sane : splitter.Sane) (command : Text) : (command.foldl step splitter).Sane ∧
      (command.foldl step splitter).words.flatten ++ (command.foldl step splitter).current ++
          (if (command.foldl step splitter).escaped then ['\\'] else []) =
        splitter.words.flatten ++ splitter.current ++ literal splitter.quote splitter.escaped command := by
  induction command generalizing splitter with
  | nil => exact ⟨sane, rfl⟩
  | cons char command ih =>
    obtain ⟨kept, same⟩ := step_keeps sane char command
    rw [← same]
    exact ih kept

theorem sane_new (command : Text) : (command.foldl step .new).Sane :=
  (foldl_keeps ⟨fun _ => rfl, fun _ => rfl⟩ command).1

theorem balanced_cons {quote : Option Char} {char : Char} {rest : Text} : Balanced quote (char :: rest) ↔
    if isQuote char ∧ quote = some char then Balanced none rest
    else if isQuote char ∧ quote = none then Balanced (some char) rest
    else if quote = some '\'' then Balanced quote rest
    else if char = '\\' then ∃ next tail, rest = next :: tail ∧ Balanced quote tail
    else Balanced quote rest := by
  have letter : isQuote '\\' = false := by decide
  constructor
  · intro balanced
    cases balanced with
    | escape outside balanced => simp [letter, outside, balanced]
    | opens delimiter balanced => simp [delimiter, balanced]
    | closes delimiter balanced => simp [delimiter, balanced]
    | plain delimits escapes balanced => split_ifs <;> simp_all
  · intro split
    split_ifs at split with closing opening single backslash
    · exact closing.2 ▸ .closes closing.1 split
    · exact opening.2 ▸ .opens opening.1 split
    · exact .plain (fun mark => ⟨fun none => opening ⟨mark, none⟩, fun same => closing ⟨mark, same⟩⟩)
        (fun _ => single) split
    · obtain ⟨next, tail, rfl, balanced⟩ := split
      exact backslash ▸ .escape single balanced
    · exact .plain (fun mark => ⟨fun none => opening ⟨mark, none⟩, fun same => closing ⟨mark, same⟩⟩)
        (absurd · backslash) split

/-- What the splitter is within is what the text is within. -/
theorem balanced_iff {splitter : Splitter} (command : Text) :
    (command.foldl step splitter).quote = none ∧ (command.foldl step splitter).escaped = false ↔
      if splitter.escaped then ∃ char rest, command = char :: rest ∧ Balanced splitter.quote rest
      else Balanced splitter.quote command := by
  induction command generalizing splitter with
  | nil =>
    obtain ⟨words, current, quote, escaped, started⟩ := splitter
    cases escaped with
    | true => simp
    | false =>
      have empty : Balanced quote [] ↔ quote = none := ⟨fun balanced => by cases balanced; rfl, fun same => same ▸ .nil⟩
      simp [empty]
  | cons char rest ih =>
    obtain ⟨words, current, quote, escaped, started⟩ := splitter
    rw [List.foldl_cons, ih, balanced_cons]
    cases escaped with
    | true => simp [step, push]
    | false =>
      simp only [step, push, Bool.false_eq_true, if_false]
      split_ifs <;> simp_all

theorem blank_plain {char : Char} (blank : isWhitespace char = true) : isQuote char = false ∧ char ≠ '\\' := by
  constructor
  · rw [Bool.eq_false_iff]
    intro mark
    unfold isQuote at mark
    rcases Bool.or_eq_true_iff.mp mark with single | double
    · rw [of_decide_eq_true single] at blank
      exact absurd blank (by decide)
    · rw [of_decide_eq_true double] at blank
      exact absurd blank (by decide)
  · rintro rfl
    exact absurd blank (by decide)

theorem step_between {splitter : Splitter} (sane : splitter.Sane) (char : Char) :
    (splitter.step char).escaped = false ∧ (splitter.step char).started = false ↔
      splitter.escaped = false ∧ splitter.quote = none ∧ isWhitespace char = true := by
  obtain ⟨words, current, quote, escaped, started⟩ := splitter
  have outside := sane.outside
  have plain := @blank_plain char
  simp only [step, push] at outside ⊢
  split_ifs <;> grind

theorem step_stray {splitter : Splitter} (sane : splitter.Sane) (char : Char) :
    (splitter.step char).escaped = true ∧ (splitter.step char).started = false ↔
      char = '\\' ∧ splitter.escaped = false ∧ splitter.started = false := by
  obtain ⟨words, current, quote, escaped, started⟩ := splitter
  have outside := sane.outside
  have letter : isQuote '\\' = false := by decide
  simp only [step, push] at outside ⊢
  split_ifs <;> grind

theorem between_iff (front : Text) :
    (front.foldl step .new).escaped = false ∧ (front.foldl step .new).started = false ↔ BetweenWords front := by
  rcases List.eq_nil_or_concat front with rfl | ⟨earlier, char, rfl⟩
  · simp [BetweenWords, new]
  have balanced := @balanced_iff .new earlier
  simp only [new, Bool.false_eq_true, if_false] at balanced
  rw [List.concat_eq_append, List.foldl_append, List.foldl_cons, List.foldl_nil, step_between (sane_new earlier)]
  constructor
  · rintro ⟨unescaped, outside, blank⟩
    exact .inr ⟨earlier, char, rfl, blank, balanced.mp ⟨outside, unescaped⟩⟩
  · rintro (empty | ⟨front, blank, same, white, inner⟩)
    · simp at empty
    · obtain ⟨rfl, rfl⟩ : earlier = front ∧ char = blank := by simpa using List.append_inj' same rfl
      obtain ⟨outside, unescaped⟩ := balanced.mpr inner
      exact ⟨unescaped, outside, white⟩

/-- A backslash is left over exactly where the text ends in one between words. -/
theorem stray_iff (command : Text) :
    (command.foldl step .new).escaped = true ∧ (command.foldl step .new).started = false ↔
      EndsInStrayBackslash command := by
  rcases List.eq_nil_or_concat command with rfl | ⟨front, char, rfl⟩
  · simp [EndsInStrayBackslash, new]
  rw [List.concat_eq_append, List.foldl_append, List.foldl_cons, List.foldl_nil,
    step_stray (sane_new front), between_iff]
  constructor
  · rintro ⟨rfl, between⟩
    exact ⟨front, rfl, between⟩
  · rintro ⟨earlier, same, between⟩
    obtain ⟨rfl, rfl⟩ : front = earlier ∧ char = '\\' := by simpa using List.append_inj' same rfl
    exact ⟨rfl, between⟩

end Splitter

/-- Quoted words come back as they were, and what a command says is kept, but for a backslash
that ends it between words. -/
theorem command_words (words : List Text) (command : Text) :
    splitCommand ([' '].intercalate (words.map quoteWord)) = words ∧
      ((splitCommand command).flatten = literal none false command ↔ ¬ EndsInStrayBackslash command) := by
  refine ⟨Splitter.finish_quoted words [], ?_⟩
  obtain ⟨sane, same⟩ := @Splitter.foldl_keeps .new ⟨fun _ => rfl, fun _ => rfl⟩ command
  change _ = literal none false command at same
  unfold splitCommand
  rw [← Splitter.stray_iff, ← same]
  generalize command.foldl Splitter.step .new = last at sane
  obtain ⟨words, current, quote, escaped, started⟩ := last
  have empty := sane.empty
  unfold Splitter.finish
  cases started <;> cases escaped <;> simp_all

theorem command_loses_backslash : splitCommand "a \\".toList = ["a".toList] ∧
    literal none false "a \\".toList = "a\\".toList := by
  decide

end Bento.Sshfront
