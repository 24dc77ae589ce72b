import Bento.Library.NftText

/-! The grammar reads a script back from its text, and refuses it exactly when some
anonymous set is empty. The proof follows the reader: what the scanner makes of each
piece of text, what a statement is read from its tokens, and how the lines go together. -/

namespace Bento.Library.Nft
open Decimal Ipv4 List Nat

theorem scan_append (mode : Mode) (first last : Text) : scan mode (first ++ last) =
      ((scan mode first).1 ++ (scan (scan mode first).2 last).1, (scan (scan mode first).2 last).2) := by
  induction first generalizing mode with
  | nil => rfl
  | cons char first ih => simp only [cons_append, scan, ih, append_assoc]

/-- The text is scanned into these tokens, with nothing left open. -/
def Spells (source : Text) (found : List Token) : Prop := scan (.plain []) source = (found, .plain [])

instance (source : Text) (found : List Token) : Decidable (Spells source found) :=
  inferInstanceAs (Decidable (_ = _))

variable {first source name : Text} {chain : Chain} {command : Command}

theorem Spells.append {last : Text} {early late : List Token} (start : Spells first early)
    (rest : Spells last late) : Spells (first ++ last) (early ++ late) := by
  unfold Spells at *
  rw [scan_append, start, rest]

theorem Spells.flatMap {α : Type} {items : List α} {write : α → Text} {found : α → List Token}
    (each : ∀ item ∈ items, Spells (write item) (found item)) : Spells (items.flatMap write) (items.flatMap found) := by
  induction items with
  | nil => rfl
  | cons item items ih =>
    simp only [flatMap_cons]
    apply Spells.append
    · exact each item mem_cons_self
    · apply ih
      intro item listed
      exact each item (mem_cons_of_mem _ listed)

/-- The text is one token when something follows that ends it. -/
def Reads (source : Text) (token : Token) : Prop :=
  ∀ stop rest, isWordChar stop = false →
    scan (.plain []) (source ++ stop :: rest) =
      (token :: (scan (.plain []) (stop :: rest)).1, (scan (.plain []) (stop :: rest)).2)

def Stops (source : Text) : Prop := source.head?.any (!isWordChar ·) = true

instance (source : Text) : Decidable (Stops source) := inferInstanceAs (Decidable (_ = _))

theorem Stops.append (stops : Stops first) (last : Text) : Stops (first ++ last) := by
  cases first with
  | nil => cases stops
  | cons => exact stops

theorem Reads.spells {rest : Text} {token : Token} {found : List Token} (reads : Reads source token)
    (stops : Stops rest) (after : Spells rest found) : Spells (source ++ rest) (token :: found) := by
  cases rest with
  | nil => cases stops
  | cons stop rest =>
    unfold Spells at *
    rw [reads stop rest (by simpa [Stops] using stops), after]

/-- The text is scanned into these tokens before any text that ends a word. -/
def Opens (source : Text) (found : List Token) : Prop :=
  ∀ {rest : Text} {more : List Token}, Stops rest → Spells rest more → Spells (source ++ rest) (found ++ more)

theorem Reads.opens {token : Token} (reads : Reads source token) : Opens source [token] :=
  fun stops after => reads.spells stops after

theorem Spells.opens {last : Text} {early late : List Token} (start : Spells first early)
    (unfinished : Opens last late) : Opens (first ++ last) (early ++ late) := by
  intro rest more stops after
  rw [append_assoc, append_assoc]
  exact start.append (unfinished stops after)

theorem step_stop (pending : Text) {stop : Char} (ends : isWordChar stop = false) :
    (Mode.plain pending).step stop =
      (flush pending ++ ((Mode.plain []).step stop).1, ((Mode.plain []).step stop).2) := by
  have empty : flush [] = [] := rfl
  simp only [Mode.step, ends, empty]
  split
  · simp_all
  · split
    · simp
    · split
      · simp
      · split <;> simp

theorem scan_word {pending : Text} (chars : ∀ char ∈ source, isWordChar char = true) :
    scan (.plain pending) source = ([], .plain (pending ++ source)) := by
  induction source generalizing pending with
  | nil => simp [scan]
  | cons char source ih =>
    have first := chars char mem_cons_self
    have rest := fun other listed => chars other (mem_cons_of_mem char listed)
    simp [scan, Mode.step, first, ih rest]

def IsWord (name : Text) : Prop := name ≠ [] ∧ name.all isWordChar = true

theorem reads_word (word : IsWord source) : Reads source (.word source) := by
  obtain ⟨some, chars⟩ := word
  intro stop rest ends
  rw [scan_append, scan_word (List.all_eq_true.mp chars)]
  simp only [nil_append, scan, step_stop source ends, flush, some, if_false, cons_append]

theorem scan_quoted {pending : Text} (clean : '"' ∉ name) :
    scan (.quoted pending) (name ++ ['"']) = ([.quoted (pending ++ name)], .plain []) := by
  induction name generalizing pending with
  | nil => simp [scan, Mode.step]
  | cons char name ih =>
    have other : char ≠ '"' := fun same => clean (same ▸ List.mem_cons_self)
    have rest : '"' ∉ name := fun listed => clean (mem_cons_of_mem char listed)
    simp [scan, Mode.step, other, ih rest]

theorem reads_quoted (clean : '"' ∉ name) : Reads (nameText name) (.quoted name) := by
  intro stop rest _
  have quotes : scan (.plain []) (nameText name) = ([.quoted name], .plain []) := by
    have start : (Mode.plain []).step '"' = ([], .quoted []) := by decide
    simp only [nameText, cons_append, scan, start, scan_quoted clean, nil_append]
  rw [scan_append, quotes]
  rfl

theorem spells_comment {remark : Text} (oneLine : '\n' ∉ remark) :
    Spells ('#' :: ' ' :: remark ++ ['\n']) [.sym '\n'] := by
  have skip : ∀ {source : Text}, '\n' ∉ source → scan .comment (source ++ ['\n']) = ([.sym '\n'], .plain []) := by
    intro source
    induction source with
    | nil => decide
    | cons char source ih =>
      intro clean
      have other : char ≠ '\n' := fun same => clean (same ▸ mem_cons_self)
      have rest : '\n' ∉ source := fun listed => clean (mem_cons_of_mem char listed)
      simp [scan, Mode.step, other, ih rest]
  have start : (Mode.plain []).step '#' = ([], .comment) := by decide
  have blank : Mode.comment.step ' ' = ([], .comment) := by decide
  simp only [Spells, cons_append, scan, start, blank, skip oneLine, nil_append]

theorem isWordChar_of_isDigit {char : Char} (digit : char.isDigit = true) : isWordChar char = true := by
  simp [isWordChar, Char.isAlphanum, digit]

theorem wordChar_toDigits {value : Nat} : ∀ char ∈ Nat.toDigits 10 value, isWordChar char = true :=
  fun _ listed => isWordChar_of_isDigit (isDigit_of_mem_toDigits (by decide) (by decide) listed)

theorem text_ne_nil (address : Addr) : Ipv4.text address ≠ [] := by
  simp [Ipv4.text, octets, List.intercalate, toDigits_ne_nil]

theorem wordChar_text {address : Addr} : ∀ char ∈ Ipv4.text address, isWordChar char = true := by
  have dot : isWordChar '.' = true := by decide
  intro char listed
  simp only [Ipv4.text, octets, List.intercalate, map_cons, map_nil, List.intersperse, flatten_cons,
    flatten_nil, append_nil, mem_append, mem_singleton] at listed
  rcases listed with first | dotted | second | dotted | third | dotted | fourth
  all_goals first
    | exact dotted ▸ dot
    | exact wordChar_toDigits char ‹_›

theorem reads_cidr (range : Cidr) : Reads range.text (.word range.text) := by
  cases range with
  | host address => exact reads_word ⟨text_ne_nil address, List.all_eq_true.mpr wordChar_text⟩
  | net =>
    have slash : isWordChar '/' = true := by decide
    refine reads_word ⟨by simp [Cidr.text], List.all_eq_true.mpr ?_⟩
    simp only [Cidr.text, mem_append, mem_cons]
    rintro char (early | rfl | late)
    · exact wordChar_text char early
    · exact slash
    · exact wordChar_toDigits char late

theorem reads_ports (ports : Ports) : Reads ports.text (.word ports.text) := by
  cases ports with
  | one port => exact reads_word ⟨toDigits_ne_nil, List.all_eq_true.mpr wordChar_toDigits⟩
  | range =>
    have dash : isWordChar '-' = true := by decide
    refine reads_word ⟨by simp [Ports.text], List.all_eq_true.mpr ?_⟩
    simp only [Ports.text, mem_append, mem_cons]
    rintro char (early | rfl | late)
    · exact wordChar_toDigits char early
    · exact dash
    · exact wordChar_toDigits char late

theorem reads_state (state : ConnState) : Reads state.text (.word state.text) := by
  cases state <;> exact reads_word ⟨by decide, by decide⟩

theorem reads_name (safe : isInterfaceName name = true) : Reads (nameText name) (.quoted name) := by
  apply reads_quoted
  intro listed
  simp only [isInterfaceName, Bool.and_eq_true, all_eq_true] at safe
  exact absurd (safe.2 _ listed) (by decide)

theorem readNumber_toDigits {limit value : Nat} (small : value ≤ limit) :
    readNumber limit (Nat.toDigits 10 value) = some value := by
  simp [readNumber, toDigits_ne_nil, read_toDigits, small]

def Cidr.Fits : Cidr → Prop
  | .host _ => True
  | .net _ bits => bits ≤ 32

@[simp] theorem Cidr.fits_host (address : Addr) : (Cidr.host address).Fits := trivial

theorem readCidr_text {range : Cidr} (fits : range.Fits) : readCidr (.word range.text) = some range := by
  have clean (address : Addr) : '/' ∉ Ipv4.text address := by
    simp only [Ipv4.text, octets, List.intercalate, map_cons, map_nil, List.intersperse, flatten_cons,
      flatten_nil, append_nil, mem_append, mem_singleton]
    simp [not_mem_toDigits]
  cases range with
  | host address => simp [readCidr, Cidr.text, splitOnce_eq_none (clean address), parse_text]
  | net address =>
    simp [readCidr, Cidr.text, splitOnce_append (clean address), parse_text, readNumber_toDigits fits]

theorem readPorts_text (ports : Ports) : readPorts (.word ports.text) = some ports := by
  have clean (value : Nat) : '-' ∉ Nat.toDigits 10 value := not_mem_toDigits (by decide) value
  have port (value : UInt16) : readPort (Nat.toDigits 10 value.toNat) = some value := by
    have small : value.toNat ≤ 65535 := le_of_lt_succ value.toNat_lt
    simp [readPort, readNumber_toDigits small]
  cases ports with
  | one value => simp [readPorts, Ports.text, splitOnce_eq_none (clean value.toNat), port]
  | range first => simp [readPorts, Ports.text, splitOnce_append (clean first.toNat), port]

theorem readState_text (state : ConnState) : readState (.word state.text) = some state := by
  cases state <;> decide

theorem readVerdict_text (verdict : Verdict) : readVerdict (.word verdict.text) = some verdict := by
  cases verdict <;> decide

def setTokens : List Token → List Token
  | [] => [.sym '\x7d']
  | [last] => [last, .sym '\x7d']
  | first :: more => first :: .sym ',' :: setTokens more

def Operand.tokens {α : Type} (token : α → Token) : Operand α → List Token
  | .single item => [token item]
  | .set items => .sym '\x7b' :: setTokens (items.map token)

/-- An operand that says something. An anonymous set needs an element. -/
def Operand.full {α : Type} : Operand α → Bool
  | .single _ => true
  | .set items => items ≠ []

section
variable {α : Type} {write : α → Text} {token : α → Token} {item : Token → Option α}

theorem spells_items {items : List α} (reads : ∀ item ∈ items, Reads (write item) (token item)) :
    Spells (List.intercalate ", ".toList (items.map write) ++ " \x7d".toList) (setTokens (items.map token)) := by
  induction items with
  | nil =>
    have closing : Spells " \x7d".toList [.sym '\x7d'] := by decide
    exact closing
  | cons item items ih =>
    have first := reads item mem_cons_self
    have rest := ih fun item listed => reads item (mem_cons_of_mem _ listed)
    cases items with
    | nil =>
      have closing : Spells " \x7d".toList [.sym '\x7d'] := by decide
      simp only [map_cons, map_nil, intercalate_singleton, setTokens]
      exact first.spells (by decide) closing
    | cons =>
      have comma : Spells ", ".toList [.sym ','] := by decide
      have stops : Stops ", ".toList := by decide
      simp only [map_cons, intercalate_cons_cons, append_assoc] at rest ⊢
      exact first.spells (stops.append _) (comma.append rest)

theorem Operand.spells {operand : Operand α} (reads : ∀ item ∈ operand.items, Reads (write item) (token item)) :
    Spells (operand.text write ++ [' ']) (operand.tokens token) := by
  cases operand with
  | single item => exact (reads item mem_cons_self).spells (by decide) (by decide)
  | set items =>
    have brace : Spells "\x7b ".toList [.sym '\x7b'] := by decide
    have blank : Spells [' '] [] := by decide
    have listed : ∀ item ∈ items, Reads (write item) (token item) := reads
    have whole := brace.append ((spells_items listed).append blank)
    simpa only [Operand.text, Operand.tokens, append_assoc, append_nil, singleton_append] using whole

theorem readItems_tokens {items : List α} (known : ∀ value ∈ items, item (token value) = some value)
    (symbols : ∀ char, item (.sym char) = none) (rest : List Token) :
    readItems item (setTokens (items.map token) ++ rest) = if items = [] then none else some (items, rest) := by
  induction items with
  | nil =>
    -- Whatever follows the brace, no element starts with it.
    simp only [map_nil, setTokens, singleton_append, if_true]
    unfold readItems
    split
    next same =>
      rw [← (List.cons.inj same).1, symbols]
      rfl
    next same =>
      rw [← (List.cons.inj same).1, symbols]
      rfl
    next => rfl
  | cons value items ih =>
    have first := known value mem_cons_self
    cases items with
    | nil => simp [setTokens, readItems, first]
    | cons =>
      have more := ih fun value listed => known value (mem_cons_of_mem _ listed)
      simp only [map_cons, reduceCtorEq, if_false] at more
      simp [setTokens, readItems, first, more]

theorem Operand.read_tokens {operand : Operand α} (known : ∀ value ∈ operand.items, item (token value) = some value)
    (symbols : ∀ char, item (.sym char) = none) (rest : List Token) :
    Operand.read item (operand.tokens token ++ rest) = if operand.full then some (operand, rest) else none := by
  cases operand with
  | single value =>
    have found := known value mem_cons_self
    have word : token value ≠ .sym '\x7b' := by
      intro same
      rw [same, symbols] at found
      cases found
    simp only [Operand.tokens, singleton_append, Operand.full, if_true]
    unfold Operand.read
    split
    next same => exact absurd (List.cons.inj same).1 word
    next other rest' different same =>
      obtain ⟨rfl, rfl⟩ := List.cons.inj same
      simp [found]
    next same => cases same
  | set items =>
    have listed : ∀ value ∈ items, item (token value) = some value := known
    simp only [Operand.tokens, cons_append, Operand.read, readItems_tokens listed symbols]
    by_cases empty : items = [] <;> simp [empty, Operand.full]

end

def signTokens (negated : Bool) : List Token := if negated then [.word "!=".toList] else []

def word (text : String) : Token := .word text.toList

def Clause.tokens : Clause → List Token
  | .iifname negated names => word "iifname" :: signTokens negated ++ names.tokens .quoted
  | .oifname negated names => word "oifname" :: signTokens negated ++ names.tokens .quoted
  | .saddr negated ranges => word "ip" :: word "saddr" :: signTokens negated ++ ranges.tokens (.word ·.text)
  | .daddr negated ranges => word "ip" :: word "daddr" :: signTokens negated ++ ranges.tokens (.word ·.text)
  | .dport ports => word "tcp" :: word "dport" :: ports.tokens (.word ·.text)
  | .icmpType types => word "icmp" :: word "type" :: types.tokens (.word ·.text)
  | .ctState states => word "ct" :: word "state" :: List.intersperse (.sym ',') (states.map (.word ·.text))

def Clause.Fits : Clause → Prop
  | .iifname _ names | .oifname _ names => ∀ name ∈ names.items, isInterfaceName name = true
  | .saddr _ ranges | .daddr _ ranges => ∀ range ∈ ranges.items, range.Fits
  | .dport _ | .icmpType _ => True
  | .ctState states => states ≠ []

def Clause.full : Clause → Bool
  | .iifname _ names | .oifname _ names => names.full
  | .saddr _ ranges | .daddr _ ranges => ranges.full
  | .dport ports => ports.full
  | .icmpType types => types.full
  | .ctState _ => true

@[simp] theorem Operand.full_single {α : Type} (item : α) : (Operand.single item).full = true := rfl

@[simp] theorem Operand.full_set {α : Type} (items : List α) : (Operand.set items).full = decide (items ≠ []) := rfl

namespace Clause

@[simp] theorem fits_saddr (negated : Bool) (ranges : Operand Cidr) :
    (Clause.saddr negated ranges).Fits ↔ ∀ range ∈ ranges.items, range.Fits := Iff.rfl

@[simp] theorem fits_daddr (negated : Bool) (ranges : Operand Cidr) :
    (Clause.daddr negated ranges).Fits ↔ ∀ range ∈ ranges.items, range.Fits := Iff.rfl

@[simp] theorem fits_dport (ports : Operand Ports) : (Clause.dport ports).Fits := trivial

@[simp] theorem fits_icmpType (types : Operand IcmpType) : (Clause.icmpType types).Fits := trivial

@[simp] theorem full_iifname (negated : Bool) (names : Operand Text) :
    (Clause.iifname negated names).full = names.full := rfl

@[simp] theorem full_oifname (negated : Bool) (names : Operand Text) :
    (Clause.oifname negated names).full = names.full := rfl

@[simp] theorem full_saddr (negated : Bool) (ranges : Operand Cidr) :
    (Clause.saddr negated ranges).full = ranges.full := rfl

@[simp] theorem full_daddr (negated : Bool) (ranges : Operand Cidr) :
    (Clause.daddr negated ranges).full = ranges.full := rfl

@[simp] theorem full_dport (ports : Operand Ports) : (Clause.dport ports).full = ports.full := rfl

@[simp] theorem full_icmpType (types : Operand IcmpType) : (Clause.icmpType types).full = types.full := rfl

end Clause

theorem spells_sign (negated : Bool) : Spells (signText negated) (signTokens negated) := by
  cases negated <;> decide

theorem spells_states {states : List ConnState} (some : states ≠ []) :
    Spells (List.intercalate [','] (states.map ConnState.text) ++ [' '])
      (List.intersperse (.sym ',') (states.map (.word ·.text))) := by
  induction states with
  | nil => exact absurd rfl some
  | cons state states ih =>
    have first := reads_state state
    cases states with
    | nil =>
      have blank : Spells [' '] [] := by decide
      simpa only [map_cons, map_nil, intercalate_singleton, List.intersperse] using
        first.spells (by decide) blank
    | cons =>
      have comma : Spells [','] [.sym ','] := by decide
      have stops : Stops [','] := by decide
      have rest := ih (by simp)
      simp only [map_cons, intercalate_cons_cons, append_assoc, List.intersperse] at rest ⊢
      exact first.spells (stops.append _) (comma.append rest)

/-- A clause is scanned into its tokens. -/
theorem Clause.spells {clause : Clause} (fits : clause.Fits) : Spells (clause.text ++ [' ']) clause.tokens := by
  have plain {key rest : Text} {found more : List Token} (start : Spells key found)
    (side : Spells (rest ++ [' ']) more) :
      Spells ((key ++ rest) ++ [' ']) (found ++ more) := by
    rw [append_assoc]
    exact start.append side
  have compare {key rest : Text} {found more : List Token} {negated : Bool} (start : Spells key found)
      (side : Spells (rest ++ [' ']) more) :
      Spells ((key ++ signText negated ++ rest) ++ [' ']) (found ++ (signTokens negated ++ more)) := by
    rw [append_assoc, append_assoc]
    exact start.append ((spells_sign negated).append side)
  cases clause with
  | iifname =>
    have key : Spells "iifname ".toList [word "iifname"] := by decide
    exact compare key (Operand.spells fun name listed => reads_name (fits name listed))
  | oifname =>
    have key : Spells "oifname ".toList [word "oifname"] := by decide
    exact compare key (Operand.spells fun name listed => reads_name (fits name listed))
  | saddr =>
    have key : Spells "ip saddr ".toList [word "ip", word "saddr"] := by decide
    exact compare key (Operand.spells fun range _ => reads_cidr range)
  | daddr =>
    have key : Spells "ip daddr ".toList [word "ip", word "daddr"] := by decide
    exact compare key (Operand.spells fun range _ => reads_cidr range)
  | dport =>
    have key : Spells "tcp dport ".toList [word "tcp", word "dport"] := by decide
    exact plain key (Operand.spells fun range _ => reads_ports range)
  | icmpType =>
    have key : Spells "icmp type ".toList [word "icmp", word "type"] := by decide
    exact plain key (Operand.spells fun type _ => (by cases type <;> exact reads_word ⟨by decide, by decide⟩))
  | ctState =>
    have key : Spells "ct state ".toList [word "ct", word "state"] := by decide
    exact plain key (spells_states fits)

section
variable {α : Type} {token : α → Token} {item : Token → Option α}

variable {operand : Operand α}

theorem readSign_tokens (known : ∀ value ∈ operand.items, item (token value) = some value)
    (noSign : item (.word "!=".toList) = none) (negated : Bool) (rest : List Token) :
    readSign (signTokens negated ++ (operand.tokens token ++ rest)) = (negated, operand.tokens token ++ rest) := by
  cases negated with
  | true => simp [signTokens, readSign]
  | false =>
    cases operand with
    | single value =>
      have found := known value mem_cons_self
      have other : token value ≠ .word "!=".toList := by
        intro same
        rw [same, noSign] at found
        cases found
      simp only [signTokens, Bool.false_eq_true, if_false, nil_append, Operand.tokens, singleton_append, readSign,
        other]
    | set => simp [signTokens, Operand.tokens, readSign]

theorem readMatch_tokens (known : ∀ value ∈ operand.items, item (token value) = some value)
    (symbols : ∀ char, item (.sym char) = none) (noSign : item (.word "!=".toList) = none)
    (clause : Bool → Operand α → Clause) (negated : Bool) (rest : List Token) :
    readMatch item clause (signTokens negated ++ (operand.tokens token ++ rest)) =
      if operand.full then some (clause negated operand, rest) else none := by
  rw [readMatch, readSign_tokens known noSign]
  simp only [Operand.read_tokens known symbols]
  split <;> rfl

theorem readPlain_tokens (known : ∀ value ∈ operand.items, item (token value) = some value)
    (symbols : ∀ char, item (.sym char) = none) (clause : Operand α → Clause) (rest : List Token) :
    readPlain item clause (operand.tokens token ++ rest) =
      if operand.full then some (clause operand, rest) else none := by
  rw [readPlain, Operand.read_tokens known symbols]
  split <;> rfl

end

theorem readStates_tokens {states : List ConnState} (some' : states ≠ []) {rest : List Token}
    (next : ∀ tail, rest ≠ .sym ',' :: tail) :
    readStates (List.intersperse (.sym ',') (states.map (.word ·.text)) ++ rest) = some (states, rest) := by
  induction states with
  | nil => exact absurd rfl some'
  | cons state states ih =>
    cases states with
    | nil =>
      simp only [map_cons, map_nil, List.intersperse, singleton_append]
      unfold readStates
      split
      next same => exact absurd (List.cons.inj same).2 (next _)
      next same =>
        obtain ⟨rfl, rfl⟩ := List.cons.inj same
        simp [readState_text]
      next same => cases same
    | cons =>
      have more := ih (by simp)
      simp only [map_cons] at more
      simp only [map_cons, List.intersperse, cons_append, readStates, readState_text, more]
      rfl

/-- A clause is read back from its tokens, or refused for an empty set. -/
theorem Clause.read_tokens {clause : Clause} (fits : clause.Fits) {rest : List Token}
    (next : ∀ tail, rest ≠ .sym ',' :: tail) :
    Clause.read (clause.tokens ++ rest) = if clause.full then some (clause, rest) else none := by
  cases clause with
  | iifname negated names | oifname negated names =>
    simp only [Clause.tokens, Clause.read, word, cons_append, append_assoc]
    exact readMatch_tokens (fun name listed => (by simp [readName, (fits name listed)]))
      (fun _ => rfl) rfl _ negated rest
  | saddr negated ranges | daddr negated ranges =>
    simp only [Clause.tokens, Clause.read, word, cons_append, append_assoc]
    exact readMatch_tokens (fun range listed => readCidr_text (fits range listed)) (fun _ => rfl)
      (by decide) _ negated rest
  | dport =>
    simp only [Clause.tokens, Clause.read, word, cons_append]
    exact readPlain_tokens (fun range _ => readPorts_text range) (fun _ => rfl) .dport rest
  | icmpType =>
    simp only [Clause.tokens, Clause.read, word, cons_append]
    exact readPlain_tokens (fun type _ => (by cases type <;> decide)) (fun _ => rfl) .icmpType rest
  | ctState =>
    have reading := readStates_tokens fits next
    simp [Clause.tokens, Clause.read, word, Clause.full, reading]

def Rule.tokens (rule : Rule) : List Token := rule.clauses.flatMap Clause.tokens ++ [.word rule.verdict.text]

def Rule.Fits (rule : Rule) : Prop := ∀ clause ∈ rule.clauses, clause.Fits

def Rule.full (rule : Rule) : Bool := rule.clauses.all Clause.full

@[simp] theorem Rule.fits_mk (clauses : List Clause) (verdict : Verdict) :
    (Rule.mk clauses verdict).Fits ↔ ∀ clause ∈ clauses, clause.Fits := Iff.rfl

@[simp] theorem Rule.full_mk (clauses : List Clause) (verdict : Verdict) :
    (Rule.mk clauses verdict).full = clauses.all Clause.full := rfl

def ruleWords : List Text :=
  ["iifname", "oifname", "ip", "tcp", "icmp", "ct", "accept", "drop", "masquerade"].map String.toList

theorem Clause.starts (clause : Clause) : ∃ key ∈ ruleWords, ∃ tail, clause.tokens = .word key :: tail := by
  cases clause <;> exact ⟨_, by decide, _, rfl⟩

theorem Rule.starts (rule : Rule) : ∃ key ∈ ruleWords, ∃ tail, rule.tokens = .word key :: tail := by
  obtain ⟨clauses, verdict⟩ := rule
  cases clauses with
  | nil => exact ⟨verdict.text, by cases verdict <;> decide, [], rfl⟩
  | cons clause clauses =>
    obtain ⟨key, listed, tail, same⟩ := clause.starts
    exact ⟨key, listed, tail ++ Rule.tokens ⟨clauses, verdict⟩, by simp [Rule.tokens, same]⟩

/-- The reader takes one clause after the other, so it needs fuel for each of them. -/
theorem Rule.read_tokens {rule : Rule} (fits : rule.Fits) {fuel : Nat} (enough : rule.clauses.length < fuel) :
    Rule.read fuel rule.tokens = if rule.full then some rule else none := by
  obtain ⟨clauses, verdict⟩ := rule
  induction clauses generalizing fuel with
  | nil =>
    obtain ⟨fuel, rfl⟩ := exists_eq_succ_of_ne_zero (Nat.ne_of_gt (zero_lt_of_lt enough))
    simp [Rule.tokens, Rule.read, readVerdict_text, Rule.full]
  | cons clause clauses ih =>
    obtain ⟨fuel, rfl⟩ := exists_eq_succ_of_ne_zero (Nat.ne_of_gt (zero_lt_of_lt enough))
    have rest := ih (fun other listed => fits other (mem_cons_of_mem _ listed)) (lt_of_succ_lt_succ enough)
    have split : Rule.tokens ⟨clause :: clauses, verdict⟩ = clause.tokens ++ Rule.tokens ⟨clauses, verdict⟩ := by
      simp [Rule.tokens]
    obtain ⟨key, -, tail, same⟩ := clause.starts
    obtain ⟨second, -, after, follows⟩ := Rule.starts ⟨clauses, verdict⟩
    have next : ∀ other, Rule.tokens ⟨clauses, verdict⟩ ≠ .sym ',' :: other := by
      intro other
      rw [follows]
      simp
    have reading := Clause.read_tokens (fits clause mem_cons_self) next
    -- At least two tokens are left, so the line does not end with a verdict here.
    have more : Rule.read (fuel + 1) (clause.tokens ++ Rule.tokens ⟨clauses, verdict⟩) =
        (Clause.read (clause.tokens ++ Rule.tokens ⟨clauses, verdict⟩)).bind fun first =>
          (Rule.read fuel first.2).bind fun rule => some { rule with clauses := first.1 :: rule.clauses } := by
      rw [same, follows]
      cases tail <;> rfl
    have whole : Rule.full ⟨clause :: clauses, verdict⟩ = (clause.full && Rule.full ⟨clauses, verdict⟩) := rfl
    rw [split, more, reading, whole]
    cases clause.full with
    | false => rfl
    | true =>
      simp only [if_true, Option.bind_some, rest, Bool.true_and]
      cases Rule.full ⟨clauses, verdict⟩ <;> rfl

theorem Line.read_rule {rule : Rule} (fits : rule.Fits) :
    Line.read rule.tokens = if rule.full then some (.rule rule) else none := by
  have enough : rule.clauses.length < rule.tokens.length := by
    have each : ∀ clauses : List Clause, clauses.length ≤ (clauses.flatMap Clause.tokens).length := by
      intro clauses
      induction clauses with
      | nil => simp
      | cons clause clauses ih =>
        obtain ⟨key, -, tail, same⟩ := clause.starts
        simp only [flatMap_cons, same, length_append, length_cons]
        omega
    have bound := each rule.clauses
    simp only [Rule.tokens, length_append, length_singleton]
    omega
  have reading := Rule.read_tokens fits enough
  obtain ⟨key, listed, tail, same⟩ := rule.starts
  have apart : ∀ key ∈ ruleWords, ∀ other ∈ ["add", "delete", "table", "chain", "type"].map
    String.toList, key ≠ other := by
    decide
  have others := apart key listed
  simp only [map_cons, map_nil, mem_cons, not_mem_nil, or_false, forall_eq_or_imp, forall_eq] at others
  rw [same] at reading ⊢
  simp only [Line.read, Token.word.injEq, others, if_false, reading, reduceCtorEq]
  split <;> rfl

def Item.tokens : Item → List Token
  | .comment _ => []
  | .rule written => written.tokens

def Base.tokens (base : Base) : List Token :=
  [word "type", .word base.kind.text, word "hook", .word base.hook.text, word "priority", .word base.priority.text,
    .sym ';', word "policy", .word base.policy.text, .sym ';']

def Chain.lines (chain : Chain) : List (List Token) :=
  [word "chain", .word chain.name, .sym '\x7b'] :: chain.base.tokens :: chain.body.map Item.tokens ++ [[.sym '\x7d']]

def Command.lines : Command → List (List Token)
  | .comment _ => [[]]
  | .addTable name => [[word "add", word "table", word "inet", .word name]]
  | .deleteTable name => [[word "delete", word "table", word "inet", .word name]]
  | .table name chains =>
    [word "table", word "inet", .word name, .sym '\x7b'] :: chains.flatMap Chain.lines ++ [[.sym '\x7d']]

def Item.Fits : Item → Prop
  | .comment remark => '\n' ∉ remark
  | .rule written => written.Fits

def Chain.Fits (chain : Chain) : Prop := IsWord chain.name ∧ ∀ item ∈ chain.body, item.Fits

def Command.Fits : Command → Prop
  | .comment remark => '\n' ∉ remark
  | .addTable name | .deleteTable name => IsWord name
  | .table name chains => IsWord name ∧ ∀ chain ∈ chains, chain.Fits

def ended (line : List Token) : List Token := line ++ [.sym '\n']

theorem reads_verdict (verdict : Verdict) : Reads verdict.text (.word verdict.text) := by
  cases verdict <;> exact reads_word ⟨by decide, by decide⟩

theorem Item.spells {item : Item} (fits : item.Fits) : Spells item.text (ended item.tokens) := by
  have tabs : Spells "\t\t".toList [] := by decide
  cases item with
  | comment =>
    exact tabs.append (spells_comment fits)
  | rule written =>
    have clauses : Spells (written.clauses.flatMap (·.text ++ [' '])) (written.clauses.flatMap Clause.tokens) :=
      Spells.flatMap fun clause listed => Clause.spells (fits clause listed)
    have newline : Spells ['\n'] [.sym '\n'] := by decide
    exact (tabs.opens (clauses.opens (reads_verdict written.verdict).opens)) (by decide) newline

theorem reads_kind (kind : Kind) : Reads kind.text (.word kind.text) := by
  cases kind <;> exact reads_word ⟨by decide, by decide⟩

theorem reads_hook (hook : Hook) : Reads hook.text (.word hook.text) := by
  cases hook <;> exact reads_word ⟨by decide, by decide⟩

theorem reads_priority (priority : Priority) : Reads priority.text (.word priority.text) := by
  cases priority <;> exact reads_word ⟨by decide, by decide⟩

theorem reads_policy (policy : Policy) : Reads policy.text (.word policy.text) := by
  cases policy <;> exact reads_word ⟨by decide, by decide⟩

theorem Base.spells (base : Base) : Spells base.text (ended base.tokens) := by
  have type : Spells "\t\ttype ".toList [word "type"] := by decide
  have hook : Spells " hook ".toList [word "hook"] := by decide
  have priority : Spells " priority ".toList [word "priority"] := by decide
  have policy : Spells "; policy ".toList [.sym ';', word "policy"] := by decide
  have stop : Spells ";\n".toList [.sym ';', .sym '\n'] := by decide
  have kind := (type.opens (reads_kind base.kind).opens) (by decide) hook
  have hooked := (kind.opens (reads_hook base.hook).opens) (by decide) priority
  have ranked := (hooked.opens (reads_priority base.priority).opens) (by decide) policy
  exact (ranked.opens (reads_policy base.policy).opens) (by decide) stop

theorem Chain.spells (fits : chain.Fits) : Spells chain.text (chain.lines.flatMap ended) := by
  have key : Spells "\tchain ".toList [word "chain"] := by decide
  have brace : Spells " \x7b\n".toList [.sym '\x7b', .sym '\n'] := by decide
  have closing : Spells "\t\x7d\n".toList [.sym '\x7d', .sym '\n'] := by decide
  have body : Spells (chain.body.flatMap Item.text) ((chain.body.map Item.tokens).flatMap ended) := by
    rw [flatMap_map]
    exact Spells.flatMap fun item listed => Item.spells (fits.2 item listed)
  have opening := (key.opens (reads_word fits.1).opens) (by decide) brace
  have whole := ((opening.append chain.base.spells).append body).append closing
  have lines : chain.lines.flatMap ended =
      ([word "chain"] ++ [.word chain.name] ++ [.sym '\x7b', .sym '\n']) ++ ended chain.base.tokens ++
        (chain.body.map Item.tokens).flatMap ended ++ [.sym '\x7d', .sym '\n'] := by
    simp [Chain.lines, ended]
  rw [lines]
  exact whole

theorem Command.spells (fits : command.Fits) : Spells command.text (command.lines.flatMap ended) := by
  have newline : Spells ['\n'] [.sym '\n'] := by decide
  cases command with
  | comment =>
    exact spells_comment fits
  | addTable =>
    have key : Spells "add table inet ".toList [word "add", word "table", word "inet"] := by decide
    exact (key.opens (reads_word fits).opens) (by decide) newline
  | deleteTable =>
    have key : Spells "delete table inet ".toList [word "delete", word "table", word "inet"] := by decide
    exact (key.opens (reads_word fits).opens) (by decide) newline
  | table name chains =>
    have key : Spells "table inet ".toList [word "table", word "inet"] := by decide
    have brace : Spells " \x7b\n".toList [.sym '\x7b', .sym '\n'] := by decide
    have closing : Spells "\x7d\n".toList [.sym '\x7d', .sym '\n'] := by decide
    have body : Spells (chains.flatMap Chain.text) ((chains.flatMap Chain.lines).flatMap ended) := by
      rw [flatMap_assoc]
      exact Spells.flatMap fun chain listed => Chain.spells (fits.2 chain listed)
    have opening := (key.opens (reads_word fits.1).opens) (by decide) brace
    have lines : (Command.table name chains).lines.flatMap ended =
        ([word "table", word "inet"] ++ [.word name] ++ [.sym '\x7b', .sym '\n']) ++
          (chains.flatMap Chain.lines).flatMap ended ++ [.sym '\x7d', .sym '\n'] := by
      simp [Command.lines, ended]
    rw [lines]
    exact (opening.append body).append closing

theorem tokens_scriptText {commands : List Command} (fits : ∀ command ∈ commands, command.Fits) :
    tokens (scriptText commands) = some ((commands.flatMap Command.lines).flatMap ended) := by
  have whole : Spells (scriptText commands) ((commands.flatMap Command.lines).flatMap ended) := by
    rw [scriptText, flatMap_assoc]
    exact Spells.flatMap fun command listed => Command.spells (fits command listed)
  rw [tokens, whole]
  simp [flush]

section
variable {α : Type}

theorem newline_tokens {operand : Operand α} {token : α → Token} (other : ∀ value, token value ≠ .sym '\n') :
    .sym '\n' ∉ operand.tokens token := by
  have items : ∀ found : List Token, .sym '\n' ∉ found → .sym '\n' ∉ setTokens found := by
    intro found
    induction found with
    | nil => decide
    | cons first found ih =>
      intro clean
      simp only [mem_cons, not_or] at clean
      cases found with
      | nil => simpa [setTokens] using clean.1
      | cons =>
        simp only [setTokens, mem_cons, not_or]
        exact ⟨clean.1, by decide, ih clean.2⟩
  cases operand with
  | single value => simpa [Operand.tokens] using (other value).symm
  | set values =>
    have listed : .sym '\n' ∉ values.map token := by simpa using fun value _ => other value
    simp only [Operand.tokens, mem_cons, not_or]
    exact ⟨by decide, items _ listed⟩

end

theorem newline_clause (clause : Clause) : .sym '\n' ∉ clause.tokens := by
  have sign (negated : Bool) : .sym '\n' ∉ signTokens negated := by cases negated <;> decide
  have names (operand : Operand Text) : .sym '\n' ∉ operand.tokens .quoted := newline_tokens (by simp)
  have ranges (operand : Operand Cidr) : .sym '\n' ∉ operand.tokens (.word ·.text) := newline_tokens (by simp)
  cases clause with
  | iifname | oifname => simp [Clause.tokens, word, sign, names]
  | saddr | daddr => simp [Clause.tokens, word, sign, ranges]
  | dport operand =>
    have ports : .sym '\n' ∉ operand.tokens (.word ·.text) := newline_tokens (by simp)
    simp [Clause.tokens, word, ports]
  | icmpType operand =>
    have types : .sym '\n' ∉ operand.tokens (.word ·.text) := newline_tokens (by simp)
    simp [Clause.tokens, word, types]
  | ctState states =>
    have commas : ∀ states : List ConnState,
      .sym '\n' ∉ List.intersperse (.sym ',') (states.map (Token.word ·.text)) := by
      intro states
      induction states with
      | nil => simp
      | cons state states ih =>
        cases states with
        | nil => simp
        | cons => simpa using ih
    simp [Clause.tokens, word, commas]

theorem newline_rule (rule : Rule) : .sym '\n' ∉ rule.tokens := by
  simp [Rule.tokens, newline_clause]

theorem newline_chain {line : List Token} (listed : line ∈ chain.lines) : .sym '\n' ∉ line := by
  simp only [Chain.lines, cons_append, mem_cons, mem_append, mem_map, not_mem_nil, or_false] at listed
  rcases listed with rfl | rfl | ⟨item, -, rfl⟩ | rfl
  · simp [word]
  · simp [Base.tokens, word]
  · cases item with
    | comment => simp [Item.tokens]
    | rule written => exact newline_rule written
  · decide

theorem newline_command {line : List Token} (listed : line ∈ command.lines) : .sym '\n' ∉ line := by
  cases command with
  | comment => simp_all [Command.lines]
  | addTable => simp_all [Command.lines, word]
  | deleteTable => simp_all [Command.lines, word]
  | table =>
    simp only [Command.lines, cons_append, mem_cons, mem_append, mem_flatMap, not_mem_nil, or_false] at listed
    rcases listed with rfl | ⟨chain, -, inside⟩ | rfl
    · simp [word]
    · exact newline_chain inside
    · decide

theorem splitOn_ended {lines : List (List Token)} (inline : ∀ line ∈ lines, .sym '\n' ∉ line) :
    (lines.flatMap ended).splitOn (.sym '\n') = lines ++ [[]] := by
  induction lines with
  | nil => rfl
  | cons line lines ih =>
    have first := inline line mem_cons_self
    have rest := ih fun line listed => inline line (mem_cons_of_mem _ listed)
    simp only [flatMap_cons, ended, append_assoc, singleton_append]
    rw [splitOn_append_cons_self_of_not_mem first, rest, cons_append]

/-- The lines are read as these statements, unless a set in them is empty. -/
def Yields (lines : List (List Token)) (full : Bool) (statements : List Line) : Prop :=
  (lines.filter (· ≠ [])).mapM Line.read = if full then some statements else none

namespace Yields
variable {lines others : List (List Token)} {full whole : Bool} {statements more : List Line}

theorem append (first : Yields lines full statements) (last : Yields others whole more) :
    Yields (lines ++ others) (full && whole) (statements ++ more) := by
  unfold Yields at *
  rw [filter_append, mapM_append, first, last]
  cases full <;> cases whole <;> rfl

theorem nil : Yields [] true [] := rfl

theorem one {line : List Token} {statement : Line} (some' : line ≠ []) (found : Line.read line = some statement) :
    Yields [line] true [statement] := by
  simp [Yields, some', found]

theorem flatMap {α : Type} {items : List α} {write : α → List (List Token)} {full : α → Bool}
    {found : α → List Line} (each : ∀ item ∈ items, Yields (write item) (full item) (found item)) :
    Yields (items.flatMap write) (items.all full) (items.flatMap found) := by
  induction items with
  | nil => exact nil
  | cons item items ih =>
    simp only [flatMap_cons, all_cons]
    apply append
    · exact each item mem_cons_self
    · apply ih
      intro item listed
      exact each item (mem_cons_of_mem _ listed)

end Yields

def Item.full : Item → Bool
  | .comment _ => true
  | .rule written => written.full

def Chain.full (chain : Chain) : Bool := chain.body.all Item.full

theorem Chain.full_rules (chain : Chain) : chain.full = chain.rules.all Rule.full := by
  obtain ⟨name, base, body⟩ := chain
  simp only [Chain.full, Chain.rules]
  induction body with
  | nil => rfl
  | cons item body ih => cases item <;> simp [Item.full, Item.rule?, ih]

theorem Chain.fits_of_rules (named : IsWord chain.name)
    (comments : ∀ remark, .comment remark ∈ chain.body → '\n' ∉ remark) (rules : ∀ rule ∈ chain.rules, rule.Fits) :
    chain.Fits := by
  refine ⟨named, fun item listed => ?_⟩
  cases item with
  | comment remark => exact comments remark listed
  | rule written => exact rules written (List.mem_filterMap.mpr ⟨_, listed, rfl⟩)

def Command.full : Command → Bool
  | .table _ chains => chains.all Chain.full
  | _ => true

def Item.statements : Item → List Line
  | .comment _ => []
  | .rule written => [.rule written]

def Chain.statements (chain : Chain) : List Line :=
  [.openChain chain.name, .base chain.base] ++ chain.body.flatMap Item.statements ++ [.close]

def Command.statements : Command → List Line
  | .comment _ => []
  | .addTable name => [.addTable name]
  | .deleteTable name => [.deleteTable name]
  | .table name chains => [.openTable name] ++ chains.flatMap Chain.statements ++ [.close]

theorem yields_close : Yields [[.sym '\x7d']] true [.close] := Yields.one (by simp) (by decide)

theorem yields_item {item : Item} (fits : item.Fits) : Yields [item.tokens] item.full item.statements := by
  cases item with
  | comment => simp [Yields, Item.tokens, Item.full, Item.statements]
  | rule written =>
    have some' : written.tokens ≠ [] := by simp [Rule.tokens]
    have reading := Line.read_rule fits
    by_cases full : written.full = true <;>
      simp [Yields, Item.tokens, Item.full, Item.statements, some', reading, full]

theorem read_base (base : Base) : Line.read base.tokens = some (.base base) := by
  obtain ⟨kind, hook, priority, policy⟩ := base
  have kinds : readWord Kind.text [.filter, .nat] (.word kind.text) = some kind := by cases kind <;> decide
  have hooks : readWord Hook.text [.output, .input, .forward, .postrouting] (.word hook.text) = some hook := by
    cases hook <;> decide
  have priorities : readWord Priority.text [.filter, .srcnat] (.word priority.text) = some priority := by
    cases priority <;> decide
  have policies : readWord Policy.text [.accept, .drop] (.word policy.text) = some policy := by cases policy <;> decide
  simp [Base.tokens, Line.read, Base.read, word, kinds, hooks, priorities, policies]

theorem Chain.yields (fits : chain.Fits) : Yields chain.lines chain.full chain.statements := by
  have opening : Yields [[word "chain", .word chain.name, .sym '\x7b']] true [.openChain chain.name] :=
    Yields.one (by simp) (by simp [Line.read, word])
  have base : Yields [chain.base.tokens] true [.base chain.base] :=
    Yields.one (by simp [Base.tokens]) (read_base chain.base)
  have body : Yields (chain.body.map Item.tokens) chain.full (chain.body.flatMap Item.statements) := by
    rw [← flatMap_singleton' (chain.body.map Item.tokens), flatMap_map]
    exact Yields.flatMap fun item listed => yields_item (fits.2 item listed)
  have whole := (opening.append base).append (body.append yields_close)
  simpa [Chain.lines, Chain.statements] using whole

theorem Command.yields (fits : command.Fits) : Yields command.lines command.full command.statements := by
  cases command with
  | comment => simp [Yields, Command.lines, Command.full, Command.statements]
  | addTable | deleteTable => exact Yields.one (by simp) (by simp [Line.read, readTable, word])
  | table name chains =>
    have opening : Yields [[word "table", word "inet", .word name, .sym '\x7b']] true [.openTable name] :=
      Yields.one (by simp) (by simp [Line.read, readTable, word])
    have body : Yields (chains.flatMap Chain.lines) (chains.all Chain.full) (chains.flatMap Chain.statements) :=
      Yields.flatMap fun chain listed => Chain.yields (fits.2 chain listed)
    have whole := opening.append (body.append yields_close)
    simpa [Command.lines, Command.full, Command.statements] using whole

def Chain.bare (chain : Chain) : Chain := { chain with body := chain.rules.map .rule }

def Command.bare : Command → List Command
  | .comment _ => []
  | .table name chains => [.table name (chains.map Chain.bare)]
  | other => [other]

theorem foldlM_chain (done : List Command) (table : Text) (chains : List Chain) (chain : Chain) :
    chain.statements.foldlM Context.step (.inTable done table chains) =
      some (.inTable done table (chains ++ [chain.bare])) := by
  have rules : ∀ (body read : List Item),
      (body.flatMap Item.statements).foldlM Context.step (.inChain done table chains ⟨chain.name, chain.base, read⟩) =
        some (.inChain done table chains ⟨chain.name, chain.base, read ++ (body.filterMap Item.rule?).map .rule⟩) := by
    intro body
    induction body with
    | nil => simp
    | cons item body ih =>
      intro read
      cases item with
      | comment => simpa [Item.statements, filterMap_cons, Item.rule?] using ih read
      | rule written =>
        have rest := ih (read ++ [.rule written])
        rw [append_assoc] at rest
        simpa [Item.statements, filterMap_cons, Item.rule?, Context.step] using rest
  have body := rules chain.body []
  simp only [nil_append] at body
  simp [Chain.statements, foldlM_append, Context.step, body, Chain.bare, Chain.rules]

theorem foldlM_command (done : List Command) (command : Command) :
    command.statements.foldlM Context.step (.top done) = some (.top (done ++ command.bare)) := by
  have inside : ∀ (chains read : List Chain) (name : Text),
      (chains.flatMap Chain.statements).foldlM Context.step (.inTable done name read) =
        some (.inTable done name (read ++ chains.map Chain.bare)) := by
    intro chains
    induction chains with
    | nil => simp
    | cons chain chains ih =>
      intro read name
      simp [foldlM_append, foldlM_chain, ih]
  cases command with
  | comment => simp [Command.statements, Command.bare]
  | addTable | deleteTable => simp [Command.statements, Command.bare, Context.step]
  | table name chains =>
    have body := inside chains [] name
    simp only [nil_append] at body
    simp [Command.statements, Command.bare, Context.step, foldlM_append, body]

theorem assemble_statements (commands : List Command) :
    assemble (commands.flatMap Command.statements) = some (commands.flatMap Command.bare) := by
  have whole : ∀ (commands done : List Command),
      (commands.flatMap Command.statements).foldlM Context.step (.top done) =
        some (.top (done ++ commands.flatMap Command.bare)) := by
    intro commands
    induction commands with
    | nil => simp
    | cons command commands ih =>
      intro done
      simp [foldlM_append, foldlM_command, ih]
  have all := whole commands []
  simp only [nil_append] at all
  simp [assemble, all]

/-- A script is read back from its text without its comments, exactly when no set in it is
empty. -/
theorem parse_scriptText {commands : List Command} (fits : ∀ command ∈ commands, command.Fits) :
    parse (scriptText commands) = if commands.all Command.full then some (commands.flatMap Command.bare) else none := by
  have inline : ∀ line ∈ commands.flatMap Command.lines, .sym '\n' ∉ line := by
    intro line listed
    obtain ⟨command, -, inside⟩ := List.mem_flatMap.mp listed
    exact newline_command inside
  have read : Yields (commands.flatMap Command.lines) (commands.all Command.full)
    (commands.flatMap Command.statements) :=
    Yields.flatMap fun command listed => Command.yields (fits command listed)
  have last : ([[]] : List (List Token)).filter (· ≠ []) = [] := rfl
  simp only [parse, tokens_scriptText fits, Option.bind_eq_bind, Option.bind_some, splitOn_ended inline, filter_append,
    last, append_nil]
  rw [read]
  split
  · exact assemble_statements commands
  · rfl

end Bento.Library.Nft
