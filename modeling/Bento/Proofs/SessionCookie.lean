import Bento.Auth.Session

/-! The cookies of a login: the header that sets one has its value in the pair and nowhere
else, and what the controller reads in the header that comes back is that value. -/

namespace Bento.Auth
open Library Library.Decimal Library.HttpDate Http List Multimap Option

variable {domain : Text}

theorem encoded_plain (value : Text) : ∀ char ∈ encodeCookieValue value, '!' ≤ char ∧ char ≤ '~' ∧ char ≠ ';' := by
  have digits : ∀ value < 16, '!' ≤ Percent.hexDigit value ∧ Percent.hexDigit value ≤ '~' ∧
    Percent.hexDigit value ≠ ';' := by decide
  intro char listed
  rcases Percent.mem_encode listed with rfl | ⟨value, small, rfl⟩ | ⟨kept, ascii⟩
  · decide
  · exact digits value small
  · simp only [cookieEncodeSet, Bool.or_eq_false_iff, decide_eq_false_iff_not] at kept
    obtain ⟨⟨low, last⟩, unlisted⟩ := kept
    have semicolon : char ≠ ';' := fun same => unlisted (same ▸ by decide)
    have space : char ≠ ' ' := fun same => unlisted (same ▸ by decide)
    simp only [ne_eq, Char.ext_iff, ← UInt32.toNat_inj] at last space
    simp only [Char.le_def, Char.lt_def, UInt32.le_iff_toNat_le, UInt32.lt_iff_toNat_lt] at low ascii ⊢
    have values : ' '.val.toNat = 32 ∧ '!'.val.toNat = 33 ∧ '~'.val.toNat = 126 ∧ '\x7f'.val.toNat = 127 := by decide
    exact ⟨by omega, by omega, semicolon⟩

def sessionPieces (domain date : Text) : List Text :=
  [" Path=/".toList, " Domain".toList ++ '=' :: domain, " Expires".toList ++ '=' :: date,
    " HttpOnly".toList, " Secure".toList,
    " SameSite=Lax".toList]

theorem cookieText_session (id domain : Text) (expires : Int) :
    cookieText sessionCookieName id (some domain) (some expires) none =
      [';'].intercalate ((sessionCookieName ++ '=' :: encodeCookieValue id) ::
        sessionPieces domain (httpDate (expires / 1000000000))) := by
  simp [cookieText, sessionPieces, List.intercalate]

theorem isWhitespace_of_visible {char : Char} (low : '!' ≤ char) (high : char ≤ '~') : isWhitespace char = false := by
  have listed : char ∉ [' ', '\x85', '\xa0', '\u1680', '\u2028', '\u2029', '\u202f', '\u205f', '\u3000'] := by
    simp only [mem_cons, not_mem_nil, or_false]
    rintro (rfl | rfl | rfl | rfl | rfl | rfl | rfl | rfl | rfl) <;> simp at low high
  have above : ¬ char ≤ '\r' := fun below => absurd (low.trans below) (by decide)
  have below : ¬ '\u2000' ≤ char := fun above => absurd (above.trans high) (by decide)
  rw [isWhitespace, decide_eq_false listed, decide_eq_false above, decide_eq_false below]
  simp

theorem trim_of_clean {text : Text} (clean : ∀ char ∈ text, isWhitespace char = false) : trim text = text := by
  have front : text.dropWhile isWhitespace = text := by
    cases text with
    | nil => rfl
    | cons char => exact dropWhile_cons_of_neg (by simp [clean char mem_cons_self])
  unfold trim
  rw [front, rdropWhile_eq_self_iff]
  intro given
  simp [clean _ (getLast_mem given)]

/-- Another cookie of a header, however it is spelled. -/
def Other (name piece : Text) : Prop := ';' ∉ piece ∧ ∀ pair, splitOnce '=' (trim piece) = some pair → pair.1 ≠ name

def isHeaderChar (char : Char) : Bool := ' ' ≤ char && char ≠ '\x7f' || char = '\t'

def isReadable (char : Char) : Bool := ' ' ≤ char && char < '\x7f' || char = '\t'

theorem readable_of_visible {char : Char} (low : '!' ≤ char) (high : char ≤ '~') : isReadable char = true := by
  have above : ' ' ≤ char := Char.le_trans (by decide) low
  have below : char < '\x7f' := lt_of_le_of_lt high (by decide)
  simp [isReadable, above, below]

theorem headerChar_of_visible {char : Char} (low : ' ' ≤ char) (high : char ≤ '~') : isHeaderChar char = true := by
  have other : char ≠ '\x7f' := ne_of_lt (lt_of_le_of_lt high (by decide))
  simp [isHeaderChar, low, other]

theorem all_intercalate {good : Char → Bool} (sound : good ';' = true) (pieces : List Text) :
    ([';'].intercalate pieces).all good = pieces.all (·.all good) := by
  induction pieces with
  | nil => rfl
  | cons piece pieces ih =>
    cases pieces with
    | nil => simp
    | cons => simpa [intercalate_cons_cons, sound] using congrArg (piece.all good && ·) ih

def flowNames : List Text := [stateCookieName, nonceCookieName, nextCookieName]

theorem visible_pair {name : Text} (known : name ∈ sessionCookieName :: flowNames) (value : Text) :
    '=' ∉ name ∧ ∀ char ∈ name ++ '=' :: encodeCookieValue value, '!' ≤ char ∧ char ≤ '~' ∧ char ≠ ';' := by
  have fixed : (sessionCookieName :: flowNames).all (fun name =>
      '=' ∉ name && (name ++ ['=']).all fun char => '!' ≤ char ∧ char ≤ '~' ∧ char ≠ ';') = true := by decide
  simp only [List.all_eq_true, Bool.and_eq_true, decide_eq_true_eq] at fixed
  obtain ⟨equals, plain⟩ := fixed name known
  refine ⟨equals, fun char listed => ?_⟩
  rw [append_cons] at listed
  rcases List.mem_append.mp listed with early | late
  · exact plain char early
  · exact encoded_plain value char late

theorem trim_pair {lead pair : Text} (blank : ∀ char ∈ lead, char = ' ')
    (visible : ∀ char ∈ pair, '!' ≤ char ∧ char ≤ '~' ∧ char ≠ ';') :
    trim (lead ++ pair) = pair := by
  have skipped : trim (lead ++ pair) = trim pair := by
    unfold trim
    rw [dropWhile_append_of_pos fun char listed => by rw [blank char listed]; rfl]
  rw [skipped]
  apply trim_of_clean
  exact fun char listed => isWhitespace_of_visible (visible char listed).1 (visible char listed).2.1

/-- What one piece of a header says of the cookie that is looked for. -/
def readPiece (name piece : Text) : Option Text :=
  (splitOnce '=' (trim piece)).bind fun (candidate, value) => if candidate = name then Percent.decode value else none

theorem readPiece_other {name piece : Text} (other : Other name piece) : readPiece name piece = none := by
  unfold readPiece
  cases split : splitOnce '=' (trim piece) with
  | none => rfl
  | some pair => exact if_neg (other.2 pair split)

theorem readPiece_own {name value lead : Text} (known : name ∈ sessionCookieName :: flowNames)
    (blank : ∀ char ∈ lead, char = ' ') :
    readPiece name (lead ++ (name ++ '=' :: encodeCookieValue value)) = some value := by
  obtain ⟨equals, visible⟩ := visible_pair known value
  have decoded : Percent.decode (encodeCookieValue value) = some value := Percent.decode_encode (by decide) value
  rw [readPiece, trim_pair blank visible, splitOnce_append equals]
  simp [decoded]

theorem cookieValue_pieces {name : Text} {headers : HeaderMap} {header : HeaderValue} {pieces : List Text}
    (only : headers.getAll .cookie = [header]) (spelled : header.text = [';'].intercalate pieces) (given : pieces ≠ [])
    (clean : ∀ piece ∈ pieces, ';' ∉ piece) :
    cookieValue headers name = if pieces.all (·.all isReadable) then pieces.findSome? (readPiece name) else none := by
  have whole : header.toStr = if pieces.all (·.all isReadable) then some header.text else none := by
    rw [← all_intercalate (by decide), ← spelled]
    rfl
  unfold cookieValue
  rw [only, filterMap_cons, filterMap_nil, whole]
  split
  next readable =>
    split at readable
    next => cases readable
    next unreadable =>
      rw [if_neg unreadable]
      rfl
  next readable =>
    split at readable
    next all =>
      cases readable
      rw [if_pos all, flatMap_singleton, spelled, splitOn_intercalate ';' clean given, ← head?_filterMap,
        filterMap_filterMap, head?_filterMap]
      rfl
    next => cases readable

theorem findSome_readPiece {name value : Text} {pieces : List Text}
    (read : ∃ own ∈ pieces, readPiece name own = some value)
    (others : ∀ piece ∈ pieces, readPiece name piece = none ∨ readPiece name piece = some value) :
    pieces.findSome? (readPiece name) = some value := by
  obtain ⟨own, listed, found⟩ := read
  cases first : pieces.findSome? (readPiece name) with
  | none => exact absurd (found ▸ List.findSome?_eq_none_iff.mp first own listed) (by simp)
  | some other =>
    obtain ⟨piece, member, gives⟩ := List.exists_of_findSome?_eq_some first
    rcases others piece member with none | same
    · rw [none] at gives
      cases gives
    · exact gives.symm.trans same

theorem cookieValue_iff {name value lead : Text} {before after : List Text} {headers : HeaderMap} {header : HeaderValue}
    (known : name ∈ sessionCookieName :: flowNames) (only : headers.getAll .cookie = [header])
    (blank : ∀ char ∈ lead, char = ' ') (others : ∀ piece ∈ before ++ after, Other name piece)
    (spelled : header.text = [';'].intercalate
      (before ++ (lead ++ (name ++ '=' :: encodeCookieValue value)) :: after)) :
    cookieValue headers name = some value ↔ ∀ piece ∈ before ++ after, piece.all isReadable = true := by
  have visible := (visible_pair known value).2
  have readable : (lead ++ (name ++ '=' :: encodeCookieValue value)).all isReadable = true := by
    rw [List.all_append, Bool.and_eq_true, List.all_eq_true, List.all_eq_true]
    exact ⟨fun char listed => blank char listed ▸ by decide, fun char listed =>
      readable_of_visible (visible char listed).1 (visible char listed).2.1⟩
  have own : ';' ∉ lead ++ (name ++ '=' :: encodeCookieValue value) := by
    rw [mem_append]
    rintro (first | last)
    · cases blank ';' first
    · exact (visible ';' last).2.2 rfl
  have split {good : Text → Prop} :
      (∀ piece ∈ before ++ (lead ++ (name ++ '=' :: encodeCookieValue value)) :: after, good piece) ↔
      good (lead ++ (name ++ '=' :: encodeCookieValue value)) ∧ ∀ piece ∈ before ++ after, good piece := by
    simp only [mem_append, mem_cons]
    grind
  have clean := split.mpr ⟨own, fun piece listed => (others piece listed).1⟩
  rw [cookieValue_pieces only spelled (by simp) clean]
  by_cases all : ∀ piece ∈ before ++ after, piece.all isReadable = true
  · refine iff_of_true ?_ all
    rw [if_pos (List.all_eq_true.mpr (split.mpr ⟨readable, all⟩))]
    refine findSome_readPiece ⟨_, by simp, readPiece_own known blank⟩ (split.mpr ⟨.inr (readPiece_own known blank), ?_⟩)
    exact fun piece listed => .inl (readPiece_other (others piece listed))
  · refine iff_of_false ?_ all
    rw [if_neg fun whole => all (split.mp (List.all_eq_true.mp whole)).2]
    nofun

theorem not_mem_of_mem_splitOn {text piece : Text} (listed : piece ∈ text.splitOn ';') : ';' ∉ piece := by
  unfold List.splitOn at listed
  induction text generalizing piece with
  | nil => simp_all
  | cons char text ih =>
    rw [splitOnP_cons_eq_if_modifyHead] at listed
    split at listed
    next =>
      rcases mem_cons.mp listed with rfl | later
      · exact not_mem_nil
      · exact ih later
    next other =>
      cases pieces : splitOnP (· == ';') text with
      | nil => simp [pieces] at listed
      | cons first rest =>
        rw [pieces, modifyHead_cons] at listed
        rw [pieces] at ih
        rcases mem_cons.mp listed with rfl | later
        · rw [mem_cons]
          rintro (rfl | inside)
          · exact other rfl
          · exact ih mem_cons_self inside
        · exact ih (mem_cons_of_mem _ later)

/-- A piece that stays one piece of the header it is written into. -/
def Sound (piece : Text) : Prop := ';' ∉ piece ∧ piece.all isHeaderChar = true
deriving Decidable

theorem cookie_split {pieces : List Text} (given : pieces ≠ []) :
    (∃ header, HeaderValue.fromStr ([';'].intercalate pieces) = some header ∧ header.text.splitOn ';' = pieces) ↔
      ∀ piece ∈ pieces, Sound piece := by
  have fits : ([';'].intercalate pieces).all isHeaderChar = true ↔ ∀ piece ∈ pieces, piece.all isHeaderChar = true := by
    rw [all_intercalate (by decide), List.all_eq_true]
  constructor
  · rintro ⟨header, made, split⟩ piece listed
    unfold HeaderValue.fromStr at made
    split at made
    next valid =>
      cases made
      exact ⟨not_mem_of_mem_splitOn (split ▸ listed), fits.mp valid piece listed⟩
    next => cases made
  · intro sound
    have valid := fits.mpr fun piece listed => (sound piece listed).2
    exact ⟨⟨_, valid⟩, dif_pos valid, splitOn_intercalate ';' (fun piece listed => (sound piece listed).1) given⟩

theorem headerChar_of_date {char : Char} (date : isDateChar char = true) : isHeaderChar char = true := by
  simp only [isDateChar, Bool.or_eq_true, decide_eq_true_eq] at date
  rcases date with letter | mark
  · simp only [Char.isAlphanum, Char.isAlpha, Char.isUpper, Char.isLower, Char.isDigit, Bool.or_eq_true,
      Bool.and_eq_true, decide_eq_true_eq] at letter
    rcases letter with (⟨low, high⟩ | ⟨low, high⟩) | ⟨low, high⟩
    all_goals exact headerChar_of_visible (Char.le_trans (by decide) low) (Char.le_trans high (by decide))
  · fin_cases mark <;> decide

def flowPieces : List Text :=
  [" Path=/".toList, " Max-Age=600".toList, " HttpOnly".toList, " Secure".toList, " SameSite=Lax".toList]

theorem cookieText_flow (name value : Text) : cookieText name value none none (some flowCookieTtlSeconds) =
    [';'].intercalate ((name ++ '=' :: encodeCookieValue value) :: flowPieces) := by
  have digits : integer flowCookieTtlSeconds = "600".toList := by decide
  simp [cookieText, flowPieces, List.intercalate, digits]

theorem sound_pair {name : Text} (known : name ∈ sessionCookieName :: flowNames) (value : Text) :
    Sound (name ++ '=' :: encodeCookieValue value) := by
  have visible := (visible_pair known value).2
  refine ⟨fun inside => (visible ';' inside).2.2 rfl, List.all_eq_true.mpr fun char listed => ?_⟩
  exact headerChar_of_visible (Char.le_trans (by decide) (visible char listed).1) (visible char listed).2.1

theorem sound_attribute {name value : Text} (fine : Sound name) : Sound (name ++ '=' :: value) ↔ Sound value := by
  have equals : isHeaderChar '=' = true := by decide
  simp [Sound, fine.1, fine.2, equals]

theorem sound_httpDate (second : Int) : Sound (httpDate second) := by
  have plain := httpDate_plain second
  exact ⟨fun listed => absurd (plain ';' listed) (by decide), List.all_eq_true.mpr fun char listed =>
    headerChar_of_date (plain char listed)⟩

/-- A cookie is read back just when all cookies beside it are readable, and nothing in its
value is an attribute. -/
theorem cookies_read_back (value : Text) (given : value ≠ []) :
    (∀ name ∈ sessionCookieName :: flowNames,
      ∀ (headers : HeaderMap) (header : HeaderValue) (lead : Text) (before after : List Text),
      headers.getAll .cookie = [header] → (∀ char ∈ lead, char = ' ') → (∀ piece ∈ before ++ after, Other name piece) →
      header.text = [';'].intercalate (before ++ (lead ++ (name ++ '=' :: encodeCookieValue value)) :: after) →
      (cookieValue headers name = some value ↔ ∀ piece ∈ before ++ after, piece.all isReadable = true)) ∧
    (∀ (service : Service) (session : Session), session.id = value →
      ((∃ header, service.sessionCookie session = some header ∧
        header.text.splitOn ';' = (sessionCookieName ++ '=' :: encodeCookieValue value) ::
          sessionPieces service.baseDomain.text (httpDate (session.expiresAt / 1000000000))) ↔
      ';' ∉ service.baseDomain.text ∧ service.baseDomain.text.all isHeaderChar = true)) ∧
    ∀ name ∈ flowNames, ∃ header, flowCookie name value = some header ∧
      header.text.splitOn ';' = (name ++ '=' :: encodeCookieValue value) :: flowPieces := by
  refine ⟨fun name known headers header lead before after only blank others => cookieValue_iff known only blank others,
    fun service session same => ?_, fun name known => ?_⟩
  · subst same
    unfold Service.sessionCookie cookieHeader
    rw [cookieText_session, cookie_split (cons_ne_nil _ _), List.forall_mem_cons,
      and_iff_right (sound_pair mem_cons_self _)]
    have fixed : Sound " Path=/".toList ∧ Sound " HttpOnly".toList ∧ Sound " Secure".toList ∧
      Sound " SameSite=Lax".toList := by decide
    have inDomain := @sound_attribute " Domain".toList service.baseDomain.text (by decide)
    have expires := (@sound_attribute " Expires".toList _ (by decide)).mpr
      (sound_httpDate (session.expiresAt / 1000000000))
    simp only [sessionPieces, List.forall_mem_cons, fixed, inDomain, expires, not_mem_nil, false_imp_iff,
      implies_true, true_and, and_true]
    rfl
  · have fixed : ∀ piece ∈ flowPieces, Sound piece := by decide
    unfold flowCookie hostCookie cookieHeader
    rw [if_neg given, cookieText_flow, cookie_split (cons_ne_nil _ _)]
    exact List.forall_mem_cons.mpr ⟨sound_pair (mem_cons_of_mem _ known) value, fixed⟩

/-- A cookie that a page of an instance has set hides the session behind it. -/
theorem cookies_hidden : cookieValue (Multimap.empty.append .cookie ⟨"é=1; bento_session=a".toList, by decide⟩)
    sessionCookieName = none := by
  decide

theorem cookies_read_back_second :
    cookieValue (Multimap.empty.append .cookie ⟨"theme=1; bento_session=a".toList, by decide⟩)
      sessionCookieName = some ['a'] := by
  refine ((cookies_read_back ['a'] (by decide)).1 sessionCookieName mem_cons_self _ _ [' '] ["theme=1".toList] []
    (getAll_append _ _ _) (fun _ => List.mem_singleton.mp) ?_ (by decide)).mpr (by decide)
  intro piece listed
  rw [List.mem_singleton.mp listed]
  refine ⟨by decide, fun pair found => ?_⟩
  cases found
  decide

end Bento.Auth
