import Bento.Library.Decimal
import Bento.Library.Multimap
import Mathlib

/-! The parts of HTTP that the controller and the proxy handle: header names and values,
header maps, requests and responses. Texts are characters; what a header may hold beyond
ASCII is kept as it stands. -/

namespace Bento.Http
open Library Library.Decimal Bool List

def lowercase (text : Text) : Text := text.map Char.toLower

def trimEndDots (text : Text) : Text := text.rdropWhile (· = '.')

def normalHost (host : Text) : Text := lowercase (trimEndDots host)

theorem toLower_eq_iff {char other : Char} (plain : other.isAlpha = false) : char.toLower = other ↔ char = other := by
  by_cases upper : char.isUpper
  · have letter : char.toLower.isAlpha = true := by simp [Char.isAlpha, upper]
    constructor
    · intro same
      rw [same, plain] at letter
      cases letter
    · intro same
      rw [← same, Char.isAlpha, upper] at plain
      cases plain
  · rw [Char.toLower_eq_of_not_isUpper upper]

theorem mem_lowercase {char : Char} {text : Text} (plain : char.isAlpha = false) :
    char ∈ lowercase text ↔ char ∈ text := by
  simp [lowercase, toLower_eq_iff plain]

theorem trimEndDots_lowercase (text : Text) : trimEndDots (lowercase text) = lowercase (trimEndDots text) := by
  have blind : (fun char : Char => decide (char = '.')) ∘ Char.toLower = fun char => decide (char = '.') := by
    funext char
    simp [toLower_eq_iff (show '.'.isAlpha = false by decide)]
  unfold trimEndDots lowercase List.rdropWhile
  rw [← map_reverse, dropWhile_map, blind, map_reverse]

theorem mem_normalHost {char : Char} {host : Text} (plain : char.isAlpha = false) (listed : char ∈ normalHost host) :
    char ∈ host := by
  have front : trimEndDots host <+: host := rdropWhile_prefix _ host
  exact front.subset ((mem_lowercase plain).mp listed)

theorem normalHost_normalHost (host : Text) : normalHost (normalHost host) = normalHost host := by
  unfold normalHost
  rw [trimEndDots_lowercase]
  unfold trimEndDots lowercase
  rw [rdropWhile_idempotent, map_map]
  exact congrArg (List.map · _) (funext Char.toLower_toLower_eq_toLower)

structure Domain where
  text : Text
  normal : normalHost text = text

def Domain.of (text : Text) : Domain := ⟨normalHost text, normalHost_normalHost text⟩

def isLabelChar (char : Char) : Bool := char.isLower || isDigit char

def validName (name : Text) : Bool :=
  name ≠ [] && name.length ≤ 63 && name.head?.any isLabelChar && name.getLast?.any isLabelChar &&
    name.all fun char => isLabelChar char || char = '-'

def labelUnder (domain host : Text) : Option Text := host.dropSuffix? ('.' :: domain)

theorem labelUnder_eq_some {domain host label : Text} : labelUnder domain host = some label ↔
    host = label ++ '.' :: domain := by
  unfold labelUnder
  rw [List.dropSuffix?_eq_some_iff]
  simp

section
variable {name : Text}

theorem mem_validName {char : Char} (valid : validName name = true) (listed : char ∈ name) :
    isLabelChar char = true ∨ char = '-' := by
  simp only [validName, and_eq_true, all_eq_true, or_eq_true, decide_eq_true_eq] at valid
  exact valid.2 char listed

theorem validName_ne_nil (valid : validName name = true) : name ≠ [] := by
  simp only [validName, and_eq_true, decide_eq_true_eq] at valid
  exact valid.1.1.1.1

theorem validName_flat (valid : validName name = true) : '.' ∉ name := by
  intro dot
  rcases mem_validName valid dot with label | dash
  · exact absurd label (by decide)
  · cases dash

theorem validName_lowercase (valid : validName name = true) : lowercase name = name := by
  have same (char : Char) (listed : char ∈ name) : char.toLower = char := by
    apply Char.toLower_eq_of_not_isUpper
    intro upper
    rcases mem_validName valid listed with label | rfl
    · simp only [isLabelChar, Char.isLower, Char.isUpper, isDigit, or_eq_true, and_eq_true, decide_eq_true_eq,
        Char.le_def, ge_iff_le, UInt32.le_iff_toNat_le] at label upper
      have letters : 'A'.val.toNat = 65 ∧ 'Z'.val.toNat = 90 ∧ 'a'.val.toNat = 97 ∧ '0'.val.toNat = 48 ∧
        '9'.val.toNat = 57 := by decide
      omega
    · exact absurd upper (by decide)
  exact (map_congr_left same).trans (map_id' name)

theorem normalHost_under {domain : Text} (valid : validName name = true) (present : domain ≠ [])
    (normal : normalHost domain = domain) :
    normalHost (name ++ '.' :: domain) = name ++ '.' :: domain := by
  have trimmed : trimEndDots domain = domain := by
    have front : trimEndDots domain <+: domain := rdropWhile_prefix _ domain
    apply front.eq_of_length
    simpa [normalHost, lowercase, trimEndDots] using congrArg List.length normal
  have lower : lowercase domain = domain := by rwa [normalHost, trimmed] at normal
  have kept : trimEndDots (name ++ '.' :: domain) = name ++ '.' :: domain := by
    unfold trimEndDots at trimmed ⊢
    rw [rdropWhile_eq_self_iff] at trimmed ⊢
    intro longer
    rw [getLast_append_of_ne_nil longer (cons_ne_nil _ _), getLast_cons present]
    exact trimmed present
  rw [normalHost, kept, lowercase, map_append, map_cons]
  exact congrArg₂ (fun first last => first ++ '.' :: last) (validName_lowercase valid) lower

end

def isTokenChar (char : Char) : Bool := isLabelChar char || char ∈ "!#$%&'*+-.^_`|~".toList

structure HeaderName where
  text : Text
  valid : (text ≠ [] && text.length ≤ 65535 && text.all isTokenChar) = true
deriving DecidableEq

def HeaderName.fromBytes (bytes : Text) : Option HeaderName :=
  if valid : _ then some ⟨lowercase bytes, valid⟩ else none

structure HeaderValue where
  text : Text
  valid : text.all (fun char => ' ' ≤ char && char ≠ '\x7f' || char = '\t') = true
deriving DecidableEq

def HeaderValue.fromStr (text : Text) : Option HeaderValue :=
  if valid : _ then some ⟨text, valid⟩ else none

theorem text_of_fromStr {text : Text} {value : HeaderValue} (made : HeaderValue.fromStr text = some value) :
    value.text = text := by
  unfold HeaderValue.fromStr at made
  split at made <;> cases made
  rfl

def HeaderValue.toStr (value : HeaderValue) : Option Text :=
  if value.text.all (fun char => ' ' ≤ char && char < '\x7f' || char = '\t') then some value.text else none

def HeaderValue.textPlain : HeaderValue := ⟨"text/plain; charset=utf-8".toList, by decide⟩

def HeaderValue.textHtml : HeaderValue := ⟨"text/html; charset=utf-8".toList, by decide⟩

abbrev HeaderMap := Multimap HeaderName HeaderValue

namespace HeaderName

def authorization : HeaderName := ⟨"authorization".toList, by decide⟩
def cacheControl : HeaderName := ⟨"cache-control".toList, by decide⟩
def connection : HeaderName := ⟨"connection".toList, by decide⟩
def contentType : HeaderName := ⟨"content-type".toList, by decide⟩
def cookie : HeaderName := ⟨"cookie".toList, by decide⟩
def forwarded : HeaderName := ⟨"forwarded".toList, by decide⟩
def host : HeaderName := ⟨"host".toList, by decide⟩
def keepAlive : HeaderName := ⟨"keep-alive".toList, by decide⟩
def location : HeaderName := ⟨"location".toList, by decide⟩
def proxyAuthenticate : HeaderName := ⟨"proxy-authenticate".toList, by decide⟩
def proxyAuthorization : HeaderName := ⟨"proxy-authorization".toList, by decide⟩
def proxyConnection : HeaderName := ⟨"proxy-connection".toList, by decide⟩
def retryAfter : HeaderName := ⟨"retry-after".toList, by decide⟩
def setCookie : HeaderName := ⟨"set-cookie".toList, by decide⟩
def te : HeaderName := ⟨"te".toList, by decide⟩
def trailer : HeaderName := ⟨"trailer".toList, by decide⟩
def transferEncoding : HeaderName := ⟨"transfer-encoding".toList, by decide⟩
def upgrade : HeaderName := ⟨"upgrade".toList, by decide⟩
def xContentTypeOptions : HeaderName := ⟨"x-content-type-options".toList, by decide⟩
def xForwardedFor : HeaderName := ⟨"x-forwarded-for".toList, by decide⟩
def xForwardedHost : HeaderName := ⟨"x-forwarded-host".toList, by decide⟩
def xForwardedProto : HeaderName := ⟨"x-forwarded-proto".toList, by decide⟩

end HeaderName

structure Uri where
  scheme : Option Text
  authority : Option Text
  pathAndQuery : Option Text
deriving DecidableEq

structure Request (β : Type) where
  uri : Uri
  headers : HeaderMap
  rest : β
deriving DecidableEq

structure Response (β : Type) where
  status : Nat
  headers : HeaderMap
  body : β
deriving DecidableEq

end Bento.Http
