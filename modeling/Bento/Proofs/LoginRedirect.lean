import Bento.Auth.Redirect

/-! The redirect after a login, as a browser on the base domain reads it. A target that is
a URL is read alike by the controller and by the browser. A target that starts with a slash
is not: the controller looks for a second slash as it stands, where the browser takes a
backslash for a slash and leaves out tabs. -/

namespace Bento.Auth
open Library Library.Decimal Library.Url Http

def Service.Site (service : Service) (host : Text) : Prop :=
  normalHost host = service.baseDomain.text ∨
    ∃ label, labelUnder service.instanceDomain.text (normalHost host) = some label ∧ '.' ∉ label ∧
      service.instanceNames.any (· label) = true

def Service.OnSite (service : Service) : Target → Prop
  | .host name => service.Site name
  | .invalid | .otherScheme _ => False

/-- The target starts with one slash, the browser sees a second one after it, and what
follows is not a host of the site. -/
structure Service.Escapes (hostParse : Text → Option Text) (service : Service) (next : Text) : Prop where
  sendable : (HeaderValue.fromStr next).isSome
  path : ∃ tail, next = '/' :: tail ∧ tail.head? ≠ some '/'
  leaves : ∃ second rest, preprocess next = '/' :: second :: rest ∧ isSlash second = true ∧
    ¬ service.OnSite (specialAuthorityIgnoreSlashes hostParse rest)

variable {hostParse : Text → Option Text} {service : Service} {next : Text}

theorem safeNext_path {tail : Text} (single : tail.head? ≠ some '/') :
    service.safeNext hostParse ('/' :: tail) = '/' :: tail := by
  unfold Service.safeNext
  split
  · contradiction
  next same =>
    cases same
    exact absurd rfl single
  · rfl
  next shape => exact absurd rfl (shape tail)

theorem safeNext_root : service.safeNext hostParse root = root := safeNext_path (by simp)

theorem safeNext_cases (service : Service) (hostParse : Text → Option Text) (next : Text) :
    service.safeNext hostParse next = root ∨ service.safeNext hostParse next = next ∧
      ((∃ tail, next = '/' :: tail ∧ tail.head? ≠ some '/') ∨ next.head? ≠ some '/' ∧
        ∃ name, parse hostParse next = .host name ∧ (normalHost name = service.baseDomain.text ∨
          ∃ label, labelUnder service.instanceDomain.text (normalHost name) = some label ∧ '.' ∉ label)) := by
  unfold Service.safeNext
  split
  · exact .inl rfl
  · exact .inl rfl
  next tail single =>
    refine .inr ⟨rfl, .inl ⟨tail, rfl, ?_⟩⟩
    intro second
    cases tail with
    | nil => cases second
    | cons first rest =>
      cases second
      exact single rest rfl
  next noPath =>
    have plain : next.head? ≠ some '/' := by
      intro slash
      obtain ⟨tail, rfl⟩ := List.head?_eq_some_iff.mp slash
      exact noPath tail rfl
    split
    next name found =>
      dsimp only
      split
      next base => exact .inr ⟨rfl, .inr ⟨plain, name, found, .inl base⟩⟩
      next =>
        split
        next label under =>
          split
          next fits => exact .inr ⟨rfl, .inr ⟨plain, name, found, .inr ⟨label, under, fits.1⟩⟩⟩
          next => exact .inl rfl
        next => exact .inl rfl
    next => exact .inl rfl

theorem safeNext_safeNext (service : Service) (hostParse : Text → Option Text) (next : Text) :
    service.safeNext hostParse (service.safeNext hostParse next) = service.safeNext hostParse next := by
  rcases safeNext_cases service hostParse next with refused | ⟨kept, -⟩
  · rw [refused, safeNext_root]
  · rw [kept, kept]

theorem checkedNext_safeNext (service : Service) (hostParse : Text → Option Text) (next : Text) :
    service.checkedNext hostParse (service.safeNext hostParse next) = service.checkedNext hostParse next := by
  unfold Service.checkedNext
  rw [safeNext_safeNext]

theorem checkedNext_path {tail : Text} (single : tail.head? ≠ some '/') :
    service.checkedNext hostParse ('/' :: tail) = '/' :: tail := by
  unfold Service.checkedNext
  rw [safeNext_path single]
  rfl

theorem checkedNext_cases (service : Service) (hostParse : Text → Option Text) (next : Text) :
    service.checkedNext hostParse next = root ∨ service.checkedNext hostParse next = next ∧
      ((∃ tail, next = '/' :: tail ∧ tail.head? ≠ some '/') ∨
        ∃ name, parse hostParse next = .host name ∧ service.Site name) := by
  rcases safeNext_cases service hostParse next with refused | ⟨kept, path | ⟨plain, name, found, shape⟩⟩
  · left
    unfold Service.checkedNext
    rw [refused]
    rfl
  · obtain ⟨tail, rfl, single⟩ := path
    exact .inr ⟨checkedNext_path single, .inl ⟨tail, rfl, single⟩⟩
  · unfold Service.checkedNext
    simp only [kept, if_neg plain, found]
    split
    next base => exact .inr ⟨rfl, .inr ⟨name, rfl, .inl base⟩⟩
    next other =>
      obtain ⟨label, under, flat⟩ := shape.resolve_left other
      simp only [under]
      split
      next known => exact .inr ⟨rfl, .inr ⟨name, rfl, .inr ⟨label, under, flat, known⟩⟩⟩
      next => exact .inl rfl

theorem redirectResponse_location (next : Text) :
    (redirectResponse next).headers.get .location = HeaderValue.fromStr next := by
  unfold redirectResponse
  split
  next refused =>
    rw [refused]
    decide
  next location sent =>
    rw [sent]
    rfl

theorem appendCookies_location (cookies : List HeaderValue) (response : HttpResponse) :
    (cookies.foldl appendCookie response).headers.get .location = response.headers.get .location := by
  induction cookies generalizing response with
  | nil => rfl
  | cons cookie rest ih =>
    refine (ih _).trans (congrArg (Option.map Prod.fst) ?_)
    exact Multimap.values_alter_of_ne (by decide) response.headers _

theorem callbackResponse_location (service : Service) (hostParse : Text → Option Text) (query : Option Text)
    (cookies : List HeaderValue) :
    (service.callbackResponse hostParse (some (service.loginNext hostParse query)) cookies).headers.get .location =
      HeaderValue.fromStr (service.checkedNext hostParse (query.getD [])) := by
  unfold Service.callbackResponse Service.loginNext
  rw [appendCookies_location, redirectResponse_location]
  exact congrArg HeaderValue.fromStr (checkedNext_safeNext service hostParse _)

theorem onSite_base : service.OnSite (.host service.baseDomain.text) := .inl service.baseDomain.normal

theorem resolve_path {tail : Text} (single : tail.head? ≠ some '/')
    (sendable : (HeaderValue.fromStr ('/' :: tail)).isSome) :
    service.OnSite (resolve hostParse service.baseDomain.text ('/' :: tail)) ↔
      ¬ service.Escapes hostParse ('/' :: tail) := by
  obtain ⟨seen, read⟩ := preprocess_slash tail
  rw [resolve_slash read]
  constructor
  · intro stays escapes
    obtain ⟨second, rest, found, slash, off⟩ := escapes.leaves
    cases read.symm.trans found
    simp only [relativeSlash, slash, if_true] at stays
    exact off stays
  · intro safe
    unfold relativeSlash
    split
    next second rest =>
      split
      next slash =>
        by_contra off
        exact safe ⟨sendable, ⟨tail, rfl, single⟩, second, rest, read, slash, off⟩
      next => exact onSite_base
    next => exact onSite_base

theorem resolve_root : service.OnSite (resolve hostParse service.baseDomain.text root) := onSite_base

/-- A login ends on the base domain or on an instance, whatever target it was given, unless
the target is one that `Escapes` describes. -/
theorem login_redirect_stays (service : Service) (hostParse : Text → Option Text) (query : Option Text)
    (cookies : List HeaderValue) :
    (∀ location, (service.callbackResponse hostParse (some (service.loginNext hostParse query)) cookies).headers.get
        .location = some location → service.OnSite (resolve hostParse service.baseDomain.text location.text)) ↔
      ¬ service.Escapes hostParse (query.getD []) := by
  rw [callbackResponse_location]
  generalize query.getD [] = next
  constructor
  · intro stays escapes
    obtain ⟨tail, rfl, single⟩ := escapes.path
    obtain ⟨location, sent⟩ := Option.isSome_iff_exists.mp escapes.sendable
    rw [checkedNext_path single] at stays
    have landed := stays location sent
    rw [text_of_fromStr sent] at landed
    exact (resolve_path single escapes.sendable).mp landed escapes
  · intro safe location sent
    rw [text_of_fromStr sent]
    rcases checkedNext_cases service hostParse next with refused | ⟨kept, ⟨tail, rfl, single⟩ | ⟨name, found, site⟩⟩
    · rw [refused]
      exact resolve_root
    · rw [kept] at sent ⊢
      exact (resolve_path single (Option.isSome_of_eq_some sent)).mpr safe
    · rw [kept]
      rcases resolve_of_parse service.baseDomain.text found with stays | goes
      · rw [stays]
        exact onSite_base
      · rw [goes]
        exact site

def exampleService : Service := (Service.new "bento.example.org".toList).withInstanceNames fun _ => false

def exampleLanding (next : Text) : Option Target :=
  ((exampleService.callbackResponse some (some (exampleService.loginNext some (some next))) []).headers.get
    .location).map fun location => resolve some exampleService.baseDomain.text location.text

/-- Both targets start with one slash, pass both checks, and take the browser elsewhere. -/
theorem login_redirect_leaves : exampleLanding "/\\evil.example.com".toList = some (.host "evil.example.com".toList) ∧
      exampleLanding "/\t/evil.example.com".toList = some (.host "evil.example.com".toList) ∧
      ¬ exampleService.OnSite (.host "evil.example.com".toList) := by
  refine ⟨by decide, by decide, ?_⟩
  intro stays
  rcases stays with base | ⟨label, under, -⟩
  · exact absurd base (by decide)
  · rw [show labelUnder _ _ = none by decide] at under
    cases under

end Bento.Auth
