import Bento.Bentod.Wiring

/-! One domain under several spellings. The certificate and the login service take a domain in
lower case and without its last dots, and the proxy takes the instance domain as it was
written. -/

namespace Bento
open Library.Decimal Library.Results Library.Url Http List

def Proxy.nameOf (proxy : Proxy) (host : Text) : Option Text :=
  if host = proxy.baseDomain then none
  else (labelUnder proxy.instanceDomain host).filter fun name => name ≠ [] ∧ '.' ∉ name

theorem Proxy.nameOf_eq_some {proxy : Proxy} {host name : Text} :
    proxy.nameOf host = some name ↔ host ≠ proxy.baseDomain ∧ host = name ++ '.' :: proxy.instanceDomain ∧
      name ≠ [] ∧ '.' ∉ name := by
  unfold Proxy.nameOf
  split
  next base => simp [base]
  next other => simp [other, Option.filter_eq_some_iff, labelUnder_eq_some]

theorem handleConnection_waiting {β : Type} (proxy : Proxy) (validAuthority : Text → Bool) (request : Request β)
    (listenerPort : UInt16) (remote : Text) (serverName : Option Text) (tls : Bool) (name : Text) :
    (proxy.handleConnection validAuthority request listenerPort remote serverName tls).waiting =
      some (.instanceByName name) ↔
      proxy.nameOf (Proxy.requestHost request serverName) = some name := by
  unfold Proxy.handleConnection Proxy.nameOf
  dsimp only
  split
  next base =>
    split
    next => exact ⟨nofun, nofun⟩
    next => exact ⟨nofun, nofun⟩
  next =>
    cases labelUnder proxy.instanceDomain (Proxy.requestHost request serverName) with
    | none => exact ⟨nofun, nofun⟩
    | some label =>
      dsimp only
      split
      next refused =>
        have missing : ¬ (label ≠ [] ∧ '.' ∉ label) := fun fine => refused.elim fine.1 fine.2
        simp only [Option.filter, decide_eq_false missing]
        exact ⟨nofun, nofun⟩
      next fine =>
        rw [not_or] at fine
        simp only [Option.filter, decide_eq_true fine]
        constructor
        · intro waits
          cases waits
          rfl
        · intro same
          cases same
          rfl

namespace Config
variable {quote : Text → Text} {production : Text} {config : Config} {name : Text}

def published (config : Config) : Text :=
  if normalHost config.instanceDomain = [] then normalHost config.baseDomain else normalHost config.instanceDomain

def hostOf (config : Config) (name : Text) : Text := name ++ '.' :: config.published

/-- Every spelling of the host leads to the instance, the certificate is good for it, and a
login may return to it. -/
structure Reaches (quote : Text → Text) (production : Text) (config : Config) (name : Text) : Prop where
  proxy : ∃ proxy, config.proxyBuilder.build = .ok proxy ∧
    (∀ host, normalHost host = config.hostOf name → proxy.nameOf (normalHost host) = some name) ∧
    ∀ (β : Type) (request : Request β) validAuthority listenerPort remote serverName tls,
      Proxy.requestHost request serverName = config.hostOf name →
      (proxy.handleConnection validAuthority request listenerPort remote serverName tls).waiting =
        some (.instanceByName name)
  certificate : ∀ dir loaded, dir.loadCertificate = .ok loaded → ∃ manager,
    Tlscert.Manager.new quote production config.tlscert dir = .ok manager ∧
      ∃ subject ∈ manager.domains, Tlscert.covers subject (config.hostOf name)
  login : ∀ hostParse names next host, parse hostParse next = .host host →
    normalHost host = config.hostOf name → names name = true →
    (config.authService names).checkedNext hostParse next = next

/-- A name under the instance domain is reached, unless it is the base domain and reserved. -/
def Serves (quote : Text → Text) (production : Text) (config : Config) (name : Text) : Prop :=
  if config.hostOf name = normalHost config.baseDomain then name ∈ config.reserved
  else config.Reaches quote production name

structure Plain (config : Config) : Prop where
  normal : config.instanceDomain = config.published
  base : normalHost config.baseDomain ≠ []
  baseDot : (normalHost config.baseDomain).head? ≠ some '.'
  publishedDot : config.published.head? ≠ some '.'
  reserved : ∀ name, validName name = true → config.hostOf name = normalHost config.baseDomain →
    config.baseDomain = normalHost config.baseDomain ∨ name ∈ config.reservedNames

theorem refuseUnless_ok {fine : Prop} [Decidable fine] {message : Text} {value : Unit} :
    refuseUnless fine message = .ok value ↔ fine := by
  unfold refuseUnless
  split
  next holds => exact ⟨fun _ => holds, fun _ => rfl⟩
  next fails => exact ⟨nofun, fun holds => absurd holds fails⟩

structure Accepted (config : Config) : Prop where
  baseGiven : config.baseDomain ≠ []
  instanceGiven : config.instanceDomain ≠ []
  baseChars : hasForeignChar config.baseDomain = false
  instanceChars : hasForeignChar config.instanceDomain = false
  portMin : config.listen.proxyPortMin ≠ 0
  ports : config.listen.proxyPortMin ≤ config.listen.proxyPortMax

theorem validate_ok (valid : config.validate quote = .ok ()) : config.Accepted := by
  simp only [validate, bind_ok, refuseUnless_ok] at valid
  obtain ⟨-, base, -, instanceGiven, -, baseChars, -, instanceChars, -, portMin, ports⟩ := valid
  exact ⟨base, instanceGiven, by simpa using baseChars, by simpa using instanceChars, portMin, ports⟩

def Layout (config : Config) : Prop :=
  ¬ (config.listen.proxyPortMin ≤ config.proxyBuilder.mainPort ∧
    config.proxyBuilder.mainPort ≤ config.listen.proxyPortMax)

theorem published_normal (config : Config) : normalHost config.published = config.published := by
  unfold published
  split
  · exact normalHost_normalHost _
  · exact normalHost_normalHost _

theorem published_ne_nil (base : normalHost config.baseDomain ≠ []) : config.published ≠ [] := by
  unfold published
  split
  · exact base
  · assumption

section
variable (accepted : config.Accepted)
include accepted

theorem builder_ports : config.proxyBuilder.highMin = config.listen.proxyPortMin ∧
    config.proxyBuilder.highMax = config.listen.proxyPortMax := by
  have portMax : config.listen.proxyPortMax ≠ 0 := by
    intro zero
    apply accepted.portMin
    have bounded := accepted.ports
    rw [zero] at bounded
    exact UInt16.le_zero_iff.mp bounded
  exact ⟨if_pos accepted.portMin, if_pos portMax⟩

theorem build_ok {proxy : Proxy} (built : config.proxyBuilder.build = .ok proxy) :
    normalHost config.baseDomain ≠ [] ∧ proxy.baseDomain = normalHost config.baseDomain ∧
      proxy.instanceDomain = config.instanceDomain := by
  have spelled : trimEndDots (lowercase config.proxyBuilder.baseDomain) = normalHost config.baseDomain :=
    trimEndDots_lowercase _
  unfold ProxyBuilder.build at built
  rw [spelled] at built
  dsimp only at built
  split at built
  next => cases built
  next base =>
    split at built
    next => cases built
    split at built
    next => cases built
    cases built
    refine ⟨base, rfl, ?_⟩
    change ((some config.instanceDomain).filter _).getD _ = config.instanceDomain
    simp [Option.filter, accepted.instanceGiven]

theorem builds (layout : config.Layout) (base : normalHost config.baseDomain ≠ []) :
    ∃ proxy, config.proxyBuilder.build = .ok proxy := by
  have spelled : trimEndDots (lowercase config.proxyBuilder.baseDomain) = normalHost config.baseDomain :=
    trimEndDots_lowercase _
  obtain ⟨highMin, highMax⟩ := builder_ports accepted
  unfold ProxyBuilder.build
  have ordered : ¬ config.listen.proxyPortMin > config.listen.proxyPortMax := by simpa using accepted.ports
  rw [spelled, if_neg base, highMin, highMax, if_neg ordered, if_neg layout]
  exact ⟨_, rfl⟩

end

theorem isBare_normalHost {text : Text} (clean : hasForeignChar text = false) :
    Tlscert.isBare (normalHost text) = true := by
  have same (char : Char) (plain : char.isAlpha = false) (listed : char ∈ normalHost text)
    (foreign : char ∈ ['*', '/', ' ']) : False := by
    have foreignChar : hasForeignChar text = true :=
      List.any_eq_true.mpr ⟨char, mem_normalHost plain listed, by simpa using foreign⟩
    rw [clean] at foreignChar
    cases foreignChar
  simp only [Tlscert.isBare, Bool.not_eq_true', any_eq_false, decide_eq_true_eq]
  intro char listed foreign
  have plain : char.isAlpha = false := by
    simp only [mem_cons, not_mem_nil, or_false] at foreign
    rcases foreign with rfl | rfl | rfl <;> decide
  exact same char plain listed foreign

theorem manager_new_ok {dir : Tlscert.StorageDir} {manager : Tlscert.Manager}
    (made : Tlscert.Manager.new quote production config.tlscert dir = .ok manager) :
    normalHost config.baseDomain ≠ [] ∧ (normalHost config.baseDomain).head? ≠ some '.' ∧
      config.published.head? ≠ some '.' ∧
      manager.domains = Tlscert.domains (normalHost config.baseDomain) config.published := by
  obtain ⟨base, domain, loaded, checked, found, -, -, rfl⟩ := Tlscert.Manager.new_ok.mp made
  obtain ⟨rfl, given, -, plain⟩ := Tlscert.checkBase_ok.mp checked
  refine ⟨given, plain, ?_⟩
  unfold published
  rcases Tlscert.checkInstance_ok.mp found with ⟨empty, rfl⟩ | ⟨other, -, dotless, rfl⟩
  · have empty : normalHost config.instanceDomain = [] := empty
    rw [if_pos empty]
    exact ⟨plain, rfl⟩
  · have other : normalHost config.instanceDomain ≠ [] := other
    rw [if_neg other]
    exact ⟨dotless, rfl⟩

theorem manager_made (accepted : config.Accepted) {dir : Tlscert.StorageDir} {loaded : Option Tlscert.LoadedCertificate}
    (loads : dir.loadCertificate = .ok loaded) (given : normalHost config.baseDomain ≠ [])
    (plain : (normalHost config.baseDomain).head? ≠ some '.') (dotless : config.published.head? ≠ some '.') :
    ∃ manager, Tlscert.Manager.new quote production config.tlscert dir = .ok manager := by
  have settings : Tlscert.checkSettings config.tlscert = .ok () := by simp [Tlscert.checkSettings, tlscert, acmeDir]
  refine ⟨_, Tlscert.Manager.new_ok.mpr ⟨normalHost config.baseDomain, config.published, loaded, ?_, ?_,
    settings, loads, rfl⟩⟩
  · exact Tlscert.checkBase_ok.mpr ⟨rfl, given, isBare_normalHost accepted.baseChars, plain⟩
  · rw [Tlscert.checkInstance_ok]
    unfold published at dotless ⊢
    split at dotless
    next empty => exact .inl ⟨empty, if_pos empty⟩
    next other => exact .inr ⟨other, isBare_normalHost accepted.instanceChars, dotless, if_neg other⟩

theorem covers_wildcard (valid : validName name = true) :
    Tlscert.covers (Tlscert.wildcard config.published) (config.hostOf name) = true := by
  have under : labelUnder config.published (config.hostOf name) = some name := labelUnder_eq_some.mpr rfl
  simp [Tlscert.covers, Tlscert.wildcard, under, validName_ne_nil valid, validName_flat valid]

theorem authService_domains (config : Config) (names : Text → Bool) :
    (config.authService names).baseDomain.text = normalHost config.baseDomain ∧
    (config.authService names).instanceDomain.text = config.published := by
  unfold authService Auth.Service.withInstanceNames Auth.Service.withInstanceDomain published
  split
  next missing =>
    change normalHost _ = [] at missing
    rw [if_pos missing]
    exact ⟨rfl, rfl⟩
  next given =>
    change ¬ normalHost _ = [] at given
    rw [if_neg given]
    exact ⟨rfl, rfl⟩

theorem checkedNext_host {hostParse : Text → Option Text} {names : Text → Bool} {next host : Text}
    (read : parse hostParse next = .host host) (spelled : normalHost host = config.hostOf name)
    (valid : validName name = true) (known : names name = true) :
    (config.authService names).checkedNext hostParse next = next := by
  obtain ⟨base, instances⟩ := authService_domains config names
  have under : labelUnder config.published (config.hostOf name) = some name := labelUnder_eq_some.mpr rfl
  have inner : (config.authService names).safeNext hostParse next = next := by
    unfold Auth.Service.safeNext
    split
    next => cases read
    next =>
      rw [parse_slash] at read
      cases read
    next => rfl
    next =>
      simp only [read, spelled, base, instances, under]
      split
      next => rfl
      next => rw [if_pos ⟨validName_flat valid, valid⟩]
  unfold Auth.Service.checkedNext
  simp only [inner, read, spelled, base, instances, under]
  split
  next => rfl
  next =>
    split
    next => rfl
    next => exact if_pos known

theorem exists_other_name (config : Config) :
    ∃ name, validName name = true ∧ config.hostOf name ≠ normalHost config.baseDomain := by
  by_cases first : config.hostOf ['a'] = normalHost config.baseDomain
  · refine ⟨['b'], by decide, ?_⟩
    rw [← first]
    intro same
    cases (List.cons.inj same).1
  · exact ⟨['a'], by decide, first⟩

theorem mem_reserved : name ∈ config.reserved ↔
    name ∈ config.reservedNames ∨ config.baseDomain = name ++ '.' :: config.instanceDomain ∧
      name ≠ [] ∧ '.' ∉ name := by
  unfold reserved
  split
  next label under =>
    have shape := labelUnder_eq_some.mp under
    have only {other : Text} (same : config.baseDomain = other ++ '.' :: config.instanceDomain) : other = label :=
      append_cancel_right (same.symm.trans shape)
    split
    next fits =>
      rw [mem_append, mem_singleton]
      constructor
      · rintro (listed | rfl)
        · exact .inl listed
        · exact .inr ⟨shape, fits.1, fits.2.1⟩
      · rintro (listed | ⟨same, -⟩)
        · exact .inl listed
        · exact .inr (only same)
    next fits =>
      refine ⟨.inl, ?_⟩
      rintro (listed | ⟨same, given, flat⟩)
      · exact listed
      · by_contra absent
        rw [only same] at given flat absent
        exact fits ⟨given, flat, absent⟩
  next none =>
    refine ⟨.inl, ?_⟩
    rintro (listed | ⟨same, -⟩)
    · exact listed
    · rw [labelUnder_eq_some.mpr same] at none
      cases none

theorem Plain.reaches (plain : config.Plain) (accepted : config.Accepted) (layout : config.Layout)
    (valid : validName name = true) (other : config.hostOf name ≠ normalHost config.baseDomain) :
    config.Reaches quote production name where
  proxy := by
    obtain ⟨proxy, built⟩ := builds accepted layout plain.base
    obtain ⟨-, base, instances⟩ := build_ok accepted built
    have found : proxy.nameOf (config.hostOf name) = some name := by
      rw [Proxy.nameOf_eq_some, base, instances, plain.normal]
      exact ⟨other, rfl, validName_ne_nil valid, validName_flat valid⟩
    refine ⟨proxy, built, fun host spelled =>
      ?_, fun β request validAuthority listenerPort remote serverName tls spelled => ?_⟩
    · rw [spelled, found]
    · rw [handleConnection_waiting, spelled, found]
  certificate dir loaded loads := by
    obtain ⟨manager, made⟩ := manager_made accepted loads plain.base plain.baseDot plain.publishedDot
    obtain ⟨-, -, -, subjects⟩ := manager_new_ok made
    refine ⟨manager, made, Tlscert.wildcard config.published, ?_, covers_wildcard valid⟩
    rw [subjects]
    exact Tlscert.wildcard_mem_domains _ _
  login hostParse names next host read spelled known := checkedNext_host read spelled valid known

theorem Plain.serves (plain : config.Plain) (accepted : config.Accepted) (layout : config.Layout)
    (valid : validName name = true) :
    config.Serves quote production name := by
  unfold Serves
  split
  next base =>
    rw [mem_reserved]
    rcases plain.reserved name valid base with same | listed
    · right
      refine ⟨?_, validName_ne_nil valid, validName_flat valid⟩
      rw [same, ← base, hostOf, ← plain.normal]
    · exact .inl listed
  next other => exact plain.reaches accepted layout valid other

theorem plain_of_serves (accepted : config.Accepted)
    (serves : ∀ name, validName name = true → config.Serves quote production name) :
    config.Plain := by
  obtain ⟨name, valid, other⟩ := exists_other_name config
  have reaches := serves name valid
  unfold Serves at reaches
  rw [if_neg other] at reaches
  obtain ⟨proxy, built, routes, -⟩ := reaches.proxy
  obtain ⟨base, -, instances⟩ := build_ok accepted built
  obtain ⟨manager, made, -⟩ := reaches.certificate .empty none rfl
  obtain ⟨-, baseDot, publishedDot, -⟩ := manager_new_ok made
  have spelled : normalHost (config.hostOf name) = config.hostOf name :=
    normalHost_under valid (published_ne_nil base) (published_normal config)
  -- The proxy finds the name only where it compares with the published domain.
  have normal : config.instanceDomain = config.published := by
    have found := routes (config.hostOf name) spelled
    rw [spelled, Proxy.nameOf_eq_some, instances] at found
    exact ((List.cons.inj (append_cancel_left found.2.1)).2).symm
  refine ⟨normal, base, baseDot, publishedDot, fun label fine same => ?_⟩
  have kept := serves label fine
  unfold Serves at kept
  rw [if_pos same, mem_reserved] at kept
  rcases kept with listed | ⟨shape, -⟩
  · exact .inr listed
  · left
    rw [← same, hostOf, ← normal]
    exact shape

end Config

/-- A configuration serves every name under every spelling exactly when the instance domain
is written as it is published, neither domain is a dot or starts with one, and a base domain
that is a name under it is written normally or reserved by hand. -/
theorem domain_spellings_agree (quote : Text → Text) (production baseDomain : Text) (instanceDomain : Option Text)
    (reservedNames : List Text) (dbPath : Text) (listen : ListenConfig) (acme : AcmeConfig)
    (valid : (Config.resolve baseDomain instanceDomain reservedNames dbPath listen acme).validate quote = .ok ())
    (layout : (Config.resolve baseDomain instanceDomain reservedNames dbPath listen acme).Layout) :
    (∀ name, validName name = true →
      (Config.resolve baseDomain instanceDomain reservedNames dbPath listen acme).Serves quote production name) ↔
      (Config.resolve baseDomain instanceDomain reservedNames dbPath listen acme).Plain := by
  have accepted := Config.validate_ok valid
  exact ⟨Config.plain_of_serves accepted, fun plain _ named => plain.serves accepted layout named⟩

def exampleListen : ListenConfig := ⟨.acme, 443, 3000, 9999⟩

def exampleAcme : AcmeConfig := ⟨"token".toList, [], []⟩

def singleDomain (baseDomain : Text) : Config :=
  .resolve baseDomain none [] "/var/lib/bento/bento.db".toList exampleListen exampleAcme

theorem domain_spellings_agree_single : (singleDomain "bento.example.org".toList).validate id = .ok () ∧
    (singleDomain "bento.example.org".toList).Layout ∧
      (singleDomain "bento.example.org".toList).Serves id [] "web".toList := by
  have valid : (singleDomain "bento.example.org".toList).validate id = .ok () := by decide
  have layout : (singleDomain "bento.example.org".toList).Layout := by
    unfold Config.Layout
    decide
  refine ⟨valid, layout, (domain_spellings_agree id [] _ none _ _ _ _ valid layout).mpr ?_ "web".toList (by decide)⟩
  exact ⟨by decide, by decide, by decide, by decide, fun other _ _ => .inl (by decide)⟩

/-- With a capital letter in the one domain no instance is found under it. -/
theorem capital_domain_unreached : (singleDomain "Bento.example.org".toList).validate id = .ok () ∧
    ¬ (singleDomain "Bento.example.org".toList).Serves id [] "web".toList := by
  have valid : (singleDomain "Bento.example.org".toList).validate id = .ok () := by decide
  refine ⟨valid, fun serves => ?_⟩
  unfold Config.Serves at serves
  rw [if_neg (by decide)] at serves
  obtain ⟨proxy, built, routes, -⟩ := serves.proxy
  obtain ⟨-, -, instances⟩ := Config.build_ok (Config.validate_ok valid) built
  have found := routes "web.bento.example.org".toList (by decide)
  rw [Proxy.nameOf_eq_some, instances] at found
  exact absurd found.2.1 (by decide)

end Bento
