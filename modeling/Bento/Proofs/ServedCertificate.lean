import Bento.Bentod.Wiring

/-! The certificate on disk and in use. An issuance replaces its files one after the other, so a
start may find half of a pair; and a certificate that is served is not looked at again. -/

namespace Bento.Tlscert
open Http List

theorem parseCertificate_ok {certificate : Certificate} {privateKey : Nat} {loaded : LoadedCertificate}
    (parsed : parseCertificate certificate privateKey = .ok loaded) :
    loaded.certificate = certificate ∧ certificate.key = privateKey := by
  unfold parseCertificate at parsed
  split at parsed
  next fits =>
    cases parsed
    exact ⟨rfl, fits⟩
  next => cases parsed

namespace StorageDir

def Paired (dir : StorageDir) : Prop :=
  dir.certificate = none ∧ dir.privateKey = none ∨
    ∃ certificate, dir.certificate = some certificate ∧ dir.privateKey = some certificate.key

def Restarts (dir : StorageDir) : Prop :=
  ∀ quote production config, (∃ manager, Manager.new quote production config .empty = .ok manager) →
    ∃ manager, Manager.new quote production config dir = .ok manager ∧
      ∀ loaded ∈ manager.resolver, loaded.certificate.key = loaded.privateKey

theorem loadCertificate_paired {dir : StorageDir} : (∃ loaded, dir.loadCertificate = .ok loaded) ↔ dir.Paired := by
  unfold loadCertificate Paired
  cases dir.certificate with
  | none =>
    cases dir.privateKey with
    | none => simp
    | some => simp
  | some certificate =>
    cases dir.privateKey with
    | none => simp
    | some key =>
      by_cases fits : certificate.key = key
      · simp [parseCertificate, fits, Except.map]
      · simp [parseCertificate, fits, Except.map, Ne.symm fits]

def plainConfig : Config := ⟨[], ['b'], [], true, ['d'], [], 0⟩

theorem restarts_iff {dir : StorageDir} : dir.Restarts ↔ dir.Paired := by
  rw [← loadCertificate_paired]
  constructor
  · intro restarts
    obtain ⟨manager, made, -⟩ :=
      restarts id [] plainConfig ⟨_, Manager.new_ok.mpr ⟨_, _, none, rfl, rfl, rfl, rfl, rfl⟩⟩
    obtain ⟨-, -, loaded, -, -, -, loads, -⟩ := Manager.new_ok.mp made
    exact ⟨loaded, loads⟩
  · rintro ⟨loaded, loads⟩ quote production config ⟨_, made⟩
    obtain ⟨base, published, -, checked, found, settings, -, -⟩ := Manager.new_ok.mp made
    refine ⟨_, Manager.new_ok.mpr ⟨base, published, loaded, checked, found, settings, loads, rfl⟩,
      fun kept _ => kept.fits⟩

end StorageDir

section
variable {manager : Manager} {dir : StorageDir} {now : Int} {acme : Manager.Acme}

def File.Apart : File → Prop
  | .account _ => True
  | .certificate _ | .privateKey _ => False

theorem issue_files (manager : Manager) (dir : StorageDir) (acme : Manager.Acme) :
    ∀ file ∈ (manager.issue dir acme).1, file.Apart := by
  unfold Manager.issue
  split
  next =>
    split
    · exact nofun
    · exact nofun
  next =>
    split
    · intro file listed
      rw [List.mem_singleton.mp listed]
      trivial
    · exact nofun

theorem ensureCertificate_files (manager : Manager) (dir : StorageDir) (now : Int) (acme : Manager.Acme) :
    ∃ apart, (∀ file ∈ apart, file.Apart) ∧ ((manager.ensureCertificate dir now acme).1 = apart ∨
      ∃ certificate, (manager.ensureCertificate dir now acme).1 =
        apart ++ [.privateKey certificate.key, .certificate certificate]) := by
  have apart := issue_files manager dir acme
  unfold Manager.ensureCertificate
  split
  next => exact ⟨[], nofun, .inl rfl⟩
  next =>
    split
    next files error issued =>
      rw [issued] at apart
      exact ⟨files, apart, .inl rfl⟩
    next files certificate privateKey issued =>
      rw [issued] at apart
      refine ⟨files, apart, ?_⟩
      split
      next => exact .inl rfl
      next loaded parsed =>
        exact .inr ⟨certificate, by rw [(parseCertificate_ok parsed).2]⟩

theorem writeAll_apart {files : List File} (apart : ∀ file ∈ files, file.Apart) :
    (dir.writeAll files).certificate = dir.certificate ∧ (dir.writeAll files).privateKey = dir.privateKey := by
  induction files generalizing dir with
  | nil => exact ⟨rfl, rfl⟩
  | cons file files ih =>
    have kept : (dir.write file).certificate = dir.certificate ∧ (dir.write file).privateKey = dir.privateKey := by
      cases file with
      | account => exact ⟨rfl, rfl⟩
      | certificate | privateKey => exact (apart _ mem_cons_self).elim
    have later := @ih (dir.write file) fun other listed => apart other (mem_cons_of_mem _ listed)
    exact ⟨later.1.trans kept.1, later.2.trans kept.2⟩

theorem writeAll_append (dir : StorageDir) (first last : List File) :
    dir.writeAll (first ++ last) = (dir.writeAll first).writeAll last :=
  foldl_append

end

/-- The cut does not fall between the two halves of the pair, unless the stored certificate
is for the key that was just written. -/
def Whole (dir : StorageDir) (files : List File) (written : Nat) : Prop :=
  ∀ key, (files.take written).getLast? = some (.privateKey key) →
    ∃ certificate, dir.certificate = some certificate ∧ certificate.key = key

theorem paired_apart {dir : StorageDir} {files : List File} (paired : dir.Paired) (apart : ∀ file ∈ files, file.Apart) :
    (dir.writeAll files).Paired ∧ ∀ key, files.getLast? ≠ some (.privateKey key) := by
  obtain ⟨certificate, privateKey⟩ := @writeAll_apart dir files apart
  refine ⟨?_, fun key last => apart _ (mem_of_getLast? last)⟩
  unfold StorageDir.Paired
  rw [certificate, privateKey]
  exact paired

/-- The next start after a cut at any point succeeds exactly when the pair was left whole. -/
theorem crash_restarts (manager : Manager) (dir : StorageDir) (now : Int) (acme : Manager.Acme) (written : Nat)
    (paired : dir.Paired) :
    (dir.writeAll ((manager.ensureCertificate dir now acme).1.take written)).Restarts ↔
      Whole dir (manager.ensureCertificate dir now acme).1 written := by
  obtain ⟨apart, separate, shape⟩ := ensureCertificate_files manager dir now acme
  have before (files : List File) (part : files <+: apart) : (dir.writeAll files).Restarts ↔
      ∀ key, files.getLast? = some (.privateKey key) → ∃ certificate, dir.certificate = some certificate ∧
        certificate.key = key := by
    obtain ⟨still, last⟩ := paired_apart paired fun file listed => separate file (part.subset listed)
    exact ⟨fun _ key same => absurd same (last key), fun _ => StorageDir.restarts_iff.mpr still⟩
  unfold Whole
  rcases shape with files | ⟨certificate, files⟩
  · rw [files]
    exact before _ <| take_prefix _ _
  · rw [files]
    rcases Nat.lt_or_ge apart.length written with past | early
    · obtain ⟨more, rfl⟩ : ∃ more, written = apart.length + (more + 1) := ⟨written - apart.length - 1, by omega⟩
      rw [take_length_add_append, StorageDir.restarts_iff, StorageDir.Paired, writeAll_append]
      obtain ⟨stored, -⟩ := @writeAll_apart dir apart separate
      cases more with
      | zero =>
        -- Only the key has been replaced.
        have torn : ((dir.writeAll apart).writeAll
          (List.take (0 + 1) [.privateKey certificate.key, .certificate certificate])).certificate =
            dir.certificate := stored
        have last : (apart ++ List.take (0 + 1) [File.privateKey certificate.key, .certificate certificate]).getLast? =
            some (.privateKey certificate.key) := List.getLast?_concat
        rw [torn, last]
        constructor
        · rintro (⟨-, absent⟩ | ⟨old, found, same⟩) key written
          · cases absent
          · cases written
            exact ⟨old, found, (Option.some.inj same).symm⟩
        · intro whole
          obtain ⟨old, found, same⟩ := whole certificate.key rfl
          exact .inr ⟨old, found, congrArg some same.symm⟩
      | succ =>
        simp [StorageDir.writeAll, StorageDir.write]
    · rw [take_append_of_le_length early]
      exact before _ <| take_prefix _ _

def prompt (now : Int) (key : Nat) (manager : Manager) :
    Manager.Acme := ⟨.ok (), .ok (⟨manager.domains, now + 90 * day, key⟩, key)⟩

def plainManager : Manager := .ofLoaded [] StorageDir.plainConfig ['b'] ['b'] none

theorem crash_restarts_complete : StorageDir.empty.Paired ∧
    (StorageDir.empty.writeAll
      ((plainManager.ensureCertificate .empty 0 (prompt 0 1 plainManager)).1.take 3)).Restarts := by
  have paired : StorageDir.empty.Paired := .inl ⟨rfl, rfl⟩
  refine ⟨paired, (crash_restarts plainManager .empty 0 (prompt 0 1 plainManager) 3 paired).mpr fun key last => ?_⟩
  cases last

/-- A first start that is cut after the key was written cannot be repeated. -/
theorem crash_between_blocks : StorageDir.empty.Paired ∧
    ¬ (StorageDir.empty.writeAll
      ((plainManager.ensureCertificate .empty 0 (prompt 0 1 plainManager)).1.take 2)).Restarts := by
  refine ⟨.inl ⟨rfl, rfl⟩, fun restarts => ?_⟩
  rcases StorageDir.restarts_iff.mp restarts with ⟨-, absent⟩ | ⟨certificate, found, -⟩
  · cases absent
  · cases found

end Bento.Tlscert

namespace Bento
open Library.Decimal Http Tlscert

def Config.certified (config : Config) : List Text :=
  domains (normalHost config.baseDomain)
    (if normalHost config.instanceDomain = [] then normalHost config.baseDomain else normalHost config.instanceDomain)

def Tlscert.Certificate.Fits (certificate : Certificate) (names : List Text) : Prop :=
  ∀ name ∈ names, ∃ subject ∈ certificate.names, covers subject name = true

def Serving (manager : Manager) (names : List Text) (instant : Int) : Prop :=
  ∃ loaded, servedAt manager instant = some loaded ∧ loaded.certificate.Fits names ∧
    instant ≤ loaded.certificate.notAfter

/-- What earlier starts have left, with any configuration, each cut after any number of its
writes. -/
inductive Left : StorageDir → Prop where
  | empty : Left .empty
  | start {dir : StorageDir} (left : Left dir) (quote : Text → Text) (production : Text) (config : Config) (now : Int)
      (key written : Nat) :
      Left (dir.writeAll ((startTls quote production config dir now (prompt now key)).1.take written))

def kept (dir : StorageDir) (now : Int) : Option Certificate :=
  dir.certificate.filter fun certificate => now + renewBefore < certificate.notAfter

section
variable {quote : Text → Text} {production : Text} {config : Config} {dir : StorageDir} {now : Int} {key : Nat}
  {files : List File} {manager : Manager}

theorem loadCertificate_stored {loaded : Option LoadedCertificate} (loads : dir.loadCertificate = .ok loaded) :
    dir.certificate = loaded.map (·.certificate) := by
  unfold StorageDir.loadCertificate at loads
  split at loads
  next absent _ =>
    cases loads
    exact absent
  next certificate privateKey stored _ =>
    obtain ⟨found, parsed, rfl⟩ := Library.Results.map_ok.mp loads
    rw [Option.map_some, (parseCertificate_ok parsed).1]
    exact stored
  next => cases loads

theorem issue_order {made : Manager} {acme : Manager.Acme} {pair : Certificate × Nat}
    (issued : made.issue dir acme = (files, .ok pair)) :
    acme.order = .ok pair := by
  unfold Manager.issue at issued
  split at issued
  next =>
    split at issued
    next => exact congrArg Prod.snd issued
    next => cases issued
  next =>
    split at issued
    next => exact congrArg Prod.snd issued
    next => cases issued

theorem ensureCertificate_serves {made : Manager} {loaded : Option LoadedCertificate}
    (loads : dir.loadCertificate = .ok loaded) (resolver : made.resolver = loaded)
    (expiry : made.expiresAt = loaded.map fun found => found.certificate.notAfter)
    (ensured : (made.ensureCertificate dir now (prompt now key made)).2 = .ok manager) :
    ∃ served, manager.resolver = some served ∧ (kept dir now = some served.certificate ∨
      kept dir now = none ∧ served.certificate.names = made.domains ∧
        served.certificate.notAfter = now + 90 * day) := by
  have stored := loadCertificate_stored loads
  unfold Manager.ensureCertificate at ensured
  unfold Manager.renewalDelay at ensured
  rw [expiry] at ensured
  split at ensured
  next early =>
    cases ensured
    cases loaded with
    | none => cases early
    | some found =>
      refine ⟨found, resolver, .inl ?_⟩
      have left : now + renewBefore < found.certificate.notAfter := by
        simp only [Option.map_some, Option.any_some, ne_eq, decide_not, Bool.not_eq_true',
          decide_eq_false_iff_not] at early
        omega
      simp [kept, stored, left]
  next due =>
    have none_kept : kept dir now = none := by
      cases loaded with
      | none => simp [kept, stored]
      | some found =>
        simp only [Option.map_some, Option.any_some, ne_eq, decide_not, Bool.not_eq_true',
          decide_eq_false_iff_not, not_not] at due
        have late : found.certificate.notAfter ≤ now + renewBefore := by omega
        simp [kept, stored, late]
    split at ensured
    next => cases ensured
    next files certificate privateKey issued =>
      cases issue_order issued
      split at ensured
      next => cases ensured
      next served parsed =>
        cases ensured
        refine ⟨served, rfl, .inr ⟨none_kept, ?_⟩⟩
        rw [(parseCertificate_ok parsed).1]
        exact ⟨rfl, rfl⟩

theorem startTls_serves (started : startTls quote production config dir now (prompt now key) =
    (files, .ok (.here manager))) :
    ∃ served, manager.resolver = some served ∧ (kept dir now = some served.certificate ∨
      kept dir now = none ∧ served.certificate.names = config.certified ∧
        served.certificate.notAfter = now + 90 * day) := by
  unfold startTls at started
  split at started
  next => cases started
  split at started
  next => cases started
  split at started
  next => cases started
  next made new =>
    obtain ⟨ensured, same, here⟩ := Library.Results.map_ok.mp (congrArg Prod.snd started)
    cases here
    obtain ⟨base, -, subjects⟩ := Manager.new_domains new
    have named : made.domains = config.certified := by
      rw [subjects, base]
      rfl
    rw [← named]
    obtain ⟨_, _, loaded, -, -, -, loads, rfl⟩ := Manager.new_ok.mp new
    exact ensureCertificate_serves loads rfl rfl same

end

/-- From a start until `stop` every handshake gets a certificate that fits. No renewal is due
while the proxy serves, so the certificate of the start has to last, and one that is kept has
to be for the names of today. -/
theorem served_fits (quote : Text → Text) (production : Text) (config : Config) (dir : StorageDir)
    (now stop : Int) (key : Nat) (files : List File) (manager : Manager) (later : now ≤ stop)
    (started : startTls quote production config dir now (prompt now key) = (files, .ok (.here manager))) :
    (∀ instant, now ≤ instant → instant ≤ stop → Serving manager config.certified instant) ↔ match kept dir now with
      | some certificate => certificate.Fits config.certified ∧ stop ≤ certificate.notAfter
      | none => stop ≤ now + 90 * day := by
  obtain ⟨loaded, resolves, found | ⟨missing, names, expiry⟩⟩ := startTls_serves started
  · rw [found]
    constructor
    · intro serving
      obtain ⟨same, served, fits, valid⟩ := serving stop later (Int.le_refl stop)
      cases served.symm.trans resolves
      exact ⟨fits, valid⟩
    · rintro ⟨fits, valid⟩ instant - before
      exact ⟨loaded, resolves, fits, before.trans valid⟩
  · rw [missing]
    constructor
    · intro serving
      obtain ⟨same, served, -, valid⟩ := serving stop later (Int.le_refl stop)
      cases served.symm.trans resolves
      rwa [expiry] at valid
    · intro valid instant _ before
      refine ⟨loaded, resolves, ?_, ?_⟩
      · intro name listed
        refine ⟨name, ?_, by simp [covers]⟩
        rwa [names]
      · rw [expiry]
        exact before.trans valid

def oneDomain (baseDomain : Text) : Config :=
  .resolve baseDomain none [] "/var/lib/bento/bento.db".toList ⟨.acme, 443, 3000, 9999⟩ ⟨"token".toList, [], []⟩

theorem served_fits_month : ∃ files manager, startTls id [] (oneDomain ['b']) .empty 0 (prompt 0 1) =
    (files, .ok (.here manager)) ∧
    ∀ instant, 0 ≤ instant → instant ≤ 30 * day → Serving manager (oneDomain ['b']).certified instant := by
  refine ⟨_, _, rfl, ?_⟩
  refine (served_fits id [] (oneDomain ['b']) .empty 0 (30 * day) 1 _ _ (by decide) rfl).mpr ?_
  show 30 * day ≤ 0 + 90 * day
  decide

/-- A first start serves its certificate past its end, and a start after the domain was changed
serves the certificate of the domain before. -/
theorem certificate_outlived :
    (∃ files manager, startTls id [] (oneDomain ['b']) .empty 0 (prompt 0 1) = (files, .ok (.here manager)) ∧
      ¬ Serving manager (oneDomain ['b']).certified (90 * day + 1)) ∧
    ∃ dir, Left dir ∧ ∃ files manager, startTls id [] (oneDomain ['c']) dir day (prompt day 2) =
      (files, .ok (.here manager)) ∧
      ¬ Serving manager (oneDomain ['c']).certified day := by
  refine ⟨⟨_, _, rfl, ?_⟩, _, .start .empty id [] (oneDomain ['b']) 0 1 3, _, _, rfl, ?_⟩
  · rintro ⟨loaded, served, -, valid⟩
    cases served
    exact absurd valid (by decide)
  · rintro ⟨loaded, served, fits, -⟩
    cases served
    obtain ⟨subject, listed, covered⟩ := fits ['c'] (by decide)
    have apart : ∀ subject ∈ (oneDomain ['b']).certified, covers subject ['c'] = false := by decide
    rw [apart subject listed] at covered
    cases covered

end Bento
