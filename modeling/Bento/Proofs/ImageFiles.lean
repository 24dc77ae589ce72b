import Bento.Images.Store
import Bento.Library.Contracts

/-! Image files and the rows that name them. The lock file keeps the processes apart that create
and delete versions, and the foreign keys keep a row that is named. A guard that removes a file
again is the exception: it does not look whether the row has been named in the meantime. -/

namespace Bento.Images
open Library.Contracts Library.Contracts.Rules Library.Programs Library.Runs Function List Valid

variable {version : ImageVersion}

section
variable {ι : Type}

namespace Shared

structure Backed (store : Store) (shared : Shared ι) (checksum : String) : Prop where
  row : shared.hasVersion checksum
  file : (shared.files (store.pathNormalized checksum)).isSome

/-- What is named has a row, and every file of the store has the content that its path says. -/
structure Sound (store : Store) (shared : Shared ι) : Prop where
  rows : ∀ checksum, shared.named checksum → shared.hasVersion checksum
  content : ∀ checksum content, shared.files (store.pathNormalized checksum) = some content →
    store.sha256 content = checksum
  guarded : shared.lock = none → shared.guard = none

structure Undisturbed (before after : Shared ι) : Prop where
  lock : after.lock = before.lock
  guard : after.guard = before.guard
  versions : ∀ checksum, after.hasVersion checksum → before.hasVersion checksum

end Shared

def ImageCall.points : ImageCall → Bool
  | .setCurrentChecksum _ _ | .recordImageSource _ _ _ => true
  | _ => false

/-- The lock is taken when it is free, and what points at a version does not fail while the file
of the caller would be removed again. -/
def Orderly (i : ι) (fails : Bool) (call : ImageCall) (shared : Shared ι) : Prop :=
  (call = .acquireLock → shared.lock = none) ∧
  (shared.lock = some i → shared.guard.isSome → call.points → fails = false ∧ shared.refuses call = false)

def imageRules (store : Store) : Rules ImageCall.Answer ι (Shared ι) Bool where
  serve := serve store
  invariant := Shared.Sound store
  allowed := Orderly
  safe _ _ _ := True
  rely i before after := before.lock = some i → before.Undisturbed after
  guarantee i before after :=
    (∀ checksum, before.named checksum → before.Backed store checksum → after.Backed store checksum) ∧
    ∀ j, j ≠ i → before.lock = some j → before.Undisturbed after
  compatible apart _ _ _ gives locked := gives.2 _ apart locked

variable {store : Store} {i : ι} {call : ImageCall}

def holding (i : ι) (guard : Option String) (shared : Shared ι) : Prop := shared.lock = some i ∧ shared.guard = guard

def missing (i : ι) (guard : Option String) (checksum : String) (shared : Shared ι) : Prop :=
  holding i guard shared ∧ ¬ shared.hasVersion checksum

def leaving (store : Store) (i : ι) (shared : Shared ι) : Prop :=
  holding i none shared ∨ ∃ checksum, missing i (some (store.pathNormalized checksum)) checksum shared

variable {guard : Option String} {checksum : String}

theorem stable_holding : (imageRules store).Stable i (holding i guard) := by
  intro before after _ _ relies holds
  have same := relies holds.1
  exact ⟨same.lock.trans holds.1, same.guard.trans holds.2⟩

theorem stable_missing : (imageRules store).Stable i (missing i guard checksum) := by
  intro before after kept still relies holds
  have same := relies holds.1.1
  exact ⟨stable_holding before after kept still relies holds.1, fun listed => holds.2 (same.versions checksum listed)⟩

theorem stable_leaving : (imageRules store).Stable i (leaving store i) := by
  intro before after kept still relies holds
  rcases holds with clear | ⟨checksum, armed⟩
  · exact .inl (stable_holding before after kept still relies clear)
  · exact .inr ⟨checksum, stable_missing before after kept still relies armed⟩

theorem stable_true : (imageRules store).Stable i fun _ => True := fun _ _ _ _ _ _ => trivial

theorem pathNormalized_inj {first second : String} (same : store.pathNormalized first = store.pathNormalized second) :
    first = second := by
  simpa [Store.pathNormalized] using same

def ImageCall.quiet : ImageCall → Bool
  | .acquireLock | .releaseLock | .insertImageVersion _ | .deleteImageVersion _ | .persist _ _ | .disarm | .unwind |
      .removeFile _ => false
  | _ => true

section
variable {shared : Shared ι}

theorem perform_quiet (quiet : call.quiet) :
    (perform store i shared call).2.lock = shared.lock ∧ (perform store i shared call).2.guard = shared.guard ∧
    (perform store i shared call).2.versions = shared.versions ∧
      (perform store i shared call).2.files = shared.files := by
  cases call
  all_goals first | exact ⟨rfl, rfl, rfl, rfl⟩ | cases quiet

theorem perform_named (quiet : call.quiet) (passed : shared.refuses call = false)
    (named : (perform store i shared call).2.named checksum) : shared.named checksum ∨ shared.hasVersion checksum := by
  cases call
  case setCurrentChecksum name pointed =>
    simp only [Shared.refuses, decide_eq_false_iff_not, not_or, not_not] at passed
    rcases named with current | base
    · obtain ⟨image, listed, same⟩ := List.mem_map.mp current
      obtain ⟨known, there, rfl⟩ := List.mem_map.mp listed
      split at same
      · cases same
        exact .inr passed.2
      · exact .inl (.inl (List.mem_map.mpr ⟨known, there, same⟩))
    · exact .inl (.inr base)
  case createInstance row =>
    simp only [Shared.refuses, decide_eq_false_iff_not, not_or, not_not] at passed
    rcases named with current | base
    · exact .inl (.inl current)
    · rw [perform, map_append, mem_append] at base
      rcases base with known | new
      · exact .inl (.inr known)
      · rw [map_singleton, mem_singleton] at new
        exact .inr (new ▸ passed.2.2)
  case deleteInstance uuid =>
    rcases named with current | base
    · exact .inl (.inl current)
    · obtain ⟨row, listed, same⟩ := List.mem_map.mp base
      exact .inl (.inr (List.mem_map.mpr ⟨row, (List.mem_filter.mp listed).1, same⟩))
  all_goals first | exact .inl named | cases quiet

end

section
variable {pre : Shared ι → Prop} {post : call.Answer → Shared ι → Prop}

theorem operation_of (stable : (imageRules store).Stable i pre)
    (failed : ∀ fails shared, shared.Sound store → pre shared → Orderly i fails call shared →
      (call.mayFail && fails) || shared.refuses call → post (.error ()) shared)
    (passed : ∀ fails shared, shared.Sound store → pre shared → Orderly i fails call shared →
      shared.refuses call = false →
      (perform store i shared call).2.Sound store ∧ (imageRules store).guarantee i shared
    (perform store i shared call).2 ∧
      post (.ok (perform store i shared call).1) (perform store i shared call).2) :
    (imageRules store).Operation i call pre post where
  waiting := stable
  safe _ _ _ := trivial
  execute shared fails kept holds orderly := by
    show Shared.Sound store (serve store i fails call shared).2 ∧
      (imageRules store).guarantee i shared (serve store i fails call shared).2 ∧
      post (serve store i fails call shared).1 (serve store i fails call shared).2
    unfold serve
    split
    next refused =>
      refine ⟨kept, ⟨fun _ _ backed => backed, fun j _ _ => ⟨rfl, rfl, fun _ listed => listed⟩⟩, ?_⟩
      exact failed fails shared kept holds orderly refused
    next accepted =>
      rw [Bool.or_eq_true, not_or, Bool.not_eq_true, Bool.not_eq_true] at accepted
      exact passed fails shared kept holds orderly accepted.2

theorem quiet_step {shared : Shared ι} (quiet : call.quiet) (kept : shared.Sound store)
    (passed : shared.refuses call = false) :
    (perform store i shared call).2.Sound store ∧
      (imageRules store).guarantee i shared (perform store i shared call).2 := by
  obtain ⟨lock, guard, versions, files⟩ := @perform_quiet ι store i call shared quiet
  have rows (checksum : String) : (perform store i shared call).2.hasVersion checksum ↔ shared.hasVersion checksum := by
    unfold Shared.hasVersion
    rw [versions]
  refine ⟨⟨fun checksum named => ?_, ?_, ?_⟩, fun checksum _ backed => ?_, fun j _ _ => ?_⟩
  · rcases perform_named quiet passed named with before | known
    · exact (rows checksum).mpr (kept.rows checksum before)
    · exact (rows checksum).mpr known
  · rw [files]
    exact kept.content
  · rw [lock, guard]
    exact kept.guarded
  · exact ⟨(rows checksum).mpr backed.row, files ▸ backed.file⟩
  · exact ⟨lock, guard, fun checksum => (rows checksum).mp⟩

def Guarded (pre : Shared ι → Prop) : Prop :=
  ∀ before after : Shared ι, after.lock = before.lock → after.guard = before.guard → after.versions = before.versions →
    pre before → pre after

theorem operation_quiet (quiet : call.quiet) (stable : (imageRules store).Stable i pre) (guarded : Guarded pre) :
    (imageRules store).Operation i call pre fun _ => pre := by
  refine operation_of stable (fun _ _ _ holds _ _ => holds) fun fails shared kept holds _ passed => ?_
  obtain ⟨sound, gives⟩ := quiet_step (i := i) quiet kept passed
  obtain ⟨lock, guard, versions, -⟩ := @perform_quiet ι store i call shared quiet
  exact ⟨sound, gives, guarded shared _ lock guard versions holds⟩

end

theorem guarded_true : Guarded fun _ : Shared ι => True := fun _ _ _ _ _ _ => trivial

theorem guarded_holding : Guarded (holding i guard) :=
  fun _ _ lock guarded _ holds => ⟨lock.trans holds.1, guarded.trans holds.2⟩

theorem guarded_missing : Guarded (missing i guard checksum) := by
  intro before after lock guard versions holds
  refine ⟨guarded_holding before after lock guard versions holds.1, ?_⟩
  unfold Shared.hasVersion
  rw [versions]
  exact holds.2

theorem operation_points (points : call.points) :
    (imageRules store).Operation i call (holding i guard)
      (outcome (fun _ => holding i guard) fun shared => guard = none ∧ holding i guard shared) := by
  have quiet : call.quiet := by cases call <;> first | rfl | cases points
  refine operation_of stable_holding (fun fails shared _ holds orderly refused =>
    ?_) fun fails shared kept holds _ passed => ?_
  · cases guard with
    | none => exact ⟨rfl, holds⟩
    | some =>
      have armed : shared.guard.isSome := by rw [holds.2]; rfl
      obtain ⟨runs, accepted⟩ := orderly.2 holds.1 armed points
      rw [runs, accepted, Bool.and_false] at refused
      cases refused
  · obtain ⟨sound, gives⟩ := quiet_step (i := i) quiet kept passed
    obtain ⟨lock, guard, versions, -⟩ := @perform_quiet ι store i call shared quiet
    exact ⟨sound, gives, guarded_holding shared _ lock guard versions holds⟩

theorem operation_acquire : (imageRules store).Operation i .acquireLock (fun _ => True) fun _ => holding i none := by
  refine operation_of stable_true (fun _ _ _ _ _ refused => nomatch refused) fun fails shared kept _ orderly _ => ?_
  have free := orderly.1 rfl
  refine ⟨⟨kept.rows, kept.content, nofun⟩, ⟨fun _ _ backed => ⟨backed.row, backed.file⟩, fun j _ held => ?_⟩,
    rfl, kept.guarded free⟩
  cases free.symm.trans held

theorem holding.alone {shared after : Shared ι} (holds : holding i guard shared) (j : ι) (apart : j ≠ i)
    (held : shared.lock = some j) : shared.Undisturbed after :=
  (apart (Option.some.inj (held.symm.trans holds.1))).elim

theorem operation_release : (imageRules store).Operation i .releaseLock (holding i none) fun _ _ => True := by
  refine operation_of stable_holding (fun _ _ _ _ _ _ => trivial) fun fails shared kept holds _ _ => ?_
  exact ⟨⟨kept.rows, kept.content, fun _ => holds.2⟩,
    ⟨fun _ _ backed => ⟨backed.row, backed.file⟩, holds.alone⟩, trivial⟩

theorem operation_disarm : (imageRules store).Operation i .disarm (holding i guard) fun _ => holding i none := by
  refine operation_of stable_holding (fun _ _ _ _ _ refused => nomatch refused) fun fails shared kept holds _ _ => ?_
  exact ⟨⟨kept.rows, kept.content, fun _ => rfl⟩,
    ⟨fun _ _ backed => ⟨backed.row, backed.file⟩, holds.alone⟩, holds.1, rfl⟩

section
variable {files : String → Option Bytes} {checksum : String}

theorem content_stored (kept : ∀ other content, files (store.pathNormalized other) = some content →
    store.sha256 content = other)
    {content : Bytes} (hashed : store.sha256 content = checksum) (other : String) (found : Bytes)
    (there : Function.update files (store.pathNormalized checksum) (some content)
      (store.pathNormalized other) = some found) :
    store.sha256 found = other := by
  by_cases same : store.pathNormalized other = store.pathNormalized checksum
  · rw [same, update_self] at there
    cases there
    exact hashed.trans (pathNormalized_inj same).symm
  · rw [update_of_ne same] at there
    exact kept other found there

theorem content_removed {path : String}
    (kept : ∀ other content, files (store.pathNormalized other) = some content → store.sha256 content = other)
    (other : String) (found : Bytes)
    (there : Function.update files path none (store.pathNormalized other) = some found) :
    store.sha256 found = other := by
  by_cases same : store.pathNormalized other = path
  · rw [same, update_self] at there
    cases there
  · rw [update_of_ne same] at there
    exact kept other found there

theorem file_stored {path other : String} {content : Bytes} (there : (files path).isSome) :
    (Function.update files other (some content) path).isSome := by
  by_cases same : path = other
  · rw [same, update_self]
    rfl
  · rw [update_of_ne same]
    exact there

theorem backed_removed {shared after : Shared ι} (versions : after.versions = shared.versions)
    (files : after.files = Function.update shared.files (store.pathNormalized checksum) none)
    (absent : ¬ shared.hasVersion checksum) (other : String) (backed : shared.Backed store other) :
    after.Backed store other := by
  have apart : other ≠ checksum := fun same => absent (same ▸ backed.row)
  constructor
  · unfold Shared.hasVersion
    rw [versions]
    exact backed.row
  · rw [files, update_of_ne fun same => apart (pathNormalized_inj same)]
    exact backed.file

end

section
variable {checksum : String} {content : Bytes} {guard : Option String} {fail : Shared ι → Prop}

theorem operation_persist (hashed : store.sha256 content = checksum) :
    (imageRules store).Operation i (.persist (store.pathNormalized checksum) content) (holding i guard)
      (outcome (fun _ => holding i (some (store.pathNormalized checksum))) fail) := by
  refine operation_of stable_holding (fun _ _ _ _ _ refused => nomatch refused) fun fails shared kept holds _ _ => ?_
  refine ⟨⟨kept.rows, content_stored kept.content hashed, fun free => ?_⟩,
    ⟨fun _ _ backed => ⟨backed.row, file_stored backed.file⟩, holds.alone⟩, holds.1, rfl⟩
  cases holds.1.symm.trans free

theorem operation_persist_missing (hashed : store.sha256 content = checksum) :
    (imageRules store).Operation i (.persist (store.pathNormalized checksum) content) (missing i guard checksum)
      (outcome (fun _ => missing i (some (store.pathNormalized checksum)) checksum) fail) := by
  refine operation_of stable_missing (fun _ _ _ _ _ refused =>
    nomatch refused) fun fails shared kept holds orderly passed => ?_
  have stored := (@operation_persist ι store i checksum content guard (fun _ => True) hashed).execute shared
    fails kept holds.1 orderly
  exact ⟨stored.1, stored.2.1, stored.2.2, holds.2⟩

theorem operation_insert : (imageRules store).Operation i (.insertImageVersion version) (missing i guard checksum)
      (outcome (fun _ => holding i guard) (missing i guard checksum)) := by
  refine operation_of stable_missing (fun _ _ _ holds _ _ => holds) fun fails shared kept holds _ _ => ?_
  have more (other : String) (known : shared.hasVersion other) :
      (perform store i shared (.insertImageVersion version)).2.hasVersion other := by
    unfold Shared.hasVersion at known ⊢
    simp only [perform, map_append, mem_append]
    exact .inl known
  refine ⟨⟨fun other named => more other (kept.rows other named), kept.content, kept.guarded⟩,
    ⟨?_, holds.1.alone⟩, holds.1⟩
  exact fun other _ backed => ⟨more other backed.row, backed.file⟩

theorem operation_delete : (imageRules store).Operation i (.deleteImageVersion checksum) (holding i none)
    (outcome (fun _ => missing i none checksum) (holding i none)) := by
  refine operation_of stable_holding (fun _ _ _ holds _ _ => holds) fun fails shared kept holds _ passed => ?_
  simp only [Shared.refuses, decide_eq_false_iff_not, not_or, not_not] at passed
  have others (other : String) (apart : other ≠ checksum) (known : shared.hasVersion other) :
      (perform store i shared (.deleteImageVersion checksum)).2.hasVersion other := by
    obtain ⟨version, listed, rfl⟩ := List.mem_map.mp known
    exact List.mem_map.mpr ⟨version, List.mem_filter.mpr ⟨listed, decide_eq_true apart⟩, rfl⟩
  have unnamed (other : String) (named : shared.named other) : other ≠ checksum := fun same => passed.2 (same ▸ named)
  refine ⟨⟨fun other named => others other (unnamed other named) (kept.rows other named), kept.content, kept.guarded⟩,
    ⟨?_, holds.alone⟩, holds, ?_⟩
  · exact fun other named backed => ⟨others other (unnamed other named) backed.row, backed.file⟩
  · intro known
    obtain ⟨version, listed, same⟩ := List.mem_map.mp known
    exact of_decide_eq_true (List.mem_filter.mp listed).2 same

theorem operation_remove :
    (imageRules store).Operation i (.removeFile (store.pathNormalized checksum)) (missing i none checksum)
    fun _ => holding i none := by
  refine operation_of stable_missing (fun _ _ _ _ _ refused => nomatch refused) fun fails shared kept holds _ _ => ?_
  refine ⟨⟨kept.rows, content_removed kept.content, kept.guarded⟩, ⟨fun other _ backed => ?_, holds.1.alone⟩, holds.1⟩
  exact backed_removed (by rfl) (by rfl) holds.2 other backed

theorem operation_unwind : (imageRules store).Operation i .unwind (leaving store i) fun _ => holding i none := by
  refine operation_of stable_leaving (fun _ _ _ _ _ refused => nomatch refused) fun fails shared kept holds _ _ => ?_
  rcases holds with clear | ⟨checksum, armed⟩
  · have idle : (perform store i shared .unwind).2 = shared := by simp [perform, clear.2]
    rw [idle]
    exact ⟨kept, ⟨fun _ _ backed => backed, clear.alone⟩, clear⟩
  · have removes : (perform store i shared .unwind).2 =
        { shared with files := Function.update shared.files (store.pathNormalized checksum) none, guard := none } := by
      simp [perform, armed.1.2]
    rw [removes]
    refine ⟨⟨kept.rows, content_removed kept.content, fun _ => rfl⟩,
      ⟨fun other _ backed => ?_, armed.1.alone⟩, armed.1.1, rfl⟩
    exact backed_removed (by rfl) (by rfl) armed.2 other backed

theorem operation_has : (imageRules store).Operation i (.hasImageVersion checksum) (holding i none)
    (outcome (fun known => if known then holding i none else missing i none checksum) (holding i none)) := by
  refine operation_of stable_holding (fun _ _ _ holds _ _ => holds) fun fails shared kept holds _ passed => ?_
  obtain ⟨sound, gives⟩ := quiet_step (i := i) rfl kept passed
  refine ⟨sound, gives, ?_⟩
  show (if decide (shared.hasVersion checksum) = true then holding i none else missing i none checksum) shared
  split
  next => exact holds
  next unknown => exact ⟨holds, fun known => unknown (decide_eq_true known)⟩

end

section
variable {α : Type} {pre fail : Shared ι → Prop}

variable {error : Error} {guard : Option String}

abbrev Unlocked (store : Store) (i : ι) (program : ImageM α) : Prop :=
  (imageRules store).Valid i (fun _ => True) program.run (outcome (fun _ _ => True) fun _ => True)

abbrev Locked (store : Store) (i : ι) (pre : Shared ι → Prop) (program : ImageM α) (post : α → Shared ι → Prop) : Prop :=
  (imageRules store).Valid i pre program.run (outcome post (leaving store i))

theorem valid_checked {post : call.Result → Shared ι → Prop}
    (operation : (imageRules store).Operation i call pre (outcome post fail)) :
    (imageRules store).Valid i pre (checked call error).run (outcome post fail) := by
  refine ⟨pre, outcome post fail, .rfl, operation, fun answer => ?_⟩
  cases answer <;> exact .rfl

theorem valid_either {post : Shared ι → Prop} (operation : (imageRules store).Operation i call pre fun _ => post)
    (fails : (imageRules store).Implies post fail) :
    (imageRules store).Valid i pre (checked call error).run (outcome (fun _ => post) fail) := by
  refine valid_checked (operation.mono fun answer => ?_)
  cases answer with
  | ok => exact .rfl
  | error => exact fails

theorem valid_throw {post : α → Shared ι → Prop} (holds : (imageRules store).Implies pre fail) :
    (imageRules store).Valid i pre (throw error : ImageM α).run (outcome post fail) := of_pure holds

theorem valid_result (result : Except Error α) : Unlocked store i (ExceptT.mk (pure result) : ImageM α) := by
  apply of_pure
  cases result <;> exact fun _ _ _ => trivial

theorem implies_leaving : (imageRules store).Implies (holding i none) (leaving store i) := fun _ _ holds => .inl holds

theorem valid_locked {body : ImageM Unit} (valid : Locked store i (holding i none) body fun _ => holding i none) :
    Unlocked store i (locked body) := by
  have acquired : (imageRules store).Valid i (fun _ => True) (checked .acquireLock (.io "flock")).run
    (outcome (fun _ => holding i none) fun _ => True) :=
    valid_either operation_acquire fun _ _ _ => trivial
  have done : (imageRules store).Valid i (holding i none) (ExceptT.lift body.run : ImageM (Except Error Unit)).run
      (outcome (fun _ => leaving store i) fun _ => True) := by
    refine Valid.bind valid fun result => of_pure ?_
    cases result with
    | ok => exact implies_leaving
    | error => exact .rfl
  have unwound : (imageRules store).Valid i (leaving store i) (checked .unwind (.io "")).run
    (outcome (fun _ => holding i none) fun _ => True) :=
    valid_either operation_unwind fun _ _ _ => trivial
  have released : (imageRules store).Valid i (holding i none) (checked .releaseLock (.io "")).run
    (outcome (fun _ _ => True) fun _ => True) :=
    valid_either operation_release .rfl
  refine bind_except acquired fun _ => bind_except done fun result => bind_except unwound fun _ =>
    bind_except released fun _ => ?_
  exact valid_result result

theorem valid_quiet (quiet : call.quiet) :
    Locked store i (holding i none) (checked call error) fun _ => holding i none :=
  valid_either (operation_quiet quiet stable_holding guarded_holding) implies_leaving

theorem valid_free (quiet : call.quiet) : Unlocked store i (checked call error) :=
  valid_either (operation_quiet quiet stable_true guarded_true) fun _ _ _ => trivial

theorem valid_points (points : call.points) :
    Locked store i (holding i guard) (checked call error) fun _ => holding i guard := by
  refine valid_checked ((operation_points points).mono (outcome_mono (fun _ => .rfl) ?_))
  rintro shared - ⟨rfl, holds⟩
  exact .inl holds

theorem valid_disarm : Locked store i (holding i guard) (checked .disarm (.io "")) fun _ => holding i none :=
  valid_either operation_disarm implies_leaving

end

theorem valid_has {error : Error} : Locked store i (holding i none) (checked (.hasImageVersion checksum) error)
    fun known => if known then holding i none else missing i none checksum :=
  valid_checked (operation_has.mono (outcome_mono (fun _ => .rfl) implies_leaving))

theorem implies_leaving_missing :
    (imageRules store).Implies (missing i (some (store.pathNormalized checksum)) checksum) (leaving store i) :=
  fun _ _ holds => .inr ⟨checksum, holds⟩

theorem implies_leaving_clear : (imageRules store).Implies (missing i none checksum) (leaving store i) :=
  fun _ _ holds => .inl holds.1

theorem valid_insert {error : Error} (fails : (imageRules store).Implies (missing i guard checksum) (leaving store i)) :
    Locked store i (missing i guard checksum) (checked (.insertImageVersion version) error) fun _ => holding i guard :=
  valid_checked (operation_insert.mono (outcome_mono (fun _ => .rfl) fails))

theorem valid_commitDownload (image : String) (content : Bytes) (size : Nat) :
    Unlocked store i (store.commitDownload image content (store.sha256 content) size) := by
  apply valid_locked
  refine bind_except valid_has fun known => ?_
  cases known with
  | true =>
    refine bind_except (valid_quiet rfl) fun there => ?_
    cases there with
    | true => exact valid_points rfl
    | false =>
      refine bind_except (valid_checked (operation_persist rfl)) fun _ => ?_
      exact bind_except (valid_points rfl) fun _ => valid_disarm
  | false =>
    refine bind_except (valid_checked (operation_persist_missing rfl)) fun _ => ?_
    refine bind_except (valid_insert implies_leaving_missing) fun _ => ?_
    exact bind_except (valid_points rfl) fun _ => valid_disarm

theorem valid_recorded {image digest : String} : Locked store i (holding i guard) (do
        checked (.recordImageSource image digest checksum) (.dependency "record OCI source digest")
        checked (.setCurrentChecksum image checksum) (.dependency "mark generated version current")
        checked .disarm (.io "")) fun _ => holding i none :=
  bind_except (valid_points rfl) fun _ => bind_except (valid_points rfl) fun _ => valid_disarm

theorem valid_commitGenerated (image digest : String) (disk : Bytes) (size : Nat) :
    Unlocked store i (store.commitGenerated image disk (store.sha256 disk) size digest) := by
  apply valid_locked
  refine bind_except valid_has fun known => ?_
  cases known with
  | true =>
    refine bind_except (valid_quiet rfl) fun there => ?_
    cases there with
    | true => exact valid_recorded
    | false =>
      refine bind_except (valid_checked (operation_persist rfl)) fun _ => ?_
      exact valid_recorded
  | false =>
    refine bind_except (valid_either (operation_quiet rfl stable_missing guarded_missing)
      implies_leaving_clear) fun there => ?_
    cases there with
    | true =>
      refine bind_except (valid_either (operation_quiet rfl stable_missing guarded_missing)
        implies_leaving_clear) fun stored => ?_
      by_cases same : stored = store.sha256 disk
      · rw [if_neg (not_not.mpr same)]
        exact bind_except (valid_insert implies_leaving_clear) fun _ => valid_recorded
      · rw [if_pos same]
        exact valid_throw implies_leaving_clear
    | false =>
      refine bind_except (valid_checked (operation_persist_missing rfl)) fun _ => ?_
      exact bind_except (valid_insert implies_leaving_missing) fun _ => valid_recorded

theorem valid_fetchOci (image digest : String) (disk : Bytes) :
    Unlocked store i (store.fetchOci image digest disk) := by
  refine bind_except (valid_free rfl) fun version => ?_
  cases version with
  | none => exact valid_commitGenerated image digest disk disk.length
  | some =>
    refine bind_except (valid_free rfl) fun there => ?_
    cases there with
    | true => exact valid_free rfl
    | false => exact valid_commitGenerated image digest disk disk.length

theorem valid_collectVersion {current : List String} :
    (imageRules store).Valid i (holding i none) (store.collectVersion current version) fun _ => holding i none := by
  unfold Store.collectVersion
  split
  next => exact of_pure .rfl
  next =>
    refine Valid.bind (Valid.ask (operation_quiet rfl stable_holding guarded_holding)) fun used => ?_
    match used with
    | .error _ | .ok true => exact of_pure .rfl
    | .ok false =>
      refine Valid.bind (Valid.ask operation_delete) fun deleted => ?_
      match deleted with
      | .error _ => exact of_pure .rfl
      | .ok _ =>
        refine Valid.bind (Valid.ask operation_remove) fun removed => ?_
        cases removed <;> exact of_pure .rfl

theorem valid_collectVersions {current : List String} {versions : List ImageVersion} :
    (imageRules store).Valid i (holding i none) (store.collectVersions current versions) fun _ => holding i none := by
  induction versions with
  | nil => exact of_pure .rfl
  | cons version versions ih => exact Valid.bind valid_collectVersion fun _ => Valid.bind ih fun _ => of_pure .rfl

theorem valid_collect : Unlocked store i store.collect := by
  apply valid_locked
  refine bind_except (valid_quiet rfl) fun images => ?_
  refine bind_except (valid_quiet rfl) fun versions => ?_
  have collected : Locked store i (holding i none)
      (ExceptT.lift (store.collectVersions (images.filterMap (·.currentChecksum)) versions) : ImageM
        (List Error)) fun _ => holding i none :=
    Valid.bind valid_collectVersions fun _ => of_pure .rfl
  refine bind_except collected fun errors => of_pure ?_
  cases joined errors with
  | ok => exact .rfl
  | error => exact implies_leaving

theorem valid_createOverlay (checksum overlayPath : String) (diskGib : Nat) :
    Unlocked store i (store.createOverlay checksum overlayPath diskGib) := by
  unfold Store.createOverlay
  generalize normalizeChecksum checksum = normalized
  refine bind_except (valid_result normalized) fun normal => ?_
  by_cases none : diskGib = 0
  · rw [if_pos none]
    exact valid_throw fun _ _ _ => trivial
  · rw [if_neg none]
    apply valid_locked
    refine bind_except (valid_quiet rfl) fun there => ?_
    cases there with
    | true => exact bind_except (valid_quiet rfl) fun _ => valid_quiet rfl
    | false => exact valid_throw implies_leaving

theorem valid_orDelete (uuid : String) {body : ImageM Unit} (valid : Unlocked store i body) :
    Unlocked store i (orDelete uuid body) := by
  have done : Unlocked store i (ExceptT.lift body.run : ImageM (Except Error Unit)) :=
    Valid.bind valid fun _ => of_pure fun _ _ _ => trivial
  refine bind_except done fun result => ?_
  cases result with
  | ok => exact of_pure fun _ _ _ => trivial
  | error =>
    have deleted : Unlocked store i (ExceptT.lift (Program.ask (ImageCall.deleteInstance uuid)) : ImageM _) :=
      Valid.bind (Valid.ask (operation_quiet rfl stable_true guarded_true)) fun _ => of_pure fun _ _ _ => trivial
    exact bind_except deleted fun _ => valid_throw fun _ _ _ => trivial

theorem valid_newInstance (uuid imageName overlayPath : String) (diskGib : Nat) :
    Unlocked store i (store.newInstance uuid imageName overlayPath diskGib) := by
  refine bind_except (valid_free rfl) fun image => ?_
  cases (image.bind (·.currentChecksum)).filter (· ≠ "") with
  | none => exact valid_throw fun _ _ _ => trivial
  | some checksum =>
    refine bind_except (valid_free rfl) fun version => ?_
    cases version with
    | none => exact valid_throw fun _ _ _ => trivial
    | some =>
      exact bind_except (valid_free rfl) fun _ => valid_orDelete uuid (valid_createOverlay checksum overlayPath diskGib)

theorem valid_copyInstance (sourceUuid uuid : String) : Unlocked store i (copyInstance sourceUuid uuid) := by
  refine bind_except (valid_free rfl) fun source => ?_
  cases source with
  | none => exact valid_throw fun _ _ _ => trivial
  | some =>
    refine bind_except (valid_free rfl) fun version => ?_
    cases version with
    | none => exact valid_throw fun _ _ _ => trivial
    | some => exact bind_except (valid_free rfl) fun _ => valid_orDelete uuid (valid_free rfl)

theorem valid_program (operation : Operation) :
    (imageRules store).Valid i (fun _ => True) (operation.program store).run fun _ _ => True := by
  have valid : Unlocked store i (operation.program store) := by
    cases operation with
    | download image content => exact valid_commitDownload image content content.length
    | fetchOci image digest disk => exact valid_fetchOci image digest disk
    | collect => exact valid_collect
    | new uuid imageName overlayPath diskGib => exact valid_newInstance uuid imageName overlayPath diskGib
    | copy sourceUuid uuid => exact valid_copyInstance sourceUuid uuid
    | overlay checksum overlayPath diskGib => exact valid_createOverlay checksum overlayPath diskGib
  exact valid.post_mono fun _ _ _ _ => trivial

end

section
variable {ι : Type} [DecidableEq ι]

abbrev Processes (ι : Type) := Pool ImageCall.Answer ι (Shared ι) (Except Error Unit)

def starting (store : Store) (operations : ι → Operation) (shared : Shared ι) : Processes ι :=
  ⟨shared, fun i => some ((operations i).program store).run⟩

/-- The lock file excludes other holders, and what points at a version does not fail while the
file of the caller would be removed again. A process that holds the lock is not killed. -/
def Pointed (pool : Processes ι) : PoolEvent ι Bool → Prop
  | .step i fails => ∀ call ∈ (pool.thread i).bind Program.waiting, Orderly i fails call pool.shared
  | .drop i => pool.shared.lock ≠ some i

/-- Every file of the store has the content that its path says, and what is named and backed
stays so. -/
theorem references_backed (store : Store) (operations : ι → Operation) (shared : Shared ι) (sound : shared.Sound store)
    (events : List (PoolEvent ι Bool)) (pool : Processes ι)
    (ran : exec (Pool.step (serve store)) (starting store operations shared) events = some pool)
    (obeyed : Obeys (Pool.step (serve store)) Pointed (starting store operations shared) events) :
    (∀ checksum content, pool.shared.files (store.pathNormalized checksum) = some content →
      store.sha256 content = checksum) ∧
    ∀ event next, Pointed pool event → pool.step (serve store) event = some next →
      ∀ checksum, pool.shared.named checksum → pool.shared.Backed store checksum →
        next.shared.Backed store checksum := by
  have permitted {pool : Processes ι} {event : PoolEvent ι Bool} (allowed : Pointed pool event) :
      (imageRules store).Allowed pool event := by
    cases event with
    | step => exact allowed
    | drop => trivial
  have kept : (imageRules store).Sound (fun _ _ _ => True) pool := by
    apply invariant ?_ ran obeyed
    · exact ⟨sound, fun i program found => by cases found; exact (valid_program (operations i)).suspended sound trivial⟩
    · exact fun pool event next allowed moved stands =>
        stands.step (fun _ _ _ _ _ _ _ _ => trivial) (permitted allowed) moved
  refine ⟨kept.invariant.content, fun event next allowed moved => ?_⟩
  cases event with
  | step => exact (kept.guarantees (permitted allowed) moved).1
  | drop =>
    obtain ⟨_, _, _, _, _, impossible, -⟩ | ⟨_, _, _, -, -, rfl⟩ := Pool.step_cases moved
    · cases impossible
    · exact fun _ _ backed => backed

end

def byteStore : Store := ⟨"/images", fun content => if content = [120] then "x" else "y"⟩

def firstVersion : Shared (Fin 4) where
  images := [⟨"debian", some "x"⟩]
  versions := [⟨"x", "debian", byteStore.pathNormalized "x", 1, .qcow2, none⟩]
  sources := []
  instances := []
  files := Function.update (fun _ => none) (byteStore.pathNormalized "x") (some [120])
  lock := none
  guard := none

theorem firstVersion_sound : firstVersion.Sound byteStore where
  rows checksum named := by
    rcases named with current | base
    · obtain ⟨image, listed, same⟩ := List.mem_map.mp current
      rw [List.mem_singleton.mp listed] at same
      cases same
      exact List.mem_singleton.mpr rfl
    · cases base
  content checksum content there := by
    have nothing (other : String) (found : Bytes) (absent : (none : Option Bytes) = some found) :
        byteStore.sha256 found = other := nomatch absent
    exact @content_stored byteStore (fun _ => none) "x" nothing [120] rfl checksum content there
  guarded _ := rfl

def slowCreate : Fin 4 → Operation
  | 0 => .new "u" "debian" "/instances/u.qcow2" 10
  | 1 => .download "debian" [121]
  | 2 => .collect
  | 3 => .download "debian" [120]

def steps (i : Fin 4) (count : Nat) : List (PoolEvent (Fin 4) Bool) := List.replicate count (.step i false)

instance (i : Fin 4) (fails : Bool) (call : ImageCall) (shared : Shared (Fin 4)) :
    Decidable (Orderly i fails call shared) :=
  have : Decidable (call = .acquireLock) := by
    cases call <;> first | exact .isTrue rfl | exact .isFalse nofun
  inferInstanceAs (Decidable (_ ∧ _))

instance (pool : Processes (Fin 4)) : DecidablePred (Pointed pool)
  | .step i fails => inferInstanceAs
    (Decidable (∀ call ∈ (pool.thread i).bind Program.waiting, Orderly i fails call pool.shared))
  | .drop i => inferInstanceAs (Decidable (pool.shared.lock ≠ some i))

/-- The create has read the current version when a download stores the next one. -/
def armedSteps : List (PoolEvent (Fin 4) Bool) := steps 0 2 ++ steps 1 3

/-- The create stores its row, the download makes its version current, and a collect begins. -/
def disarmedSteps : List (PoolEvent (Fin 4) Bool) := armedSteps ++ steps 0 1 ++ steps 1 5 ++ steps 2 3

theorem references_backed_first : ∃ armed pool next,
    exec (Pool.step (serve byteStore)) (starting byteStore slowCreate firstVersion) armedSteps = some armed ∧
      armed.shared.guard.isSome ∧
    exec (Pool.step (serve byteStore)) (starting byteStore slowCreate firstVersion) disarmedSteps = some pool ∧
      pool.shared.guard = none ∧
    pool.step (serve byteStore) (.step 2 false) = some next ∧ pool.shared.named "x" ∧
      next.shared.Backed byteStore "x" := by
  have facts : ((exec (Pool.step (serve byteStore)) (starting byteStore slowCreate firstVersion)
    armedSteps).map fun armed =>
      armed.shared.guard.isSome) = some true := by
    decide +kernel
  have later : ((exec (Pool.step (serve byteStore)) (starting byteStore slowCreate firstVersion)
    disarmedSteps).bind fun pool =>
      (pool.step (serve byteStore) (.step 2 false)).map fun _ =>
        (pool.shared.guard, decide (Pointed pool (.step 2 false)),
        decide (pool.shared.named "x"), decide (pool.shared.hasVersion "x"),
          (pool.shared.files (byteStore.pathNormalized "x")).isSome)) =
      some (none, true, true, true, true) := by
    decide +kernel
  have obeyed : Obeys (Pool.step (serve byteStore)) Pointed
    (starting byteStore slowCreate firstVersion) disarmedSteps := by
    decide +kernel
  obtain ⟨armed, arms, guarded⟩ := Option.map_eq_some_iff.mp facts
  obtain ⟨pool, ran, stepped⟩ := Option.bind_eq_some_iff.mp later
  obtain ⟨next, moved, seen⟩ := Option.map_eq_some_iff.mp stepped
  simp only [Prod.mk.injEq, decide_eq_true_eq] at seen
  obtain ⟨disarmed, allowed, named, row, file⟩ := seen
  have kept := (references_backed byteStore slowCreate firstVersion firstVersion_sound disarmedSteps pool ran obeyed).2
  exact ⟨armed, pool, next, arms, guarded, ran, disarmed, moved, named, kept _ next allowed moved "x" named ⟨row, file⟩⟩

/-- A create names the version that a download is about to store again. The download fails
to make it current, and its guard removes the file. -/
def slowSteps : List (PoolEvent (Fin 4) Bool) :=
  steps 0 2 ++ steps 1 8 ++ steps 2 8 ++ steps 3 4 ++ steps 0 1 ++ [.step 3 true]

theorem named_version_lost :
    ∃ pool next, exec (Pool.step (serve byteStore)) (starting byteStore slowCreate firstVersion) slowSteps = some pool ∧
      pool.step (serve byteStore) (.step 3 false) = some next ∧
      pool.shared.named "x" ∧ pool.shared.Backed byteStore "x" ∧ ¬ next.shared.Backed byteStore "x" := by
  have facts : ((exec (Pool.step (serve byteStore)) (starting byteStore slowCreate firstVersion)
    slowSteps).bind fun pool =>
      (pool.step (serve byteStore) (.step 3 false)).map fun next =>
        (decide (pool.shared.named "x"), decide (pool.shared.hasVersion "x"),
          (pool.shared.files (byteStore.pathNormalized "x")).isSome,
          (next.shared.files (byteStore.pathNormalized "x")).isSome)) = some (true, true, true, false) := by
    decide +kernel
  obtain ⟨pool, ran, stepped⟩ := Option.bind_eq_some_iff.mp facts
  obtain ⟨next, moved, seen⟩ := Option.map_eq_some_iff.mp stepped
  simp only [Prod.mk.injEq, decide_eq_true_eq] at seen
  obtain ⟨named, row, file, lost⟩ := seen
  exact ⟨pool, next, ran, moved, named, ⟨row, file⟩, fun backed => Bool.false_ne_true (lost.symm.trans backed.file)⟩

end Bento.Images
