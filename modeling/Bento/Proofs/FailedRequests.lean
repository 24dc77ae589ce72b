import Bento.Proofs.ManagerRuns

/-! Creates, copies and renames that fail after they wrote their row. The row is taken back
by the ordinary delete or rename, which records a release of the name. -/

namespace Bento.Store
open Library.Transactions List

section
variable {fleet after : Fleet} {record : ReleasedName} {cooldown : Nat} {name : String} {userId now : Int}

def Fleet.Grants (fleet : Fleet) (cooldown : Nat) (name : String) (userId now : Int) : Prop :=
  (withTx (claimNameTx name userId cooldown now) fleet).1 = .ok ()

/-- A release of the name leaves every later claim as it was: the same release was recorded
before, or nobody has to wait anyway. -/
def Fleet.Unmarked (fleet : Fleet) (cooldown : Nat) (record : ReleasedName) : Prop :=
  fleet.lastRelease record.name = some record ∨
    cooldown = 0 ∧ ∀ earlier ∈ fleet.lastRelease record.name, earlier.releasedAt ≤ record.releasedAt

theorem grants_iff : fleet.Grants cooldown name userId now ↔ fleet.claimRefusal name userId cooldown now = none := by
  unfold Fleet.Grants withTx
  rw [claimNameTx_run]
  cases fleet.claimRefusal name userId cooldown now <;> simp

theorem grants_free (free : ∀ row ∈ fleet.instances, row.name ≠ name) : fleet.Grants cooldown name userId now ↔
    ∀ released ∈ fleet.lastRelease name, released.previousOwnerId = userId ∨
      remainingCooldown released.releasedAt now cooldown = none := by
  have unused : ¬ ∃ row ∈ fleet.instances, row.name = name := fun ⟨row, listed, same⟩ => free row listed same
  rw [grants_iff, Fleet.claimRefusal, if_neg unused]
  cases fleet.lastRelease name with
  | none => simp
  | some released =>
    by_cases own : released.previousOwnerId = userId
    · simp [own]
    · simp [own]

theorem grants_taken (taken : ∃ row ∈ fleet.instances, row.name = name) : ¬ fleet.Grants cooldown name userId now := by
  rw [grants_iff, Fleet.claimRefusal, if_pos taken]
  nofun

theorem remainingCooldown_over {releasedAt : Int} (past : releasedAt + cooldown ≤ now) :
    remainingCooldown releasedAt now cooldown = none := by
  unfold remainingCooldown
  rw [if_pos (by omega)]

theorem remainingCooldown_last (releasedAt : Int) (cooldown : Nat) :
    remainingCooldown releasedAt (releasedAt + cooldown - 1) cooldown ≠ none := by
  have left : (cooldown : Int) - (releasedAt + cooldown - 1 - releasedAt) = 1 := by omega
  unfold remainingCooldown
  simp only [left]
  decide

theorem lastRelease_name {released : ReleasedName} (found : fleet.lastRelease name = some released) :
    released.name = name := by
  simpa using List.find?_some found

structure Marked (fleet : Fleet) (record : ReleasedName) (after : Fleet) : Prop where
  rows : after.instances = fleet.instances
  free : ∀ row ∈ fleet.instances, row.name ≠ record.name
  last : after.lastRelease record.name = some record
  others : ∀ name, name ≠ record.name → (∀ row ∈ fleet.instances, row.name ≠ name) →
    after.lastRelease name = fleet.lastRelease name

namespace Marked
variable (marked : Marked fleet record after)
include marked

theorem grants_other (different : name ≠ record.name) : after.Grants cooldown name userId now ↔
    fleet.Grants cooldown name userId now := by
  by_cases taken : ∃ row ∈ fleet.instances, row.name = name
  · have still : ∃ row ∈ after.instances, row.name = name := by rwa [marked.rows]
    exact iff_of_false (grants_taken still) (grants_taken taken)
  · have free : ∀ row ∈ fleet.instances, row.name ≠ name := fun row listed same => taken ⟨row, listed, same⟩
    rw [grants_free free, grants_free (marked.rows ▸ free), marked.others name different free]

theorem grants_after : after.Grants cooldown record.name userId now ↔
    record.previousOwnerId = userId ∨ remainingCooldown record.releasedAt now cooldown = none := by
  rw [grants_free (marked.rows ▸ marked.free), marked.last]
  simp

theorem grants_before : fleet.Grants cooldown record.name userId now ↔
    ∀ released ∈ fleet.lastRelease record.name, released.previousOwnerId = userId ∨
      remainingCooldown released.releasedAt now cooldown = none :=
  grants_free marked.free

theorem unmarked (same : ∀ userId now, record.releasedAt ≤ now →
    (after.Grants cooldown record.name userId now ↔ fleet.Grants cooldown record.name userId now)) :
    fleet.Unmarked cooldown record := by
  simp only [marked.grants_after, marked.grants_before] at same
  rcases Nat.eq_zero_or_pos cooldown with rfl | positive
  · refine .inr ⟨rfl, fun earlier found => ?_⟩
    by_contra late
    have granted := (same (earlier.previousOwnerId + 1) (earlier.releasedAt + (0 : Nat) - 1) (by omega)).mp
      (.inr (remainingCooldown_over (by omega))) earlier found
    exact granted.elim (by omega) (remainingCooldown_last _ _)
  · -- whoever is not the owner still waits one nanosecond before the cooldown is over
    have waits (other : Int) (different : record.previousOwnerId ≠ other) : ∃ released ∈ fleet.lastRelease record.name,
        released.previousOwnerId ≠ other ∧ record.releasedAt ≤ released.releasedAt := by
      by_contra none
      have granted := (same other (record.releasedAt + cooldown - 1) (by omega)).mpr fun released found => by
        by_cases own : released.previousOwnerId = other
        · exact .inl own
        · refine .inr (remainingCooldown_over ?_)
          by_contra early
          exact none ⟨released, found, own, by omega⟩
      exact granted.elim different (remainingCooldown_last _ _)
    obtain ⟨released, found, -, since⟩ := waits (record.previousOwnerId + 1) (by omega)
    have owner : released.previousOwnerId = record.previousOwnerId := by
      by_contra other
      obtain ⟨again, listed, unlike, -⟩ := waits released.previousOwnerId (Ne.symm other)
      cases found.symm.trans listed
      exact unlike rfl
    have instant : released.releasedAt = record.releasedAt := by
      by_contra other
      have granted := (same (record.previousOwnerId + 1) (released.releasedAt + cooldown - 1) (by omega)).mp
        (.inr (remainingCooldown_over (by omega))) released found
      exact granted.elim (by omega) (remainingCooldown_last _ _)
    refine .inl (found.trans ?_)
    have called : released.name = record.name := lastRelease_name found
    cases released
    cases record
    simp_all

theorem grants_unmarked (unmarked : fleet.Unmarked cooldown record) (later : record.releasedAt ≤ now) :
    after.Grants cooldown record.name userId now ↔ fleet.Grants cooldown record.name userId now := by
  rw [marked.grants_after, marked.grants_before]
  rcases unmarked with found | ⟨rfl, past⟩
  · rw [found]
    simp
  · refine iff_of_true (.inr (remainingCooldown_over (by simpa using later))) fun released found => ?_
    have earlier := past released found
    exact .inr (remainingCooldown_over (by simpa using earlier.trans later))

theorem grants_same_iff : (∀ name userId now, record.releasedAt ≤ now →
    (after.Grants cooldown name userId now ↔ fleet.Grants cooldown name userId now)) ↔
      fleet.Unmarked cooldown record := by
  constructor
  · exact fun same => marked.unmarked (same record.name)
  · intro unmarked name userId now later
    by_cases different : name = record.name
    · rw [different]
      exact marked.grants_unmarked unmarked later
    · exact marked.grants_other different

end Marked

variable {row : Instance} {instant : Int}

theorem deleteInstance_runs {uuid : String} (found : fleet.instances.find? (·.uuid = uuid) = some row)
    (writable : (formatTime instant).isOk = true) (known : ∃ user ∈ fleet.users, user.id = row.ownerId) :
    (deleteInstance instant uuid).run fleet = .ok (row, { fleet with
      instances := fleet.instances.filter fun other => other.uuid ≠ uuid
      releasedNames := fleet.released ⟨row.name, row.ownerId, instant⟩ }) := by
  simp only [deleteInstance, run_bind_ok, run_modify_ok, run_pure_ok]
  exact ⟨row, fleet, getInstanceTx_ok.mpr ⟨found, rfl⟩, (), _, rfl, (), _, releaseNameTx_runs writable known, rfl, rfl⟩

theorem create_unwound {capacity : Capacity} {middle : Fleet} {value : Unit}
    (created : (createInstance now row cooldown capacity).run fleet = .ok (value, middle))
    (writable : (formatTime instant).isOk = true) :
    ∃ gone after, (deleteInstance instant row.uuid).run middle = .ok (gone, after) ∧
      Marked fleet ⟨row.name, row.ownerId, instant⟩ after := by
  obtain ⟨-, ⟨fresh, known, -⟩, createdAt, rfl⟩ := createInstance_ok created
  have unlisted : fleet.instances.find? (·.uuid = row.uuid) = none := by
    rw [List.find?_eq_none]
    exact fun other listed same => (fresh other listed).1 (of_decide_eq_true same)
  have found : (fleet.instances ++ [{ row with createdAt, lastSeenAt := none }]).find? (·.uuid = row.uuid) =
      some { row with createdAt, lastSeenAt := none } := by
    rw [List.find?_append, unlisted, Option.none_or, List.find?_cons_of_pos (by simp)]
  refine ⟨_, _, deleteInstance_runs found writable known, ?_, fun other listed =>
    (fresh other listed).2.1, ?_, fun name different _ => ?_⟩
  · have kept : fleet.instances.filter (fun other => other.uuid ≠ row.uuid) = fleet.instances :=
      List.filter_eq_self.mpr fun other listed => decide_eq_true (fresh other listed).1
    rw [filter_append, kept]
    simp
  · exact (lastRelease_released rfl row.name).trans (if_pos rfl)
  · exact (lastRelease_released rfl name).trans (if_neg (Ne.symm different))

theorem rename_unwound {newName : String} {claimedAt releasedAt : Int} {middle : Fleet} {value : Unit} (claims : Int)
    (found : fleet.instances.find? (·.uuid = row.uuid) = some row)
    (alone : ∀ other ∈ fleet.instances, other.uuid = row.uuid → other = row)
    (called : ∀ other ∈ fleet.instances, other.name = row.name → other = row) (different : newName ≠ row.name)
    (renamed : (renameInstanceAt claimedAt releasedAt row.uuid newName cooldown).run fleet = .ok (value, middle))
    (writable : (formatTime instant).isOk = true) :
    ∃ after, (renameInstanceAt claims instant row.uuid row.name cooldown).run middle = .ok ((), after) ∧
      Marked fleet ⟨newName, row.ownerId, instant⟩ after := by
  obtain ⟨passed, owner⟩ := renameInstanceAt_passed renamed found (Ne.symm different)
  obtain ⟨_, again, ⟨same, -⟩ | ⟨-, granted, rfl⟩⟩ := renameInstanceAt_ok renamed
  · cases found.symm.trans again
    exact (different same.symm).elim
  cases found.symm.trans again
  have free : ∀ other ∈ fleet.instances, other.name ≠ newName := by
    intro other listed same
    rw [Fleet.claimRefusal, if_pos ⟨other, listed, same⟩] at granted
    cases granted
  have listed : row ∈ fleet.instances := mem_of_find?_eq_some found
  have moved := @find?_update fleet.instances row.uuid (fun other => { other with name := newName })
    (fun _ => rfl) row.uuid
  rw [found, Option.map_some, if_pos rfl] at moved
  have unclaimed : ¬ ∃ other ∈ fleet.instances.map (fun other =>
    if other.uuid = row.uuid then { other with name := newName } else other),
      other.name = row.name := by
    rintro ⟨_, member, same⟩
    obtain ⟨other, known, rfl⟩ := List.mem_map.mp member
    split at same
    next => exact different same
    next unlike => exact unlike (congrArg Instance.uuid (called other known same))
  have slots : ∀ other ∈ fleet.instances.map (fun other =>
    if other.uuid = row.uuid then { other with name := newName } else other),
      other.uuid = row.uuid → fleet.ownsSlot other := by
    intro _ member same
    obtain ⟨other, known, rfl⟩ := List.mem_map.mp member
    split at same
    next own =>
      rw [if_pos own]
      exact passed other known own
    next unlike => exact (unlike same).elim
  refine ⟨_, renameInstanceAt_runs moved different ?_ slots writable owner, ?_, free, ?_, fun name unlike unused => ?_⟩
  · rw [Fleet.claimRefusal, if_neg unclaimed, lastRelease_released rfl, if_pos rfl]
    simp
  · have back : ∀ other ∈ fleet.instances,
      (fun other : Instance => if other.uuid = row.uuid then { other with name := row.name } else other)
        (if other.uuid = row.uuid then { other with name := newName } else other) = other := by
      intro other known
      by_cases own : other.uuid = row.uuid
      · simp only [own, if_true]
        rw [alone other known own]
      · simp only [own, if_false]
    rw [List.map_map]
    exact (map_congr_left back).trans (map_id _)
  · exact (lastRelease_released rfl newName).trans (if_pos rfl)
  · have old : row.name ≠ name := fun same => unused row listed same
    exact ((lastRelease_released rfl name).trans (if_neg (Ne.symm unlike))).trans
      ((lastRelease_released rfl name).trans (if_neg old))

end

end Bento.Store

namespace Bento.Lifecycle
open Hypervisor Library.Programs.Program Library.Transactions Network Store

inductive Naming where
  | create (mac : String → String) (new : Manager.NewRequest)
  | copy (mac : String → String) (sourceUuid : String) (new : Manager.NewRequest)
  | rename (uuid newName : String)

namespace Naming

def action : Naming → Action
  | .create mac new => .create mac new
  | .copy mac sourceUuid new => .copy mac sourceUuid new
  | .rename uuid newName => .rename uuid newName

def name : Naming → String
  | .create _ new | .copy _ _ new => new.name
  | .rename _ newName => newName

def ownerId (fleet : Fleet) : Naming → Int
  | .create _ new | .copy _ _ new => new.owner.id
  | .rename uuid _ => ((fleet.instances.find? (·.uuid = uuid)).map Instance.ownerId).getD 0

def releasedAt (moment : Moment) : Naming → Int
  | .create _ _ | .copy _ _ _ => moment.now
  | .rename _ _ => moment.later

def record (fleet : Fleet) (moment : Moment) (naming : Naming) : ReleasedName :=
  ⟨naming.name, naming.ownerId fleet, naming.releasedAt moment⟩

end Naming

def ManagerCall.wrote : (call : ManagerCall) → call.Answer → Bool
  | .store (.createInstance _ _), .ok _ => true
  | .store (.renameInstance _ _), .ok _ => true
  | _, _ => false

def ManagerCall.unwinds (moment : Moment) : ManagerCall → Bool
  | .store (.deleteInstance _) => moment.fault = none ∧ (formatTime moment.now).isOk
  | .store (.renameInstance _ _) => moment.fault = none ∧ (formatTime moment.later).isOk
  | _ => true

section
variable {α β : Type} {manager : Manager} {moments : List Moment} {world after : World} {error : Error}
  {call : ManagerCall}

abbrev Manager.Unwound {α : Type} (manager : Manager) (program : ManagerProgram α) (moments : List Moment)
    (world : World) (result : α) (after : World) : Prop :=
  manager.Ran (fun moment call => call.unwinds moment = true) program moments world result after

def EndsWith (manager : Manager) (call : ManagerCall) (moments : List Moment) (world after : World) : Prop :=
  ∃ last middle, moments.getLast? = some last ∧ call.unwinds last = true ∧ middle.fleet = world.fleet ∧
    after = (call.serve manager last middle).2

variable {rest : List Moment} {middle : World} {moment : Moment} {fleet : Fleet} {naming : Naming} {row : Instance}
  {newName : String}

theorem EndsWith.prepend {first : List Moment} (ends : EndsWith manager call rest middle after)
    (same : middle.fleet = world.fleet) : EndsWith manager call (first ++ rest) world after := by
  obtain ⟨last, before, ended, unwinds, unchanged, rfl⟩ := ends
  exact ⟨last, before, by rw [List.getLast?_append, ended, Option.some_or], unwinds, unchanged.trans same, rfl⟩

def FailsWith (manager : Manager) (call : ManagerCall) (program : ManagerM α) : Prop :=
  ∀ moments world error after, manager.Unwound program.run moments world (.error error) after →
    EndsWith manager call moments world after

theorem fails_return (value : α) : FailsWith manager call (pure value) := fun _ _ _ _ ran => (ran_return ran).elim

theorem fails_answered_return {asked : ManagerCall} {next : asked.Answer → α} :
    FailsWith manager call (answered asked >>= fun answer => pure (next answer)) :=
  fun _ _ _ _ ran => (ran_answered_return ran).elim

theorem fails_lift {program : ManagerProgram β} {next : β → ManagerM α} (reads : program.Only ManagerCall.Reads)
    (rest : ∀ value, FailsWith manager call (next value)) : FailsWith manager call (ExceptT.lift program >>= next) := by
  intro moments world error after ran
  rcases ran_bind_error ran with failed | ⟨first, later, value, middle, rfl, begun, ended⟩
  · obtain ⟨_, impossible, -⟩ := ran_lift.mp failed
    cases impossible
  · exact (rest value _ _ _ _ ended).prepend (ran_reads (only_lift reads) begun)

theorem fails_answered (asked : ManagerCall) {next : asked.Answer → ManagerM α} (reads : asked.Reads)
    (rest : ∀ answer, FailsWith manager call (next answer)) : FailsWith manager call (answered asked >>= next) :=
  fails_lift (only_ask reads) rest

theorem fails_last {next : call.Answer → ManagerM α} (thrown : ∀ answer, ∃ failure, next answer = throw failure) :
    FailsWith manager call (answered call >>= next) := by
  intro moments world error after ran
  rcases ran_bind_error ran with failed | ⟨first, later, answer, middle, rfl, begun, ended⟩
  · obtain ⟨_, _, _, impossible, _⟩ := ran_answered failed
    cases impossible
  · obtain ⟨moment, rfl, unwinds, same, rfl⟩ := ran_answered begun
    obtain ⟨failure, throws⟩ := thrown answer
    rw [throws] at ended
    obtain ⟨rfl, -, rfl⟩ := ran_pure.mp ended
    exact ⟨moment, world, rfl, unwinds, rfl, rfl⟩

section
variable {row : Instance} {cause : String}

theorem unwindNew_fails :
    FailsWith manager (.store (.deleteInstance row.uuid)) (manager.unwindNew row cause : ManagerM α) := by
  refine fails_last fun answer => ?_
  cases answer with
  | ok | error => exact ⟨_, rfl⟩

theorem unwindCopy_fails :
    FailsWith manager (.store (.deleteInstance row.uuid)) (manager.unwindCopy row cause : ManagerM α) :=
  fails_answered (.deleteIso row.uuid) trivial fun _ => fails_answered (.removeOverlay row.uuid) trivial fun _ =>
    fails_last fun _ => ⟨_, rfl⟩

theorem unwindRename_fails {newName : String} :
    FailsWith manager (.store (.renameInstance row.uuid row.name))
      (Manager.unwindRename row newName cause : ManagerM α) :=
  fails_last fun _ => ⟨_, rfl⟩

theorem finishNew_fails {owner : User} {subnet : Ipv4Prefix} {address : Ipv4Addr} :
    FailsWith manager (.store (.deleteInstance row.uuid)) (manager.finishNew row owner subnet address) := by
  unfold Manager.finishNew
  split
  next => exact unwindNew_fails
  next =>
    split
    next => exact unwindNew_fails
    next network _ =>
      refine fails_answered (.provision ⟨row.hostId, row, network, true, true⟩) trivial fun answer => ?_
      cases answer with
      | error => exact unwindNew_fails
      | ok => exact fails_answered_return

theorem unwindCopy_throws {value : α} :
    ¬ manager.Unwound (manager.unwindCopy row cause : ManagerM α).run moments world (.ok value) after := by
  intro ran
  obtain ⟨_, _, _, _, -, -, rest⟩ := ran_bind_ok.mp ran
  obtain ⟨_, _, _, _, -, -, rest⟩ := ran_bind_ok.mp rest
  obtain ⟨_, _, _, _, -, -, thrown⟩ := ran_bind_ok.mp rest
  exact ran_throw thrown

theorem copyStep_fails {δ : Type} {text : δ → String} {program : ManagerProgram (Except δ β)} {next : β → ManagerM α}
    (reads : program.Only ManagerCall.Reads)
    (rest : ∀ value, FailsWith manager (.store (.deleteInstance row.uuid)) (next value)) :
    FailsWith manager (.store (.deleteInstance row.uuid)) (manager.copyStep row text program >>= next) := by
  intro moments world error after ran
  rcases ran_bind_error ran with failed | ⟨first, later, value, middle, rfl, begun, ended⟩
  · refine fails_lift reads (fun result => ?_) _ _ _ _ failed
    cases result with
    | error => exact unwindCopy_fails
    | ok value => exact fails_return value
  · refine (rest value _ _ _ _ ended).prepend ?_
    obtain ⟨_, _, result, _, rfl, lifted, returned⟩ := ran_bind_ok.mp begun
    have same := ran_reads (only_lift reads) lifted
    cases result with
    | ok =>
      obtain ⟨-, -, rfl⟩ := ran_pure.mp returned
      exact same
    | error => exact (unwindCopy_throws returned).elim

theorem growCopy_fails {source : Instance} {next : Unit → ManagerM α}
    (rest : FailsWith manager (.store (.deleteInstance row.uuid)) (next ())) :
    FailsWith manager (.store (.deleteInstance row.uuid)) (manager.growCopy source row >>= next) := by
  unfold Manager.growCopy
  split
  next => exact copyStep_fails (only_ask trivial) fun _ => rest
  next => exact rest

theorem finishCopy_fails {source : Instance} {owner : User} {subnet : Ipv4Prefix} {address : Ipv4Addr} :
    FailsWith manager (.store (.deleteInstance row.uuid)) (manager.finishCopy source row owner subnet address) := by
  refine copyStep_fails (only_ask trivial) fun _ => growCopy_fails ?_
  refine copyStep_fails only_pure fun _ => copyStep_fails (only_ask trivial) fun _ => ?_
  exact copyStep_fails only_pure fun xml => copyStep_fails (only_ask trivial) fun _ => fails_answered_return

end

section
variable {row : Instance} {newName : String}

theorem reads_domainXmlByUuid (row : Instance) (withIso : Bool) :
    (manager.domainXmlByUuid row withIso).run.Only ManagerCall.Reads :=
  only_except (only_owner trivial) fun _ => trivial

theorem reads_restoreDefinition (row : Instance) (withIso : Bool) :
    (manager.restoreDefinition row withIso).run.Only ManagerCall.Reads := by
  refine only_except (only_lift (reads_domainXmlByUuid row withIso)) fun result => ?_
  cases result with
  | error => trivial
  | ok => exact only_except (only_answered trivial) fun _ => trivial

theorem restoreDefinition_returns {withIso : Bool} :
    ¬ manager.Unwound (manager.restoreDefinition row withIso).run moments world (.error error) after := by
  intro ran
  rcases ran_bind_error ran with failed | ⟨_, _, result, _, -, -, ended⟩
  · obtain ⟨_, impossible, -⟩ := ran_lift.mp failed
    cases impossible
  cases result with
  | error => exact ran_return ended
  | ok => exact ran_answered_return ended

theorem defineRenamed_fails {withIso : Bool} {xml : DomainSpec} :
    FailsWith manager (.store (.renameInstance row.uuid row.name)) (manager.defineRenamed row newName withIso xml) := by
  refine fails_answered (.define xml) trivial fun answer => ?_
  cases answer with
  | ok => exact fails_return _
  | error =>
    intro moments world error after ran
    rcases ran_bind_error ran with failed | ⟨_, later, _, middle, rfl, begun, ended⟩
    · exact (restoreDefinition_returns failed).elim
    · exact (unwindRename_fails _ _ _ _ ended).prepend (ran_reads (reads_restoreDefinition row withIso) begun)

theorem renameHere_fails :
    FailsWith manager (.store (.renameInstance row.uuid row.name)) (manager.renameHere row newName) := by
  refine fails_answered (.isoExists row.uuid) trivial fun withIso =>
    fails_lift (reads_domainXmlByUuid _ withIso) fun result => ?_
  cases result with
  | error => exact unwindRename_fails
  | ok =>
    refine fails_answered (.act .remove row.name) trivial fun answer => ?_
    cases answer with
    | ok => exact defineRenamed_fails
    | error failure =>
      cases failure with
      | domainNotFound => exact defineRenamed_fails
      | operation => exact unwindRename_fails

theorem renameThere_fails :
    FailsWith manager (.store (.renameInstance row.uuid row.name)) (manager.renameThere row newName) := by
  refine fails_lift ((only_except (only_owner trivial) fun _ => only_except trivial fun _ =>
    only_checked (only_ask trivial))) fun result => ?_
  cases result with
  | error => exact unwindRename_fails
  | ok => exact fails_return _

theorem finishRename_fails {gone : Bool} :
    FailsWith manager (.store (.renameInstance row.uuid row.name)) (manager.finishRename row newName gone) := by
  unfold Manager.finishRename
  split
  next => exact fails_return _
  next =>
    split
    next => exact renameThere_fails
    next => exact renameHere_fails

end

abbrev Manager.Wrote {α : Type} (manager : Manager) (program : ManagerProgram α) (moments : List Moment)
    (world : World) : Prop :=
  program.Sees (fun moment call => ManagerCall.serve manager moment call)
    (fun call answer => call.wrote answer = true) moments world

theorem wrote_of_reads {answer : call.Answer} (reads : call.Reads) : ¬ call.wrote answer = true := by
  intro wrote
  cases call with
  | store body =>
    cases body with
    | createInstance | renameInstance => exact reads
    | _ => cases wrote
  | _ => cases wrote

theorem serve_runs {body : StoreCall} {reply : body.Reply} (fine : moment.fault = none)
    (runs : (body.tx manager moment).run world.fleet = .ok (reply, fleet)) :
    ((ManagerCall.store body).serve manager moment world).2.fleet = fleet := by
  simp only [ManagerCall.serve, fine, ManagerCall.perform, withTx, runs]

def LeftMark (naming : Naming) (moments : List Moment) (before after : Fleet) : Prop :=
  ∃ last, moments.getLast? = some last ∧ Marked before (naming.record before last) after

theorem LeftMark.prepend {first : List Moment} {before last : Fleet} (left : LeftMark naming rest before last) :
    LeftMark naming (first ++ rest) before last := by
  obtain ⟨moment, ended, marked⟩ := left
  exact ⟨moment, by rw [List.getLast?_append, ended, Option.some_or], marked⟩

theorem LeftMark.cons {before last : Fleet} (left : LeftMark naming rest before last) :
    LeftMark naming (moment :: rest) before last :=
  @LeftMark.prepend rest naming [moment] before last left

def Marks (manager : Manager) (holds : Fleet → Prop) (naming : Naming) (program : ManagerM α) : Prop :=
  ∀ moments world error after, holds world.fleet → manager.Unwound program.run moments world (.error error) after →
    manager.Wrote program.run moments world → LeftMark naming moments world.fleet after.fleet

section
variable {holds : Fleet → Prop} {naming : Naming}

theorem Marks.past {step : ManagerM β} {next : β → ManagerM α} (reads : step.run.Only ManagerCall.Reads)
    (rest : ∀ value, Marks manager holds naming (next value)) : Marks manager holds naming (step >>= next) := by
  intro moments world error after held ran wrote
  obtain ⟨first, later, value, middle, rfl, same, -, ended, written⟩ :=
    ran_past_reads reads (fun _ _ => wrote_of_reads) ran wrote
  rw [← same] at held ⊢
  exact (rest value _ _ _ _ held ended written).prepend

theorem Marks.write {body : StoreCall} {next : body.Reply → ManagerM α}
    (rest : ∀ moment moments (world : World) fleet reply error after, holds world.fleet →
      (body.tx manager moment).run world.fleet = .ok (reply, fleet) →
      manager.Unwound (next reply).run moments { world with fleet } (.error error) after →
        LeftMark naming moments world.fleet after.fleet) :
    Marks manager holds naming (stored body >>= next) := by
  intro moments world error after held ran wrote
  obtain ⟨moment, later, rfl, -, ended⟩ := ran_request.mp ran
  rcases store_cases manager moment world body with ⟨reply, fleet, answer, written, same⟩ | ⟨⟨cause, refused⟩, same⟩
  · rw [answer, same] at ended
    exact (rest moment later world fleet reply error after held written ended).cons
  · have unseen : (ManagerCall.store body).wrote (.error cause) = false := by cases body <;> rfl
    rcases wrote with now | last
    · rw [refused, unseen] at now
      cases now
    · rw [refused] at last
      cases later <;> cases last

end

theorem created_marks {capacity : Capacity} {reply : Unit}
    (named : ∀ fleet last, naming.record fleet last = ⟨row.name, row.ownerId, last.now⟩)
    (created : ((StoreCall.createInstance row capacity).tx manager moment).run middle.fleet = .ok (reply, fleet))
    (ends : EndsWith manager (.store (.deleteInstance row.uuid)) moments { middle with fleet } after) :
    LeftMark naming moments middle.fleet after.fleet := by
  obtain ⟨last, before, ended, unwinds, same, rfl⟩ := ends
  obtain ⟨fine, writable⟩ := of_decide_eq_true unwinds
  obtain ⟨gone, final, deleted, marked⟩ := create_unwound created writable
  have runs : ((StoreCall.deleteInstance row.uuid).tx manager last).run before.fleet = .ok (gone, final) := by
    rw [same]
    exact deleted
  refine ⟨last, ended, ?_⟩
  rw [named, serve_runs fine runs]
  exact marked

theorem create_marks (mac : String → String) (new : Manager.NewRequest) :
    Marks manager (fun _ => True) (.create mac new) (manager.create mac new) := by
  refine .past only_pure fun _ => .past (only_currentVersion (fun _ reads => reads) new) fun checksum =>
    .past only_pure fun subnet => ?_
  refine .past (only_place (fun _ reads => reads) new) fun hostId =>
    .past (reads_allocate hostId subnet) fun (address, slot) => ?_
  refine .past reads_mint fun (uuid, now) => .past (reads_hostCapacity hostId) fun capacity => ?_
  exact .write fun _ _ _ _ _ _ _ _ created ended =>
    created_marks (fun _ _ => rfl) created (finishNew_fails _ _ _ _ ended)

theorem copy_marks (mac : String → String) (sourceUuid : String) (new : Manager.NewRequest) :
    Marks manager (fun _ => True) (.copy mac sourceUuid new) (manager.copy mac sourceUuid new) := by
  refine .past (only_stored trivial) fun source => .past (only_stored trivial) fun _ => .past only_pure fun _ =>
    .past only_pure fun _ => ?_
  refine .past (only_answered trivial) fun state => .past only_pure fun _ => .past only_pure fun subnet => ?_
  refine .past (reads_allocate new.hostId subnet) fun (address, slot) =>
    .past (reads_hostCapacity new.hostId) fun capacity => ?_
  refine .past reads_mint fun (uuid, now) => ?_
  exact .write fun _ _ _ _ _ _ _ _ created ended =>
    created_marks (fun _ _ => rfl) created (finishCopy_fails _ _ _ _ ended)

theorem reads_state (name : String) (reach : Reach) : (reach.state name).Only ManagerCall.Reads :=
  only_state name (fun _ => trivial) fun _ _ => trivial

theorem renamed_marks {reply : Unit}
    (distinct : Distinct middle.fleet.instances) (found : middle.fleet.instances.find? (·.uuid = row.uuid) = some row)
    (different : newName ≠ row.name)
    (renamed : ((StoreCall.renameInstance row.uuid newName).tx manager moment).run middle.fleet = .ok (reply, fleet))
    (ends : EndsWith manager (.store (.renameInstance row.uuid row.name)) moments { middle with fleet } after) :
    LeftMark (.rename row.uuid newName) moments middle.fleet after.fleet := by
  obtain ⟨last, before, ended, unwinds, same, rfl⟩ := ends
  obtain ⟨fine, writable⟩ := of_decide_eq_true unwinds
  have listed : row ∈ middle.fleet.instances := List.mem_of_find?_eq_some found
  have alone : ∀ other ∈ middle.fleet.instances, other.uuid = row.uuid → other = row :=
    fun other known same => List.inj_on_of_nodup_map distinct.uuids known listed same
  have called : ∀ other ∈ middle.fleet.instances, other.name = row.name → other = row :=
    fun other known same => List.inj_on_of_nodup_map distinct.names known listed same
  obtain ⟨final, reverted, marked⟩ := rename_unwound last.now found alone called different renamed writable
  have runs : ((StoreCall.renameInstance row.uuid row.name).tx manager last).run before.fleet = .ok ((), final) := by
    rw [same]
    exact reverted
  have owned : (Naming.rename row.uuid newName).record middle.fleet last = ⟨newName, row.ownerId, last.later⟩ := by
    simp only [Naming.record, Naming.name, Naming.ownerId, Naming.releasedAt, found, Option.map_some, Option.getD_some]
  refine ⟨last, ended, ?_⟩
  rw [owned, serve_runs fine runs]
  exact marked

theorem renameTo_marks (different : newName ≠ row.name) :
    Marks manager (fun fleet => Distinct fleet.instances ∧ fleet.instances.find? (·.uuid = row.uuid) = some row)
      (.rename row.uuid newName)
      (manager.renameTo row newName) := by
  refine .past (((ensures_hypFor trivial).mono fun _ _ => trivial)) fun reach =>
    .past (only_lift (reads_state row.name reach)) fun state => ?_
  refine .past only_pure fun gone => .past only_pure fun _ => ?_
  exact .write fun _ _ _ _ _ _ _ ⟨distinct, found⟩ renamed ended =>
    renamed_marks distinct found different renamed (finishRename_fails _ _ _ _ ended)

theorem rename_marks {uuid : String} (distinct : Distinct world.fleet.instances)
    (ran : manager.Unwound (manager.rename uuid newName).run moments world (.error error) after)
    (wrote : manager.Wrote (manager.rename uuid newName).run moments world) :
    LeftMark (.rename uuid newName) moments world.fleet after.fleet := by
  have readsRow : (stored (.instance uuid)).run.Only ManagerCall.Reads := only_stored trivial
  obtain ⟨_, _, row, middle, rfl, -, read, begun, wrote⟩ :=
    ran_past_reads readsRow (fun _ _ => wrote_of_reads) ran wrote
  obtain ⟨moment, -, -, answer, unmoved⟩ := ran_stored_ok read
  obtain ⟨same, reads⟩ := instance_serve manager moment uuid world
  have own : row.uuid = uuid := by simpa using List.find?_some (reads row answer)
  have found : world.fleet.instances.find? (·.uuid = row.uuid) = some row := by
    rw [own]
    exact reads row answer
  rw [← own]
  rw [← unmoved, same] at begun wrote
  by_cases different : newName = row.name
  · rw [if_pos different] at begun
    exact (ran_return begun).elim
  · rw [if_neg different] at begun wrote
    exact (renameTo_marks different _ _ _ _ ⟨distinct, found⟩ begun wrote).prepend

theorem past_result {program : ManagerM β}
    (ran : manager.Unwound (program >>= fun _ => pure () : ManagerM Unit).run moments world (.error error) after)
    (wrote : manager.Wrote (program >>= fun _ => pure () : ManagerM Unit).run moments world) :
    manager.Unwound program.run moments world (.error error) after ∧ manager.Wrote program.run moments world := by
  obtain ⟨first, rest, result, middle, rfl, begun, ended⟩ := ran_bind.mp ran
  cases result with
  | ok => exact (ran_return ended).elim
  | error =>
    obtain ⟨rfl, same, rfl⟩ := ran_pure.mp ended
    cases same
    rw [List.append_nil]
    refine ⟨begun, (sees_bind begun wrote).resolve_right nofun⟩

end

/-- A create, a copy or a rename fails after its row was written, and taking the row back
does not fail by itself. The rows are as before. Every later claim of every name is answered
as if the request had never been made just when the release that was recorded does not show. -/
theorem failed_requests_leave_names (manager : Manager) (naming : Naming) (world after : World)
    (moments : List Moment) (last : Moment) (error : Error) (distinct : Distinct world.fleet.instances)
    (ends : moments.getLast? = some last)
    (ran : manager.Unwound (naming.action.program manager).run moments world (.error error) after)
    (wrote : manager.Wrote (naming.action.program manager).run moments world) :
    after.fleet.instances = world.fleet.instances ∧
    ((∀ name userId now, naming.releasedAt last ≤ now →
      (after.fleet.Grants manager.cooldown name userId now ↔ world.fleet.Grants manager.cooldown name userId now)) ↔
      world.fleet.Unmarked manager.cooldown (naming.record world.fleet last)) := by
  have left : LeftMark naming moments world.fleet after.fleet := by
    cases naming with
    | create mac new =>
      obtain ⟨ran, wrote⟩ := past_result ran wrote
      exact create_marks mac new _ _ _ _ trivial ran wrote
    | copy mac sourceUuid new =>
      obtain ⟨ran, wrote⟩ := past_result ran wrote
      exact copy_marks mac sourceUuid new _ _ _ _ trivial ran wrote
    | rename => exact rename_marks distinct ran wrote
  obtain ⟨_, same, marked⟩ := left
  cases ends.symm.trans same
  exact ⟨marked.rows, marked.grants_same_iff⟩

instance (fleet : Fleet) (cooldown : Nat) (name : String) (userId now : Int) :
    Decidable (fleet.Grants cooldown name userId now) :=
  inferInstanceAs (Decidable (_ = _))

def renameMoments : List Moment :=
  List.replicate 6 calm ++ [{ calm with fault := some (.refused (.machine "define")) }] ++ List.replicate 3 calm

def webGuest : Instance := { plainGuest "0b5e" "web" 1 with mac := "52:54:00:00:0b:5e" }

def webWorld : World := ⟨smallFleet [webGuest], fun _ => guestMachine webGuest .stopped⟩

def coolingManager : Manager := { exampleManager with cooldown := 10 }

structure RenameFails (manager : Manager) (error : Error) (after : World) : Prop where
  ran : manager.Unwound (manager.rename "0b5e" "db").run renameMoments webWorld (.error error) after
  wrote : manager.Wrote (manager.rename "0b5e" "db").run renameMoments webWorld

theorem rename_fails (manager : Manager) (shown : Bool)
    (ends : (((manager.rename "0b5e" "db").run.perform (fun moment call => ManagerCall.serve manager moment call)
      renameMoments webWorld).bind
      fun (result, after) => if result.isOk then none else some (decide
        (after.fleet.Grants manager.cooldown "db" 2 1000))) = some shown)
    (unwinds : (manager.rename "0b5e" "db").run.Along (fun moment call => ManagerCall.serve manager moment call)
      (fun moment call => call.unwinds moment = true) renameMoments webWorld)
    (wrote : manager.Wrote (manager.rename "0b5e" "db").run renameMoments webWorld) :
    ∃ error after, RenameFails manager error after ∧
      (after.fleet.Grants manager.cooldown "db" 2 1000 ↔ shown = true) := by
  obtain ⟨⟨result, after⟩, performed, seen⟩ := Option.bind_eq_some_iff.mp ends
  cases result with
  | ok => cases seen
  | error error =>
    cases seen
    exact ⟨error, after, ⟨⟨performed, unwinds⟩, wrote⟩, by simp⟩

theorem failed_requests_leave_names_uncooled : ∃ error after, RenameFails exampleManager error after ∧
    after.fleet.instances = webWorld.fleet.instances ∧
    ∀ name userId now, 1000 ≤ now →
      (after.fleet.Grants 0 name userId now ↔ webWorld.fleet.Grants 0 name userId now) := by
  obtain ⟨error, after, fails, -⟩ :=
    rename_fails exampleManager true (by decide +kernel) (by decide +kernel) (by decide +kernel)
  have distinct : Distinct webWorld.fleet.instances := ⟨by decide +kernel, by decide +kernel⟩
  obtain ⟨rows, shows⟩ := failed_requests_leave_names exampleManager (.rename "0b5e" "db") webWorld after
    renameMoments calm error distinct
    rfl fails.ran fails.wrote
  refine ⟨error, after, fails, rows, shows.mpr (.inr ⟨rfl, ?_⟩)⟩
  decide +kernel

/-- With one, the other user could have had the name and now has to wait. -/
theorem failed_requests_mark_names : ∃ error after, RenameFails coolingManager error after ∧
    webWorld.fleet.Grants 10 "db" 2 1000 ∧ ¬ after.fleet.Grants 10 "db" 2 1000 := by
  obtain ⟨error, after, fails, seen⟩ :=
    rename_fails coolingManager false (by decide +kernel) (by decide +kernel) (by decide +kernel)
  refine ⟨error, after, fails, by decide +kernel, fun granted => ?_⟩
  cases seen.mp granted

end Bento.Lifecycle
