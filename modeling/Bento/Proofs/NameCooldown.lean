import Bento.Proofs.InstanceRows
import Mathlib.Data.Finset.Dedup
import Mathlib.Data.Finset.Order

/-! The names of the instances over whole histories of creates, renames and deletes. Beside
the tables a log keeps every release that was ever made. What the one row of a name in
`released_names` says is then what the last release in the log says, whoever retook the
name and released it again. -/

namespace Bento.Store
open Library.Transactions List

inductive NameRequest where
  | create (now : Int) (row : Instance) (capacity : Capacity)
  | rename (claimedAt releasedAt : Int) (uuid newName : String)
  | delete (now : Int) (uuid : String)

namespace NameRequest

def body (cooldown : Nat) : NameRequest → FleetTx Unit
  | .create now row capacity => createInstance now row cooldown capacity
  | .rename claimedAt releasedAt uuid newName => renameInstanceAt claimedAt releasedAt uuid newName cooldown
  | .delete now uuid => do
    let _ ← deleteInstance now uuid

def readings : NameRequest → List Int
  | .create now _ _ => [now]
  | .rename claimedAt releasedAt _ _ => [claimedAt, releasedAt]
  | .delete now _ => [now]

def release (fleet : Fleet) : NameRequest → Option ReleasedName
  | .create _ _ _ => none
  | .rename _ releasedAt uuid newName =>
    ((fleet.instances.find? (·.uuid = uuid)).filter (·.name ≠ newName)).map fun row =>
      ⟨row.name, row.ownerId, releasedAt⟩
  | .delete now uuid => (fleet.instances.find? (·.uuid = uuid)).map fun row => ⟨row.name, row.ownerId, now⟩

def claim (fleet : Fleet) : NameRequest → Option (String × Int × Int)
  | .create now row _ => some (row.name, row.ownerId, now)
  | .rename claimedAt _ uuid newName =>
    ((fleet.instances.find? (·.uuid = uuid)).filter (·.name ≠ newName)).map fun row => (newName, row.ownerId, claimedAt)
  | .delete _ _ => none

end NameRequest

structure NameLedger where
  fleet : Fleet
  log : List ReleasedName

namespace NameLedger

def answer (ledger : NameLedger) (cooldown : Nat) (request : NameRequest) : Except Error Unit :=
  (withTx (request.body cooldown) ledger.fleet).1

def serve (cooldown : Nat) (ledger : NameLedger) (request : NameRequest) : NameLedger where
  fleet := (withTx (request.body cooldown) ledger.fleet).2
  log :=
    if (ledger.answer cooldown request).isOk then (request.release ledger.fleet).toList ++ ledger.log else ledger.log

def history (cooldown : Nat) (ledger : NameLedger) (requests : List NameRequest) : NameLedger :=
  requests.foldl (serve cooldown) ledger

def lastRelease (ledger : NameLedger) (name : String) : Option ReleasedName := ledger.log.find? (·.name = name)

/-- No live instance has the name, and it was never released, or last by this user, or at
least the cooldown ago. -/
def Available (ledger : NameLedger) (cooldown : Nat) (name : String) (userId now : Int) : Prop :=
  (∀ row ∈ ledger.fleet.instances, row.name ≠ name) ∧
    ∀ last ∈ ledger.lastRelease name, last.previousOwnerId = userId ∨ cooldown ≤ now - last.releasedAt

instance (ledger : NameLedger) (cooldown : Nat) (name : String) (userId now : Int) :
    Decidable (ledger.Available cooldown name userId now) := inferInstanceAs (Decidable (_ ∧ _))

end NameLedger

def Error.aboutName : Error → Bool
  | .nameTaken => true
  | .nameCooldown _ _ => true
  | _ => false

theorem remainingCooldown_eq {releasedAt now : Int} {cooldown : Nat} (bounded : cooldown < 2 ^ 63 * 1000000000)
    (later : releasedAt ≤ now) : remainingCooldown releasedAt now cooldown =
      if cooldown ≤ now - releasedAt then none else some (cooldown - (now - releasedAt)).toNat := by
  unfold remainingCooldown
  dsimp only
  by_cases passed : cooldown ≤ now - releasedAt
  · rw [if_pos passed, if_pos (by omega)]
  · rw [if_neg passed, if_neg (by omega), if_pos (by omega)]

section
variable {fleet after : Fleet}

/-- The keys of the instances are unique, the log and the table agree, and no release lies
ahead of the clock. -/
structure NameLedger.Kept (now : Int) (ledger : NameLedger) : Prop where
  keyed : ledger.fleet.instances.Pairwise fun first last => first.uuid ≠ last.uuid ∧ first.name ≠ last.name
  recorded : ∀ name, ledger.fleet.lastRelease name = ledger.lastRelease name
  past : ∀ released ∈ ledger.log, released.releasedAt ≤ now

variable {name : String} {userId : Int} {cooldown : Nat}

theorem unheld_of_unrefused {now : Int}
    (unrefused : fleet.claimRefusal name userId cooldown now = none) : ∀ row ∈ fleet.instances, row.name ≠ name := by
  intro row listed same
  unfold Fleet.claimRefusal at unrefused
  rw [if_pos ⟨row, listed, same⟩] at unrefused
  cases unrefused

namespace NameLedger
variable {ledger : NameLedger} {now : Int} {cooldown : Nat} {request : NameRequest}

theorem Kept.release (kept : ledger.Kept now) {record : ReleasedName} (past : record.releasedAt ≤ now)
    (keyed : after.instances.Pairwise fun first last => first.uuid ≠ last.uuid ∧ first.name ≠ last.name)
    (written : after.releasedNames = ledger.fleet.released record) : Kept now ⟨after, record :: ledger.log⟩ := by
  refine ⟨keyed, fun name => ?_, ?_⟩
  · rw [lastRelease_released written, kept.recorded]
    unfold lastRelease
    rw [List.find?_cons]
    by_cases same : record.name = name <;> simp [same]
  · intro released listed
    rcases List.mem_cons.mp listed with rfl | old
    · exact past
    · exact kept.past released old

theorem keyed_rename {uuid newName : String}
    (keyed : fleet.instances.Pairwise fun first last => first.uuid ≠ last.uuid ∧ first.name ≠ last.name)
    (unheld : ∀ row ∈ fleet.instances, row.name ≠ newName) :
    (fleet.instances.map fun row => if row.uuid = uuid then { row with name := newName } else row).Pairwise
      fun first last => first.uuid ≠ last.uuid ∧ first.name ≠ last.name := by
  rw [pairwise_map]
  refine keyed.imp_of_mem fun {first last} early late ⟨uuids, names⟩ => ?_
  by_cases left : first.uuid = uuid
  · have right : last.uuid ≠ uuid := fun same => uuids (left.trans same.symm)
    rw [if_pos left, if_neg right]
    exact ⟨uuids, (unheld last late).symm⟩
  · rw [if_neg left]
    by_cases right : last.uuid = uuid
    · rw [if_pos right]
      exact ⟨uuids, unheld first early⟩
    · rw [if_neg right]
      exact ⟨uuids, names⟩

theorem Kept.serve (kept : ledger.Kept now) (past : ∀ reading ∈ request.readings, reading ≤ now) :
    (ledger.serve cooldown request).Kept now := by
  unfold NameLedger.serve answer
  cases ended : withTx (request.body cooldown) ledger.fleet with
  | mk result =>
    cases result with
    | error =>
      rw [withTx_error ended]
      exact kept
    | ok =>
      have ran := withTx_ok.mp ended
      cases request with
      | create =>
        obtain ⟨-, ⟨fresh, -⟩, _, rfl⟩ := createInstance_ok ran
        refine ⟨?_, kept.recorded, kept.past⟩
        refine List.pairwise_append.mpr ⟨kept.keyed, pairwise_singleton _ _, fun other listed added member => ?_⟩
        rw [List.mem_singleton.mp member]
        exact ⟨(fresh other listed).1, (fresh other listed).2.1⟩
      | rename claimedAt releasedAt uuid newName =>
        obtain ⟨row, known, ⟨same, rfl⟩ | ⟨other, unrefused, rfl⟩⟩ := renameInstanceAt_ok ran
        · have named : NameRequest.release ledger.fleet (.rename claimedAt releasedAt uuid newName) = none := by
            simp [NameRequest.release, known, Option.filter, same]
          rw [named]
          exact kept
        · have named : NameRequest.release ledger.fleet (.rename claimedAt releasedAt uuid newName) =
              some ⟨row.name, row.ownerId, releasedAt⟩ := by
            simp [NameRequest.release, known, Option.filter, other]
          rw [named]
          exact kept.release (past releasedAt (by simp [NameRequest.readings]))
            (keyed_rename kept.keyed (unheld_of_unrefused unrefused)) rfl
      | delete now uuid =>
        simp only [NameRequest.body, run_bind_ok, run_pure_ok] at ran
        obtain ⟨row, _, deleted, -, rfl⟩ := ran
        obtain ⟨known, rfl⟩ := deleteInstance_ok deleted
        have named : NameRequest.release ledger.fleet (.delete now uuid) = some ⟨row.name, row.ownerId, now⟩ := by
          simp [NameRequest.release, known]
        rw [named]
        exact kept.release (past now (by simp [NameRequest.readings])) (kept.keyed.filter _) rfl

theorem serve_refused (ledger : NameLedger) {error : Error} (refused : ledger.answer cooldown request = .error error) :
    ledger.serve cooldown request = ledger := by
  have unchanged : (withTx (request.body cooldown) ledger.fleet).2 = ledger.fleet := by
    cases ended : withTx (request.body cooldown) ledger.fleet with
    | mk =>
      unfold answer at refused
      rw [ended] at refused
      cases refused
      exact withTx_error ended
  unfold NameLedger.serve
  rw [unchanged, refused]
  rfl

theorem Kept.history (kept : ledger.Kept now) {requests : List NameRequest}
    (past : ∀ request ∈ requests, ∀ reading ∈ request.readings, reading ≤ now) :
    (ledger.history cooldown requests).Kept now := by
  induction requests generalizing ledger with
  | nil => exact kept
  | cons request requests ih =>
    exact ih (kept.serve (past request mem_cons_self)) fun later listed => past later (mem_cons_of_mem _ listed)

theorem Kept.claimRefusal (kept : ledger.Kept now) (bounded : cooldown < 2 ^ 63 * 1000000000)
    (name : String) (userId : Int) :
    (ledger.fleet.claimRefusal name userId cooldown now = none ↔ ledger.Available cooldown name userId now) ∧
      ∀ refused remaining, ledger.fleet.claimRefusal name userId cooldown now = some (.nameCooldown refused remaining) →
        refused = name ∧ ∃ last ∈ ledger.lastRelease name, (remaining : Int) = cooldown - (now - last.releasedAt) := by
  unfold Fleet.claimRefusal Available
  rw [kept.recorded]
  by_cases taken : ∃ row ∈ ledger.fleet.instances, row.name = name
  · rw [if_pos taken]
    obtain ⟨row, listed, same⟩ := taken
    refine ⟨⟨nofun, fun ⟨unheld, _⟩ => absurd same (unheld row listed)⟩, ?_⟩
    intro _ _ refused
    cases refused
  · rw [if_neg taken]
    have unheld : ∀ row ∈ ledger.fleet.instances, row.name ≠ name := fun row listed same => taken ⟨row, listed, same⟩
    cases found : ledger.lastRelease name with
    | none => exact ⟨⟨fun _ => ⟨unheld, by simp⟩, fun _ => rfl⟩, fun _ _ refused => by cases refused⟩
    | some last =>
      have before : last.releasedAt ≤ now := kept.past last (mem_of_find?_eq_some found)
      rw [Option.bind_some, remainingCooldown_eq bounded before]
      by_cases own : last.previousOwnerId = userId
      · rw [if_pos own]
        exact ⟨⟨fun _ => ⟨unheld, by simp [own]⟩, fun _ => rfl⟩, fun _ _ refused => by cases refused⟩
      · rw [if_neg own]
        by_cases passed : cooldown ≤ now - last.releasedAt
        · rw [if_pos passed]
          exact ⟨⟨fun _ => ⟨unheld, by simp [passed]⟩, fun _ => rfl⟩, fun _ _ refused => by cases refused⟩
        · rw [if_neg passed]
          refine ⟨⟨nofun, fun ⟨_, waited⟩ => ?_⟩, ?_⟩
          · rcases waited last rfl with same | late
            · exact absurd same own
            · exact absurd late passed
          · intro _ _ refused
            cases refused
            exact ⟨rfl, last, rfl, Int.toNat_of_nonneg (by omega)⟩

end NameLedger

theorem aboutName_of_refused {now : Int} {error : Error}
    (refused : fleet.claimRefusal name userId cooldown now = some error) : error.aboutName = true := by
  unfold Fleet.claimRefusal at refused
  split at refused
  · cases refused
    rfl
  · obtain ⟨released, -, rest⟩ := Option.bind_eq_some_iff.mp refused
    split at rest
    · cases rest
    · obtain ⟨_, -, rfl⟩ := Option.map_eq_some_iff.mp rest
      rfl

theorem claims_first {α : Type} {rest : FleetTx α} (quiet : Raises (·.aboutName = false) rest) (name : String)
    (userId now : Int) (cooldown : Nat) :
    (∃ error, (withTx (do claimNameTx name userId cooldown now; rest) fleet).1 = .error error ∧
      error.aboutName = true) ↔
      fleet.claimRefusal name userId cooldown now ≠ none := by
  unfold withTx
  rw [StateT.run_bind, claimNameTx_run]
  cases refusal : fleet.claimRefusal name userId cooldown now with
  | some =>
    have about := aboutName_of_refused refusal
    simp [bind, Except.bind, about]
  | none =>
    simp only [bind, Except.bind, ne_eq, not_true_eq_false, iff_false, not_exists, not_and]
    intro error failed about
    cases ended : rest.run fleet with
    | error =>
      rw [ended] at failed
      cases failed
      exact absurd about (by simp [quiet fleet error ended])
    | ok =>
      rw [ended] at failed
      cases failed

theorem raises_refuse (ceiling : Ceiling) (resource : Resource) (used requested : Nat) :
    Raises (·.aboutName = false) (Ceiling.refuse ceiling resource used requested) := by
  cases ceiling with
  | unbounded => exact .pure ()
  | limit => exact .refuseIf rfl

theorem raises_checkCapacityTx (hostId : Int) (excludeUuid : String) (addMemory addDisk : Nat) (capacity : Capacity) :
    Raises (·.aboutName = false) (checkCapacityTx hostId excludeUuid addMemory addDisk capacity) := by
  refine .bind .get fun fleet => .bind (.refuseIf rfl) fun _ => .bind (raises_refuse _ _ _ _) fun _ => ?_
  exact raises_refuse _ _ _ _

theorem answer_aboutName {ledger : NameLedger} {request : NameRequest} {now : Int}
    (claims : request.claim ledger.fleet = some (name, userId, now)) :
    (∃ error, ledger.answer cooldown request = .error error ∧ error.aboutName = true) ↔
      ledger.fleet.claimRefusal name userId cooldown now ≠ none := by
  cases request with
  | create now row =>
    cases claims
    refine claims_first (.bind (raises_checkCapacityTx _ _ _ _ _) fun _ => ?_) row.name row.ownerId now cooldown
    exact .bind (raises_formatTime (by rfl) _) fun _ => .bind .get fun _ => .bind (.refuseIf rfl) fun _ => .set _
  | rename claimedAt releasedAt uuid =>
    obtain ⟨row, found, same⟩ := Option.map_eq_some_iff.mp claims
    obtain ⟨known, other⟩ := Option.filter_eq_some_iff.mp found
    cases same
    have rest : Raises (·.aboutName = false) (do
        let _ ← updateInstances (·.uuid = uuid) fun row => { row with name }
        releaseNameTx row.name row.ownerId releasedAt) :=
      .bind (raises_updateInstances (by rfl) _ _) fun _ => raises_releaseNameTx (by rfl) _ _ _
    have read : (getInstanceTx uuid).run ledger.fleet = .ok (row, ledger.fleet) := getInstanceTx_ok.mpr ⟨known, rfl⟩
    have begun : (renameInstanceAt now releasedAt uuid name cooldown).run ledger.fleet =
        (do
          claimNameTx name row.ownerId cooldown now
          let _ ← updateInstances (·.uuid = uuid) fun row => { row with name }
          releaseNameTx row.name row.ownerId releasedAt : FleetTx Unit).run ledger.fleet := by
      unfold renameInstanceAt
      rw [StateT.run_bind, read]
      simp only [bind, Except.bind]
      rw [if_neg (by simpa using other)]
    rw [← claims_first rest name row.ownerId now cooldown]
    unfold NameLedger.answer withTx NameRequest.body
    rw [begun]
  | delete => cases claims

theorem withTx_claimName (fleet : Fleet) (name : String) (userId : Int) (cooldown : Nat) (now : Int) :
    (withTx (claimNameTx name userId cooldown now) fleet).1 =
      match fleet.claimRefusal name userId cooldown now with
      | none => .ok ()
      | some error => .error error := by
  unfold withTx
  rw [claimNameTx_run]
  cases fleet.claimRefusal name userId cooldown now <;> rfl

/-- After any history of creates, renames and deletes the live names are unique, and a user
gets a name just when nobody has it and it was never released, or last by this user, or at
least the cooldown ago. What is refused changes nothing, and a refusal for the cooldown
says exactly what is left of it. -/
theorem names_cool_down (cooldown : Nat) (bounded : cooldown < 2 ^ 63 * 1000000000) (start : Fleet)
    (unreleased : start.releasedNames = [])
    (keyed : start.instances.Pairwise fun first last => first.uuid ≠ last.uuid ∧ first.name ≠ last.name)
    (requests : List NameRequest) : let ledger := NameLedger.history cooldown ⟨start, []⟩ requests
    ledger.fleet.instances.Pairwise (·.name ≠ ·.name) ∧
    (∀ name userId now, (∀ request ∈ requests, ∀ reading ∈ request.readings, reading ≤ now) →
      ((withTx (claimNameTx name userId cooldown now) ledger.fleet).1 = .ok () ↔
        ledger.Available cooldown name userId now) ∧
      (∀ request, request.claim ledger.fleet = some (name, userId, now) →
        ((∃ error, ledger.answer cooldown request = .error error ∧ error.aboutName = true) ↔
          ¬ ledger.Available cooldown name userId now)) ∧
      ∀ refused remaining,
        (withTx (claimNameTx name userId cooldown now) ledger.fleet).1 = .error (.nameCooldown refused remaining) →
          refused = name ∧ ∃ last ∈ ledger.lastRelease name, (remaining : Int) = cooldown - (now - last.releasedAt)) ∧
    ∀ request error, ledger.answer cooldown request = .error error → (ledger.serve cooldown request) = ledger := by
  intro ledger
  have initial (now : Int) : NameLedger.Kept now ⟨start, []⟩ := by
    refine ⟨keyed, fun name => ?_, by simp⟩
    unfold Fleet.lastRelease NameLedger.lastRelease
    rw [unreleased]
  refine ⟨?_, ?_, ?_⟩
  · obtain ⟨now, past⟩ := (requests.flatMap NameRequest.readings).toFinset.exists_le
    have bound : ∀ request ∈ requests, ∀ reading ∈ request.readings, reading ≤ now :=
      fun request listed reading member =>
      past reading (List.mem_toFinset.mpr (List.mem_flatMap.mpr ⟨request, listed, member⟩))
    exact ((initial now).history bound).keyed.imp fun keys => keys.2
  · intro name userId now past
    have kept : ledger.Kept now := (initial now).history past
    obtain ⟨free, left⟩ := kept.claimRefusal bounded name userId
    rw [withTx_claimName]
    refine ⟨?_, fun request claims => ?_, fun refused remaining failed => ?_⟩
    · rw [← free]
      cases ledger.fleet.claimRefusal name userId cooldown now <;> simp
    · rw [answer_aboutName claims, ← free]
    · apply left
      cases refusal : ledger.fleet.claimRefusal name userId cooldown now with
      | none =>
        rw [refusal] at failed
        cases failed
      | some =>
        rw [refusal] at failed
        cases failed
        rfl
  · exact fun request error refused => ledger.serve_refused refused

end

def givenUp : List NameRequest := [.create 1 (plainGuest "0b5e" "web" 1) unlimited, .delete 3 "0b5e"]

theorem names_cool_down_given_up :
    (withTx (claimNameTx "web" 1 10 5) (NameLedger.history 10 ⟨smallFleet [], []⟩ givenUp).fleet).1 = .ok () ∧
    (withTx (claimNameTx "web" 2 10 5) (NameLedger.history 10 ⟨smallFleet [], []⟩ givenUp).fleet).1 ≠ .ok () ∧
    (withTx (claimNameTx "web" 2 10 13) (NameLedger.history 10 ⟨smallFleet [], []⟩ givenUp).fleet).1 = .ok () := by
  have claims (name : String) (userId now : Int) (past : ∀ request ∈ givenUp,
    ∀ reading ∈ request.readings, reading ≤ now) :=
    ((names_cool_down 10 (by decide) (smallFleet []) rfl .nil givenUp).2.1 name userId now past).1
  refine ⟨?_, ?_, ?_⟩
  · apply (claims "web" 1 5 (by decide)).mpr
    decide +kernel
  · intro claimed
    exact absurd ((claims "web" 2 5 (by decide)).mp claimed) (by decide +kernel)
  · apply (claims "web" 2 13 (by decide)).mpr
    decide +kernel

end Bento.Store
