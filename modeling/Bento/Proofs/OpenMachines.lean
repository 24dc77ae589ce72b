import Bento.Proofs.Allocation
import Bento.Proofs.HostChoice
import Bento.Proofs.ManagerRuns

/-! Where a new instance ends up: on a machine that takes instances, in a slot of its own that
is active, at an address in that slot. -/

namespace Bento.Network
open Library Library.Results

variable {subnet : Ipv4Prefix} {address : Ipv4Addr} {slot : Nat} {row : Instance} {hostId : Int}

theorem allocateAddress_ok {used : List Ipv4Addr} {slots : Slots}
    (allocated : allocateAddress used subnet slots slot = .ok address) : slots.octetSlot address = slot := by
  have opened := allocated
  unfold allocateAddress at opened
  obtain ⟨_, slash24, rest⟩ := bind_ok.mp opened
  obtain ⟨_, assignable, -⟩ := bind_ok.mp rest
  obtain ⟨_, known, -⟩ := bind_ok.mp assignable
  have user := requireSlash24_ok.mp slash24
  have inside := Slots.checkSlot_ok.mp known
  rcases allocateAddress_eq user inside fun address _ =>
    Iff.rfl (a := address ∈ used) with ⟨found, same, lowest⟩ | ⟨failed, -⟩
  · cases allocated.symm.trans same
    exact ((contains_within user inside).mp lowest.1.1).2
  · cases allocated.symm.trans failed

end Bento.Network

namespace Bento.Lifecycle
open Bentod Library Library.Programs.Program Library.Transactions Network Store

theorem firstFree_ok {used : List Ipv4Addr} {slots : Slots} {owned : List Nat}
    (found : firstFree used subnet slots owned = .ok (address, slot)) :
    slot ∈ owned ∧ slots.octetSlot address = slot := by
  induction owned with
  | nil => cases found
  | cons first rest ih =>
    unfold firstFree at found
    split at found
    next => cases found
    split at found
    next allocated =>
      cases found
      exact ⟨List.mem_cons_self, allocateAddress_ok allocated⟩
    next =>
      obtain ⟨listed, inside⟩ := ih found
      exact ⟨List.mem_cons_of_mem _ listed, inside⟩
    next => cases found

def OwnsPlace (fleet : Fleet) (hostId : Int) (address : Ipv4Addr) (slot : Nat) : Prop :=
  ∃ slots, Slots.new fleet.runnerPrefix = .ok slots ∧ slots.octetSlot address = slot ∧
    ∃ owned ∈ fleet.slots, owned.slot = slot ∧ owned.ownerHostId = hostId ∧ owned.state = .active

theorem allocateInOwnedSlot_ok {fleet : Fleet}
    (allocated : allocateInOwnedSlot fleet hostId subnet = .ok (address, slot)) :
    OwnsPlace fleet hostId address slot := by
  unfold allocateInOwnedSlot at allocated
  split at allocated
  next => cases allocated
  next slots divided =>
    dsimp only at allocated
    split at allocated
    next => cases allocated
    cases found : firstFree (usedAddresses fleet subnet) subnet slots
        (((fleet.slots.filter fun row => row.ownerHostId = hostId ∧ row.state = .active).map Slot.slot).insertionSort
          (· ≤ ·)) with
    | error error =>
      rw [found] at allocated
      cases allocated
    | ok place =>
      rw [found] at allocated
      cases allocated
      obtain ⟨listed, inside⟩ := firstFree_ok found
      obtain ⟨owned, member, same⟩ := List.mem_map.mp ((List.perm_insertionSort _ _).mem_iff.mp listed)
      obtain ⟨stored, mine⟩ := List.mem_filter.mp member
      obtain ⟨owner, active⟩ := of_decide_eq_true mine
      exact ⟨slots, divided, inside, owned, stored, same, owner, active⟩

def Listed {φ : Type} (floats : Floats φ) (roster : Roster) (arch : Option String) (fleet : Fleet)
    (moment : Moment) : Prop :=
  moment.catalog.placeableHosts = .ok (placeableHosts roster fleet) ∧
    ∀ want, moment.catalog.chooseHost want = (chooseHost floats roster fleet arch want).map Store.Host.id

def inserts (row : Instance) : (call : ManagerCall) → call.Answer → Bool
  | .store (.createInstance other _), .ok _ => other = row
  | _, _ => false

abbrev Manager.Inserts {α : Type} (manager : Manager) (row : Instance) (program : ManagerProgram α)
    (moments : List Moment) (world : World) : Prop :=
  program.Sees (fun moment call => ManagerCall.serve manager moment call)
    (fun call answer => inserts row call answer = true) moments world

def InOpenPlace (roster : Roster) (fleet : Fleet) (row : Instance) : Prop :=
  roster.takes row.hostId = true ∧ ∃ address slot, row.address = Ipv4.text address ∧ row.slot = some slot ∧
    OwnsPlace fleet row.hostId address slot

section
variable {φ : Type} {floats : Floats φ} {roster : Roster} {arch : Option String} {manager : Manager}
  {moments : List Moment} {world after : World} {fleet : Fleet}

theorem inserts_reads (call : ManagerCall) (answer : call.Answer) (reads : call.Reads) :
    ¬ inserts row call answer = true := by
  intro inserted
  cases call with
  | store body =>
    cases body with
    | createInstance => exact reads
    | _ => cases inserted
  | _ => cases inserted

theorem ran_place {request : Manager.NewRequest}
    (ran : manager.Ran (fun moment _ => Listed floats roster arch fleet moment) (Manager.place request).run moments
      world (.ok hostId) after) :
    placeableHosts roster fleet ≤ 1 ∧ hostId = request.hostId ∨ 2 ≤ placeableHosts roster fleet ∧
      roster.takes hostId = true := by
  obtain ⟨_, _, placeable, _, rfl, counted, rest⟩ := ran_bind_ok.mp ran
  obtain ⟨moment, rfl, listed, answer, -⟩ := ran_stored_ok counted
  have count : placeable = placeableHosts roster fleet := by
    rcases store_cases manager moment world .placeableHosts with ⟨reply, fleet, same, read, -⟩ | ⟨⟨cause, refused⟩, -⟩
    · cases same.symm.trans answer
      obtain ⟨found, -⟩ := run_lift_ok.mp read
      exact Except.ok.inj (found.symm.trans listed.1)
    · cases refused.symm.trans answer
  subst count
  split at rest
  next few =>
    obtain ⟨-, same, -⟩ := ran_pure.mp rest
    cases same
    exact .inl ⟨few, rfl⟩
  next many =>
    refine .inr ⟨Nat.not_le.mp many, ?_⟩
    obtain ⟨later, -, listed, answer, -⟩ := ran_stored_ok rest
    rcases store_cases manager later _ (.chooseHost _) with ⟨reply, _, same, read, -⟩ | ⟨⟨cause, refused⟩, -⟩
    · cases same.symm.trans answer
      obtain ⟨found, -⟩ := run_lift_ok.mp read
      obtain ⟨host, chosen, rfl⟩ := Results.map_ok.mp ((listed.2 _).symm.trans found)
      exact (chooseHost_ok chosen).2.1
    · cases refused.symm.trans answer

theorem ran_allocate {rule : Moment → ManagerCall → Prop}
    (ran : manager.Ran rule (Manager.allocate hostId subnet).run moments world (.ok (address, slot)) after) :
    OwnsPlace world.fleet hostId address slot := by
  obtain ⟨inner, same, begun⟩ := ran_checked ran
  obtain ⟨moment, -, -, answer, -⟩ := ran_asked begun
  cases inner with
  | error => cases same
  | ok =>
    cases same
    unfold ManagerCall.serve at answer
    split at answer
    next => exact allocateInOwnedSlot_ok answer
    next => cases answer
    next => cases answer

def ManagerCall.Finishes : ManagerCall → Prop
  | .store (.createInstance _ _) => False
  | _ => True

theorem only_unwindNew {α : Type} (row : Instance) (cause : String) :
    (manager.unwindNew row cause : ManagerM α).run.Only ManagerCall.Finishes := by
  refine only_except (only_answered trivial) fun answer => ?_
  cases answer with
  | ok | error => exact only_pure

theorem only_finishNew (row : Instance) (owner : User) (subnet : Ipv4Prefix) (address : Ipv4Addr) :
    (manager.finishNew row owner subnet address).run.Only ManagerCall.Finishes := by
  unfold Manager.finishNew
  split
  next => exact only_unwindNew row _
  next =>
    split
    next => exact only_unwindNew row _
    next =>
      refine only_except (only_answered trivial) fun answer => ?_
      cases answer with
      | error => exact only_unwindNew row _
      | ok => exact only_except (only_answered trivial) fun _ => only_pure

theorem inserts_finishes (call : ManagerCall) (answer : call.Answer) (finishes : call.Finishes) :
    ¬ inserts row call answer = true := by
  intro inserted
  cases call with
  | store body =>
    cases body with
    | createInstance => exact finishes
    | _ => cases inserted
  | _ => cases inserted

theorem sees_createInstance {α : Type} {other : Instance} {capacity : Capacity} {next : ManagerM α}
    {rule : Moment → ManagerCall → Prop} {result : Except Error α} (only : next.run.Only ManagerCall.Finishes)
    (ran : manager.Ran rule (stored (.createInstance other capacity) >>= fun _ => next).run moments world result after)
    (sees : manager.Inserts row (stored (.createInstance other capacity) >>= fun _ => next).run moments world) :
    other = row := by
  obtain ⟨moment, rest, rfl, -, ended⟩ := ran_request.mp ran
  rcases sees with now | later
  · generalize ((ManagerCall.store (.createInstance other capacity)).serve manager moment world).1 = answer at now
    cases answer with
    | ok => exact of_decide_eq_true now
    | error => cases now
  · exfalso
    generalize ((ManagerCall.store (.createInstance other capacity)).serve manager moment world).1 = answer at later
    cases answer with
    | ok => exact only.unseen inserts_finishes later
    | error => cases rest <;> cases later

end

/-- A row that a create inserts is in an open place just when placement had a choice or the
machine that received the request is open itself. -/
theorem created_in_open_place {φ : Type} (floats : Floats φ) (roster : Roster) (arch : Option String)
    (manager : Manager) (mac : String → String) (request : Manager.NewRequest) (moments : List Moment)
    (world after : World) (result : Except Error Instance) (row : Instance)
    (ran : manager.Ran (fun moment _ => Listed floats roster arch world.fleet moment) (manager.create mac request).run
    moments world result after)
    (inserted : manager.Inserts row (manager.create mac request).run moments world) :
    InOpenPlace roster world.fleet row ↔ 2 ≤ placeableHosts roster world.fleet ∨
      roster.takes request.hostId = true := by
  have reads (call : ManagerCall) (answer : call.Answer) := @inserts_reads row call answer
  obtain ⟨_, _, _, _, -, sameNew, -, checked, inserted⟩ := ran_past_reads only_pure reads ran inserted
  obtain ⟨_, _, checksum, _, -, sameVersion, -, versioned, inserted⟩ :=
    ran_past_reads (only_currentVersion (fun _ reads => reads) request) reads checked inserted
  obtain ⟨_, _, subnet, _, -, sameSubnet, -, inSubnet, inserted⟩ := ran_past_reads only_pure reads versioned inserted
  obtain ⟨_, _, hostId, _, -, samePlace, placed, rest, inserted⟩ :=
    ran_past_reads (only_place (fun _ reads => reads) request) reads inSubnet inserted
  obtain ⟨_, _, ⟨address, slot⟩, _, -, sameSlot, allocated, rest, inserted⟩ :=
    ran_past_reads (reads_allocate hostId subnet) reads rest inserted
  obtain ⟨_, _, ⟨uuid, now⟩, _, -, -, -, rest, inserted⟩ := ran_past_reads reads_mint reads rest inserted
  obtain ⟨_, _, capacity, _, -, -, -, rest, inserted⟩ := ran_past_reads (reads_hostCapacity hostId) reads rest inserted
  have same := sees_createInstance (only_finishNew _ request.owner subnet address) rest inserted
  have owns := ran_allocate allocated
  rw [samePlace, sameSubnet, sameVersion, sameNew] at owns
  subst same
  have isOpen : InOpenPlace roster world.fleet
    (request.row mac hostId request.imageName checksum uuid now address slot) ↔
      roster.takes hostId = true := ⟨fun placed => placed.1, fun takes => ⟨takes, address, slot, rfl, rfl, owns⟩⟩
  refine isOpen.trans ?_
  rcases ran_place placed with ⟨few, rfl⟩ | ⟨many, takes⟩
  · constructor
    · exact .inr
    · rintro (many | takes)
      · omega
      · exact takes
  · exact iff_of_true takes (.inl many)

/-! A create that the controller receives. -/

def rosterOf (controller runner : Placement) : Roster where
  enabled _ := true
  placement hostId := if hostId = 1 then controller else runner
  observation _ := none

def controllerWorld : World :=
  ⟨{ smallFleet [] with slots := [⟨0, .active, 1, 1, none, none, none⟩] }, fun _ => ⟨[], [], []⟩⟩

def listedMoments (roster : Roster) : List Moment :=
  List.replicate 10 { calm with catalog := { exampleCatalog with
    placeableHosts := .ok (placeableHosts roster controllerWorld.fleet)
    chooseHost want := (chooseHost fractions roster controllerWorld.fleet none want).map Store.Host.id } }

def webRequest : Manager.NewRequest :=
  ⟨"web", ⟨1, "alice", "10.100.0.0/24".toList⟩, 1, "debian", 1, 512, 10, false, false, 80⟩

def webCreate : ManagerProgram (Except Error Instance) :=
  (exampleManager.create (fun _ => "52:54:00:00:5a:c1") webRequest).run

def webRow : Instance := webRequest.row (fun _ => "52:54:00:00:5a:c1") 1 "debian" "sha256-0" "5ac1" 1000 0x0a640002 0

theorem ran_webCreate (roster : Roster)
    (performed : (webCreate.perform (fun moment call => ManagerCall.serve exampleManager moment call)
      (listedMoments roster) controllerWorld).isSome = true) :
    ∃ result after, exampleManager.Ran (fun moment _ => Listed fractions roster none controllerWorld.fleet moment)
      webCreate (listedMoments roster)
      controllerWorld result after := by
  obtain ⟨⟨result, after⟩, ends⟩ := Option.isSome_iff_exists.mp performed
  refine ⟨result, after, ends, along_of_inputs fun moment listed _ => ?_⟩
  rw [List.eq_of_mem_replicate listed]
  exact ⟨rfl, fun _ => rfl⟩

theorem created_in_open_place_alone : ∃ result after,
    exampleManager.Ran (fun moment _ =>
      Listed fractions (rosterOf .active .draining) none controllerWorld.fleet moment) webCreate
      (listedMoments (rosterOf .active .draining)) controllerWorld result after ∧
    InOpenPlace (rosterOf .active .draining) controllerWorld.fleet webRow := by
  obtain ⟨result, after, ran⟩ := ran_webCreate (rosterOf .active .draining) (by decide +kernel)
  have inserted : exampleManager.Inserts webRow webCreate (listedMoments (rosterOf .active .draining))
    controllerWorld := by decide +kernel
  exact ⟨result, after, ran,
    (created_in_open_place fractions (rosterOf .active .draining) none exampleManager _ webRequest _
    controllerWorld after
    result webRow ran inserted).mpr (.inr (by decide))⟩

/-- The controller drains, and the one machine that is open is not asked. -/
theorem created_on_draining : ∃ result after,
    exampleManager.Ran (fun moment _ =>
      Listed fractions (rosterOf .draining .active) none controllerWorld.fleet moment) webCreate
      (listedMoments (rosterOf .draining .active)) controllerWorld result after ∧
    exampleManager.Inserts webRow webCreate (listedMoments (rosterOf .draining .active)) controllerWorld ∧
    (rosterOf .draining .active).takes webRow.hostId = false := by
  obtain ⟨result, after, ran⟩ := ran_webCreate (rosterOf .draining .active) (by decide +kernel)
  exact ⟨result, after, ran, by decide +kernel, by decide⟩

end Bento.Lifecycle
