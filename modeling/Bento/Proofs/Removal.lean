import Bento.Proofs.ManagerRuns

/-! The files of an instance that is removed. This machine deletes them by uuid, and a runner
only together with a domain that it finds by name. -/

namespace Bento.Lifecycle
open Hypervisor Library.Programs.Program Store
open Runner (InstanceRef)

def ManagerCall.deletesFiles : ManagerCall → Bool
  | .deprovision _ _ | .change _ .remove _ => true
  | _ => false

def ManagerCall.Deletes (moment : Moment) (call : ManagerCall) : Prop :=
  call.deletesFiles = true → moment.deletes = true ∧ moment.refuses = false

section
variable {manager : Manager} {moment : Moment} {world : World} {hostId : Int} {uuid name : String} {row : Instance}

theorem deprovision_here (deletes : (ManagerCall.deprovision manager.hostId row).Deletes moment) :
    ((ManagerCall.deprovision manager.hostId row).serve manager moment world).2 =
      world.setMachine manager.hostId ((world.machines manager.hostId).withoutFiles row.uuid) := by
  have performed : ((ManagerCall.deprovision manager.hostId row).perform manager moment world).2 =
      world.setMachine manager.hostId ((world.machines manager.hostId).withoutFiles row.uuid) := by
    simp only [ManagerCall.perform, if_true, World.onMachine, Machine.removeFiles, (deletes rfl).1]
  have taken := (deletes rfl).2
  unfold ManagerCall.serve
  unfold Moment.refuses at taken
  split
  next => exact performed
  next refused =>
    rw [refused] at taken
    cases taken
  next => exact performed

theorem deprovision_there (remote : hostId ≠ manager.hostId) :
    ((ManagerCall.deprovision hostId row).serve manager moment world).2 = world := by
  have performed : ((ManagerCall.deprovision hostId row).perform manager moment world).2 = world := by
    simp only [ManagerCall.perform, if_neg remote]
  unfold ManagerCall.serve
  split
  next => exact performed
  next => rfl
  next => exact performed

/-- What a removal through a runner does when it is told of no error but a missing domain. -/
inductive RemovedThere (world : World) (hostId : Int) (name : String) : World → Prop where
  | missing (unknown : (world.machines hostId).domain name = none) : RemovedThere world hostId name world
  | found {domain : Domain} (known : (world.machines hostId).domain name = some domain) : RemovedThere world hostId name
      (world.setMachine hostId (((world.machines hostId).undefine domain.spec.uuid).withoutFiles domain.spec.uuid))

theorem change_remove {target : InstanceRef} {domain : Domain}
    (known : (world.machines hostId).domain target.name = some domain)
    (deletes : moment.deletes = true) {state : PowerState}
    (answer : ((ManagerCall.change hostId .remove target).serve manager moment world).1 = .ok state) :
    ((ManagerCall.change hostId .remove target).serve manager moment world).2 =
      world.setMachine hostId (((world.machines hostId).undefine domain.spec.uuid).withoutFiles target.uuid) := by
  rcases change_cases manager moment world hostId .remove target with ⟨machine, acted, after⟩ | ⟨⟨error, refused⟩, -⟩
  · cases acted with
    | remove found =>
      cases known.symm.trans found
      rw [after, afterChange, Machine.removeFiles, if_pos deletes]
  · cases refused.symm.trans answer

theorem ran_removeThere {moments : List Moment} {after : World} {removed : Except Hypervisor.Error Unit}
    {describe : Hypervisor.Error → Error}
    (ran : manager.Ran (fun moment call => call.Deletes moment) (Reach.act .remove name (.there hostId))
    moments world removed after)
    (fine : Manager.undefined describe removed = .ok ()) : RemovedThere world hostId name after := by
  obtain ⟨_, _, answer, middle, rfl, looked, ran⟩ := ran_bind.mp ran
  obtain ⟨moment, rfl, -, answered, rfl⟩ := ran_asked looked
  rw [inventory_serve] at ran
  cases answer with
  | error =>
    obtain ⟨-, rfl, -⟩ := ran_pure.mp ran
    cases fine
  | ok =>
    obtain rfl := inventory_ok answered
    simp only [actThrough, Machine.list_find?] at ran
    cases known : (world.machines hostId).domain name with
    | none =>
      rw [known] at ran
      obtain ⟨-, -, rfl⟩ := ran_pure.mp ran
      exact .missing known
    | some =>
      rw [known] at ran
      obtain ⟨_, _, answer, _, -, changed, ended⟩ := ran_bind.mp ran
      obtain ⟨moment, -, deletes, answered, rfl⟩ := ran_asked changed
      obtain ⟨-, rfl, rfl⟩ := ran_pure.mp ended
      cases answer with
      | error => cases fine
      | ok =>
        rw [change_remove known (deletes rfl).1 answered]
        exact .found known

end

def HoldsFiles (machine : Hypervisor.Machine) (uuid : String) : Prop := uuid ∈ machine.overlays ∨ uuid ∈ machine.seeds

instance (machine : Hypervisor.Machine) (uuid : String) :
    Decidable (HoldsFiles machine uuid) := inferInstanceAs (Decidable (_ ∨ _))

theorem holdsFiles_withoutFiles {machine : Hypervisor.Machine} {uuid other : String} :
    HoldsFiles (machine.withoutFiles other) uuid ↔ HoldsFiles machine uuid ∧ uuid ≠ other := by
  simp only [HoldsFiles, Machine.withoutFiles, Machine.withoutSeed, Machine.withoutOverlay, List.mem_filter,
    decide_eq_true_eq, or_and_right]

/-- A removal that succeeds, with no deletion that fails, leaves no file of the instance
just when the instance is on this machine, or its domain was still defined there under its
name, or there was no file. -/
theorem removal_deletes_files (manager : Manager) (world after : World) (moments : List Moment) (row : Instance)
    (listed : world.fleet.instances.find? (·.uuid = row.uuid) = some row)
    (ran : manager.Ran (fun moment call => call.Deletes moment) (manager.remove row.uuid).run moments
      world (.ok ()) after) :
    ¬ HoldsFiles (after.machines row.hostId) row.uuid ↔
      row.hostId = manager.hostId ∨
        (∃ domain, (world.machines row.hostId).domain row.name = some domain ∧ domain.spec.uuid = row.uuid) ∨
        ¬ HoldsFiles (world.machines row.hostId) row.uuid := by
  obtain ⟨_, _, found, _, rfl, read, known⟩ := ran_bind_ok.mp ran
  obtain ⟨moment, -, -, answer, rfl⟩ := ran_stored_ok read
  obtain ⟨same, reads⟩ := instance_serve manager moment row.uuid world
  cases listed.symm.trans (reads found answer)
  rw [same] at known
  obtain ⟨_, _, reach, _, -, reaching, reached⟩ := ran_bind_ok.mp known
  obtain ⟨unmoved, place⟩ := ran_hypFor reaching
  rw [unmoved] at reached
  obtain ⟨_, _, removed, _, -, lifted, told⟩ := ran_bind_ok.mp reached
  obtain ⟨_, same, removing⟩ := ran_lift.mp lifted
  cases same
  obtain ⟨_, _, _, _, -, checking, undefined⟩ := ran_bind_ok.mp told
  obtain ⟨-, fine, rfl⟩ := ran_pure.mp checking
  obtain ⟨_, _, _, _, -, deprovisioning, deprovisioned⟩ := ran_bind_ok.mp undefined
  obtain ⟨moment, -, deletes, -, rfl⟩ := ran_answered deprovisioning
  obtain ⟨_, _, _, _, -, forgetting, forgotten⟩ := ran_bind_ok.mp deprovisioned
  obtain ⟨later, -, -, -, rfl⟩ := ran_asked (ran_checked_ok forgetting)
  obtain ⟨-, -, rfl⟩ := ran_pure.mp forgotten
  rw [store_machines]
  rcases place with ⟨here, rfl⟩ | ⟨there, rfl⟩
  · rw [here] at deletes ⊢
    rw [deprovision_here deletes, World.setMachine_same, holdsFiles_withoutFiles]
    simp
  · rw [deprovision_there there]
    cases ran_removeThere removing fine.symm with
    | missing unknown => simp [there, unknown]
    | @found domain defined =>
      rw [World.setMachine_same, holdsFiles_withoutFiles]
      simp only [there, defined, Option.some.injEq, exists_eq_left', false_or, not_and_or, not_not]
      constructor
      · rintro (none | same)
        · exact .inr none
        · exact .inl same.symm
      · rintro (same | none)
        · exact .inr same.symm
        · exact .inl none

instance (moment : Moment) (call : ManagerCall) : Decidable (call.Deletes moment) := inferInstanceAs (Decidable (_ → _))

def awayGuest : Instance := plainGuest "0b5e" "web" 2

def away (domains : List Domain) : World := ⟨smallFleet [awayGuest], fun _ => ⟨domains, ["0b5e"], []⟩⟩

def removeAway (count : Nat) (domains : List Domain) : Option (Except Error Unit × World) :=
  (exampleManager.remove "0b5e").run.perform (fun moment call => ManagerCall.serve exampleManager moment call)
    (List.replicate count calm) (away domains)

theorem ran_removeAway (count : Nat) (domains : List Domain) (shown : Hypervisor.Machine)
    (ends : ((removeAway count domains).bind fun (result, after) =>
      if result = .ok () then some (after.machines 2) else none) = some shown)
    (deletes : (exampleManager.remove "0b5e").run.Along (fun moment call =>
      ManagerCall.serve exampleManager moment call)
      (fun moment call => call.Deletes moment) (List.replicate count calm) (away domains)) :
    ∃ after, exampleManager.Ran (fun moment call => call.Deletes moment) (exampleManager.remove "0b5e").run
      (List.replicate count calm)
      (away domains) (.ok ()) after ∧ after.machines 2 = shown := by
  obtain ⟨⟨result, after⟩, ends, machine⟩ := Option.bind_eq_some_iff.mp ends
  simp only at machine
  split at machine
  next fine =>
    cases machine
    cases fine
    exact ⟨after, ⟨ends, deletes⟩, rfl⟩
  next => cases machine

theorem removal_deletes_files_running : ∃ after,
    exampleManager.Ran (fun moment call => call.Deletes moment) (exampleManager.remove "0b5e").run
      (List.replicate 6 calm)
      (away [guestDomain awayGuest .running]) (.ok ()) after ∧ ¬ HoldsFiles (after.machines 2) "0b5e" := by
  obtain ⟨after, ran, -⟩ := ran_removeAway 6 [guestDomain awayGuest .running] ⟨[], [], []⟩
    (by decide +kernel) (by decide +kernel)
  refine ⟨after, ran, ?_⟩
  apply (removal_deletes_files exampleManager _ after _ awayGuest (by decide +kernel) ran).mpr
  exact .inr (.inl ⟨guestDomain awayGuest .running, by decide +kernel, rfl⟩)

/-- The domain is gone already, and nobody deletes the files. -/
theorem removal_leaves_files : ∃ after,
    exampleManager.Ran (fun moment call => call.Deletes moment) (exampleManager.remove "0b5e").run
      (List.replicate 5 calm)
      (away []) (.ok ()) after ∧ HoldsFiles (after.machines 2) "0b5e" := by
  obtain ⟨after, ran, same⟩ := ran_removeAway 5 [] ⟨[], ["0b5e"], []⟩ (by decide +kernel) (by decide +kernel)
  exact ⟨after, ran, by rw [same]; decide⟩

end Bento.Lifecycle
