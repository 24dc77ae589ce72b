import Bento.Lifecycle.Actions
import Bento.Proofs.Domains
import Bento.Proofs.InstanceRows

/-! What one call of the manager does to the world: to the domains and the files of a machine,
and to the rows. Every invariant of the actions is read off these effects. -/

namespace Bento.Lifecycle
open Hypervisor Library.Transactions Store List Machine
open Runner (InstanceRef)

namespace World
variable (world : World) (hostId : Int) (machine : Hypervisor.Machine)

@[simp] theorem setMachine_same : (world.setMachine hostId machine).machines hostId = machine := Function.update_self ..

theorem setMachine_other {other : Int} (different : other ≠ hostId) :
    (world.setMachine hostId machine).machines other = world.machines other :=
  Function.update_of_ne different ..

@[simp] theorem setMachine_self : world.setMachine hostId (world.machines hostId) = world := by
  simp [World.setMachine]

end World

section Serving
variable {manager : Manager} {moment : Moment} {world after : World}

theorem serve_cases (manager : Manager) (moment : Moment) (call : ManagerCall) (world : World) :
    call.serve manager moment world = call.perform manager moment world ∨
      ∃ cause, (call.serve manager moment world).1 = call.failed manager moment cause ∧
        ((call.serve manager moment world).2 = world ∨
          (call.serve manager moment world).2 = (call.perform manager moment world).2) := by
  unfold ManagerCall.serve
  split
  next => exact .inl rfl
  next cause _ => exact .inr ⟨cause, rfl, .inl rfl⟩
  next cause _ =>
    refine .inr ⟨cause, rfl, ?_⟩
    split
    next => exact .inl rfl
    next => exact .inr rfl

theorem taken_or_refused (call : ManagerCall) (taken : World → Prop) (refused : call.Answer → Prop)
    (fails : ∀ cause, refused (call.failed manager moment cause))
    (performed : taken (call.perform manager moment world).2 ∨
      refused (call.perform manager moment world).1 ∧ (call.perform manager moment world).2 = world) :
    taken (call.serve manager moment world).2 ∨
      refused (call.serve manager moment world).1 ∧ (call.serve manager moment world).2 = world := by
  rcases serve_cases manager moment call world with same | ⟨cause, failed, nothing | done⟩
  · rw [same]
    exact performed
  · rw [failed]
    exact .inr ⟨fails cause, nothing⟩
  · rw [failed, done]
    rcases performed with work | ⟨-, nothing⟩
    · exact .inl work
    · exact .inr ⟨fails cause, nothing⟩

theorem store_cases (manager : Manager) (moment : Moment) (world : World) (call : StoreCall) :
    (∃ reply fleet, ((ManagerCall.store call).serve manager moment world).1 = .ok reply ∧
      (call.tx manager moment).run world.fleet = .ok (reply, fleet) ∧
      ((ManagerCall.store call).serve manager moment world).2 = { world with fleet }) ∨
    (∃ cause, ((ManagerCall.store call).serve manager moment world).1 = .error cause) ∧
      ((ManagerCall.store call).serve manager moment world).2 = world := by
  unfold ManagerCall.serve
  split
  next =>
    simp only [ManagerCall.perform]
    cases result : withTx (call.tx manager moment) world.fleet with
    | mk outcome fleet =>
      cases outcome with
      | ok reply => exact .inl ⟨reply, fleet, rfl, withTx_ok.mp result, rfl⟩
      | error =>
        obtain rfl := withTx_error result
        exact .inr ⟨⟨_, rfl⟩, rfl⟩
  next => exact .inr ⟨⟨_, rfl⟩, rfl⟩
  next => exact .inr ⟨⟨_, rfl⟩, rfl⟩

theorem hypervisor_serve (manager : Manager) (moment : Moment) (hostId : Int) (world : World) :
    ((ManagerCall.hypervisor hostId).serve manager moment world).2 = world := by
  unfold ManagerCall.serve
  split <;> rfl

theorem inventory_serve (manager : Manager) (moment : Moment) (hostId : Int) (world : World) :
    ((ManagerCall.inventory hostId).serve manager moment world).2 = world := by
  unfold ManagerCall.serve
  split <;> rfl

theorem inventory_ok {manager : Manager} {moment : Moment} {hostId : Int} {world : World} {domains : List DomainInfo}
    (answer : ((ManagerCall.inventory hostId).serve manager moment world).1 = .ok domains) :
    domains = (world.machines hostId).list := by
  unfold ManagerCall.serve at answer
  split at answer <;> cases answer
  rfl

theorem store_machines (manager : Manager) (moment : Moment) (world : World) (call : StoreCall) :
    ((ManagerCall.store call).serve manager moment world).2.machines = world.machines := by
  rcases store_cases manager moment world call with ⟨_, _, -, -, after⟩ | ⟨-, after⟩ <;> rw [after]

theorem instance_serve (manager : Manager) (moment : Moment) (uuid : String) (world : World) :
    ((ManagerCall.store (.instance uuid)).serve manager moment world).2 = world ∧
      ∀ row, ((ManagerCall.store (.instance uuid)).serve manager moment world).1 = .ok row →
        world.fleet.instances.find? (·.uuid = uuid) = some row := by
  rcases store_cases manager moment world (.instance uuid) with ⟨row, fleet, answer, ran, after⟩ |
    ⟨⟨cause, refused⟩, after⟩
  · obtain ⟨found, rfl⟩ := getInstanceTx_ok.mp ran
    refine ⟨after, fun other same => ?_⟩
    cases answer.symm.trans same
    exact found
  · refine ⟨after, fun other same => ?_⟩
    cases refused.symm.trans same

theorem act_cases (manager : Manager) (moment : Moment) (world : World) (action : DomainAction) (name : String) :
    (∃ machine, (world.machines manager.hostId).Acted name action machine ∧
      ((ManagerCall.act action name).serve manager moment world).2 = world.setMachine manager.hostId machine) ∨
    (∃ error, ((ManagerCall.act action name).serve manager moment world).1 = .error error) ∧
      ((ManagerCall.act action name).serve manager moment world).2 = world := by
  apply taken_or_refused (.act action name)
    (fun after => ∃ machine, (world.machines manager.hostId).Acted name action machine ∧
      after = world.setMachine manager.hostId machine)
    (fun answer => ∃ error, answer = .error error)
  · exact fun cause => ⟨_, rfl⟩
  · simp only [ManagerCall.perform, World.attempt]
    cases ran : (world.machines manager.hostId).act moment.graceful name action with
    | error error => exact .inr ⟨⟨error, rfl⟩, rfl⟩
    | ok result => exact .inl ⟨result.2, act_ok ran, rfl⟩

theorem define_cases (manager : Manager) (moment : Moment) (world : World) (spec : DomainSpec) :
    (∃ machine, (world.machines manager.hostId).define spec = .ok machine ∧
      ((ManagerCall.define spec).serve manager moment world).2 = world.setMachine manager.hostId machine) ∨
    (∃ error, ((ManagerCall.define spec).serve manager moment world).1 = .error error) ∧
      ((ManagerCall.define spec).serve manager moment world).2 = world := by
  apply taken_or_refused (.define spec)
    (fun after => ∃ machine, (world.machines manager.hostId).define spec = .ok machine ∧
      after = world.setMachine manager.hostId machine)
    (fun answer => ∃ error, answer = .error error)
  · exact fun cause => ⟨_, rfl⟩
  · simp only [ManagerCall.perform, World.attempt]
    cases defined : (world.machines manager.hostId).define spec with
    | error error => exact .inr ⟨⟨error, rfl⟩, rfl⟩
    | ok machine => exact .inl ⟨machine, rfl, rfl⟩

def afterChange (moment : Moment) (action : DomainAction) (uuid : String) (machine : Hypervisor.Machine) :
    Hypervisor.Machine :=
  match action with
  | .remove => Machine.removeFiles machine moment.deletes uuid
  | .start | .stop | .reboot => machine

theorem change_cases (manager : Manager) (moment : Moment) (world : World) (hostId : Int) (action : DomainAction)
    (target : InstanceRef) :
    (∃ machine, (world.machines hostId).Acted target.name action machine ∧
      ((ManagerCall.change hostId action target).serve manager moment world).2 =
        world.setMachine hostId (afterChange moment action target.uuid machine)) ∨
    (∃ error, ((ManagerCall.change hostId action target).serve manager moment world).1 = .error error) ∧
      ((ManagerCall.change hostId action target).serve manager moment world).2 = world := by
  apply taken_or_refused (.change hostId action target)
    (fun after => ∃ machine, (world.machines hostId).Acted target.name action machine ∧
      after = world.setMachine hostId (afterChange moment action target.uuid machine))
    (fun answer => ∃ error, answer = .error error)
  · exact fun cause => ⟨_, rfl⟩
  · simp only [ManagerCall.perform, World.onMachine, Machine.change]
    cases ran : (world.machines hostId).act moment.graceful target.name action with
    | error error => exact .inr ⟨⟨error.text, rfl⟩, World.setMachine_self ..⟩
    | ok result =>
      refine .inl ⟨result.2, act_ok ran, ?_⟩
      cases action <;> rfl

end Serving

theorem domainXml_ok {spec xml : DomainSpec} (written : domainXml spec = .ok xml) : spec = xml := by
  unfold domainXml at written
  split at written <;> cases written
  rfl

section Machines
open Hypervisor.Machine (Edited Edit)
variable {machine : Hypervisor.Machine} {moment : Moment} {edits : Edit → Prop}

theorem changes_removeOverlay {uuid : String} (deletes : Bool) (overlay : edits (.withoutOverlay uuid)) :
    Edited edits machine (Machine.removeOverlay machine deletes uuid) := by
  unfold Machine.removeOverlay
  split
  next => exact .one (.withoutOverlay uuid) overlay rfl
  next => exact .refl

theorem changes_removeFiles {uuid : String} (deletes : Bool) (overlay : edits (.withoutOverlay uuid))
    (seed : edits (.withoutSeed uuid)) :
    Edited edits machine (Machine.removeFiles machine deletes uuid) := by
  unfold Machine.removeFiles
  split
  next => exact (Edited.one (.withoutOverlay uuid) overlay rfl).step seed rfl
  next => exact .refl

section Provision
variable {spec : ProvisionSpec}
  (own : ∀ edit : Edit, edit.target = spec.row.uuid → (∀ xml, edit = .define xml → xml.name = spec.row.name) → edits edit)
include own

theorem changes_withFiles (seeded : Bool) : Edited edits machine (Machine.withFiles machine spec seeded) := by
  have overlay : Edited edits machine (machine.withOverlay spec.row.uuid) := .one (.withOverlay _) (own _ rfl nofun) rfl
  unfold Machine.withFiles
  split
  next => exact overlay.step (own (.withSeed _) rfl nofun) rfl
  next => exact overlay

theorem changes_finish {unwind : Hypervisor.Machine → Hypervisor.Machine}
    (unwinds : ∀ machine, Edited edits machine (unwind machine)) :
    Edited edits machine (Machine.finish machine moment spec unwind).2 := by
  unfold Machine.finish
  split
  next => exact unwinds machine
  next xml written =>
    obtain rfl := domainXml_ok written
    have defines : edits (.define (domainSpec spec.row spec.network spec.withSeedIso)) := by
      apply own _ rfl
      rintro _ ⟨⟩
      rfl
    split
    next =>
      have created := @Machine.changes_create machine
        (domainSpec spec.row spec.network spec.withSeedIso) moment.libvirt edits
        defines ⟨fun _ => own _ rfl nofun, own _ rfl nofun⟩
      split
      next result =>
        rw [result] at created
        exact created
      next result =>
        rw [result] at created
        exact created.trans (unwinds _)
    next =>
      have made := @Machine.changes_answered machine (moment.libvirt .define) "define domain" _
        edits fun defined result =>
        .one (.define _) defines result
      split
      next result =>
        rw [result] at made
        exact made
      next result =>
        rw [result] at made
        exact made.trans (unwinds _)

theorem changes_build {unseed unwind : Hypervisor.Machine → Hypervisor.Machine}
    (unseeds : ∀ machine, Edited edits machine (unseed machine))
    (unwinds : ∀ machine, Edited edits machine (unwind machine)) :
    Edited edits machine (Machine.build machine moment spec unseed unwind).2 := by
  unfold Machine.build
  split
  next =>
    dsimp only
    split
    next => exact changes_withFiles own false
    next => exact .refl
  next =>
    split
    next => exact (changes_withFiles own _).trans (unseeds _)
    next => exact (changes_withFiles own _).trans (changes_finish own unwinds)
  next => exact (changes_withFiles own _).trans (changes_finish own unwinds)

end Provision

theorem changes_defineRenamed {xml : DomainSpec} {oldXml : Except Hypervisor.Error DomainSpec}
    (defines : edits (.define xml)) (before : ∀ old, oldXml = .ok old → edits (.define old)) :
    Edited edits machine (Machine.defineRenamed machine xml oldXml).2 := by
  unfold Machine.defineRenamed
  split
  next defined => exact .one (.define _) defines defined
  next =>
    simp only
    split
    next restored =>
      cases oldXml with
      | error => cases restored
      | ok old => exact .one (.define old) (before old rfl) restored
    next => exact .refl

theorem changes_redefine {spec : RedefineSpec}
    (renders : ∀ name ∈ spec.row.name :: spec.previousName.toList, ∀ xml, xml.uuid = spec.row.uuid →
      xml.name = name → edits (.define xml))
    (removes : ∀ domain ∈ spec.previousName.bind machine.domain, (∀ state, edits (.setState domain.spec.uuid state)) ∧
      edits (.undefine domain.spec.uuid)) :
    Edited edits machine (Machine.redefine machine spec).2 := by
  have rendered (name : String) (listed : name ∈ spec.row.name :: spec.previousName.toList) (xml : DomainSpec)
      (written : Machine.rendered machine spec name = .ok xml) : edits (.define xml) := by
    obtain rfl := domainXml_ok written
    exact renders name listed _ rfl rfl
  unfold Machine.redefine
  split
  next => exact .refl
  next xml written =>
    have defines := rendered _ mem_cons_self _ written
    split
    next =>
      split
      next defined => exact .one (.define _) defines defined
      next => exact .refl
    next previous chosen =>
      have previously : spec.previousName = some previous := (Option.filter_eq_some_iff.mp chosen).1
      have restores := rendered previous (mem_cons_of_mem _ (by rw [previously]; exact mem_singleton_self _))
      have renamed : Edited edits machine
        (Machine.renameDomain machine previous xml (Machine.rendered machine spec previous)).2 := by
        unfold Machine.renameDomain
        split
        next =>
          split
          next removed =>
            refine ((remove_ok removed).changes fun domain found => removes domain ?_).trans
              (changes_defineRenamed defines restores)
            rw [previously]
            exact found
          next => exact .refl
        next => exact .refl
        next => exact changes_defineRenamed defines restores
        next => exact .refl
      split
      next result =>
        rw [result] at renamed
        exact renamed
      next result =>
        rw [result] at renamed
        exact renamed

end Machines

structure DomainId where
  hostId : Int
  uuid : String
  name : String

def ManagerCall.definitions (manager : Manager) : ManagerCall → List DomainId
  | .define spec | .create spec => [⟨manager.hostId, spec.uuid, spec.name⟩]
  | .provision spec => [⟨spec.hostId, spec.row.uuid, spec.row.name⟩]
  | .redefine spec =>
    if spec.hostId = manager.hostId then []
    else (spec.row.name :: spec.previousName.toList).map fun name => ⟨spec.hostId, spec.row.uuid, name⟩
  | _ => []

def ManagerCall.Defines (manager : Manager) (hostId : Int) (uuid name : String) (call : ManagerCall) : Prop :=
  ⟨hostId, uuid, name⟩ ∈ call.definitions manager

/-- The instances whose domain or files a call may change. A name leads to whatever domain
has it at the moment. -/
def ManagerCall.touched (manager : Manager) (world : World) : ManagerCall → List String
  | .act _ name => ((world.machines manager.hostId).domain name).toList.map (·.spec.uuid)
  | .define spec | .create spec => [spec.uuid]
  | .deleteIso uuid | .buildIso uuid | .removeOverlay uuid | .copyOverlay _ uuid | .resizeOverlay uuid _ => [uuid]
  | .change hostId action target =>
    ((world.machines hostId).domain target.name).toList.map (·.spec.uuid) ++
      if action = .remove then [target.uuid] else []
  | .provision spec => [spec.row.uuid]
  | .deprovision _ row | .resizeDisk _ row _ => [row.uuid]
  | .redefine spec => spec.row.uuid ::
    (spec.previousName.bind (world.machines spec.hostId).domain).toList.map (·.spec.uuid)
  | _ => []

structure ManagerCall.Makes (manager : Manager) (world : World) (hostId : Int) (call : ManagerCall)
    (edit : Machine.Edit) : Prop where
  target : edit.target ∈ call.touched manager world
  defines : ∀ spec, edit = .define spec → call.Defines manager hostId spec.uuid spec.name
  seeds : ∀ uuid, edit = .withSeed uuid → (∃ spec, call = .provision spec) ∨ call = .buildIso uuid

section
open Hypervisor.Machine (Edited)
variable {manager : Manager} {moment : Moment} {world : World} {hostId other : Int} {edits : Machine.Edit → Prop}

theorem changes_setMachine {machine : Hypervisor.Machine}
    (there : hostId = other → Edited edits (world.machines other) machine) :
    Edited edits (world.machines hostId) ((world.setMachine other machine).machines hostId) := by
  by_cases same : hostId = other
  · subst same
    rw [World.setMachine_same]
    exact there rfl
  · rw [World.setMachine_other _ _ _ same]
    exact .refl

theorem changes_attempt {ε α : Type} {result : Except ε (α × Hypervisor.Machine)}
    (there : ∀ value after, result = .ok (value, after) → hostId = other → Edited edits (world.machines other) after) :
    Edited edits (world.machines hostId) ((world.attempt other result).2.machines hostId) := by
  cases result with
  | error => exact .refl
  | ok pair => exact changes_setMachine (there pair.1 pair.2 rfl)

theorem perform_changes (call : ManagerCall) :
    Edited (call.Makes manager world hostId) (world.machines hostId)
      ((call.perform manager moment world).2.machines hostId) := by
  cases call with
  | act action name =>
    refine changes_attempt fun _ _ ran _ => (act_ok ran).changes fun domain found => ?_
    have listed : domain.spec.uuid ∈ (ManagerCall.act action name).touched manager world := by
      rw [ManagerCall.touched, found]
      exact mem_singleton_self _
    exact ⟨fun _ => ⟨listed, nofun, nofun⟩, listed, nofun, nofun⟩
  | define spec =>
    refine changes_attempt fun _ after ran here => ?_
    obtain ⟨_, defined, same⟩ := Library.Results.map_ok.mp ran
    cases same
    refine .one (.define spec) ⟨mem_singleton_self _, ?_, nofun⟩ defined
    rintro _ ⟨⟩
    exact here ▸ mem_singleton_self _
  | create =>
    refine changes_setMachine fun here => changes_create ⟨mem_singleton_self _, ?_, nofun⟩
      ⟨fun _ => ⟨mem_singleton_self _, nofun, nofun⟩, mem_singleton_self _, nofun, nofun⟩
    rintro _ ⟨⟩
    exact here ▸ mem_singleton_self _
  | deleteIso uuid =>
    exact changes_setMachine fun _ => .one (.withoutSeed uuid) ⟨mem_singleton_self _, nofun, nofun⟩ rfl
  | buildIso uuid =>
    refine changes_setMachine fun _ => .one (.withSeed uuid) ⟨mem_singleton_self _, nofun, ?_⟩ rfl
    rintro _ ⟨⟩
    exact .inr rfl
  | copyOverlay source target =>
    exact changes_setMachine fun _ => .one (.withOverlay target) ⟨mem_singleton_self _, nofun, nofun⟩ rfl
  | removeOverlay target =>
    exact changes_setMachine fun _ => .one (.withoutOverlay target) ⟨mem_singleton_self _, nofun, nofun⟩ rfl
  | change host action target =>
    have acted (after : Hypervisor.Machine) (acted : (world.machines host).Acted target.name action after) :
        Edited ((ManagerCall.change host action target).Makes manager world hostId) (world.machines host) after := by
      refine acted.changes fun domain found => ?_
      have listed : domain.spec.uuid ∈ (ManagerCall.change host action target).touched manager world := by
        rw [ManagerCall.touched, found]
        exact mem_cons_self
      exact ⟨fun _ => ⟨listed, nofun, nofun⟩, listed, nofun, nofun⟩
    refine changes_setMachine fun _ => ?_
    unfold Machine.change
    split
    next => exact .refl
    next ran =>
      split
      next =>
        have listed : target.uuid ∈ (ManagerCall.change host .remove target).touched manager world := by
          simp [ManagerCall.touched]
        exact (acted _ (act_ok ran)).trans (changes_removeFiles _ ⟨listed, nofun, nofun⟩ ⟨listed, nofun, nofun⟩)
      next => exact acted _ (act_ok ran)
  | provision spec =>
    have own (here : hostId = spec.hostId) (edit : Machine.Edit) (same : edit.target = spec.row.uuid)
        (named : ∀ xml, edit = .define xml → xml.name = spec.row.name) :
        (ManagerCall.provision spec).Makes manager world hostId edit := by
      refine ⟨same ▸ mem_singleton_self _, ?_, fun _ _ => .inl ⟨spec, rfl⟩⟩
      rintro xml rfl
      rw [ManagerCall.Defines, here, show xml.uuid = _ from same, named xml rfl]
      exact mem_singleton_self _
    simp only [ManagerCall.perform]
    split
    next =>
      refine changes_setMachine fun here => ?_
      have removes (machine : Hypervisor.Machine) := @changes_removeFiles machine _ _ moment.deletes
        (own here (.withoutOverlay _) rfl nofun) (own here (.withoutSeed _) rfl nofun)
      exact changes_build (own here) removes removes
    next =>
      refine changes_setMachine fun here => ?_
      have overlay (machine : Hypervisor.Machine) := @changes_removeOverlay machine _ _ moment.deletes
        (own here (.withoutOverlay _) rfl nofun)
      refine changes_build (own here) overlay fun machine => ?_
      unfold Machine.unwindProvision
      split
      next => exact changes_removeFiles _ (own here (.withoutOverlay _) rfl nofun) (own here (.withoutSeed _) rfl nofun)
      next => exact overlay machine
  | deprovision host row =>
    simp only [ManagerCall.perform]
    split
    next =>
      have listed : row.uuid ∈ (ManagerCall.deprovision host row).touched manager world := mem_singleton_self _
      exact changes_setMachine fun _ => changes_removeFiles _ ⟨listed, nofun, nofun⟩ ⟨listed, nofun, nofun⟩
    next => exact .refl
  | redefine spec =>
    simp only [ManagerCall.perform]
    split
    next => exact .refl
    next remote =>
      refine changes_setMachine fun here =>
        changes_redefine (fun name listed xml same called => ⟨?_, ?_, nofun⟩) fun domain found => ?_
      · rw [show Machine.Edit.target (.define xml) = _ from same]
        exact mem_cons_self
      · rintro _ ⟨⟩
        rw [ManagerCall.Defines, ManagerCall.definitions, if_neg remote, here, same, called]
        exact mem_map_of_mem listed
      · have listed : domain.spec.uuid ∈ (ManagerCall.redefine spec).touched manager world :=
          mem_cons_of_mem _ (mem_map_of_mem (Option.mem_toList.mpr found))
        exact ⟨fun _ => ⟨listed, nofun, nofun⟩, listed, nofun, nofun⟩
  | resizeDisk =>
    simp only [ManagerCall.perform]
    split <;> exact .refl
  | _ => exact .refl

theorem serve_changes (manager : Manager) (moment : Moment) (call : ManagerCall) (world : World) (hostId : Int) :
    Edited (call.Makes manager world hostId) (world.machines hostId)
      ((call.serve manager moment world).2.machines hostId) := by
  rcases serve_cases manager moment call world with same | ⟨_, -, nothing | done⟩
  · rw [same]
    exact perform_changes call
  · rw [nothing]
    exact .refl
  · rw [done]
    exact perform_changes call

theorem serve_names {call : ManagerCall} {uuid name : String}
    (named : ((call.serve manager moment world).2.machines hostId).Names uuid name) :
    (world.machines hostId).Names uuid name ∨ call.Defines manager hostId uuid name := by
  rcases (serve_changes manager moment call world hostId).names named with old | ⟨spec, among, rfl, rfl⟩
  · exact .inl old
  · exact .inr (among.defines spec rfl)

end

def StoreCall.Reads : StoreCall → Prop
  | .createInstance _ _ | .deleteInstance _ | .renameInstance _ _ | .resize _ _ _ _ _ _ | .setDesiredState _ _ |
      .setObservedState _ _
  | .updateObservedStates _ => False
  | _ => True

inductive StoreCall.Rows : StoreCall → List Instance → List Instance → Prop where
  | read {call : StoreCall} {rows : List Instance} (reads : call.Reads) : Rows call rows rows
  | created {row : Instance} {capacity : Capacity} {rows : List Instance} {createdAt : Int}
      (fresh : ∀ other ∈ rows, other.uuid ≠ row.uuid ∧ other.name ≠ row.name) :
      Rows (.createInstance row capacity) rows (rows ++ [{ row with createdAt, lastSeenAt := none }])
  | deleted {uuid : String} {rows : List Instance} :
      Rows (.deleteInstance uuid) rows (rows.filter fun row => row.uuid ≠ uuid)
  | sameName {uuid newName : String} {rows : List Instance} : Rows (.renameInstance uuid newName) rows rows
  | renamed {uuid newName : String} {rows : List Instance} :
      Rows (.renameInstance uuid newName) rows (rows.map fun row =>
        if row.uuid = uuid then { row with name := newName } else row)
  | resized {uuid : String} {vcpu memoryMib diskGib : Nat} {nested : Bool} {capacity : Capacity}
      {rows : List Instance} :
      Rows (.resize uuid vcpu memoryMib diskGib nested capacity) rows
        (rows.map fun row => if row.uuid = uuid then { row with vcpu, memoryMib, diskGib, nested } else row)
  | desired {uuid : String} {state : DesiredState} {rows : List Instance} :
      Rows (.setDesiredState uuid state) rows (rows.map fun row =>
        if row.uuid = uuid then { row with desiredState := state } else row)
  | observed {uuid : String} {state : PowerState} {rows : List Instance} :
      Rows (.setObservedState uuid state) rows (rows.map fun row => if row.uuid = uuid then { row with state } else row)
  | polled {states : List (String × PowerState)} {rows : List Instance} {seen : Instance → PowerState} :
      Rows (.updateObservedStates states) rows (rows.map fun row => { row with state := seen row })

variable {fleet after : Fleet} {call : StoreCall}

theorem updateObservedStates_ok {states : List (String × PowerState)} {value : Unit}
    (written : (updateObservedStates states).run fleet = .ok (value, after)) :
    ∃ seen : Instance → PowerState, after.instances = fleet.instances.map fun row =>
      { row with state := seen row } := by
  induction states generalizing fleet with
  | nil =>
    obtain ⟨-, rfl⟩ := run_pure_ok.mp written
    exact ⟨Instance.state, (map_id' _).symm⟩
  | cons first states ih =>
    simp only [updateObservedStates, run_bind_ok, updateInstances_ok] at written
    obtain ⟨_, _, ⟨-, -, rfl⟩, rest⟩ := written
    obtain ⟨seen, same⟩ := ih rest
    refine ⟨fun row => seen (if row.uuid = first.1 then { row with state := first.2 } else row), ?_⟩
    rw [same, map_map]
    congr 1
    funext row
    simp only [Function.comp_apply, decide_eq_true_eq]
    split <;> rfl

theorem tx_reads {manager : Manager} {moment : Moment} {reply : call.Reply} (reads : call.Reads)
    (ran : (call.tx manager moment).run fleet = .ok (reply, after)) : after = fleet := by
  cases call with
  | «instance» uuid => exact (getInstanceTx_ok.mp ran).2.symm
  | instancesOnHost | instancesToRestore =>
    cases ran
    rfl
  | userById =>
    simp only [StoreCall.tx, run_get_bind] at ran
    split at ran
    next =>
      cases ran
      rfl
    next => cases ran
  | checkResize =>
    simp only [StoreCall.tx, Store.checkResize, run_bind_ok, getInstanceTx_ok, checkCapacityTx_ok] at ran
    obtain ⟨_, _, ⟨-, rfl⟩, -, rfl⟩ := ran
    rfl
  | image | hostsMissingImage | imageVersion | placeableHosts | chooseHost | hostCapacity =>
    exact (run_lift_ok.mp ran).2.symm
  | _ => exact reads.elim

theorem tx_rows {manager : Manager} {moment : Moment} {reply : call.Reply}
    (ran : (call.tx manager moment).run fleet = .ok (reply, after)) : call.Rows fleet.instances after.instances := by
  by_cases reads : call.Reads
  · rw [tx_reads reads ran]
    exact .read reads
  cases call with
  | createInstance =>
    obtain ⟨-, admitted, createdAt, rfl⟩ := createInstance_ok ran
    exact .created fun other listed => ⟨(admitted.1 other listed).1, (admitted.1 other listed).2.1⟩
  | deleteInstance =>
    obtain ⟨-, rfl⟩ := deleteInstance_ok ran
    exact .deleted
  | renameInstance =>
    obtain ⟨_, -, ⟨-, rfl⟩ | ⟨-, -, rfl⟩⟩ := renameInstanceAt_ok ran
    · exact .sameName
    · exact .renamed
  | resize =>
    obtain ⟨-, rfl⟩ := resize_ok.mp ran
    exact .resized
  | setDesiredState =>
    rw [updateInstance_ok ran]
    exact .desired
  | setObservedState =>
    rw [updateInstance_ok ran]
    exact .observed
  | updateObservedStates =>
    obtain ⟨seen, same⟩ := updateObservedStates_ok ran
    rw [same]
    exact .polled
  | _ => exact (reads trivial).elim

def KeyedRows (rows : List Instance) : Prop := (rows.map Instance.uuid).Nodup

structure Distinct (rows : List Instance) : Prop where
  uuids : (rows.map Instance.uuid).Nodup
  names : (rows.map Instance.name).Nodup

theorem find?_of_mem {rows : List Instance} (keyed : KeyedRows rows) {row : Instance} (listed : row ∈ rows) :
    rows.find? (·.uuid = row.uuid) = some row := by
  induction rows with
  | nil => cases listed
  | cons first rows ih =>
    obtain ⟨unlike, rest⟩ := List.nodup_cons.mp keyed
    rcases List.mem_cons.mp listed with rfl | later
    · simp
    · have other : first.uuid ≠ row.uuid := fun same => unlike (same ▸ mem_map_of_mem later)
      rw [List.find?_cons_of_neg (by simpa using other)]
      exact ih rest later

theorem map_uuid_update (rows : List Instance) {change : Instance → Instance}
    (keeps : ∀ row, (change row).uuid = row.uuid) :
    (rows.map change).map Instance.uuid = rows.map Instance.uuid := by
  rw [map_map]
  exact map_congr_left fun row _ => keeps row

theorem StoreCall.Rows.keyed {before after : List Instance} (rows : call.Rows before after) (keyed : KeyedRows before) :
    KeyedRows after := by
  unfold KeyedRows at keyed ⊢
  cases rows with
  | read | sameName => exact keyed
  | created fresh =>
    rw [map_append, nodup_append]
    refine ⟨keyed, nodup_singleton _, ?_⟩
    intro uuid listed other new same
    obtain ⟨row, known, rfl⟩ := List.mem_map.mp listed
    rw [map_singleton, mem_singleton] at new
    exact (fresh row known).1 (same.trans new)
  | deleted => exact keyed.sublist (List.filter_sublist.map _)
  | _ =>
    rw [map_uuid_update]
    · exact keyed
    · intro row
      first
        | rfl
        | split <;> rfl

section
variable {manager : Manager} {moment : Moment} {call : ManagerCall} {world : World}

theorem serve_machines (other : ∀ body, call ≠ .store body) :
    (call.serve manager moment world).2.fleet = world.fleet := by
  have performed : (call.perform manager moment world).2.fleet = world.fleet := by
    cases call with
    | store body => exact (other body rfl).elim
    | act | define =>
      simp only [ManagerCall.perform, World.attempt]
      split <;> rfl
    | provision | deprovision | redefine | resizeDisk =>
      simp only [ManagerCall.perform]
      split <;> rfl
    | _ => rfl
  rcases serve_cases manager moment call world with same | ⟨_, -, nothing | done⟩
  · rw [same, performed]
  · rw [nothing]
  · rw [done, performed]

theorem serve_rows (manager : Manager) (moment : Moment) (call : ManagerCall) (world : World) :
    (call.serve manager moment world).2.fleet.instances = world.fleet.instances ∨
      ∃ body, call = .store body ∧
        body.Rows world.fleet.instances (call.serve manager moment world).2.fleet.instances := by
  by_cases stores : ∃ body, call = .store body
  · obtain ⟨body, rfl⟩ := stores
    rcases store_cases manager moment world body with ⟨reply, fleet, -, ran, same⟩ | ⟨-, same⟩
    · exact .inr ⟨body, rfl, by rw [same]; exact tx_rows ran⟩
    · exact .inl (by rw [same])
  · exact .inl (by rw [serve_machines fun body same => stores ⟨body, same⟩])

def ManagerCall.Reads : ManagerCall → Prop
  | .store body => body.Reads
  | _ => True

theorem serve_reads (reads : call.Reads) : (call.serve manager moment world).2.fleet = world.fleet := by
  by_cases stores : ∃ body, call = .store body
  · obtain ⟨body, rfl⟩ := stores
    rcases store_cases manager moment world body with ⟨reply, fleet, -, ran, same⟩ | ⟨-, same⟩
    · rw [same]
      exact tx_reads reads ran
    · rw [same]
  · exact serve_machines fun body same => stores ⟨body, same⟩

theorem serve_keyed (keyed : KeyedRows world.fleet.instances) :
    KeyedRows (call.serve manager moment world).2.fleet.instances := by
  rcases serve_rows manager moment call world with same | ⟨body, -, rows⟩
  · rw [same]
    exact keyed
  · exact rows.keyed keyed

end

/-! ### A small deployment

What the runs need that other modules show, beside its rows. -/

def exampleManager : Manager where
  hostId := 1
  cooldown := 0
  batchSize := 2
  batches := by decide
  startAttempts := 1
  definer := true
  autostartClearer := true
  plan := .usual
  nested := (true, "")
  chain _ := "it failed"
  quote text := text

def exampleCatalog : Catalog where
  image _ := .ok (some "sha256-0")
  hostsMissingImage _ _ := .ok []
  imageVersion _ := .ok ()
  placeableHosts := .ok 1
  chooseHost _ := .ok 2
  hostCapacity _ := .ok unlimited

def calm : Moment where
  now := 1000
  later := 1000
  fault := none
  graceful := true
  failing := none
  libvirt _ := none
  deletes := true
  reachable := true
  uuid := "5ac1"
  catalog := exampleCatalog

def guestDomain (row : Instance) (state : PowerState) : Hypervisor.Domain :=
  ⟨domainSpec row "bento-user-0" false, state⟩

def guestMachine (row : Instance) (state : PowerState) : Hypervisor.Machine := ⟨[guestDomain row state], [row.uuid], []⟩

end Bento.Lifecycle
