import Bento.Hypervisor.Client
import Bento.Library.Results
import Mathlib.Data.List.Basic

/-! Domains by name and by uuid. Each operation of the client is a list of edits of single
domains, and what an edit does not name it does not change. -/

namespace Bento.Hypervisor
open Library.Results

def Machine.domain (machine : Machine) (name : String) : Option Domain := machine.domains.find? (·.spec.name = name)

namespace Machine
variable {machine after : Machine} {name uuid : String} {domain : Domain}

theorem lookup_ok : machine.lookup name = .ok domain ↔ machine.domain name = some domain := by
  unfold lookup Machine.domain
  cases machine.domains.find? (·.spec.name = name) <;> simp

theorem domain_mem (found : machine.domain name = some domain) :
    domain ∈ machine.domains := List.mem_of_find?_eq_some found

theorem domain_name (found : machine.domain name = some domain) : domain.spec.name = name := by
  simpa using List.find?_some found

theorem list_find? (machine : Machine) (name : String) :
    machine.list.find? (·.name = name) = (machine.domain name).map Domain.info := by
  unfold list Machine.domain
  rw [List.find?_map]
  rfl

inductive Acted (machine : Machine) (name : String) : DomainAction → Machine → Prop where
  | start {domain : Domain} (found : machine.domain name = some domain) (off : domain.state = .stopped) :
      Acted machine name .start (machine.setState domain.spec.uuid .running)
  | stop {domain : Domain} (found : machine.domain name = some domain) (on : domain.state ≠ .stopped) :
      Acted machine name .stop (machine.setState domain.spec.uuid .stopped)
  | stopped {domain : Domain} (found : machine.domain name = some domain) (off : domain.state = .stopped) :
      Acted machine name .stop machine
  | reboot {domain : Domain} (found : machine.domain name = some domain) : Acted machine name .reboot machine
  | remove {domain : Domain} (found : machine.domain name = some domain) :
      Acted machine name .remove (machine.undefine domain.spec.uuid)

theorem start_ok (ran : machine.start name = .ok after) : machine.Acted name .start after := by
  obtain ⟨domain, found, rest⟩ := bind_ok.mp ran
  split at rest
  next off =>
    cases rest
    exact .start (lookup_ok.mp found) off
  next => cases rest

theorem remove_ok (ran : machine.remove name = .ok after) : machine.Acted name .remove after := by
  obtain ⟨domain, found, rest⟩ := bind_ok.mp ran
  cases rest
  exact .remove (lookup_ok.mp found)

theorem act_ok {graceful : Bool} {action : DomainAction} {result : action.Result}
    (ran : machine.act graceful name action = .ok (result, after)) : machine.Acted name action after := by
  cases action with
  | start =>
    obtain ⟨_, started, same⟩ := map_ok.mp ran
    cases same
    exact start_ok started
  | stop =>
    obtain ⟨domain, found, rest⟩ := bind_ok.mp ran
    split at rest
    next off =>
      cases rest
      exact .stopped (lookup_ok.mp found) off
    next on =>
      cases rest
      exact .stop (lookup_ok.mp found) on
  | reboot =>
    obtain ⟨_, rebooted, same⟩ := map_ok.mp ran
    cases same
    obtain ⟨domain, found, rest⟩ := bind_ok.mp rebooted
    split at rest
    next => cases rest
    next =>
      cases rest
      exact .reboot (lookup_ok.mp found)
  | remove =>
    obtain ⟨_, removed, same⟩ := map_ok.mp ran
    cases same
    exact remove_ok removed

theorem domain_setState (machine : Machine) (uuid : String) (state : PowerState) (name : String) :
    (machine.setState uuid state).domain name =
      (machine.domain name).map fun domain => if domain.spec.uuid = uuid then { domain with state } else domain := by
  unfold setState Machine.domain
  rw [List.find?_map]
  congr 2
  funext domain
  simp only [Function.comp_apply]
  split <;> rfl

def Names (machine : Machine) (uuid name : String) : Prop :=
  ∃ domain ∈ machine.domains, domain.spec.uuid = uuid ∧ domain.spec.name = name

theorem names_of_domain (found : machine.domain name = some domain) : machine.Names domain.spec.uuid name :=
  ⟨domain, domain_mem found, rfl, domain_name found⟩

section
variable {other : String}

theorem names_setState {state : PowerState} : (machine.setState other state).Names uuid name ↔
    machine.Names uuid name := by
  have same (domain : Domain) :
      (if domain.spec.uuid = other then { domain with state } else domain).spec = domain.spec := by
    split <;> rfl
  simp only [Names, setState, List.mem_map, exists_exists_and_eq_and, same]

theorem names_undefine (named : (machine.undefine other).Names uuid name) : machine.Names uuid name := by
  obtain ⟨domain, listed, same⟩ := named
  exact ⟨domain, List.mem_of_mem_filter listed, same⟩

theorem names_define {spec : DomainSpec} (defined : machine.define spec = .ok after) (named : after.Names uuid name) :
    machine.Names uuid name ∨ uuid = spec.uuid ∧ name = spec.name := by
  unfold define at defined
  split at defined
  next =>
    cases defined
    obtain ⟨domain, listed, rfl, rfl⟩ := named
    rcases List.mem_append.mp listed with old | new
    · exact .inl ⟨domain, old, rfl, rfl⟩
    · rw [List.mem_singleton.mp new]
      exact .inr ⟨rfl, rfl⟩
  next =>
    split at defined
    next same =>
      cases defined
      obtain ⟨_, listed, rfl, rfl⟩ := named
      obtain ⟨domain, old, rfl⟩ := List.mem_map.mp listed
      split
      next => exact .inr ⟨rfl, rfl⟩
      next => exact .inl ⟨domain, old, rfl, rfl⟩
    next => cases defined

theorem spec_define {spec : DomainSpec} (defined : machine.define spec = .ok after) (listed : domain ∈ after.domains)
    (own : domain.spec.uuid = spec.uuid) : domain.spec = spec := by
  unfold define at defined
  split at defined
  next none =>
    cases defined
    rcases List.mem_append.mp listed with old | new
    · have unlike := List.find?_eq_none.mp none domain old
      simp [own] at unlike
    · rw [List.mem_singleton.mp new]
  next =>
    split at defined
    next =>
      cases defined
      obtain ⟨before, _, rfl⟩ := List.mem_map.mp listed
      split at own
      next chosen => rw [if_pos chosen]
      next other => exact (other own).elim
    next => cases defined

theorem define_runs {spec : DomainSpec}
    (together : ∀ domain ∈ machine.domains, domain.spec.uuid = spec.uuid ↔ domain.spec.name = spec.name) :
    ∃ after, machine.define spec = .ok after := by
  unfold define
  split
  next => exact ⟨_, rfl⟩
  next =>
    rw [if_pos together]
    exact ⟨_, rfl⟩

end

theorem domain_define {spec : DomainSpec} (defined : machine.define spec = .ok after)
    (found : after.domain spec.name = some domain) :
    domain.spec.uuid = spec.uuid := by
  have listed := domain_mem found
  have named := domain_name found
  unfold define at defined
  split at defined
  next none =>
    cases defined
    rcases List.mem_append.mp listed with old | new
    · have unlike := List.find?_eq_none.mp none domain old
      simp [named] at unlike
    · rw [List.mem_singleton.mp new]
  next =>
    split at defined
    next same =>
      cases defined
      obtain ⟨before, old, rfl⟩ := List.mem_map.mp listed
      split at named
      next own => rw [if_pos own]
      next other =>
        rw [if_neg other]
        exact (same before old).mpr named
    next => cases defined

inductive Edit where
  | define (spec : DomainSpec)
  | setState (uuid : String) (state : PowerState)
  | undefine (uuid : String)
  | withOverlay (uuid : String)
  | withoutOverlay (uuid : String)
  | withSeed (uuid : String)
  | withoutSeed (uuid : String)

def Edit.target : Edit → String
  | define spec => spec.uuid
  | setState uuid _ | undefine uuid | withOverlay uuid | withoutOverlay uuid | withSeed uuid | withoutSeed uuid => uuid

def Edit.Makes (machine after : Machine) : Edit → Prop
  | define spec => machine.define spec = .ok after
  | setState uuid state => after = machine.setState uuid state
  | undefine uuid => after = machine.undefine uuid
  | withOverlay uuid => after = machine.withOverlay uuid
  | withoutOverlay uuid => after = machine.withoutOverlay uuid
  | withSeed uuid => after = machine.withSeed uuid
  | withoutSeed uuid => after = machine.withoutSeed uuid

inductive Edited (edits : Edit → Prop) (machine : Machine) : Machine → Prop where
  | refl : Edited edits machine machine
  | step {middle after : Machine} {edit : Edit} (earlier : Edited edits machine middle) (among : edits edit)
      (made : edit.Makes middle after) :
      Edited edits machine after

namespace Edited
variable {edits : Edit → Prop} {middle : Machine}

theorem one (edit : Edit) (among : edits edit) (made : edit.Makes machine after) :
    Edited edits machine after := refl.step among made

theorem trans (first : Edited edits machine middle) (second : Edited edits middle after) :
    Edited edits machine after := by
  induction second with
  | refl => exact first
  | step _ among made ih => exact ih.step among made

theorem induct (changes : Edited edits machine after) (related : Machine → Prop) (start : related machine)
    (step : ∀ edit middle after, edits edit → edit.Makes middle after → related middle → related after) :
    related after := by
  induction changes with
  | refl => exact start
  | step _ among made ih => exact step _ _ _ among made ih

theorem names (changes : Edited edits machine after) (named : after.Names uuid name) :
    machine.Names uuid name ∨ ∃ spec, edits (.define spec) ∧ uuid = spec.uuid ∧ name = spec.name := by
  revert named
  refine changes.induct (fun after => after.Names uuid name → _) .inl fun edit middle after among made before named =>
    ?_
  cases edit with
  | define spec => exact (names_define made named).elim before fun same => .inr ⟨spec, among, same⟩
  | setState =>
    cases made
    exact before (names_setState.mp named)
  | undefine =>
    cases made
    exact before (names_undefine named)
  | _ =>
    cases made
    exact before named

end Edited

theorem Acted.changes {action : DomainAction} {edits : Edit → Prop} (acted : machine.Acted name action after)
    (among : ∀ domain, machine.domain name = some domain →
      (∀ state, edits (.setState domain.spec.uuid state)) ∧ edits (.undefine domain.spec.uuid)) :
    Edited edits machine after := by
  cases acted with
  | start found | stop found => exact .one (.setState _ _) ((among _ found).1 _) rfl
  | stopped | reboot => exact .refl
  | remove found => exact .one (.undefine _) (among _ found).2 rfl

theorem answered_ok {fault : Option CallFault} {context : String} {result : Except Error Machine}
    (answer : machine.answered fault context result = (.ok (), after)) : fault = none ∧ result = .ok after := by
  unfold answered at answer
  split at answer <;> cases answer
  exact ⟨rfl, rfl⟩

theorem changes_answered {fault : Option CallFault} {context : String} {result : Except Error Machine}
    {edits : Edit → Prop} (changes : ∀ after, result = .ok after → Edited edits machine after) :
    Edited edits machine (machine.answered fault context result).2 := by
  unfold answered
  split
  next => exact changes _ rfl
  next => exact .refl
  next => exact changes _ rfl
  next => exact .refl
  next => exact .refl

theorem changes_create {spec : DomainSpec} {faults : CreateCall → Option CallFault} {edits : Edit → Prop}
    (defines : edits (.define spec))
    (among : (∀ state, edits (.setState spec.uuid state)) ∧ edits (.undefine spec.uuid)) :
    Edited edits machine (machine.create spec faults).2 := by
  have made := @changes_answered machine (faults .define) "define domain" (machine.define spec)
    edits fun defined result =>
    .one (.define spec) defines result
  have undone (before : Machine) : Edited edits before (before.undoDefine (faults .undefine) spec.uuid) := by
    unfold undoDefine
    split
    next => exact .refl
    next => exact .one (.undefine _) among.2 rfl
  unfold create
  split
  next result =>
    rw [result] at made
    exact made
  next defined result =>
    rw [result] at made
    have started := @changes_answered defined (faults .create) ("start domain " ++ spec.name)
      (defined.start spec.name) edits
      fun after ran => (start_ok ran).changes fun domain found => by rwa [domain_define (answered_ok result).2 found]
    split
    next => exact made.trans (undone defined)
    next =>
      split
      next ended =>
        rw [ended] at started
        exact made.trans (started.trans (undone _))
      next ended =>
        rw [ended] at started
        exact made.trans started

end Machine

end Bento.Hypervisor
