import Bento.Proofs.DomainFrames
import Bento.Proofs.ManagerContracts
import Bento.Proofs.ManagerRuns
import Mathlib.Data.Fintype.Basic

/-! An action works on its own instance. It knows the instance by the machine and the name that
it has read, so both must stand until it has returned; a contract for every call carries
that through the actions, and the rules of the contracts through their interleavings. -/

namespace Bento.Lifecycle
open Hypervisor Library.Contracts Library.Contracts.Rules Library.Programs Library.Programs.Program Library.Runs
  Network Store Function Valid
open Runner (InstanceRef)

variable {ι : Type}

/-- The instance that an action is called for. A create and a copy make a new one. -/
def Action.subject : Action → Option String
  | .start uuid | .startForConnection uuid | .stop uuid | .restart uuid | .remove uuid | .rename uuid _ => some uuid
  | .resize new => some new.uuid
  | .create _ _ | .copy _ _ _ | .pollOnce => none

/-- The world, the instance of every action, and the machine and name that it has read for
it and not returned from. -/
structure NameDesk (ι : Type) where
  world : World
  subject : ι → Option String
  held : ι → Option (Int × String)

def ManagerCall.subjectAfter (subject : Option String) : (call : ManagerCall) → call.Answer → Option String
  | .mint, answer => some (subject.getD answer.1)
  | _, _ => subject

def ManagerCall.heldAfter (subject : Option String) (held : Option (Int × String)) :
    (call : ManagerCall) → call.Answer → Option (Int × String)
  | .store (.instance uuid), .ok row => if subject = some uuid then some (row.hostId, row.name) else held
  | _, _ => held

abbrev ActionAnswer := Program.Reporting ManagerCall.Answer (Except Error Unit)

abbrev Acting (ι : Type) := Pool ActionAnswer ι (NameDesk ι) (Except Error Unit)

section
variable [DecidableEq ι]

def NameDesk.serve (manager : Manager) (i : ι) (moment : Moment) :
    (call : ManagerCall ⊕ Except Error Unit) → NameDesk ι → ActionAnswer call × NameDesk ι
  | .inl call, desk =>
    let served := call.serve manager moment desk.world
    (served.1, ⟨served.2, Function.update desk.subject i (call.subjectAfter (desk.subject i) served.1),
      Function.update desk.held i (call.heldAfter (desk.subject i) (desk.held i) served.1)⟩)
  | .inr _, desk => ((), { desk with held := Function.update desk.held i none })

def Acting.begin (manager : Manager) (actions : ι → Action) (world : World) : Acting ι :=
  ⟨⟨world, fun i => (actions i).subject, fun _ => none⟩, fun i => some ((actions i).program manager).run.reporting⟩

def Acting.step (manager : Manager) (pool : Acting ι) (event : PoolEvent ι Moment) : Option (Acting ι) :=
  Pool.step (NameDesk.serve manager) pool event

end

def StoreCall.row : StoreCall → Option String
  | .instance uuid => some uuid
  | _ => none

def World.Leads (world : World) (row : Instance) : Prop :=
  ∀ uuid, (world.machines row.hostId).Names uuid row.name → uuid = row.uuid

def ManagerCall.row : ManagerCall → Option String
  | .store body => body.row
  | _ => none

def NameDesk.ReadsOwn (i : ι) (desk : NameDesk ι) (call : ManagerCall) : Prop :=
  ∀ uuid ∈ call.row, desk.subject i = some uuid →
    ∀ row ∈ desk.world.fleet.instances.find? (·.uuid = uuid), desk.world.Leads row

def NameDesk.Permits (manager : Manager) (i : ι) (desk : NameDesk ι) (call : ManagerCall) : Prop :=
  desk.ReadsOwn i call ∧
    ∀ defined ∈ call.definitions manager, ∀ j, desk.held j = some (defined.hostId, defined.name) →
      desk.subject j = some defined.uuid

def Acting.Permitted (manager : Manager) (pool : Acting ι) : PoolEvent ι Moment → Prop
  | .step i _ => ∀ call ∈ (pool.thread i).bind Program.waiting,
      match call with
      | .inl call => pool.shared.Permits manager i call
      | .inr _ => True
  | .drop _ => True

def NameDesk.Held (desk : NameDesk ι) : Prop :=
  ∀ i place, desk.held i = some place → ∃ uuid, desk.subject i = some uuid ∧
    ∀ other, (desk.world.machines place.1).Names other place.2 → other = uuid

section
variable {manager : Manager} {moment : Moment} {desk : NameDesk ι} {i : ι}

variable {call : ManagerCall} {subject : Option String} {place : Option (Int × String)} {uuid : String}

theorem subjectAfter_some (uuid : String) (answer : call.Answer) :
    call.subjectAfter (some uuid) answer = some uuid := by
  cases call <;> rfl

theorem subjectAfter_other (other : call ≠ .mint) (subject : Option String) (answer : call.Answer) :
    call.subjectAfter subject answer = subject := by
  cases call with
  | mint => exact (other rfl).elim
  | _ => rfl

theorem heldAfter_other (held : Option (Int × String))
    (other : ∀ uuid, call = .store (.instance uuid) → subject ≠ some uuid) (answer : call.Answer) :
    call.heldAfter subject held answer = held := by
  cases call with
  | store body =>
    cases body with
    | «instance» uuid =>
      cases answer with
      | ok => exact if_neg (other uuid rfl)
      | error => rfl
    | _ => rfl
  | _ => rfl

theorem held_names {j : ι} {place : Int × String} (held : desk.Held) (permits : desk.Permits manager i call)
    (holds : desk.held j = some place) : ∃ uuid, desk.subject j = some uuid ∧
      ∀ other, ((call.serve manager moment desk.world).2.machines place.1).Names other place.2 → other = uuid := by
  obtain ⟨uuid, subject, own⟩ := held j place holds
  refine ⟨uuid, subject, fun other named => ?_⟩
  rcases serve_names named with already | defines
  · exact own other already
  · have same := permits.2 _ defines j holds
    rw [subject] at same
    exact (Option.some.inj same).symm

variable [DecidableEq ι]

theorem held_serve (held : desk.Held) (permits : desk.Permits manager i call) :
    (NameDesk.serve manager i moment (.inl call) desk).2.Held := by
  intro j place holds
  simp only [NameDesk.serve] at holds ⊢
  by_cases other : j = i
  · subst other
    rw [update_self] at holds ⊢
    by_cases reads : ∃ uuid, call = .store (.instance uuid) ∧ desk.subject j = some uuid
    · obtain ⟨uuid, rfl, subject⟩ := reads
      obtain ⟨same, found⟩ := instance_serve manager moment uuid desk.world
      cases answer : ((ManagerCall.store (.instance uuid)).serve manager moment desk.world).1 with
      | ok row =>
        rw [answer, ManagerCall.heldAfter, if_pos subject] at holds
        cases holds
        have own : row.uuid = uuid := by simpa using List.find?_some (found row answer)
        refine ⟨uuid, subject, fun other named => ?_⟩
        rw [same] at named
        exact (permits.1 uuid rfl subject row (found row answer) other named).trans own
      | error =>
        rw [answer] at holds
        exact held_names held permits holds
    · rw [heldAfter_other _ fun uuid same subject => reads ⟨uuid, same, subject⟩] at holds
      obtain ⟨uuid, subject, own⟩ := held_names held permits holds
      rw [subject, subjectAfter_some]
      exact ⟨uuid, rfl, own⟩
  · rw [update_of_ne other] at holds ⊢
    exact held_names held permits holds

variable (manager) (actions : ι → Action)

def nameRules : Rules ActionAnswer ι (NameDesk ι) Moment where
  serve := NameDesk.serve manager
  invariant := NameDesk.Held
  allowed i _ call desk :=
    match call with
    | .inl call => desk.Permits manager i call
    | .inr _ => True
  safe i call desk :=
    match call with
    | .inl call => (∀ uuid, (actions i).subject = some uuid → desk.subject i = some uuid) ∧
        ∀ other ∈ call.touched manager desk.world, actions i = .pollOnce ∨ desk.subject i = some other
    | .inr _ => True
  rely i before after := after.subject i = before.subject i ∧ after.held i = before.held i
  guarantee i before after := ∀ j, j ≠ i → after.subject j = before.subject j ∧ after.held j = before.held j
  compatible := fun different _ _ _ gives => gives _ different

variable {manager actions}

def Own (i : ι) (subject : Option String) (place : Option (Int × String)) (desk : NameDesk ι) : Prop :=
  desk.subject i = subject ∧ desk.held i = place

theorem stable_own (manager : Manager) (actions : ι → Action) (subject : Option String)
    (place : Option (Int × String)) :
    (nameRules manager actions).Stable i (Own i subject place) := by
  rintro before after - - ⟨sameSubject, sameHeld⟩ ⟨forIt, holds⟩
  exact ⟨sameSubject.trans forIt, sameHeld.trans holds⟩

def Proper (manager : Manager) (subject : Option String) (place : Option (Int × String)) (call : ManagerCall) : Prop :=
  call ≠ .mint ∧ (∀ uuid, call = .store (.instance uuid) → subject ≠ some uuid) ∧
    ∀ world : World, (∀ held ∈ place, ∀ other, (world.machines held.1).Names other held.2 → subject = some other) →
      ∀ other ∈ call.touched manager world, subject = some other

theorem update_others {β : Type} (values : ι → β) (value : β) (j : ι) (other : j ≠ i) :
    Function.update values i value j = values j :=
  update_of_ne other ..

theorem proper_operation (agrees : ∀ uuid, (actions i).subject = some uuid → subject = some uuid)
    (proper : Proper manager subject place call) :
    (nameRules manager actions).silent.Operation i call (Own i subject place) fun _ => Own i subject place where
  waiting := stable_own manager actions subject place
  safe desk held own := by
    obtain ⟨forIt, holds⟩ := own
    refine ⟨fun uuid called => forIt.trans (agrees uuid called), fun other touched => .inr (forIt.trans ?_)⟩
    refine proper.2.2 desk.world (fun here found named known => ?_) other touched
    obtain ⟨uuid, same, leads⟩ := held i here (holds.trans found)
    rw [leads named known, ← forIt, same]
  execute desk moment held own permits := by
    obtain ⟨forIt, holds⟩ := own
    refine ⟨held_serve held permits, fun j other => ⟨update_others _ _ j other, update_others _ _ j other⟩, ?_, ?_⟩
    · exact (update_self ..).trans ((subjectAfter_other proper.1 _ _).trans forIt)
    · refine (update_self ..).trans ((heldAfter_other _ ?_ _).trans holds)
      rw [forIt]
      exact proper.2.1

theorem own_read_operation (called : (actions i).subject = some uuid) :
    (nameRules manager actions).silent.Operation i (.store (.instance uuid)) (Own i (some uuid) none)
      (outcome (fun row desk => row.uuid = uuid ∧ Own i (some uuid) (some (row.hostId, row.name)) desk) fun _ => True)
        where
  waiting := stable_own manager actions _ _
  safe desk held own := ⟨fun other same => own.1.trans (called.symm.trans same), nofun⟩
  execute desk moment held own permits := by
    obtain ⟨forIt, holds⟩ := own
    refine ⟨held_serve held permits, fun j other => ⟨update_others _ _ j other, update_others _ _ j other⟩, ?_⟩
    simp only [silent, nameRules, NameDesk.serve]
    cases answer : ((ManagerCall.store (.instance uuid)).serve manager moment desk.world).1 with
    | error => trivial
    | ok row =>
      have found := (instance_serve manager moment uuid desk.world).2 row answer
      refine ⟨by simpa using List.find?_some found, (update_self ..).trans forIt, ?_⟩
      exact (update_self ..).trans (if_pos forIt)

theorem mint_operation (called : (actions i).subject = none) :
    (nameRules manager actions).silent.Operation i .mint (Own i none none) fun answer =>
      Own i (some answer.1) none where
  waiting := stable_own manager actions _ _
  safe desk held own := by
    refine ⟨fun other same => ?_, nofun⟩
    rw [called] at same
    cases same
  execute desk moment held own permits := by
    obtain ⟨forIt, holds⟩ := own
    refine ⟨held_serve held permits, fun j other => ⟨update_others _ _ j other, update_others _ _ j other⟩, ?_, ?_⟩
    · refine (update_self ..).trans ?_
      rw [forIt]
      rfl
    · exact (update_self ..).trans holds

def ManagerCall.Looks : ManagerCall → Prop
  | .allocateInOwnedSlot _ _ | .list | .state _ | .isoExists _ | .hypervisor _ | .inventory _ => True
  | _ => False

def ManagerCall.about : ManagerCall → Option String
  | .define spec | .create spec => some spec.uuid
  | .deleteIso uuid | .buildIso uuid | .removeOverlay uuid | .copyOverlay _ uuid | .resizeOverlay uuid _ => some uuid
  | .provision spec => some spec.row.uuid
  | .deprovision _ row | .resizeDisk _ row _ => some row.uuid
  | _ => none

section
variable {row : Instance}

theorem proper_store {body : StoreCall} (other : subject = none ∨ body.row = none) :
    Proper manager subject place (.store body) := by
  refine ⟨nofun, fun uuid same known => ?_, fun _ _ _ => nofun⟩
  cases same
  rcases other with none | none
  · cases known.symm.trans none
  · cases none

theorem proper_look (looks : call.Looks) : Proper manager subject place call := by
  cases call with
  | allocateInOwnedSlot _ _ | list | state _ | isoExists _ | hypervisor _ | inventory _ =>
    exact ⟨nofun, nofun, fun _ _ _ => nofun⟩
  | _ => exact looks.elim

theorem proper_own (about : call.about = some uuid) : Proper manager (some uuid) place call := by
  have touches (world : World) : call.touched manager world = [uuid] := by
    cases call <;> cases about <;> rfl
  refine ⟨?_, ?_, fun world _ other listed => ?_⟩
  · rintro rfl
    cases about
  · rintro _ rfl
    cases about
  · rw [touches] at listed
    rw [List.mem_singleton.mp listed]

theorem touched_domain {world : World} {hostId : Int} {name other : String}
    (leads : ∀ held ∈ some (hostId, name), ∀ other, (world.machines held.1).Names other held.2 → subject = some other)
    (touched : other ∈ ((world.machines hostId).domain name).toList.map (·.spec.uuid)) : subject = some other := by
  obtain ⟨domain, found, rfl⟩ := List.mem_map.mp touched
  exact leads (hostId, name) rfl _ (Machine.names_of_domain (Option.mem_toList.mp found))

variable {action : DomainAction}

theorem proper_act (here : row.hostId = manager.hostId) :
    Proper manager subject (some (row.hostId, row.name)) (.act action row.name) := by
  refine ⟨nofun, nofun, fun world leads other touched => ?_⟩
  rw [here] at leads
  exact touched_domain leads touched

theorem proper_change {target : String} (sent : action = .remove → subject = some target) :
    Proper manager subject (some (row.hostId, row.name)) (.change row.hostId action ⟨target, row.name⟩) := by
  refine ⟨nofun, nofun, fun world leads other touched => ?_⟩
  rcases List.mem_append.mp touched with found | deleted
  · exact touched_domain leads found
  · split at deleted
    next removes =>
      rw [List.mem_singleton.mp deleted]
      exact sent removes
    next => cases deleted

theorem proper_redefine {spec : RedefineSpec} (own : spec.row.uuid = uuid) (placed : spec.hostId = row.hostId)
    (previous : ∀ name ∈ spec.previousName, name = row.name) :
    Proper manager (some uuid) (some (row.hostId, row.name)) (.redefine spec) := by
  refine ⟨nofun, nofun, fun world leads other touched => ?_⟩
  rcases List.mem_cons.mp touched with rfl | found
  · rw [own]
  · rw [placed] at found
    cases before : spec.previousName with
    | none =>
      rw [before] at found
      cases found
    | some name =>
      rw [before, Option.bind_some, previous name before] at found
      exact touched_domain leads found

abbrev ProperFor (manager : Manager) (row : Instance) : ManagerCall → Prop :=
  Proper manager (some row.uuid) (some (row.hostId, row.name))

theorem proper_write {body : StoreCall} (other : body.row = none) :
    ProperFor manager row (.store body) := proper_store (.inr other)

theorem proper_hypFor : (manager.hypFor row).run.Ensures (ProperFor manager row)
    (succeeding fun reach => row.hostId = manager.hostId ∧ reach = .here ∨ row.hostId ≠ manager.hostId ∧
      reach = .there row.hostId) :=
  ensures_hypFor (proper_look trivial)

theorem proper_domainAction {word : String} (keeps : action ≠ .remove) :
    (manager.domainAction action word row).run.Only (ProperFor manager row) :=
  only_domainAction proper_act (proper_look trivial) (proper_look trivial) fun _ _ =>
    proper_change fun removes => (keeps removes).elim

theorem proper_define {other : Instance} {network : String} {withIso : Bool} (own : other.uuid = row.uuid) :
    ProperFor manager row (.define (domainSpec other network withIso)) :=
  proper_own (congrArg some own)

theorem proper_domainXmlByUuid (other : Instance) (withIso : Bool) :
    (manager.domainXmlByUuid other withIso).run.Ensures (ProperFor manager row)
      (succeeding fun xml => ∃ network, xml = domainSpec other network withIso) :=
  ensures_domainXmlByUuid withIso (proper_write rfl)

theorem proper_redefineElsewhere {other : Instance} {previousName : Option String} (own : other.uuid = row.uuid)
    (placed : other.hostId = row.hostId) (previous : ∀ name ∈ previousName, name = row.name) :
    (manager.redefineElsewhere other previousName).run.Only (ProperFor manager row) :=
  only_redefineElsewhere (proper_write rfl) fun _ => proper_redefine own placed previous

theorem proper_redefine_resized (request : ResizeRequest) :
    (manager.redefine (Manager.resized request row)).run.Only (ProperFor manager row) :=
  only_redefine (proper_write rfl) (fun _ => proper_redefine rfl rfl nofun) (proper_look trivial) fun _ _ =>
    proper_define rfl

theorem proper_growDisk (request : ResizeRequest) : (manager.growDisk request row).run.Only (ProperFor manager row) :=
  only_growDisk (proper_own rfl) (proper_own rfl)

theorem proper_unwindRename {α : Type} (newName cause : String) :
    (Manager.unwindRename row newName cause : ManagerM α).run.Only (ProperFor manager row) :=
  only_except (only_answered (proper_write rfl)) fun _ => only_pure

theorem proper_restoreDefinition (withIso : Bool) :
    (manager.restoreDefinition row withIso).run.Only (ProperFor manager row) := by
  refine only_given (ensures_lift (proper_domainXmlByUuid row withIso)) fun result written => ?_
  cases result with
  | error => exact only_pure
  | ok =>
    obtain ⟨network, rfl⟩ := written
    exact only_except (only_answered (proper_define rfl)) fun _ => only_pure

theorem proper_defineRenamed {newName network : String} {withIso : Bool} :
    (manager.defineRenamed row newName withIso (domainSpec (Manager.renamed row newName) network withIso)).run.Only
      (ProperFor manager row) := by
  refine only_except (only_answered (proper_define rfl)) fun answer => ?_
  cases answer with
  | ok => exact only_pure
  | error => exact only_except (proper_restoreDefinition withIso) fun _ => proper_unwindRename ..

theorem proper_renameHere (newName : String) (here : row.hostId = manager.hostId) :
    (manager.renameHere row newName).run.Only (ProperFor manager row) := by
  refine only_except (only_answered (proper_look trivial)) fun withIso => ?_
  refine only_given (ensures_lift (proper_domainXmlByUuid _ withIso)) fun result written => ?_
  cases result with
  | error => exact proper_unwindRename ..
  | ok =>
    obtain ⟨network, rfl⟩ := written
    refine only_except (only_answered (proper_act here)) fun removed => ?_
    cases removed with
    | ok => exact proper_defineRenamed
    | error error =>
      cases error with
      | domainNotFound => exact proper_defineRenamed
      | operation => exact proper_unwindRename ..

theorem proper_renameThere (newName : String) : (manager.renameThere row newName).run.Only (ProperFor manager row) := by
  refine only_except (only_lift (proper_redefineElsewhere rfl rfl fun name same =>
    (Option.some.inj same).symm)) fun result => ?_
  cases result with
  | ok => exact only_pure
  | error => exact proper_unwindRename ..

theorem proper_renameTo (newName : String) : (manager.renameTo row newName).run.Only (ProperFor manager row) := by
  refine only_given proper_hypFor fun reach _ => ?_
  refine only_except (only_lift (only_state row.name (fun _ => proper_look trivial) fun _ _ => proper_look trivial))
    fun state => ?_
  refine only_except only_pure fun gone => ?_
  refine only_except only_pure fun _ => ?_
  refine only_except (only_stored (proper_write rfl)) fun _ => ?_
  unfold Manager.finishRename
  split
  next => exact only_pure
  next =>
    split
    next => exact proper_renameThere newName
    next here => exact proper_renameHere newName (not_not.mp here)

section
variable {α : Type} {new : Instance}

abbrev ProperNew (manager : Manager) (new : Instance) : ManagerCall → Prop := Proper manager (some new.uuid) none

theorem proper_unwindNew (cause : String) :
    (manager.unwindNew new cause : ManagerM α).run.Only (ProperNew manager new) := by
  refine only_except (only_answered (proper_store (.inr rfl))) fun answer => ?_
  cases answer with
  | ok | error => exact only_pure

theorem proper_finishNew (new : Instance) (owner : User) (subnet : Ipv4Prefix) (address : Ipv4Addr) :
    (manager.finishNew new owner subnet address).run.Only (ProperNew manager new) := by
  unfold Manager.finishNew
  split
  next => exact proper_unwindNew _
  next =>
    split
    next => exact proper_unwindNew _
    next =>
      refine only_except (only_answered (proper_own rfl)) fun answer => ?_
      cases answer with
      | error => exact proper_unwindNew _
      | ok => exact only_except (only_answered (proper_store (.inr rfl))) fun _ => only_pure

theorem proper_unwindCopy (cause : String) (post : α → Prop) :
    (manager.unwindCopy new cause : ManagerM α).run.Ensures (ProperNew manager new) (succeeding post) := by
  refine ensures_except (only_succeeds (only_answered (proper_own rfl))) fun seed _ => ?_
  refine ensures_except (only_succeeds (only_answered (proper_own rfl))) fun overlay _ => ?_
  exact ensures_except (only_succeeds (only_answered (proper_store (.inr rfl)))) fun _ _ => ensures_pure trivial

theorem proper_copyStep {ε : Type} {text : ε → String} {program : ManagerProgram (Except ε α)} {post : α → Prop}
    (ensures : program.Ensures (ProperNew manager new) (succeeding post)) :
    (manager.copyStep new text program).run.Ensures (ProperNew manager new) (succeeding post) := by
  refine ensures_except (ensures_lift ensures) fun result holds => ?_
  cases result with
  | ok => exact ensures_pure holds
  | error error => exact proper_unwindCopy (text error) post

theorem proper_growCopy (source : Instance) :
    (manager.growCopy source new).run.Ensures (ProperNew manager new) (succeeding fun _ => True) := by
  unfold Manager.growCopy
  split
  next => exact proper_copyStep (only_succeeds (only_ask (proper_own rfl)))
  next => exact ensures_pure trivial

theorem proper_finishCopy (new source : Instance) (owner : User) (subnet : Ipv4Prefix) (address : Ipv4Addr) :
    (manager.finishCopy source new owner subnet address).run.Only (ProperNew manager new) := by
  refine only_given (proper_copyStep (only_succeeds (only_ask (proper_own rfl)))) fun _ _ => ?_
  refine only_given (proper_growCopy source) fun _ _ => ?_
  refine only_given (proper_copyStep (only_succeeds only_pure)) fun _ _ => ?_
  refine only_given (proper_copyStep (only_succeeds (only_ask (proper_own rfl)))) fun _ _ => ?_
  have rendered : (Pure.pure (manager.domainXml new owner true) : ManagerProgram _).Ensures (ProperNew manager new)
      (succeeding fun xml => ∃ network, xml = domainSpec new network true) := by
    cases written : manager.domainXml new owner true with
    | error => exact ensures_pure trivial
    | ok => exact ensures_pure (written_domainXml written)
  refine only_given (proper_copyStep rendered) fun xml written => ?_
  obtain ⟨network, rfl⟩ := written
  refine only_given (proper_copyStep (only_succeeds (only_ask (proper_own rfl)))) fun _ _ => ?_
  exact only_except (only_answered (proper_store (.inr rfl))) fun _ => only_pure

end

section
variable {α : Type}

abbrev Acts (manager : Manager) (actions : ι → Action) (i : ι) (subject : Option String) (place : Option (Int × String))
    (program : ManagerM α) (post : α → NameDesk ι → Prop) : Prop :=
  (nameRules manager actions).silent.Valid i (Own i subject place) program.run (outcome post fun _ => True)

abbrev OwnRow (i : ι) (row : Instance) : NameDesk ι → Prop := Own i (some row.uuid) (some (row.hostId, row.name))

theorem valid_proper {program : ManagerM α} {post : α → Prop}
    (agrees : ∀ uuid, (actions i).subject = some uuid → subject = some uuid)
    (ensures : program.run.Ensures (Proper manager subject place) (succeeding post)) :
    Acts manager actions i subject place program (fun value desk => post value ∧ Own i subject place desk) := by
  refine (of_ensures (fun _ proper => proper_operation agrees proper) ensures).post_mono fun result => ?_
  cases result with
  | ok => exact .rfl
  | error => exact fun _ _ _ => trivial

theorem valid_then {β : Type} {step : ManagerM β} {next : β → ManagerM α}
    {post : α → NameDesk ι → Prop} (agrees : ∀ uuid, (actions i).subject = some uuid → subject = some uuid)
    (first : step.run.Only (Proper manager subject place))
    (rest : ∀ value, Acts manager actions i subject place (next value) post) :
    Acts manager actions i subject place (step >>= next) post :=
  bind_except (valid_proper agrees (only_succeeds first)) fun value => Valid.given fun _ => rest value

theorem valid_rest {program : ManagerM α}
    (agrees : ∀ uuid, (actions i).subject = some uuid → subject = some uuid)
    (only : program.run.Only (Proper manager subject place)) :
    Acts manager actions i subject place program (fun _ _ => True) := by
  exact (valid_proper agrees (only_succeeds only)).post_mono (outcome_mono (fun _ _ _ _ => trivial) .rfl)

theorem valid_own_read {next : Instance → ManagerM α} {post : α → NameDesk ι → Prop}
    (called : (actions i).subject = some uuid)
    (rest : ∀ row, row.uuid = uuid → Acts manager actions i (some uuid) (some (row.hostId, row.name)) (next row) post) :
    Acts manager actions i (some uuid) none (stored (.instance uuid) >>= next) post :=
  bind_except (valid_stored (own_read_operation called)) fun row => Valid.given (rest row)

theorem valid_reading {next : Instance → ManagerM α} (called : (actions i).subject = some uuid)
    (rest : ∀ row, row.uuid = uuid → (next row).run.Only (ProperFor manager row)) :
    Acts manager actions i (some uuid) none (stored (.instance uuid) >>= next) (fun _ _ => True) := by
  refine valid_own_read called fun row own => ?_
  subst own
  exact valid_rest (fun other same => called.symm.trans same) (rest row rfl)

theorem valid_removeThere (called : (actions i).subject = some row.uuid) :
    (nameRules manager actions).silent.Valid i (OwnRow i row) (Reach.act .remove row.name (.there row.hostId)) fun _ =>
      OwnRow i row := by
  have agrees (uuid : String) (same : (actions i).subject = some uuid) :
      some row.uuid = some uuid := called.symm.trans same
  have kept : (nameRules manager actions).silent.Operation i (.inventory row.hostId) (OwnRow i row)
      fun _ => OwnRow i row := proper_operation agrees (proper_look trivial)
  have changed (domain : DomainInfo) (_ : domain.name = row.name) :
      (nameRules manager actions).silent.Operation i (.change row.hostId .remove ⟨domain.uuid, row.name⟩)
        (fun desk => domain.uuid = row.uuid ∧ OwnRow i row desk)
        fun _ => OwnRow i row :=
    Operation.given fun own => proper_operation agrees (proper_change fun _ => congrArg some own.symm)
  refine valid_actThere ⟨kept.waiting, kept.safe, fun desk moment held own permits => ?_⟩ changed
  obtain ⟨still, gives, after⟩ := kept.execute desk moment held own permits
  refine ⟨still, gives, ?_⟩
  cases answer : ((nameRules manager actions).silent.serve i moment (.inventory row.hostId) desk).1 with
  | error => exact after
  | ok =>
    obtain rfl := inventory_ok answer
    dsimp only
    unfold whenListed
    rw [Machine.list_find?]
    cases found : (desk.world.machines row.hostId).domain row.name with
    | none => exact after
    | some =>
      obtain ⟨uuid, forIt, leads⟩ := held i _ own.2
      have same : row.uuid = uuid := Option.some.inj (own.1.symm.trans forIt)
      exact ⟨(leads _ (Machine.names_of_domain found)).trans same.symm, after⟩

theorem valid_own_remove (called : (actions i).subject = some uuid) :
    Acts manager actions i (some uuid) none (manager.remove uuid) (fun _ _ => True) := by
  refine valid_own_read called fun row own => ?_
  subst own
  have agrees (uuid : String) (same : (actions i).subject = some uuid) :
      some row.uuid = some uuid := called.symm.trans same
  refine bind_except (valid_proper agrees proper_hypFor) fun reach => Valid.given fun found => ?_
  have removed : (nameRules manager actions).silent.Valid i (OwnRow i row) (reach.act .remove row.name)
      fun _ => OwnRow i row := by
    rcases found with ⟨here, rfl⟩ | ⟨-, rfl⟩
    · exact valid_ask (proper_operation agrees (proper_act here))
    · exact valid_removeThere called
  refine bind_except (valid_lift removed) fun result => valid_rest agrees ?_
  refine only_except only_pure fun _ => ?_
  refine only_except (only_answered (proper_own rfl)) fun _ => ?_
  exact only_except (only_checked (only_ask (proper_write rfl))) fun _ => only_pure

theorem valid_create {mac : String → String} {new : Manager.NewRequest} (called : (actions i).subject = none) :
    Acts manager actions i none none (manager.create mac new) (fun _ _ => True) := by
  have agrees (uuid : String) (same : (actions i).subject = some uuid) : none = some uuid := called.symm.trans same
  have reads (body : StoreCall) (_ : body.Reads) : Proper manager none none (.store body) := proper_store (.inl rfl)
  refine valid_then agrees only_pure fun _ => ?_
  refine valid_then agrees (only_currentVersion reads new) fun checksum => ?_
  refine valid_then agrees only_pure fun subnet => ?_
  refine valid_then agrees (only_place reads new) fun hostId => ?_
  refine valid_then agrees (only_checked (only_ask (proper_look trivial))) fun place => ?_
  refine bind_except (valid_answered (mint_operation called)) fun minted => ?_
  refine valid_rest (fun uuid same => ?_) ?_
  · cases called.symm.trans same
  · refine only_except (only_stored (proper_store (.inr rfl))) fun capacity => ?_
    refine only_except (only_stored (proper_store (.inr rfl))) fun _ => ?_
    exact proper_finishNew (new.row mac hostId new.imageName checksum minted.1 minted.2 place.1 place.2) ..

theorem valid_copy {mac : String → String} {source : String} {new : Manager.NewRequest}
    (called : (actions i).subject = none) :
    Acts manager actions i none none (manager.copy mac source new) (fun _ _ => True) := by
  have agrees (uuid : String) (same : (actions i).subject = some uuid) : none = some uuid := called.symm.trans same
  refine valid_then agrees (only_stored (proper_store (.inl rfl))) fun source => ?_
  refine valid_then agrees (only_stored (proper_store (.inl rfl))) fun _ => ?_
  refine valid_then agrees only_pure fun _ => ?_
  refine valid_then agrees only_pure fun _ => ?_
  refine valid_then agrees (only_answered (proper_look trivial)) fun state => ?_
  refine valid_then agrees only_pure fun _ => ?_
  refine valid_then agrees only_pure fun subnet => ?_
  refine valid_then agrees (only_checked (only_ask (proper_look trivial))) fun place => ?_
  refine valid_then agrees (only_stored (proper_store (.inl rfl))) fun capacity => ?_
  refine bind_except (valid_answered (mint_operation called)) fun minted => ?_
  refine valid_rest (fun uuid same => ?_) ?_
  · cases called.symm.trans same
  · exact only_except (only_stored (proper_store (.inr rfl))) fun _ =>
      proper_finishCopy (new.row mac new.hostId source.imageName source.baseChecksum minted.1 minted.2 place.1 place.2)
        ..

theorem valid_own_pollOnce (polls : actions i = .pollOnce) {program : ManagerProgram α} :
    (nameRules manager actions).silent.Valid i (fun _ => True) program fun _ _ => True := by
  refine of_operations fun call =>
    ⟨fun _ _ _ _ _ _ => trivial, fun desk _ _ => ⟨?_, fun _ _ => .inl polls⟩, fun desk moment held _ permits => ?_⟩
  · rw [polls]
    nofun
  · exact ⟨held_serve held permits, fun j other => ⟨update_others _ _ j other, update_others _ _ j other⟩, trivial⟩

theorem valid_own (manager : Manager) (actions : ι → Action) (i : ι) :
    (nameRules manager actions).silent.Valid i (Own i (actions i).subject none)
      ((actions i).program manager).run fun _ _ => True := by
  have ends {program : ManagerProgram (Except Error Unit)} {pre : NameDesk ι → Prop}
      (valid : (nameRules manager actions).silent.Valid i pre program (outcome (fun _ _ => True) fun _ => True)) :
      (nameRules manager actions).silent.Valid i pre program fun _ _ => True := valid.post_mono fun _ _ _ _ => trivial
  have returns {β : Type} {program : ManagerM β} {pre : NameDesk ι → Prop}
      (valid : (nameRules manager actions).silent.Valid i pre program.run (outcome (fun _ _ => True) fun _ => True)) :
      (nameRules manager actions).silent.Valid i pre (program >>= fun _ => Pure.pure () : ManagerM Unit).run fun _ _ =>
        True :=
    ends (bind_except valid fun _ => valid_return fun _ _ _ => trivial)
  cases called : actions i with
  | start =>
    refine ends (valid_reading (congrArg Action.subject called) fun row _ => ?_)
    refine only_except (proper_domainAction nofun) fun _ => ?_
    exact only_except (only_stored (proper_write rfl)) fun _ => only_stored (proper_write rfl)
  | startForConnection =>
    exact ends (valid_reading (congrArg Action.subject called) fun row _ => proper_domainAction nofun)
  | stop =>
    refine returns (valid_reading (congrArg Action.subject called) fun row _ => ?_)
    refine only_except (only_stored (proper_write rfl)) fun _ => ?_
    refine only_except (proper_domainAction nofun) fun result => ?_
    exact only_except (only_stored (proper_write rfl)) fun _ => only_pure
  | restart =>
    refine ends (valid_reading (congrArg Action.subject called) fun row _ => ?_)
    exact only_except (proper_domainAction nofun) fun _ => only_stored (proper_write rfl)
  | remove => exact ends (valid_own_remove (congrArg Action.subject called))
  | rename uuid newName =>
    refine ends (valid_reading (congrArg Action.subject called) fun row _ => ?_)
    split
    next => exact only_pure
    next => exact proper_renameTo newName
  | resize new =>
    refine returns (valid_reading (congrArg Action.subject called) fun row _ => ?_)
    refine only_except only_pure fun _ => ?_
    refine only_except (only_stored (proper_write rfl)) fun capacity => ?_
    refine only_except (only_stored (proper_write rfl)) fun _ => ?_
    refine only_except (proper_growDisk new) fun _ => ?_
    refine only_except (only_stored (proper_write rfl)) fun _ => ?_
    refine only_except ?_ fun _ => only_pure
    unfold Manager.redefineResized
    split
    next => exact proper_redefine_resized new
    next => exact only_pure
  | create => exact returns (valid_create (congrArg Action.subject called))
  | copy => exact returns (valid_copy (congrArg Action.subject called))
  | pollOnce => exact (valid_own_pollOnce called).weaken fun _ _ _ => trivial

end

end

theorem own_return_operation (result : Except Error Unit) :
    (nameRules manager actions).Operation i (.inr result) (fun _ => True) fun _ _ => True where
  waiting _ _ _ _ _ _ := trivial
  safe _ _ _ := trivial
  execute desk moment held _ _ := by
    refine ⟨fun j place holds => ?_, fun j other => ⟨rfl, update_others _ _ j other⟩, trivial⟩
    rcases update_eq_some holds with ⟨-, none⟩ | ⟨-, before⟩
    · cases none
    · exact held j place before

theorem acting_sound (manager : Manager) (actions : ι → Action) (world : World) :
    (nameRules manager actions).Sound (fun _ _ _ => True) (Acting.begin manager actions world) where
  invariant := nofun
  threads i program found := by
    cases found
    exact ((valid_own manager actions i).reporting own_return_operation).suspended nofun ⟨rfl, rfl⟩

theorem acting_keeps {pool next : Acting ι} {other : String} (moved : pool.step manager (.step i moment) = some next)
    (untouched : ∀ call, (pool.thread i).bind Program.waiting = some (.inl call) →
      other ∉ call.touched manager pool.shared.world) :
    World.Keeps other pool.shared.world next.shared.world := by
  rcases Pool.step_cases moved with ⟨_, _, program, rest, shared, same, found, resumed, rfl⟩ | ⟨_, _, _, impossible, -⟩
  · cases same
    cases program with
    | pure => cases resumed
    | request call =>
      cases resumed
      cases call with
      | inl call => exact serve_keeps (untouched call (by rw [found]; rfl))
      | inr => exact fun _ => .refl other _
  · cases impossible

/-- In a run that reads rows and defines domains as permitted, a step of an action leaves the
domains and the files of all other instances alone. -/
theorem actions_touch_own (manager : Manager) (actions : ι → Action) (world : World)
    (events : List (PoolEvent ι Moment)) (reached next : Acting ι)
    (ran : exec (Acting.step manager) (Acting.begin manager actions world) events = some reached)
    (permitted : Obeys (Acting.step manager) (Acting.Permitted manager) (Acting.begin manager actions world) events)
    (i : ι) (moment : Moment) (acts : actions i ≠ .pollOnce)
    (moved : reached.step manager (.step i moment) = some next) :
    (∀ uuid other, (actions i).subject = some uuid → other ≠ uuid →
      World.Keeps other reached.shared.world next.shared.world) ∧
      ∀ other, reached.shared.subject i ≠ some other → World.Keeps other reached.shared.world next.shared.world := by
  have same : (nameRules manager actions).Allowed = Acting.Permitted manager := by
    funext pool event
    cases event <;> rfl
  rw [← same] at permitted
  have sound : (nameRules manager actions).Sound (fun _ _ _ => True) reached :=
    Rules.sound (fun _ _ _ _ _ _ _ _ => trivial) ran permitted (acting_sound manager actions world)
  constructor
  · intro uuid other called different
    refine acting_keeps moved fun call waits touched => different ?_
    obtain ⟨forIt, own⟩ := sound.safe waits
    exact Option.some.inj (((own other touched).resolve_left acts).symm.trans (forIt uuid called))
  · intro other different
    refine acting_keeps moved fun call waits touched => different ?_
    exact ((sound.safe waits).2 other touched).resolve_left acts

end

instance (world : World) (row : Instance) : Decidable (world.Leads row) :=
  decidable_of_iff (∀ domain ∈ (world.machines row.hostId).domains, domain.spec.name = row.name →
    domain.spec.uuid = row.uuid)
    ⟨fun leads _ ⟨domain, listed, same, named⟩ => same ▸ leads domain listed named,
      fun leads domain listed named => leads _ ⟨domain, listed, rfl, named⟩⟩

instance (i : ι) (desk : NameDesk ι) (call : ManagerCall) : Decidable (desk.ReadsOwn i call) := by
  unfold NameDesk.ReadsOwn
  infer_instance

instance [Fintype ι] (manager : Manager) (i : ι) (desk : NameDesk ι) (call : ManagerCall) :
    Decidable (desk.Permits manager i call) := by
  unfold NameDesk.Permits
  infer_instance

instance [Fintype ι] (manager : Manager) (pool : Acting ι) : ∀ event, Decidable (pool.Permitted manager event)
  | .step i _ =>
    have : DecidablePred fun call : ManagerCall ⊕ Except Error Unit =>
        match call with
        | .inl call => pool.shared.Permits manager i call
        | .inr _ => True
      | .inl call => inferInstanceAs (Decidable (pool.shared.Permits manager i call))
      | .inr _ => .isTrue trivial
    inferInstanceAs (Decidable (∀ call ∈ (pool.thread i).bind Program.waiting,
      match call with
      | .inl call => pool.shared.Permits manager i call
      | .inr _ => True))
  | .drop _ => .isTrue trivial

def dbGuest : Instance := { plainGuest "9f1c" "db" 1 with mac := "52:54:00:00:9f:1c" }

def twoGuests : World :=
  ⟨smallFleet [plainGuest "0b5e" "web" 1, dbGuest], fun _ =>
    ⟨[guestDomain (plainGuest "0b5e" "web" 1) .stopped, guestDomain dbGuest .stopped],
    ["0b5e", "9f1c"], []⟩⟩

def actionCalls {count : Nat} (i : Fin count) (steps : Nat) :
    List (PoolEvent (Fin count) Moment) := List.replicate steps (.step i calm)

def startAndRename : Fin 2 → Action
  | 0 => .start "0b5e"
  | 1 => .rename "9f1c" "mail"

def startAndReuse : Fin 3 → Action
  | 0 => .start "0b5e"
  | 1 => .remove "0b5e"
  | 2 => .rename "9f1c" "web"

theorem actions_touch_own_renamed : ∃ reached next,
    exec (Acting.step exampleManager) (Acting.begin exampleManager startAndRename twoGuests)
      (actionCalls 0 1 ++ actionCalls 1 7) = some reached ∧
    reached.step exampleManager (.step 0 calm) = some next ∧
      World.Keeps "9f1c" reached.shared.world next.shared.world := by
  have permitted : Obeys (Acting.step exampleManager) (Acting.Permitted exampleManager)
    (Acting.begin exampleManager startAndRename twoGuests)
      (actionCalls 0 1 ++ actionCalls 1 7) := by
    decide +kernel
  have runs : ((exec (Acting.step exampleManager) (Acting.begin exampleManager startAndRename twoGuests)
      (actionCalls 0 1 ++ actionCalls 1 7)).bind fun reached =>
        (reached.step exampleManager (.step 0 calm)).map fun _ => ()) = some () := by
    decide +kernel
  obtain ⟨reached, ran, steps⟩ := Option.bind_eq_some_iff.mp runs
  obtain ⟨next, moved, -⟩ := Option.map_eq_some_iff.mp steps
  refine ⟨reached, next, ran, moved, ?_⟩
  exact (actions_touch_own exampleManager startAndRename twoGuests _ reached next ran permitted 0 calm nofun moved).1
    "0b5e" "9f1c" rfl (by decide)

/-- The start of one guest then starts the other. -/
theorem actions_touch_others :
    ∃ reached next, exec (Acting.step exampleManager) (Acting.begin exampleManager startAndReuse twoGuests)
      (actionCalls 0 1 ++ actionCalls 1 5 ++ actionCalls 2 8) = some reached ∧
    reached.step exampleManager (.step 0 calm) = some next ∧
      ¬ World.Keeps "9f1c" reached.shared.world next.shared.world := by
  have runs : ((exec (Acting.step exampleManager) (Acting.begin exampleManager startAndReuse twoGuests)
      (actionCalls 0 1 ++ actionCalls 1 5 ++ actionCalls 2 8)).bind fun reached =>
        (reached.step exampleManager (.step 0 calm)).map fun next =>
        decide ((next.shared.world.machines 1).domains.filter (·.spec.uuid = "9f1c") =
          (reached.shared.world.machines 1).domains.filter (·.spec.uuid = "9f1c"))) = some false := by
    decide +kernel
  obtain ⟨reached, ran, steps⟩ := Option.bind_eq_some_iff.mp runs
  obtain ⟨next, moved, changed⟩ := Option.map_eq_some_iff.mp steps
  exact ⟨reached, next, ran, moved, fun keeps => of_decide_eq_false changed (keeps 1).domains⟩

end Bento.Lifecycle
