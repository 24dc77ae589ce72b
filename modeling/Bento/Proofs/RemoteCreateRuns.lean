import Bento.Lifecycle.RemoteCreate
import Bento.Proofs.ManagerRuns

/-! What a create on another machine leaves behind when it fails. The controller removes the
row on any error, so nothing may be left on the machine by then. -/

namespace Bento.Hypervisor

def Machine.Undefined (machine : Machine) (uuid : String) : Prop := ∀ domain ∈ machine.domains, domain.spec.uuid ≠ uuid

structure Machine.Clean (machine : Machine) (uuid : String) : Prop where
  domain : machine.Undefined uuid
  overlay : uuid ∉ machine.overlays
  seed : uuid ∉ machine.seeds

namespace Machine
variable {machine : Machine} {uuid : String}

theorem undefine_undefined (machine : Machine) (uuid : String) : (machine.undefine uuid).Undefined uuid := by
  intro domain listed
  simpa using (List.mem_filter.mp listed).2

theorem answered_error {fault : Option CallFault} {context : String} {result : Except Error Machine}
    {error : Error} {after : Machine} (heard : fault ≠ some .unanswered)
    (failed : machine.answered fault context result = (.error error, after)) : after = machine := by
  unfold answered at failed
  split at failed
  next => cases failed
  next => cases failed; rfl
  next => exact absurd rfl heard
  next => cases failed; rfl
  next => cases failed; rfl

theorem undoDefine_undefined {fault : Option CallFault} (obeyed : fault ≠ some .refused)
    (stopped : ∀ domain ∈ machine.domains, domain.spec.uuid = uuid → domain.state = .stopped) :
    (machine.undoDefine fault uuid).Undefined uuid := by
  unfold undoDefine
  split
  next kept =>
    rcases kept with refused | ⟨domain, listed, same, running⟩
    · exact absurd refused obeyed
    · exact absurd (stopped domain listed same) running
  next => exact undefine_undefined machine uuid

theorem define_stopped {spec : DomainSpec} {defined : Machine} (absent : machine.Undefined spec.uuid)
    (made : machine.define spec = .ok defined) :
    ∀ domain ∈ defined.domains, domain.spec.uuid = spec.uuid → domain.state = .stopped := by
  intro domain listed same
  unfold define at made
  split at made
  next =>
    cases made
    rcases List.mem_append.mp listed with old | new
    · exact absurd same (absent domain old)
    · rw [List.mem_singleton.mp new]
  next =>
    split at made
    next =>
      cases made
      obtain ⟨old, known, rfl⟩ := List.mem_map.mp listed
      rw [if_neg (absent old known)] at same
      exact absurd same (absent old known)
    next => cases made

theorem create_undefined {spec : DomainSpec} {faults : CreateCall → Option CallFault} {error : Error} {after : Machine}
    (heard : ∀ call, faults call ≠ some .unanswered) (obeyed : faults .undefine ≠ some .refused)
    (absent : machine.Undefined spec.uuid) (failed : machine.create spec faults = (.error error, after)) :
    after.Undefined spec.uuid := by
  unfold create at failed
  split at failed
  next ended =>
    cases failed
    rw [answered_error (heard .define) ended]
    exact absent
  next defined ended =>
    have stopped := define_stopped absent (answered_ok ended).2
    split at failed
    next =>
      cases failed
      exact undoDefine_undefined obeyed stopped
    next =>
      split at failed
      next started =>
        cases failed
        rw [answered_error (heard .create) started]
        exact undoDefine_undefined obeyed stopped
      next => cases failed

theorem clean_withoutFiles (absent : machine.Undefined uuid) : (machine.withoutFiles uuid).Clean uuid where
  domain := absent
  overlay listed := by simpa using (List.mem_filter.mp listed).2
  seed listed := by simpa using (List.mem_filter.mp listed).2

theorem Clean.withOverlay_withoutOverlay (clean : machine.Clean uuid) :
    ((machine.withOverlay uuid).withoutOverlay uuid).Clean uuid where
  domain := clean.domain
  overlay listed := by simpa using (List.mem_filter.mp listed).2
  seed := clean.seed

end Machine

end Bento.Hypervisor

namespace Bento.Lifecycle
open Library.Programs.Program Library.Runs Store

/-- The runner can take its work back: its files can be deleted, a failing builder leaves
none, and libvirt has not defined or started a domain when it answers with an error, and
undefines one when it is told to. -/
structure Moment.Unwinds (moment : Moment) : Prop where
  deletes : moment.deletes = true
  unbuilt : moment.failing ≠ some (.overlay true)
  unseeded : moment.failing ≠ some (.seed true)
  heard : ∀ call, moment.libvirt call ≠ some .unanswered
  undefined : moment.libvirt .undefine ≠ some .refused

section
variable {machine after : Hypervisor.Machine} {moment : Moment} {spec : ProvisionSpec} {cause : Cause}

theorem finish_failed {unwind : Hypervisor.Machine → Hypervisor.Machine} (unwinds : moment.Unwinds)
    (absent : machine.Undefined spec.row.uuid)
    (failed : Machine.finish machine moment spec unwind = (.error cause, after)) :
    ∃ middle, after = unwind middle ∧ middle.Undefined spec.row.uuid := by
  unfold Machine.finish at failed
  split at failed
  next =>
    cases failed
    exact ⟨machine, rfl, absent⟩
  next xml rendered =>
    have same : xml.uuid = spec.row.uuid := by
      rw [← domainXml_ok rendered]
      rfl
    split at failed
    next =>
      split at failed
      next => cases failed
      next left created =>
        cases failed
        refine ⟨left, rfl, ?_⟩
        rw [← same] at absent ⊢
        exact Hypervisor.Machine.create_undefined unwinds.heard unwinds.undefined absent created
    next =>
      split at failed
      next => cases failed
      next left defined =>
        cases failed
        exact ⟨left, rfl, Hypervisor.Machine.answered_error (unwinds.heard .define) defined ▸ absent⟩

theorem provision_failed (unwinds : moment.Unwinds) (seeded : spec.withSeedIso = true)
    (clean : machine.Clean spec.row.uuid) (failed : Machine.provision machine moment spec = (.error cause, after)) :
    after.Clean spec.row.uuid := by
  -- Both files are removed after a failed definition.
  have finished {built : Hypervisor.Machine} (absent : built.Undefined spec.row.uuid)
      (ended : Machine.finish built moment spec (Machine.unwindProvision · moment spec) = (.error cause, after)) :
      after.Clean spec.row.uuid := by
    obtain ⟨middle, rfl, undefined⟩ := finish_failed unwinds absent ended
    rw [Machine.unwindProvision, if_pos seeded, Machine.removeFiles, if_pos unwinds.deletes]
    exact Hypervisor.Machine.clean_withoutFiles undefined
  unfold Machine.provision Machine.build at failed
  split at failed
  next leftover stopped =>
    have unbuilt : leftover = false := by
      cases leftover with
      | false => rfl
      | true => exact absurd stopped unwinds.unbuilt
    rw [unbuilt] at failed
    cases failed
    exact clean
  next leftover stopped =>
    have unbuilt : leftover = false := by
      cases leftover with
      | false => rfl
      | true => exact absurd stopped unwinds.unseeded
    rw [if_pos seeded, unbuilt] at failed
    cases failed
    change (Machine.removeOverlay (machine.withOverlay spec.row.uuid) moment.deletes spec.row.uuid).Clean spec.row.uuid
    rw [Machine.removeOverlay, if_pos unwinds.deletes]
    exact clean.withOverlay_withoutOverlay
  next =>
    rw [seeded] at failed
    have absent : (Machine.withFiles machine spec true).Undefined spec.row.uuid := clean.domain
    exact finished absent failed

end

def World.Clean (world : World) (uuid : String) : Prop := ∀ hostId, (world.machines hostId).Clean uuid

theorem World.Clean.setMachine {world : World} {uuid : String} {hostId : Int} {machine : Hypervisor.Machine}
    (clean : world.Clean uuid) (left : machine.Clean uuid) : (world.setMachine hostId machine).Clean uuid := by
  intro other
  change (Function.update world.machines hostId machine other).Clean uuid
  by_cases same : other = hostId
  · subst same
    rwa [Function.update_self]
  · rw [Function.update_of_ne same]
    exact clean other

theorem served_failed {manager : Manager} {moment : Moment} {world : World} {spec : ProvisionSpec} {cause : Cause}
    (elsewhere : spec.hostId ≠ manager.hostId) (seeded : spec.withSeedIso = true) (unwinds : moment.Unwinds)
    (recorded : ∀ cause, moment.fault ≠ some (.unanswered cause)) (clean : world.Clean spec.row.uuid)
    (failed : ((ManagerCall.provision spec).serve manager moment world).1 = .error cause) :
    ((ManagerCall.provision spec).serve manager moment world).2.Clean spec.row.uuid := by
  unfold ManagerCall.serve at failed ⊢
  split
  next calm =>
    rw [calm] at failed
    simp only [ManagerCall.perform, if_neg elsewhere, World.onMachine] at failed ⊢
    exact clean.setMachine (provision_failed unwinds seeded (clean spec.hostId) (Prod.ext failed rfl))
  next => exact clean
  next cause lost => exact absurd lost (recorded cause)

def ManagerCall.Shelved : ManagerCall → Prop
  | .store _ | .allocateInOwnedSlot _ _ => True
  | _ => False

theorem shelved_machines {call : ManagerCall} (shelved : call.Shelved) (manager : Manager)
    (moment : Moment) (world : World) :
    (call.serve manager moment world).2.machines = world.machines := by
  cases call with
  | store call => exact store_machines manager moment world call
  | allocateInOwnedSlot =>
    unfold ManagerCall.serve
    split <;> rfl
  | _ => cases shelved

theorem mint_serve (manager : Manager) (moment : Moment) (world : World) :
    (ManagerCall.mint.serve manager moment world).1.1 = moment.uuid ∧
      (ManagerCall.mint.serve manager moment world).2 = world := by
  unfold ManagerCall.serve
  split <;> exact ⟨rfl, rfl⟩

abbrev CreateProgram := ManagerProgram (Except Error Instance)

def Succeeds (program : CreateProgram) : Prop := program.Ensures ManagerCall.Shelved fun result => result.isOk = true

structure Awaits (next : Except Cause PowerState → CreateProgram) : Prop where
  ok : ∀ state, Succeeds (next (.ok state))
  error : ∀ cause, (next (.error cause)).Only ManagerCall.Shelved

def provisioning (uuid : String) : (call : ManagerCall) → (call.Answer → CreateProgram) → Prop
  | .provision spec, next => spec.row.uuid = uuid ∧ spec.withSeedIso = true ∧ Awaits next
  | _, _ => False

def minting : (call : ManagerCall) → (call.Answer → CreateProgram) → Prop
  | .mint, next => ∀ answer, (next answer).Until ManagerCall.Shelved (provisioning answer.1)
  | _, _ => False

section
variable (manager : Manager)

theorem unwindNew_shelved {α : Type} (row : Instance) (cause : String) :
    (manager.unwindNew row cause : ManagerM α).run.Only ManagerCall.Shelved := by
  refine only_except (only_answered trivial) fun answer => ?_
  cases answer with
  | ok | error => exact only_pure

theorem finishNew_provisions (row : Instance) (owner : User) (subnet : Network.Ipv4Prefix)
    (address : Network.Ipv4Addr) :
    (manager.finishNew row owner subnet address).run.Until ManagerCall.Shelved (provisioning row.uuid) := by
  unfold Manager.finishNew
  split
  next => exact until_only (unwindNew_shelved manager row _)
  next =>
    split
    next => exact until_only (unwindNew_shelved manager row _)
    next network _ =>
      refine .inl ⟨rfl, rfl, fun state => ?_, fun cause => unwindNew_shelved manager row _⟩
      exact ⟨trivial, fun answer => rfl⟩

theorem create_mints (mac : String → String) (new : Manager.NewRequest) :
    (manager.create mac new).run.Until ManagerCall.Shelved minting := by
  have stores (body : StoreCall) (_ : body.Reads) : (ManagerCall.store body).Shelved := trivial
  refine until_bind_except (only_pure) fun _ => ?_
  refine until_bind_except (only_currentVersion stores new) fun checksum => ?_
  refine until_bind_except (only_pure) fun subnet => ?_
  refine until_bind_except (only_place stores new) fun hostId => ?_
  refine until_bind_except (only_checked (only_ask trivial)) fun place => ?_
  refine .inl fun minted => ?_
  refine until_bind_except (only_stored trivial) fun capacity => ?_
  refine until_bind_except (only_stored trivial) fun _ => ?_
  exact finishNew_provisions manager (new.row mac hostId new.imageName checksum minted.1 minted.2 place.1 place.2)
    new.owner subnet place.1

end

/-- When a step leaves nothing behind: the uuid is new where it is drawn, the runner can take
back its work and record it, and the controller gives up on a request only when the runner
never got it or has answered it with an error. -/
def Creation.Permits (creation : Creation) : CreateEvent → Prop
  | .call moment => creation.program.waiting = some .mint → creation.world.Clean moment.uuid
  | .work moment => moment.Unwinds ∧ ∀ cause, moment.fault ≠ some (.unanswered cause)
  | .giveUp _ => creation.link = .lost ∨ ∃ cause, creation.link = .replied (.error cause)
  | .others world => ∀ uuid, creation.minted = some uuid → creation.world.Clean uuid → world.Clean uuid
  | .send | .lose | .reply | .cut _ => True

inductive Creation.Sound (manager : Manager) : Creation → Prop where
  | preparing {world : World} {program : CreateProgram} (before : program.Until ManagerCall.Shelved minting) :
      Sound manager ⟨world, none, .idle, program⟩
  | placing {world : World} {uuid : String} {program : CreateProgram} (clean : world.Clean uuid)
      (before : program.Until ManagerCall.Shelved (provisioning uuid)) :
      Sound manager ⟨world, some uuid, .idle, program⟩
  | sent {world : World} {spec : ProvisionSpec} {next : Except Cause PowerState → CreateProgram}
      (elsewhere : spec.hostId ≠ manager.hostId)
      (seeded : spec.withSeedIso = true) (clean : world.Clean spec.row.uuid) (awaits : Awaits next) :
      Sound manager ⟨world, some spec.row.uuid, .sent spec, .request (.provision spec) next⟩
  | lost {world : World} {uuid : String} {spec : ProvisionSpec} {next : Except Cause PowerState → CreateProgram}
      (clean : world.Clean uuid) (awaits : Awaits next) :
      Sound manager ⟨world, some uuid, .lost, .request (.provision spec) next⟩
  | replied {world : World} {uuid : String} {spec : ProvisionSpec} {next : Except Cause PowerState → CreateProgram}
      {result : Except Cause PowerState} (clean : ∀ cause, result = .error cause → world.Clean uuid)
      (awaits : Awaits next) :
      Sound manager ⟨world, some uuid, .replied result, .request (.provision spec) next⟩
  | built {world : World} {uuid : String} {program : CreateProgram} (succeeds : Succeeds program) :
      Sound manager ⟨world, some uuid, .closed, program⟩
  | unwinding {world : World} {uuid : String} {program : CreateProgram} (clean : world.Clean uuid)
      (only : program.Only ManagerCall.Shelved) : Sound manager ⟨world, some uuid, .closed, program⟩

section
variable {manager : Manager} {creation next : Creation} {event : CreateEvent}

theorem call_cases {moment : Moment} (moved : creation.step manager (.call moment) = some next) :
    ∃ call rest, creation.program = .request call rest ∧ (∀ spec, call ≠ .provision spec) ∧ next = { creation with
        world := (call.serve manager moment creation.world).2
        minted := if call = .mint then some moment.uuid else creation.minted
        program := rest (call.serve manager moment creation.world).1 } := by
  simp only [Creation.step] at moved
  split at moved
  next => cases moved
  next => cases moved
  next call rest other waits =>
    cases moved
    refine ⟨call, rest, waits, fun spec same => ?_, rfl⟩
    subst same
    exact other spec rest rfl HEq.rfl

theorem send_cases (moved : creation.step manager .send = some next) :
    ∃ spec rest, creation.link = .idle ∧ creation.program = .request (.provision spec) rest ∧
      spec.hostId ≠ manager.hostId ∧
      next = { creation with link := .sent spec } := by
  simp only [Creation.step] at moved
  split at moved
  next spec rest idle waits =>
    split at moved
    next => cases moved
    next elsewhere =>
      cases moved
      exact ⟨spec, rest, idle, waits, elsewhere, rfl⟩
  next => cases moved

theorem Creation.Sound.call {moment : Moment} (sound : creation.Sound manager)
    (permits : creation.Permits (.call moment)) (moved : creation.step manager (.call moment) = some next) :
    next.Sound manager := by
  obtain ⟨call, rest, waits, other, rfl⟩ := call_cases moved
  have shelved_clean {uuid : String} {world : World} (shelved : call.Shelved) (clean : world.Clean uuid) :
      (call.serve manager moment world).2.Clean uuid := by
    intro hostId
    rw [shelved_machines shelved]
    exact clean hostId
  have unminted (shelved : call.Shelved) : call ≠ .mint := fun same => by rw [same] at shelved; exact shelved
  cases sound with
  | @preparing world _ before =>
    cases waits
    rcases before with mints | ⟨shelved, later⟩
    · cases call with
      | mint =>
        obtain ⟨drawn, same⟩ := mint_serve manager moment world
        rw [if_pos rfl, same]
        exact .placing (permits rfl) (drawn ▸ mints _)
      | _ => cases mints
    · simp only [if_neg (unminted shelved)]
      exact .preparing (later _)
  | placing clean before =>
    cases waits
    rcases before with provisions | ⟨shelved, later⟩
    · cases call with
      | provision spec => exact absurd rfl (other spec)
      | _ => cases provisions
    · simp only [if_neg (unminted shelved)]
      exact .placing (shelved_clean shelved clean) (later _)
  | sent | lost | replied =>
    cases waits
    exact absurd rfl (other _)
  | built succeeds =>
    cases waits
    simp only [if_neg (unminted succeeds.1)]
    exact .built (succeeds.2 _)
  | unwinding clean only =>
    cases waits
    simp only [if_neg (unminted only.1)]
    exact .unwinding (shelved_clean only.1 clean) (only.2 _)

theorem Creation.Sound.step (sound : creation.Sound manager) (permits : creation.Permits event)
    (moved : creation.step manager event = some next) : next.Sound manager := by
  cases event with
  | call => exact sound.call permits moved
  | others =>
    cases moved
    cases sound with
    | preparing before => exact .preparing before
    | placing clean before => exact .placing (permits _ rfl clean) before
    | sent elsewhere seeded clean awaits => exact .sent elsewhere seeded (permits _ rfl clean) awaits
    | lost clean awaits => exact .lost (permits _ rfl clean) awaits
    | replied clean awaits => exact .replied (fun cause failed => permits _ rfl (clean cause failed)) awaits
    | built succeeds => exact .built succeeds
    | unwinding clean only => exact .unwinding (permits _ rfl clean) only
  | send =>
    obtain ⟨spec, rest, idle, waits, elsewhere, rfl⟩ := send_cases moved
    cases sound with
    | preparing before =>
      cases waits
      rcases before with mints | ⟨shelved, -⟩
      · cases mints
      · cases shelved
    | placing clean before =>
      cases waits
      rcases before with ⟨rfl, seeded, awaits⟩ | ⟨shelved, -⟩
      · exact .sent elsewhere seeded clean awaits
      · cases shelved
    | _ => cases idle
  | lose =>
    cases sound with
    | sent elsewhere seeded clean awaits =>
      cases moved
      exact .lost clean awaits
    | _ => cases moved
  | work =>
    obtain ⟨unwinds, recorded⟩ := permits
    cases sound with
    | sent elsewhere seeded clean awaits =>
      cases moved
      exact .replied (fun cause failed => served_failed elsewhere seeded unwinds recorded clean failed) awaits
    | _ => cases moved
  | reply =>
    cases sound with
    | @replied _ _ _ _ result clean awaits =>
      cases moved
      cases result with
      | ok state => exact .built (awaits.ok state)
      | error cause => exact .unwinding (clean cause rfl) (awaits.error cause)
    | _ => cases moved
  | giveUp cause =>
    cases sound with
    | sent => rcases permits with same | ⟨_, same⟩ <;> cases same
    | lost clean awaits =>
      cases moved
      exact .unwinding clean (awaits.error cause)
    | replied clean awaits =>
      rcases permits with same | ⟨failure, same⟩
      · cases same
      · cases same
        cases moved
        exact .unwinding (clean failure rfl) (awaits.error cause)
    | _ => cases moved
  -- The controller has not left the runner behind in any of these states.
  | cut seeded => cases sound <;> cases moved

/-- If the create failed and the runner has finished, then nothing of the instance is left,
or its row is still there. -/
def Creation.LeavesNoOrphan (creation : Creation) : Prop :=
  ∀ uuid error, creation.minted = some uuid → creation.program.ended = some (.error error) →
    creation.link.settled = true →
    creation.world.Clean uuid ∨ ∃ row ∈ creation.world.fleet.instances, row.uuid = uuid

theorem Creation.Sound.leavesNoOrphan (sound : creation.Sound manager) : creation.LeavesNoOrphan := by
  intro uuid error minted ended settled
  have returned := ended_eq_some.mp ended
  cases sound with
  | preparing => cases minted
  | placing clean | unwinding clean =>
    cases minted
    exact .inl clean
  | built succeeds =>
    cases returned
    cases succeeds
  | _ => cases settled

end

/-- In every run whose steps are all permitted, in every order of the controller's and the
runner's work, a failed create leaves nothing behind. -/
theorem failed_creates_leave_nothing (manager : Manager) (mac : String → String)
    (new : Manager.NewRequest) (world : World) (events : List CreateEvent) (final : Creation)
    (ran : exec (Creation.step · manager) (Creation.begin manager mac new world) events = some final)
    (permitted : Obeys (Creation.step · manager) Creation.Permits (Creation.begin manager mac new world) events) :
    final.LeavesNoOrphan := by
  have sound : final.Sound manager := by
    apply Library.Runs.invariant (fun _ _ _ permits moved sound => ?_) ran permitted
    · exact .preparing (create_mints manager mac new)
    · exact sound.step permits moved
  exact sound.leavesNoOrphan

def remoteRequest : Manager.NewRequest where
  name := "web"
  owner := ⟨1, "alice", "10.100.0.0/24".toList⟩
  hostId := 2
  imageName := "debian"
  vcpu := 1
  memoryMib := 512
  diskGib := 10
  nested := false
  disableKsm := false
  httpPort := 80

def emptyWorld : World := ⟨{ smallFleet [] with slots := [⟨0, .active, 2, 0, none, none, none⟩] }, fun _ => .empty⟩

def remoteCreation : Creation := .begin exampleManager (fun _ => "52:54:00:00:5a:c1") remoteRequest emptyWorld

def remoteEvents (served : Moment) (ending : CreateEvent) : List CreateEvent :=
  List.replicate 8 (.call calm) ++ [.send, .work served, ending, .call calm]

def unstarted : Moment := { calm with libvirt := fun call => if call = .create then some .refused else none }

def unstartedEvents : List CreateEvent := remoteEvents unstarted .reply

def unheardEvents : List CreateEvent :=
  remoteEvents calm (.giveUp (.machine "runner request timed out after 300 seconds"))

def Creation.summary (creation : Creation) : Bool × Bool × Option String × List String × Hypervisor.Machine :=
  (creation.program.ended.any fun result => !result.isOk, creation.link.settled, creation.minted,
    creation.world.fleet.instances.map Instance.uuid, creation.world.machines 2)

theorem unstarted_ends : (exec (Creation.step · exampleManager) remoteCreation unstartedEvents).map Creation.summary =
    some (true, true, some "5ac1", [], .empty) := by
  decide +kernel

theorem unstarted_permitted :
    Obeys (Creation.step · exampleManager) Creation.Permits remoteCreation unstartedEvents := by
  have fresh : emptyWorld.Clean "5ac1" := fun hostId => ⟨nofun, nofun, nofun⟩
  have unwinds : unstarted.Unwinds := ⟨rfl, nofun, nofun, fun call => by cases call <;> decide, by decide⟩
  -- Only the sixth call draws a uuid.
  refine And.intro nofun (And.intro nofun (And.intro nofun (And.intro nofun (And.intro nofun (And.intro (fun _ => fresh)
    ?_)))))
  exact And.intro nofun (And.intro nofun (And.intro trivial (And.intro ⟨unwinds, nofun⟩
    (And.intro trivial (And.intro nofun trivial)))))

theorem failed_creates_leave_nothing_unstarted : ∃ final,
    exec (Creation.step · exampleManager) remoteCreation unstartedEvents = some final ∧
      final.summary = (true, true, some "5ac1", [], .empty) ∧
      final.LeavesNoOrphan := by
  obtain ⟨final, ran, ends⟩ := Option.map_eq_some_iff.mp unstarted_ends
  exact ⟨final, ran, ends, failed_creates_leave_nothing exampleManager _ remoteRequest emptyWorld unstartedEvents final
    ran unstarted_permitted⟩

/-- The reply is lost: the row is gone, and the runner keeps the domain and its files. -/
theorem failed_create_leaves_orphan : ∃ final,
    exec (Creation.step · exampleManager) remoteCreation unheardEvents = some final ∧ ¬ final.LeavesNoOrphan := by
  have ends : (exec (Creation.step · exampleManager) remoteCreation unheardEvents).map
      (fun final => (final.summary.1, final.summary.2.1, final.summary.2.2.1, final.summary.2.2.2.1,
        final.summary.2.2.2.2.overlays)) =
      some (true, true, some "5ac1", [], ["5ac1"]) := by
    decide +kernel
  obtain ⟨final, ran, shown⟩ := Option.map_eq_some_iff.mp ends
  simp only [Creation.summary, Prod.mk.injEq] at shown
  obtain ⟨failed, settled, minted, rows, overlays⟩ := shown
  refine ⟨final, ran, fun tidy => ?_⟩
  rw [Option.any_eq_true] at failed
  obtain ⟨result, ended, isError⟩ := failed
  cases result with
  | ok => cases isError
  | error error =>
    rcases tidy "5ac1" error minted ended settled with clean | ⟨row, listed, same⟩
    · apply (clean 2).overlay
      rw [overlays]
      exact List.mem_singleton_self _
    · have listedUuid : "5ac1" ∈ final.world.fleet.instances.map Instance.uuid := List.mem_map.mpr ⟨row, listed, same⟩
      rw [rows] at listedUuid
      cases listedUuid

end Bento.Lifecycle
