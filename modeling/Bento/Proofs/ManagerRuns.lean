import Bento.Proofs.ManagerEffects

/-! Whole runs of the manager's actions, with the moments that serve them. A run of an action
is taken apart into the runs of its calls, and the calls that it makes are of the kinds
listed here. -/

namespace Bento.Lifecycle
open Hypervisor Library.Programs Library.Programs.Program Library.Results Network Store
open Runner (InstanceRef)

/-- A run of an action by itself: one moment for each call, each call as the rule allows. -/
abbrev Manager.Ran {α : Type} (manager : Manager) (rule : Moment → ManagerCall → Prop) (program : ManagerProgram α)
    (moments : List Moment) (world : World) (result : α) (after : World) : Prop :=
  Program.Ran (fun moment call => ManagerCall.serve manager moment call) rule program moments world result after

section
variable {α : Type} {manager : Manager} {rule : Moment → ManagerCall → Prop} {moments : List Moment}
  {world after : World}

variable {call : ManagerCall} {value : α} {error : Error}

theorem ran_asked {answer : call.Answer} (ran : manager.Ran rule (ask call) moments world answer after) :
    ∃ moment, moments = [moment] ∧ rule moment call ∧ (call.serve manager moment world).1 = answer ∧
      (call.serve manager moment world).2 = after :=
  ran_ask.mp ran

theorem ran_answered {result : Except Error call.Answer}
    (ran : manager.Ran rule (answered call).run moments world result after) :
    ∃ moment, moments = [moment] ∧ rule moment call ∧ result = .ok (call.serve manager moment world).1 ∧
      after = (call.serve manager moment world).2 := by
  obtain ⟨answer, rfl, asked⟩ := ran_lift.mp ran
  obtain ⟨moment, rfl, allowed, rfl, rfl⟩ := ran_asked asked
  exact ⟨moment, rfl, allowed, rfl, rfl⟩

theorem ran_return : ¬ manager.Ran rule (pure value : ManagerM α).run moments world (.error error) after := by
  intro ran
  obtain ⟨-, impossible, -⟩ := ran_pure.mp ran
  cases impossible

theorem ran_throw : ¬ manager.Ran rule (throw error : ManagerM α).run moments world (.ok value) after := by
  intro ran
  obtain ⟨-, impossible, -⟩ := ran_pure.mp ran
  cases impossible

theorem ran_answered_return {next : call.Answer → α} :
    ¬ manager.Ran rule (answered call >>= fun answer => pure (next answer) : ManagerM α).run moments world
      (.error error) after := by
  intro ran
  rcases ran_bind_error ran with failed | ⟨_, _, _, _, -, -, ended⟩
  · obtain ⟨_, impossible, -⟩ := ran_lift.mp failed
    cases impossible
  · exact ran_return ended

theorem ran_checked {δ : Type} {program : ManagerProgram (Except δ α)} {describe : δ → Error} {result : Except Error α}
    (ran : manager.Ran rule (checked program describe).run moments world result after) :
    ∃ inner, result = inner.mapError describe ∧ manager.Ran rule program moments world inner after := by
  obtain ⟨first, rest, inner, middle, rfl, begun, finished⟩ := ran_bind.mp ran
  obtain ⟨rfl, rfl, rfl⟩ := ran_pure.mp finished
  exact ⟨inner, rfl, (List.append_nil first).symm ▸ begun⟩

theorem ran_checked_ok {δ : Type} {program : ManagerProgram (Except δ α)} {describe : δ → Error}
    (ran : manager.Ran rule (checked program describe).run moments world (.ok value) after) :
    manager.Ran rule program moments world (.ok value) after := by
  obtain ⟨inner, same, begun⟩ := ran_checked ran
  cases inner with
  | ok =>
    cases same
    exact begun
  | error => cases same

theorem ran_stored_ok {call : StoreCall} {value : call.Reply}
    (ran : manager.Ran rule (stored call).run moments world (.ok value) after) :
    ∃ moment, moments = [moment] ∧ rule moment (.store call) ∧
      ((ManagerCall.store call).serve manager moment world).1 = .ok value ∧
      ((ManagerCall.store call).serve manager moment world).2 = after :=
  ran_asked (ran_checked_ok ran)

theorem ran_hypFor {row : Instance} {reach : Reach}
    (ran : manager.Ran rule (manager.hypFor row).run moments world (.ok reach) after) :
    after = world ∧ (row.hostId = manager.hostId ∧ reach = .here ∨ row.hostId ≠ manager.hostId ∧
      reach = .there row.hostId) := by
  unfold Manager.hypFor at ran
  split at ran
  next here =>
    obtain ⟨-, found, rfl⟩ := ran_pure.mp ran
    cases found
    exact ⟨rfl, .inl ⟨here, rfl⟩⟩
  next there =>
    obtain ⟨moment, rest, -, -, ended⟩ := ran_request.mp ran
    obtain ⟨-, found, same⟩ := ran_pure.mp ended
    rw [hypervisor_serve] at same
    split at found
    next =>
      cases found
      exact ⟨same, .inr ⟨there, rfl⟩⟩
    next => cases found

end

section
variable {α β : Type} {kind : ManagerCall → Prop}

/-- The condition on a result, where there is one. -/
def succeeding {ε : Type} (post : α → Prop) : Except ε α → Prop
  | .ok value => post value
  | .error _ => True

theorem only_succeeds {ε : Type} {program : ManagerProgram (Except ε α)} (only : program.Only kind) :
    program.Ensures kind (succeeding fun _ => True) := by
  refine only.mono fun result _ => ?_
  cases result with
  | ok => trivial
  | error => trivial

theorem ensures_lift {program : ManagerProgram α} {post : α → Prop} (ensures : program.Ensures kind post) :
    (ExceptT.lift program : ManagerM α).run.Ensures kind (succeeding post) :=
  ensures_bind ensures fun _ holds => holds

variable {step : ManagerM α} {next : α → ManagerM β}

theorem ensures_except {middle : α → Prop} {post : β → Prop}
    (first : step.run.Ensures kind (succeeding middle))
    (rest : ∀ value, middle value → (next value).run.Ensures kind (succeeding post)) :
    (step >>= next).run.Ensures kind (succeeding post) := by
  refine ensures_bind first fun result holds => ?_
  cases result with
  | ok value => exact rest value holds
  | error => trivial

theorem only_lift {program : ManagerProgram α} (only : program.Only kind) :
    (ExceptT.lift program : ManagerM α).run.Only kind :=
  only_bind only fun _ => trivial

theorem only_answered {call : ManagerCall} (allowed : kind call) :
    (answered call).run.Only kind := only_lift (only_ask allowed)

theorem only_checked {δ : Type} {program : ManagerProgram (Except δ α)} {describe : δ → Error}
    (only : program.Only kind) :
    (checked program describe).run.Only kind := only_bind only fun _ => trivial

theorem only_stored {call : StoreCall} (allowed : kind (.store call)) :
    (stored call).run.Only kind := only_checked (only_ask allowed)

theorem only_except (first : step.run.Only kind) (rest : ∀ value, (next value).run.Only kind) :
    (step >>= next).run.Only kind := by
  refine only_bind first fun result => ?_
  cases result with
  | ok value => exact rest value
  | error => trivial

theorem only_given {middle : α → Prop} (first : step.run.Ensures kind (succeeding middle))
    (rest : ∀ value, middle value → (next value).run.Only kind) : (step >>= next).run.Only kind := by
  refine ensures_bind first fun result holds => ?_
  cases result with
  | ok value => exact rest value holds
  | error => trivial

section
variable {manager : Manager} {row : Instance}

/-- An action reaches the client of its own machine directly and others through their runner. -/
theorem ensures_hypFor (allowed : kind (.hypervisor row.hostId)) : (manager.hypFor row).run.Ensures kind
    (succeeding fun reach => row.hostId = manager.hostId ∧ reach = .here ∨ row.hostId ≠ manager.hostId ∧
      reach = .there row.hostId) := by
  unfold Manager.hypFor
  split
  next here => exact ensures_pure (.inl ⟨here, rfl⟩)
  next there =>
    refine ⟨allowed, fun reached => ?_⟩
    cases reached with
    | true => exact .inr ⟨there, rfl⟩
    | false => trivial

theorem only_owner (allowed : kind (.store (.userById row.ownerId))) :
    (manager.owner row).run.Only kind := only_checked (only_ask allowed)

theorem written_domainXml {owner : User} {withIso : Bool} {xml : DomainSpec}
    (written : manager.domainXml row owner withIso = .ok xml) :
    ∃ network, xml = domainSpec row network withIso := by
  obtain ⟨network, -, rendered⟩ := bind_ok.mp written
  cases result : Hypervisor.domainXml (domainSpec row network withIso) with
  | error =>
    rw [result] at rendered
    cases rendered
  | ok =>
    rw [result] at rendered
    cases rendered
    exact ⟨network, (domainXml_ok result).symm⟩

theorem ensures_domainXmlByUuid (withIso : Bool) (allowed : kind (.store (.userById row.ownerId))) :
    (manager.domainXmlByUuid row withIso).run.Ensures kind
      (succeeding fun xml => ∃ network, xml = domainSpec row network withIso) := by
  refine ensures_bind (only_owner allowed) fun owner _ => ?_
  cases owner with
  | error => trivial
  | ok owner =>
    refine ensures_pure ?_
    cases written : manager.domainXml row owner withIso with
    | error => trivial
    | ok => exact written_domainXml written

theorem only_domainAction {action : DomainAction} {word : String}
    (here : row.hostId = manager.hostId → kind (.act action row.name)) (asked : kind (.hypervisor row.hostId))
    (looked : kind (.inventory row.hostId))
    (changed : row.hostId ≠ manager.hostId → ∀ uuid, kind (.change row.hostId action ⟨uuid, row.name⟩)) :
    (manager.domainAction action word row).run.Only kind := by
  refine only_given (ensures_hypFor asked) fun reach found => only_checked ?_
  rcases found with ⟨same, rfl⟩ | ⟨remote, rfl⟩
  · exact only_ask (here same)
  · refine only_bind (only_ask looked) fun answer => ?_
    cases answer with
    | error => exact only_pure
    | ok =>
      dsimp only
      unfold actThrough
      split
      next => exact only_pure
      next => exact only_bind (only_ask (changed remote _)) fun _ => only_pure

theorem only_growDisk {request : ResizeRequest} (here : kind (.resizeOverlay row.uuid request.diskGib))
    (there : kind (.resizeDisk row.hostId row request.diskGib)) : (manager.growDisk request row).run.Only kind := by
  unfold Manager.growDisk
  split
  next => exact only_pure
  next =>
    split
    next => exact only_checked (only_ask here)
    next => exact only_checked (only_ask there)

theorem only_redefineElsewhere {previousName : Option String} (owned : kind (.store (.userById row.ownerId)))
    (there : ∀ network, kind (.redefine ⟨row.hostId, row, network, previousName⟩)) :
    (manager.redefineElsewhere row previousName).run.Only kind := by
  refine only_except (only_owner owned) fun owner => ?_
  refine only_except only_pure fun network => ?_
  exact only_checked (only_ask (there network))

theorem only_redefine (owned : kind (.store (.userById row.ownerId)))
    (there : ∀ network, kind (.redefine ⟨row.hostId, row, network, none⟩)) (looked : kind (.isoExists row.uuid))
    (here : ∀ network withIso, kind (.define (domainSpec row network withIso))) :
    (manager.redefine row).run.Only kind := by
  unfold Manager.redefine
  split
  next => exact only_except (only_redefineElsewhere owned there) fun _ => only_pure
  next =>
    split
    next =>
      refine only_except (only_answered looked) fun withIso => ?_
      refine only_given (ensures_domainXmlByUuid withIso owned) fun xml written => ?_
      obtain ⟨network, rfl⟩ := written
      exact only_checked (only_ask (here network withIso))
    next => exact only_pure

theorem only_state (name : String) {reach : Reach} (here : reach = .here → kind (.state name))
    (there : ∀ hostId, reach = .there hostId → kind (.inventory hostId)) : (reach.state name).Only kind := by
  cases reach with
  | here => exact only_ask (here rfl)
  | there hostId =>
    refine only_bind (only_ask (there hostId rfl)) fun answer => ?_
    cases answer with
    | error => exact only_pure
    | ok =>
      dsimp only
      split
      next => exact only_pure
      next => exact only_pure

section
variable (stores : ∀ body : StoreCall, body.Reads → kind (.store body)) (new : Manager.NewRequest)
include stores

theorem only_currentVersion : (manager.currentVersion new).run.Only kind := by
  refine only_except (only_checked (only_ask (stores _ trivial))) fun current => ?_
  split
  next => exact only_pure
  next =>
    refine only_except (only_stored (stores _ trivial)) fun missing => ?_
    split
    next => exact only_pure
    next => exact only_except (only_checked (only_ask (stores _ trivial))) fun _ => only_pure

theorem only_place : (Manager.place new).run.Only kind := by
  refine only_except (only_stored (stores _ trivial)) fun placeable => ?_
  split
  next => exact only_pure
  next => exact only_stored (stores _ trivial)

end

end

end

theorem ran_reads {α : Type} {manager : Manager} {rule : Moment → ManagerCall → Prop} {program : ManagerProgram α}
    {moments : List Moment} {world after : World} {value : α} (reads : program.Only ManagerCall.Reads)
    (ran : manager.Ran rule program moments world value after) :
    after.fleet = world.fleet := by
  apply reads.invariant (fun later => later.fleet = world.fleet) (fun moment call state kind same => ?_) ran rfl
  rw [serve_reads kind, same]

/-- What an action reads first changes no row, so a write that is seen in its run comes later. -/
theorem ran_past_reads {α β : Type} {manager : Manager} {rule : Moment → ManagerCall → Prop} {moments : List Moment}
    {world after : World} {seen : (call : ManagerCall) → call.Answer → Prop} {step : ManagerM β} {next : β → ManagerM α}
    {result : Except Error α} (reads : step.run.Only ManagerCall.Reads)
    (writes : ∀ call answer, call.Reads → ¬ seen call answer)
    (ran : manager.Ran rule (step >>= next).run moments world result after)
    (sees : (step >>= next).run.Sees (fun moment call => ManagerCall.serve manager moment call) seen moments world) :
    ∃ first rest value middle, moments = first ++ rest ∧ middle.fleet = world.fleet ∧
      manager.Ran rule step.run first world (.ok value) middle ∧
      manager.Ran rule (next value).run rest middle result after ∧
      (next value).run.Sees (fun moment call => ManagerCall.serve manager moment call) seen rest middle := by
  obtain ⟨first, rest, value, middle, same, begun, ended, later⟩ := ran_past (fun _ => reads.unseen writes) ran sees
  exact ⟨first, rest, value, middle, same, ran_reads reads begun, begun, ended, later⟩

theorem reads_allocate (hostId : Int) (subnet : Ipv4Prefix) :
    (Manager.allocate hostId subnet).run.Only ManagerCall.Reads :=
  only_checked (only_ask trivial)

theorem reads_mint : (answered .mint).run.Only ManagerCall.Reads := only_answered trivial

theorem reads_hostCapacity (hostId : Int) : (stored (.hostCapacity hostId)).run.Only ManagerCall.Reads :=
  only_stored trivial

end Bento.Lifecycle
