import Bento.Bentod.NetworkSync
import Bento.Proofs.DispatchRuns

/-! Whether a sync that succeeds leaves the machine with the network of the database. The
digest that the controller remembers speaks of what a machine acknowledged; a request that
changed the machine and was not acknowledged makes it speak of the past. -/

namespace Bento.Bentod
open Network Runner Store Library.Runs Function

variable {codec : Codec} {settings : Settings}

def Codec.Faithful (codec : Codec) : Prop :=
  ∀ first last firstText lastText, codec.network first = .ok firstText → codec.network last = .ok lastText →
    digestOf codec firstText = digestOf codec lastText → first = last

theorem planned_ok {fleet : Fleet} {hostId : Int} {network : MachineNetwork}
    (planned : settings.planned fleet hostId = .ok network) : network = settings.network fleet hostId := by
  unfold Settings.planned at planned
  split at planned
  · cases planned
    rfl
  · cases planned

variable {rows after : Generations}

theorem dispatch_bind_ok {α β : Type} {step : DispatchM α} {next : α → DispatchM β}
    {value : β} (ran : (step >>= next).run.run rows = (.ok value, after)) :
    ∃ middle between, step.run.run rows = (.ok middle, between) ∧
      (next middle).run.run between = (.ok value, after) := by
  rw [run_bind] at ran
  split at ran
  next middle between reached => exact ⟨middle, between, reached, ran⟩
  next => cases ran

theorem fallible_ok {α : Type} {result : Except String α} {value : α}
    (ran : (fallible result).run.run rows = (.ok value, after)) : result = .ok value := by
  cases result with
  | error => cases ran
  | ok =>
    cases ran
    rfl

theorem objectFence_ok {objectId digest : String} {epoch : Int} {object : ObjectFence}
    (ran : (objectFence objectId digest epoch).run.run rows = (.ok object, after)) : object.digest = digest := by
  simp only [objectFence, ExceptT.run_mk, StateT.run] at ran
  split at ran
  · cases ran
    rfl
  · cases ran

theorem syncHost_ok {sending : Sending} {plan : Except String MachineNetwork} {applied : Option String}
    {sent : Option Envelope} (ran : (NetworkSync.syncHost codec sending plan applied).run.run
      rows = (.ok sent, after)) :
    ∃ network text, plan = .ok network ∧ codec.network network = .ok text ∧
      (applied = some (digestOf codec text) ∧ sent = none ∨
        ∃ object : ObjectFence, object.digest = digestOf codec text ∧
          sent = some (send sending (.applyNetwork network) (some object))) := by
  obtain ⟨_, _, -, ran⟩ := dispatch_bind_ok ran
  obtain ⟨network, _, planned, ran⟩ := dispatch_bind_ok ran
  obtain ⟨text, _, coded, ran⟩ := dispatch_bind_ok ran
  refine ⟨network, text, fallible_ok planned, fallible_ok coded, ?_⟩
  dsimp only at ran
  split at ran
  next remembered =>
    cases ran
    exact .inl ⟨remembered, rfl⟩
  next =>
    obtain ⟨object, _, taken, ran⟩ := dispatch_bind_ok ran
    obtain ⟨_, _, -, ran⟩ := dispatch_bind_ok ran
    cases ran
    exact .inr ⟨object, objectFence_ok taken, rfl⟩

inductive Synced (codec : Codec) (settings : Settings) (state : Deployed) (hostId : Int) (delivery : Delivery) :
    Except DispatchError Unit → Deployed → Prop where
  | fails (error : DispatchError) (rows : Generations) :
      Synced codec settings state hostId delivery (.error error) { state with rows }
  | skips (text : String) (rows : Generations) (coded : codec.network (settings.network state.fleet hostId) = .ok text)
      (remembered : state.memory.applied hostId = some (digestOf codec text)) :
      Synced codec settings state hostId delivery (.ok ()) { state with rows }
  | breaks (error : DispatchError) (rows : Generations) (complete : Bool)
      (unacknowledged : (∃ error, delivery = .broken error) ∨ ∃ error, delivery = .unanswered error) :
      Synced codec settings state hostId delivery (.error error) { state with
        rows
        machines := Function.update state.machines hostId
          ((state.machines hostId).install complete (.applyNetwork (settings.network state.fleet hostId))) }
  | applies (text : String) (rows : Generations)
      (coded : codec.network (settings.network state.fleet hostId) = .ok text) :
      Synced codec settings state hostId delivery (.ok ()) { state with
        rows
        memory := { state.memory with
          applied := Function.update state.memory.applied hostId (some (digestOf codec text)) }
        machines := Function.update state.machines hostId
          ((state.machines hostId).install true (.applyNetwork (settings.network state.fleet hostId))) }

theorem syncHost_synced (codec : Codec) (settings : Settings) (state : Deployed) (sending : Sending)
    (delivery : Delivery) :
    Synced codec settings state sending.host.id delivery (state.syncHost codec settings sending delivery).1
      (state.syncHost codec settings sending delivery).2 := by
  simp only [Deployed.syncHost]
  generalize ran : (NetworkSync.syncHost codec sending (settings.planned state.fleet sending.host.id)
    (state.memory.applied sending.host.id)).run.run state.rows = dispatched
  obtain ⟨result, rows⟩ := dispatched
  cases result with
  | error error => exact .fails error rows
  | ok =>
    obtain ⟨network, text, plan, coded, kept⟩ := syncHost_ok ran
    cases planned_ok plan
    obtain ⟨remembered, rfl⟩ | ⟨object, same, rfl⟩ := kept
    · exact .skips text rows coded remembered
    · cases delivery with
      | unserved =>
        simp only [Delivery.serve, Deployed.acknowledge, update_eq_self]
        exact .fails _ rows
      | broken error => exact .breaks _ rows false (.inl ⟨error, rfl⟩)
      | unanswered error => exact .breaks _ rows true (.inr ⟨error, rfl⟩)
      | answered =>
        simp only [Delivery.serve, Deployed.acknowledge, send, Option.map_some, same]
        exact .applies text rows coded

def Machine.Has (codec : Codec) (machine : Machine) (digest : String) : Prop :=
  ∃ network text, codec.network network = .ok text ∧ digestOf codec text = digest ∧
    machine.installed = some (network, true)

structure Remembered (codec : Codec) (applied boot : Option String) (machine : Machine) : Prop where
  applied : ∀ digest ∈ applied, machine.Has codec digest ∨ ∃ id ∈ boot, id ≠ machine.bootId
  known : ∀ id ∈ boot, id = machine.bootId ∨ id ∈ machine.past
  current : machine.rebooted = false → ∀ id ∈ boot, id = machine.bootId

def Deployed.Remembers (codec : Codec) (state : Deployed) : Prop :=
  ∀ hostId, Remembered codec (state.memory.applied hostId) (state.memory.boots hostId) (state.machines hostId)

/-- A request that changes a machine is acknowledged or finds no digest remembered, and a
machine reboots only when it has reported a boot id or no digest is remembered. -/
def Deployed.Acknowledged (state : Deployed) : Deployed.Event → Prop
  | .sync sending (.broken _) | .sync sending (.unanswered _) => state.memory.applied sending.host.id = none
  | .reboot hostId _ => state.memory.applied hostId = none ∨ state.memory.boots hostId ≠ none
  | _ => True

instance (state : Deployed) : DecidablePred state.Acknowledged := by
  intro event
  unfold Deployed.Acknowledged
  split <;> infer_instance

section
variable {applied boot : Option String} {machine : Machine}

theorem Remembered.forgets (remembered : Remembered codec applied boot machine)
    (network : MachineNetwork) (complete : Bool) (nothing : applied = none) :
    Remembered codec applied boot (machine.install complete (.applyNetwork network)) :=
  ⟨by simp [nothing], remembered.known, remembered.current⟩

theorem Remembered.acknowledges {network : MachineNetwork} {text : String}
    (remembered : Remembered codec applied boot machine) (coded : codec.network network = .ok text) :
    Remembered codec (some (digestOf codec text)) boot (machine.install true (.applyNetwork network)) := by
  refine ⟨?_, remembered.known, remembered.current⟩
  rintro _ ⟨⟩
  exact .inl ⟨network, text, coded, rfl, rfl⟩

theorem Remembered.reboots {bootId : String} (remembered : Remembered codec applied boot machine)
    (fresh : ¬ (bootId = machine.bootId ∨ bootId ∈ machine.past)) (noticed : applied = none ∨ boot ≠ none) :
    Remembered codec applied boot (machine.reboot bootId) := by
  obtain ⟨newer, unused⟩ := not_or.mp fresh
  refine ⟨?_, ?_, nofun⟩
  · intro digest held
    rcases noticed with nothing | reported
    · rw [nothing] at held
      cases held
    · obtain ⟨id, reported⟩ := Option.ne_none_iff_exists'.mp reported
      refine .inr ⟨id, reported, ?_⟩
      rintro rfl
      rcases remembered.known _ reported with same | old
      · exact newer same
      · exact unused old
  · intro id reported
    refine .inr ?_
    rcases remembered.known id reported with same | old
    · rw [same]
      exact List.mem_cons_self
    · exact List.mem_cons_of_mem _ old

theorem Remembered.reports (remembered : Remembered codec applied boot machine) :
    Remembered codec (if boot.any (· ≠ machine.bootId) then none else applied) (some machine.bootId)
      { machine with rebooted := false } := by
  refine ⟨?_, ?_, ?_⟩
  · intro digest held
    split at held
    · cases held
    next same =>
      obtain installed | ⟨id, reported, differ⟩ := remembered.applied digest held
      · exact .inl installed
      · simp only [Option.any_eq_true, decide_eq_true_eq, not_exists, not_and, not_not] at same
        exact absurd (same id reported) differ
  · rintro _ ⟨⟩
    exact .inl rfl
  · rintro - _ ⟨⟩
    rfl

end

section
variable {state next : Deployed}

theorem Remembered.update {applied : Int → Option String} {boots : Int → Option String} {machines : Int → Machine}
    {digest boot : Option String} {machine : Machine}
    (others : ∀ hostId, Remembered codec (applied hostId) (boots hostId) (machines hostId)) (hostId : Int)
    (this : Remembered codec digest boot machine) (other : Int) :
    Remembered codec (Function.update applied hostId digest other) (Function.update boots hostId boot other)
      (Function.update machines hostId machine other) := by
  by_cases same : other = hostId
  · subst same
    simpa only [update_self] using this
  · simpa only [update_of_ne same] using others other

theorem Deployed.Remembers.synced {hostId : Int} {delivery : Delivery} {result : Except DispatchError Unit}
    (remembers : state.Remembers codec)
    (allowed : (∃ error, delivery = .broken error) ∨ (∃ error, delivery = .unanswered error) →
    state.memory.applied hostId = none)
    (synced : Synced codec settings state hostId delivery result next) : next.Remembers codec := by
  cases synced with
  | fails | skips => exact remembers
  | breaks error rows complete unacknowledged =>
    intro other
    have this := (remembers hostId).forgets (settings.network state.fleet hostId) complete (allowed unacknowledged)
    simpa only [update_eq_self] using Remembered.update remembers hostId this other
  | applies text rows coded =>
    intro other
    have this := (remembers hostId).acknowledges coded
    simpa only [update_eq_self] using Remembered.update remembers hostId this other

theorem Deployed.Remembers.noteBoot {hostId : Int} {silent : Bool} (remembers : state.Remembers codec) :
    (state.noteBoot hostId silent).Remembers codec := by
  intro other
  by_cases empty : (if silent then "" else (state.machines hostId).bootId) = ""
  · simpa only [Deployed.noteBoot, Memory.noteBoot, empty, if_true, update_eq_self] using remembers other
  · have shown : (if silent then "" else (state.machines hostId).bootId) = (state.machines hostId).bootId := by
      cases silent with
      | true => exact absurd rfl empty
      | false => rfl
    have this := Remembered.update remembers hostId (remembers hostId).reports other
    rw [shown] at empty
    simp only [Deployed.noteBoot, Memory.noteBoot, shown, empty, if_false]
    split
    next newer => simpa only [newer, if_true] using this
    next same => simpa only [same, if_false, Bool.false_eq_true, update_eq_self] using this

theorem Deployed.Remembers.step {event : Deployed.Event} (remembers : state.Remembers codec)
    (allowed : state.Acknowledged event) (moved : state.step codec settings event = some next) :
    next.Remembers codec := by
  cases event with
  | write =>
    cases moved
    exact remembers
  | sync sending delivery =>
    cases moved
    apply remembers.synced _ (syncHost_synced codec settings state sending delivery)
    rintro (⟨error, rfl⟩ | ⟨error, rfl⟩)
    · exact allowed
    · exact allowed
  | report =>
    cases moved
    exact remembers.noteBoot
  | reboot hostId =>
    simp only [Deployed.step] at moved
    split at moved
    · cases moved
    next fresh =>
      cases moved
      intro other
      have this := Remembered.update remembers hostId ((remembers hostId).reboots fresh allowed) other
      simpa only [update_eq_self] using this

end

/-- In every run in which the requests that change a machine are acknowledged, a sync that
succeeds leaves a machine that has not rebooted unseen with the network of the database. -/
theorem syncs_install_networks (codec : Codec) (faithful : codec.Faithful) (settings : Settings) (fleet : Fleet)
    (rows : Generations) (machines : Int → Machine) (events : List Deployed.Event) (state : Deployed)
    (ran : exec (Deployed.step codec settings) ⟨fleet, rows, .new, machines⟩ events = some state)
    (acknowledged : Obeys (Deployed.step codec settings) Deployed.Acknowledged ⟨fleet, rows, .new, machines⟩ events)
    (sending : Sending) (delivery : Delivery) (succeeds : (state.syncHost codec settings sending delivery).1 = .ok ())
    (seen : ((state.syncHost codec settings sending delivery).2.machines sending.host.id).rebooted = false) :
    ((state.syncHost codec settings sending delivery).2.machines sending.host.id).installed =
      some (settings.network (state.syncHost codec settings sending delivery).2.fleet sending.host.id, true) := by
  have remembers : state.Remembers codec := by
    refine invariant ?_ ran acknowledged ?_
    · exact fun state event next allowed moved remembers => remembers.step allowed moved
    · exact fun hostId => ⟨nofun, nofun, fun _ => nofun⟩
  have synced := syncHost_synced codec settings state sending delivery
  generalize (state.syncHost codec settings sending delivery).2 = after at synced seen
  rw [succeeds] at synced
  cases synced with
  | skips text rows coded remembered =>
    obtain ⟨applied, -, current⟩ := remembers sending.host.id
    obtain ⟨network, known, same, digest, installed⟩ | ⟨id, reported, differ⟩ := applied _ remembered
    · rw [installed, faithful _ _ _ _ same coded digest]
    · exact absurd (current seen id reported) differ
  | applies =>
    simp only [update_self]
    rfl

def privateSettings : Settings := ⟨.usual, ⟨3000, 9999⟩, 1⟩

def divided (runnerPrefix : UInt8) : Fleet := ⟨runnerPrefix, [], [], [], [], [], [], []⟩

def twoTexts : Codec where
  sha256 := id
  provision := fun _ => .error "provision"
  redefine := fun _ => .error "redefine"
  operation := fun _ => .error "operation"
  network := fun network =>
    if network = privateSettings.network (divided 24) 2 then .ok "a"
    else if network = privateSettings.network (divided 25) 2 then .ok "b"
    else .error "network"

theorem twoTexts_faithful : twoTexts.Faithful := by
  have texts (network : MachineNetwork) (text : String) (coded : twoTexts.network network = .ok text) :
      network = privateSettings.network (divided 24) 2 ∧ text = "a" ∨
      network = privateSettings.network (divided 25) 2 ∧ text = "b" := by
    simp only [twoTexts] at coded
    split at coded
    next same =>
      cases coded
      exact .inl ⟨same, rfl⟩
    next =>
      split at coded
      next same =>
        cases coded
        exact .inr ⟨same, rfl⟩
      next => cases coded
  have apart : digestOf twoTexts "a" ≠ digestOf twoTexts "b" := by decide +kernel
  intro first last firstText lastText early late same
  obtain ⟨rfl, rfl⟩ | ⟨rfl, rfl⟩ := texts first firstText early
  · obtain ⟨rfl, rfl⟩ | ⟨rfl, rfl⟩ := texts last lastText late
    · rfl
    · exact absurd same apart
  · obtain ⟨rfl, rfl⟩ | ⟨rfl, rfl⟩ := texts last lastText late
    · exact absurd same.symm apart
    · rfl

def toRunner : Sending where
  host := ⟨2, some "m2", "runner", some "http://10.0.0.98:10443"⟩
  lease := ⟨"controller", 1, 0⟩
  now := 0
  requestId := "r1"

def upToDate : Deployed := ⟨divided 24, fun _ => none, .new, fun _ => ⟨none, "boot-1", [], false⟩⟩

def rebooted : List Deployed.Event :=
  [.report 2 false, .sync toRunner (.answered 0 0 0 0), .reboot 2 "boot-2", .report 2 false]

theorem syncs_install_networks_rebooted :
    ∃ state, exec (Deployed.step twoTexts privateSettings) upToDate rebooted = some state ∧
    ((state.syncHost twoTexts privateSettings toRunner (.answered 0 0 0 0)).2.machines 2).installed =
      some (privateSettings.network (divided 24) 2, true) := by
  have acknowledged : Obeys (Deployed.step twoTexts privateSettings) Deployed.Acknowledged upToDate rebooted := by
    decide +kernel
  have synced : ((exec (Deployed.step twoTexts privateSettings) upToDate rebooted).map fun state =>
      ((state.syncHost twoTexts privateSettings toRunner (.answered 0 0 0 0)).1,
        ((state.syncHost twoTexts privateSettings toRunner (.answered 0 0 0 0)).2.machines 2).rebooted,
        (state.syncHost twoTexts privateSettings toRunner (.answered 0 0 0 0)).2.fleet)) =
      some (.ok (), false, divided 24) := by decide +kernel
  obtain ⟨state, ran, ended⟩ := Option.map_eq_some_iff.mp synced
  obtain ⟨succeeds, rest⟩ := Prod.mk.inj ended
  obtain ⟨seen, same⟩ := Prod.mk.inj rest
  have installed := syncs_install_networks twoTexts twoTexts_faithful privateSettings _ _ _ rebooted
    state ran acknowledged
    toRunner _ succeeds seen
  rw [same] at installed
  exact ⟨state, ran, installed⟩

/-- A reply is lost after the networks were divided, and the division is taken back; and a
machine that was synced before its first boot report reboots. -/
theorem syncs_miss_networks : twoTexts.Faithful ∧ ((exec (Deployed.step twoTexts privateSettings) upToDate
      [.report 2 false, .sync toRunner (.answered 0 0 0 0), .write (divided 25), .sync toRunner (.unanswered "timeout"),
        .write (divided 24)]).map fun state =>
        ((state.syncHost twoTexts privateSettings toRunner (.answered 0 0 0 0)).1,
          (state.syncHost twoTexts privateSettings toRunner (.answered 0 0 0 0)).2.machines 2)) =
      some (.ok (), ⟨some (privateSettings.network (divided 25) 2, true), "boot-1", [], false⟩) ∧
    ((exec (Deployed.step twoTexts privateSettings) upToDate
      [.sync toRunner (.answered 0 0 0 0), .reboot 2 "boot-2", .report 2 false]).map fun state =>
        ((state.syncHost twoTexts privateSettings toRunner (.answered 0 0 0 0)).1,
          (state.syncHost twoTexts privateSettings toRunner (.answered 0 0 0 0)).2.machines 2)) =
      some (.ok (), ⟨none, "boot-2", ["boot-1"], false⟩) := by
  refine ⟨twoTexts_faithful, by decide +kernel, by decide +kernel⟩

end Bento.Bentod
