import Bento.Proofs.ManagerContracts
import Bento.Proofs.ManagerEffects

/-! Starts and stops of one instance. Both write the two stored states and act on the
domain, in different orders, so calls of the two kinds that overlap can leave the row and
the domain apart. -/

namespace Bento.Lifecycle
open Hypervisor Library.Contracts Library.Contracts.Rules Library.Programs Library.Runs Store Function Valid
open Runner (InstanceRef)

variable {world : World} {uuid : String}

inductive Power where
  | start
  | stop
deriving DecidableEq

namespace Power

def desired : Power → DesiredState
  | .start => .running
  | .stop => .stopped

def state : Power → PowerState
  | .start => .running
  | .stop => .stopped

def program (manager : Manager) (uuid : String) : Power → ManagerM Unit
  | .start => manager.start uuid
  | .stop => do let _ ← manager.stop uuid

end Power

variable {ι : Type}

structure Desk (ι : Type) where
  world : World
  flying : ι → Bool
  failed : ι → Bool
  done : Bool

abbrev PowerAnswer := Program.Reporting ManagerCall.Answer (Except Error Unit)

abbrev Powers (ι : Type) := Pool PowerAnswer ι (Desk ι) (Except Error Unit)

section
variable [DecidableEq ι]

def Desk.serve (manager : Manager) (i : ι) (moment : Moment) :
    (call : ManagerCall ⊕ Except Error Unit) → Desk ι → PowerAnswer call × Desk ι
  | .inl call, desk =>
    let served := call.serve manager moment desk.world
    (served.1, { desk with
      world := served.2
      flying := if call.begins then Function.update desk.flying i true else desk.flying })
  | .inr result, desk =>
    ((), { desk with
      flying := Function.update desk.flying i false
      failed := if result.isOk then desk.failed else Function.update desk.failed i true
      done := true })

def Powers.begin (manager : Manager) (uuid : String) (kinds : ι → Power) (world : World) : Powers ι :=
  ⟨⟨world, fun _ => false, fun _ => false, false⟩, fun i => some ((kinds i).program manager uuid).run.reporting⟩

def Powers.step (manager : Manager) (pool : Powers ι) (event : PoolEvent ι Moment) : Option (Powers ι) :=
  Pool.step (Desk.serve manager) pool event

def Powers.Apart (kinds : ι → Power) (pool : Powers ι) : PoolEvent ι Moment → Prop
  | .step i _ => ∀ call ∈ (pool.thread i).bind Program.waiting,
      (match call with
      | .inl call => call.begins
      | .inr _ => false) = true → ∀ j, pool.shared.flying j = true → kinds j = kinds i
  | .drop _ => True

end

def Powers.Returned (pool : Powers ι) : Prop := ∀ i, (pool.thread i).bind Program.ended = some (.ok ())

structure World.Known (world : World) (uuid : String) (row : Instance) (domain : Domain) : Prop where
  listed : world.fleet.instances.find? (·.uuid = uuid) = some row
  defined : (world.machines row.hostId).domain row.name = some domain

def World.Agrees (world : World) (uuid : String) : Prop :=
  ∃ row domain, world.Known uuid row domain ∧
    (row.desiredState = .running ↔ domain.state = .running) ∧ (row.state = .running ↔ domain.state = .running)

inductive Dial where
  | domain
  | desired
  | observed

structure Dials where
  domain : PowerState
  desired : DesiredState
  observed : PowerState

namespace Dials

def turn (power : Power) (dials : Dials) : Dial → Dials
  | .domain => { dials with domain := power.state }
  | .desired => { dials with desired := power.desired }
  | .observed => { dials with observed := power.state }

def Turned (power : Power) (dials : Dials) : Dial → Prop
  | .domain => dials.domain = power.state
  | .desired => dials.desired = power.desired
  | .observed => dials.observed = power.state

theorem turned_turn {power : Power} {dials : Dials} {dial other : Dial}
    (already : other = dial ∨ dials.Turned power other) :
    (dials.turn power dial).Turned power other := by
  cases dial <;> cases other <;> simp_all [turn, Turned]

end Dials

def World.Shows (world : World) (uuid name : String) (hostId : Int) (dials : Dials) : Prop :=
  ∃ row domain, world.Known uuid row domain ∧ row.name = name ∧ row.hostId = hostId ∧
    dials = ⟨domain.state, row.desiredState, row.state⟩

theorem World.Shows.unique {name : String} {hostId : Int} {dials other : Dials}
    (shows : world.Shows uuid name hostId dials) (also : world.Shows uuid name hostId other) : dials = other := by
  obtain ⟨row, domain, known, -, -, rfl⟩ := shows
  obtain ⟨again, twin, same, -, -, rfl⟩ := also
  cases known.listed.symm.trans same.listed
  cases known.defined.symm.trans same.defined
  rfl

theorem agrees_of_turned {name : String} {hostId : Int} {dials : Dials} {power : Power}
    (shows : world.Shows uuid name hostId dials) (turned : ∀ dial, dials.Turned power dial) : world.Agrees uuid := by
  obtain ⟨row, domain, known, -, -, rfl⟩ := shows
  have domainAt : domain.state = power.state := turned .domain
  have desiredAt : row.desiredState = power.desired := turned .desired
  have observedAt : row.state = power.state := turned .observed
  refine ⟨row, domain, known, ?_, ?_⟩
  · rw [domainAt, desiredAt]
    cases power <;> simp [Power.state, Power.desired]
  · rw [domainAt, observedAt]

section
variable {uuid name : String} {hostId : Int} {power : Power} {world : World} {dials : Dials} {manager : Manager}
  {moment : Moment} {row : Instance} {domain : Domain}

theorem World.Known.write (known : world.Known uuid row domain) (column : Column) :
    World.Known { world with fleet := { world.fleet with
      instances := world.fleet.instances.map fun row => if row.uuid = uuid then column.write row else row } }
      uuid (column.write row) domain where
  listed := by
    have own : row.uuid = uuid := by simpa using List.find?_some known.listed
    rw [find?_update _ _ (fun row => column.write_uuid row), known.listed, Option.map_some, if_pos own]
  defined := by
    have placed : (column.write row).hostId = row.hostId := by cases column <;> rfl
    have named : (column.write row).name = row.name := by cases column <;> rfl
    rw [placed, named]
    exact known.defined

def Power.action : Power → DomainAction
  | .start => .start
  | .stop => .stop

theorem World.Known.acted (known : world.Known uuid row domain) {machine : Machine}
    (acted : (world.machines row.hostId).Acted row.name power.action machine) :
    (world.setMachine row.hostId machine).Known uuid row { domain with state := power.state } where
  listed := known.listed
  defined := by
    have found := known.defined
    rw [World.setMachine_same]
    cases power with
    | start =>
      cases acted with
      | start other =>
        cases found.symm.trans other
        simp [Machine.domain_setState, found, Power.state]
    | stop =>
      cases acted with
      | stop other =>
        cases found.symm.trans other
        simp [Machine.domain_setState, found, Power.state]
      | stopped other off =>
        cases found.symm.trans other
        rw [found]
        cases domain
        cases off
        rfl

/-- What a call of a start or a stop did: nothing, or it turned one dial, and that for sure
when it succeeded. -/
def TurnsDial (power : Power) (uuid name : String) (hostId : Int) (dial : Dial) (dials : Dials) (succeeded : Prop)
    (after : World) : Prop :=
  ∃ turned, after.Shows uuid name hostId turned ∧ (turned = dials ∨ turned = dials.turn power dial) ∧
    (succeeded → turned = dials.turn power dial)

theorem turns_column {call : StoreCall} (column : Column) {dial : Dial} (shows : world.Shows uuid name hostId dials)
    (body : ∀ reply fleet, (call.tx manager moment).run world.fleet = .ok (reply, fleet) →
      fleet = { world.fleet with
        instances := world.fleet.instances.map fun row => if row.uuid = uuid then column.write row else row })
    (writes : ∀ row, (column.write row).name = row.name ∧ (column.write row).hostId = row.hostId ∧
      ∀ state, Dials.mk state (column.write row).desiredState (column.write row).state =
        Dials.turn power ⟨state, row.desiredState, row.state⟩ dial) :
    TurnsDial power uuid name hostId dial dials (((ManagerCall.store call).serve manager moment world).1.isOk = true)
      ((ManagerCall.store call).serve manager moment world).2 := by
  obtain ⟨row, domain, known, named, placed, rfl⟩ := shows
  rcases store_cases manager moment world call with ⟨reply, fleet, -, ran, after⟩ | ⟨⟨cause, refused⟩, after⟩
  · obtain rfl := body reply fleet ran
    obtain ⟨sameName, sameHost, turned⟩ := writes row
    rw [after]
    exact ⟨_, ⟨_, domain, known.write column, sameName.trans named, sameHost.trans placed, rfl⟩,
      .inr (turned _), fun _ => turned _⟩
  · rw [after, refused]
    exact ⟨_, ⟨row, domain, known, named, placed, rfl⟩, .inl rfl, nofun⟩

theorem shows_acted (shows : world.Shows uuid name hostId dials) {machine : Machine}
    (acted : (world.machines hostId).Acted name power.action machine) :
    (world.setMachine hostId machine).Shows uuid name hostId (dials.turn power .domain) := by
  obtain ⟨row, domain, known, rfl, rfl, rfl⟩ := shows
  exact ⟨row, _, known.acted acted, rfl, rfl, rfl⟩

theorem turns_act (shows : world.Shows uuid name manager.hostId dials) :
    TurnsDial power uuid name manager.hostId .domain dials
      (((ManagerCall.act power.action name).serve manager moment world).1.isOk = true)
      ((ManagerCall.act power.action name).serve manager moment world).2 := by
  rcases act_cases manager moment world power.action name with ⟨machine, acted, after⟩ | ⟨⟨error, refused⟩, after⟩
  · rw [after]
    exact ⟨_, shows_acted shows acted, .inr rfl, fun _ => rfl⟩
  · rw [after, refused]
    exact ⟨dials, shows, .inl rfl, nofun⟩

theorem turns_change {target : InstanceRef} (shows : world.Shows uuid target.name hostId dials) :
    TurnsDial power uuid target.name hostId .domain dials
      (((ManagerCall.change hostId power.action target).serve manager moment world).1.isOk = true)
      ((ManagerCall.change hostId power.action target).serve manager moment world).2 := by
  rcases change_cases manager moment world hostId power.action target with ⟨machine, acted, after⟩ |
    ⟨⟨error, refused⟩, after⟩
  · have kept : afterChange moment power.action target.uuid machine = machine := by cases power <;> rfl
    rw [after, kept]
    exact ⟨_, shows_acted shows acted, .inr rfl, fun _ => rfl⟩
  · rw [after, refused]
    exact ⟨dials, shows, .inl rfl, nofun⟩

end

section
variable [DecidableEq ι]

def Toward (power : Power) (uuid name : String) (hostId : Int) (before after : World) : Prop :=
  ∀ dials, before.Shows uuid name hostId dials → ∃ turned, after.Shows uuid name hostId turned ∧
    ∀ dial, dials.Turned power dial → turned.Turned power dial

structure PowerInvariant (uuid name : String) (hostId : Int) (kinds : ι → Power) (desk : Desk ι) : Prop where
  shows : ∃ dials, desk.world.Shows uuid name hostId dials
  alike : ∀ i j, desk.flying i = true → desk.flying j = true → kinds i = kinds j
  settled : (∀ i, desk.flying i = false) → (∀ i, desk.failed i = false) → desk.done = true → desk.world.Agrees uuid

structure PowerRely (uuid name : String) (hostId : Int) (kinds : ι → Power) (i : ι) (before after : Desk ι) : Prop where
  flying : after.flying i = before.flying i
  failed : after.failed i = before.failed i
  done : before.done = true → after.done = true
  toward : before.flying i = true → Toward (kinds i) uuid name hostId before.world after.world

structure PowerGuarantee (uuid name : String) (hostId : Int) (kinds : ι → Power) (j : ι)
    (before after : Desk ι) : Prop where
  others : ∀ i, i ≠ j → after.flying i = before.flying i ∧ after.failed i = before.failed i
  done : before.done = true → after.done = true
  toward : Toward (kinds j) uuid name hostId before.world after.world
  begun : before.flying j = true ∨ after.world = before.world

def powerRules (manager : Manager) (uuid name : String) (hostId : Int) (kinds : ι → Power) :
    Rules PowerAnswer ι (Desk ι) Moment where
  serve := Desk.serve manager
  invariant := PowerInvariant uuid name hostId kinds
  allowed i _ call desk :=
    (match call with
    | .inl call => call.begins
    | .inr _ => false) = true → ∀ j, desk.flying j = true → kinds j = kinds i
  safe _ _ _ := True
  rely := PowerRely uuid name hostId kinds
  guarantee := PowerGuarantee uuid name hostId kinds
  compatible := by
    intro i j different before after kept gives
    obtain ⟨flying, failed⟩ := gives.others i different
    refine ⟨flying, failed, gives.done, fun up => ?_⟩
    rcases gives.begun with busy | same
    · rw [kept.alike i j up busy]
      exact gives.toward
    · rw [same]
      exact fun dials shows => ⟨dials, shows, fun _ turned => turned⟩

variable {manager : Manager} {uuid name : String} {hostId : Int} {kinds : ι → Power} {i : ι}

def Reached (uuid name : String) (hostId : Int) (kinds : ι → Power) (i : ι) (turned : List Dial) (desk : Desk ι) : Prop :=
  desk.flying i = true ∧ desk.failed i = false ∧
    ∃ dials, desk.world.Shows uuid name hostId dials ∧ ∀ dial ∈ turned, dials.Turned (kinds i) dial

theorem stable_reached (manager : Manager) (turned : List Dial) :
    (powerRules manager uuid name hostId kinds).Stable i (Reached uuid name hostId kinds i turned) := by
  rintro before after - - relies ⟨up, fine, dials, shows, stands⟩
  obtain ⟨later, seen, kept⟩ := relies.toward up dials shows
  exact ⟨relies.flying.trans up, relies.failed.trans fine, later, seen, fun dial listed =>
    kept dial (stands dial listed)⟩

theorem turn_operation (call : ManagerCall) {dial : Dial} (ok : call.Answer → Prop) (quiet : call.begins = false)
    (turns : ∀ moment world dials, world.Shows uuid name hostId dials →
      TurnsDial (kinds i) uuid name hostId dial dials (ok (call.serve manager moment world).1)
        (call.serve manager moment world).2)
    (turned : List Dial) :
    (powerRules manager uuid name hostId kinds).silent.Operation i call
      (Reached uuid name hostId kinds i turned) fun answer desk =>
      Reached uuid name hostId kinds i [] desk ∧
        (ok answer → Reached uuid name hostId kinds i (dial :: turned) desk) where
  waiting := stable_reached manager turned
  safe _ _ _ := trivial
  execute desk moment kept holds _ := by
    obtain ⟨up, fine, dials, shows, stands⟩ := holds
    obtain ⟨after, seen, which, done⟩ := turns moment desk.world dials shows
    have toward : ∀ other, dials.Turned (kinds i) other → after.Turned (kinds i) other := by
      intro other already
      rcases which with rfl | rfl
      · exact already
      · exact Dials.turned_turn (.inr already)
    simp only [silent, powerRules, Desk.serve, quiet, Bool.false_eq_true, if_false]
    refine ⟨⟨⟨after, seen⟩, kept.alike, fun idle => ?_⟩, ⟨fun _ _ => ⟨rfl, rfl⟩, id, ?_, .inl up⟩,
      ⟨up, fine, after, seen, nofun⟩,
      fun succeeded => ⟨up, fine, after, seen, fun other listed => ?_⟩⟩
    · rw [idle i] at up
      cases up
    · intro other shown
      cases shows.unique shown
      exact ⟨after, seen, toward⟩
    · rw [done succeeded]
      rcases List.mem_cons.mp listed with rfl | earlier
      · exact Dials.turned_turn (.inl rfl)
      · exact Dials.turned_turn (.inr (stands other earlier))

theorem look_operation (call : ManagerCall) (quiet : call.begins = false)
    (looks : ∀ moment world, (call.serve manager moment world).2 = world) (turned : List Dial) :
    (powerRules manager uuid name hostId kinds).silent.Operation i call
      (Reached uuid name hostId kinds i turned) fun _ =>
      Reached uuid name hostId kinds i turned where
  waiting := stable_reached manager turned
  safe _ _ _ := trivial
  execute desk moment kept holds _ := by
    have same := looks moment desk.world
    simp only [silent, powerRules, Desk.serve, quiet, Bool.false_eq_true, if_false, same]
    exact ⟨kept, ⟨fun _ _ => ⟨rfl, rfl⟩, id, fun dials shows => ⟨dials, shows, fun _ stands => stands⟩, .inl holds.1⟩,
      holds⟩

def Waiting (i : ι) (desk : Desk ι) : Prop := desk.flying i = false ∧ desk.failed i = false

theorem begin_operation :
    (powerRules manager uuid name hostId kinds).silent.Operation i (.store (.instance uuid)) (Waiting i)
      (outcome (fun row desk => (row.name = name ∧ row.hostId = hostId) ∧ Reached uuid name hostId kinds i [] desk)
        (Reached uuid name hostId kinds i [])) where
  waiting := by
    rintro before after - - relies ⟨idle, fine⟩
    exact ⟨relies.flying.trans idle, relies.failed.trans fine⟩
  safe _ _ _ := trivial
  execute desk moment kept holds permitted := by
    have alone : ∀ j, desk.flying j = true → kinds j = kinds i := permitted rfl
    obtain ⟨same, read⟩ := instance_serve manager moment uuid desk.world
    obtain ⟨dials, shows⟩ := kept.shows
    simp only [silent, powerRules, Desk.serve, ManagerCall.begins, if_true, same]
    have up : Function.update desk.flying i true i = true := update_self ..
    have reached : Reached uuid name hostId kinds i [] { desk with flying := Function.update desk.flying i true } :=
      ⟨up, holds.2, dials, shows, nofun⟩
    refine ⟨⟨kept.shows, fun j k first second => ?_, fun idle => ?_⟩, ⟨fun j other => ⟨?_, rfl⟩, id, ?_, .inr rfl⟩, ?_⟩
    · have ofKind : ∀ l, Function.update desk.flying i true l = true → kinds l = kinds i := by
        intro l flies
        by_cases own : l = i
        · rw [own]
        · rw [update_of_ne own] at flies
          exact alone l flies
      rw [ofKind j first, ofKind k second]
    · have down := idle i
      simp at down
    · exact update_of_ne other ..
    · exact fun dials shows => ⟨dials, shows, fun _ stands => stands⟩
    · cases answer : ((ManagerCall.store (.instance uuid)).serve manager moment desk.world).1 with
      | error => exact reached
      | ok row =>
        obtain ⟨known, domain, found, named, placed, -⟩ := shows
        cases found.listed.symm.trans (read row answer)
        exact ⟨⟨named, placed⟩, reached⟩

theorem switch_write_operation {call : StoreCall} {dial : Dial} (quiet : (ManagerCall.store call).begins = false)
    (turns : ∀ moment world dials, world.Shows uuid name hostId dials →
      TurnsDial (kinds i) uuid name hostId dial dials
    (((ManagerCall.store call).serve manager moment world).1.isOk = true)
        ((ManagerCall.store call).serve manager moment world).2) (turned : List Dial) :
    (powerRules manager uuid name hostId kinds).silent.Operation i (.store call)
      (Reached uuid name hostId kinds i turned)
      (outcome (fun _ => Reached uuid name hostId kinds i (dial :: turned)) (Reached uuid name hostId kinds i [])) := by
  refine (turn_operation (.store call) (fun answer => answer.isOk = true) quiet turns turned).mono fun answer => ?_
  cases answer with
  | ok => exact fun _ _ holds => holds.2 rfl
  | error => exact fun _ _ holds => holds.1

section
variable {power : Power} (kind : kinds i = power) (turned : List Dial)
include kind

theorem valid_setDesired :
    (powerRules manager uuid name hostId kinds).silent.Valid i (Reached uuid name hostId kinds i turned)
      (stored (.setDesiredState uuid power.desired)).run
      (outcome (fun _ => Reached uuid name hostId kinds i (.desired :: turned))
        (Reached uuid name hostId kinds i [])) := by
  subst kind
  refine valid_stored (switch_write_operation rfl (fun _ _ _ shows => ?_) turned)
  exact turns_column (.desiredState _) shows (fun _ _ => updateInstance_ok) fun _ => ⟨rfl, rfl, fun _ => rfl⟩

theorem valid_setObserved :
    (powerRules manager uuid name hostId kinds).silent.Valid i (Reached uuid name hostId kinds i turned)
      (stored (.setObservedState uuid power.state)).run
      (outcome (fun _ => Reached uuid name hostId kinds i (.observed :: turned))
        (Reached uuid name hostId kinds i [])) := by
  subst kind
  refine valid_stored (switch_write_operation rfl (fun _ _ _ shows => ?_) turned)
  exact turns_column (.state _) shows (fun _ _ => updateInstance_ok) fun _ => ⟨rfl, rfl, fun _ => rfl⟩

theorem valid_power {word : String} {row : Instance} (named : row.name = name) (placed : row.hostId = hostId) :
    (powerRules manager uuid name hostId kinds).silent.Valid i (Reached uuid name hostId kinds i turned)
      (manager.domainAction power.action word row).run
      (outcome (fun _ => Reached uuid name hostId kinds i (.domain :: turned))
        (Reached uuid name hostId kinds i [])) := by
  subst kind named placed
  have fewer : ∀ desk, Reached uuid row.name row.hostId kinds i turned desk →
    Reached uuid row.name row.hostId kinds i [] desk :=
    fun desk ⟨up, fine, dials, shows, _⟩ => ⟨up, fine, dials, shows, nofun⟩
  apply valid_domainAction (Reached uuid row.name row.hostId kinds i turned) fun _ =>
    Reached uuid row.name row.hostId kinds i turned
  · intro here
    have turns : ∀ moment world dials, world.Shows uuid row.name row.hostId dials →
        TurnsDial (kinds i) uuid row.name row.hostId .domain dials
          (((ManagerCall.act (kinds i).action row.name).serve manager moment world).1.isOk = true)
          ((ManagerCall.act (kinds i).action row.name).serve manager moment world).2 := by
      rw [here]
      exact fun moment world dials shows => turns_act shows
    refine (turn_operation (.act (kinds i).action row.name) (fun answer => answer.isOk = true) rfl turns
      turned).mono fun answer => ?_
    cases answer with
    | ok => exact fun _ _ holds => holds.2 rfl
    | error => exact fun _ _ holds => holds.1
  · intro there
    refine (look_operation (.hypervisor row.hostId) rfl (fun moment world => hypervisor_serve ..)
      turned).mono fun reached => ?_
    cases reached with
    | true => exact .rfl
    | false => exact fun desk _ holds => fewer desk holds
  · intro there
    refine (look_operation (.inventory row.hostId) rfl (fun moment world => inventory_serve ..)
      turned).mono fun answer => ?_
    cases answer with
    | error => exact fun desk _ holds => fewer desk holds
    | ok => exact fun desk _ holds => whenListed_of (fewer desk holds) fun _ => holds
  · intro there domain named
    refine (turn_operation (.change row.hostId (kinds i).action ⟨domain.uuid, row.name⟩)
      (fun answer => answer.isOk = true) rfl
      (fun moment world dials shows => turns_change shows) turned).mono fun answer => ?_
    cases answer with
    | ok => exact fun _ _ holds => holds.2 rfl
    | error => exact fun _ _ holds => holds.1

end

theorem valid_switch : (powerRules manager uuid name hostId kinds).silent.Valid i (Waiting i)
    ((kinds i).program manager uuid).run
      (outcome (fun _ desk => ∃ turned, (∀ dial, dial ∈ turned) ∧ Reached uuid name hostId kinds i turned desk)
        (Reached uuid name hostId kinds i [])) := by
  cases kind : kinds i with
  | start =>
    refine bind_except (valid_stored begin_operation) fun row => Valid.given fun ⟨named, placed⟩ => ?_
    refine bind_except (valid_power kind [] named placed) fun _ => ?_
    refine bind_except (valid_setDesired kind [.domain]) fun _ => ?_
    refine (valid_setObserved kind [.desired, .domain]).post_mono fun result => ?_
    cases result with
    | ok => exact fun desk _ reached => ⟨_, fun dial => by cases dial <;> simp, reached⟩
    | error => exact fun desk _ reached => reached
  | stop =>
    have stops : (powerRules manager uuid name hostId kinds).silent.Valid i (Waiting i) (manager.stop uuid).run
        (outcome (fun _ => Reached uuid name hostId kinds i [.observed, .domain, .desired])
          (Reached uuid name hostId kinds i [])) := by
      refine bind_except (valid_stored begin_operation) fun row => Valid.given fun ⟨named, placed⟩ => ?_
      refine bind_except (valid_setDesired kind []) fun _ => ?_
      refine bind_except (valid_power kind [.desired] named placed) fun result => ?_
      exact bind_except (valid_setObserved kind [.domain, .desired]) fun _ => valid_return .rfl
    refine bind_except stops fun _ => valid_return fun desk _ reached => ?_
    exact ⟨_, fun dial => by cases dial <;> simp, reached⟩

def Ended (i : ι) : Except Error Unit → Desk ι → Prop
  | .ok _, desk => desk.flying i = false ∧ desk.failed i = false ∧ desk.done = true
  | .error _, _ => True

theorem stable_ended (result : Except Error Unit) :
    (powerRules manager uuid name hostId kinds).Stable i (Ended i result) := by
  rintro before after - - relies ended
  cases result with
  | ok => exact ⟨relies.flying.trans ended.1, relies.failed.trans ended.2.1, relies.done ended.2.2⟩
  | error => trivial

theorem switch_return_operation (result : Except Error Unit) :
    (powerRules manager uuid name hostId kinds).Operation i (.inr result)
      (outcome (fun _ desk => ∃ turned, (∀ dial, dial ∈ turned) ∧ Reached uuid name hostId kinds i turned desk)
        (Reached uuid name hostId kinds i []) result) fun _ => Ended i result where
  waiting := by
    intro before after kept still relies holds
    cases result with
    | ok =>
      obtain ⟨turned, all, reached⟩ := holds
      exact ⟨turned, all, stable_reached manager turned before after kept still relies reached⟩
    | error => exact stable_reached manager [] before after kept still relies holds
  safe _ _ _ := trivial
  execute desk moment kept holds _ := by
    have landed : ∀ j, Function.update desk.flying i false j = true → desk.flying j = true := by
      intro j flies
      by_cases own : j = i
      · subst own
        simp at flies
      · rwa [update_of_ne own] at flies
    simp only [powerRules, Desk.serve]
    refine ⟨⟨kept.shows, fun j k first second => kept.alike j k (landed j first) (landed k second),
      fun idle fine _ => ?_⟩,
      ⟨fun j other => ⟨update_of_ne other .., ?_⟩, fun _ => rfl, fun dials shows =>
        ⟨dials, shows, fun _ stands => stands⟩, .inr rfl⟩, ?_⟩
    · cases result with
      | error =>
        have spoiled := fine i
        simp [Except.isOk, Except.toBool] at spoiled
      | ok =>
        obtain ⟨turned, all, -, -, dials, shows, stands⟩ := holds
        exact agrees_of_turned shows fun dial => stands dial (all dial)
    · cases result with
      | error => exact update_of_ne other ..
      | ok => rfl
    · cases result with
      | error => trivial
      | ok =>
        obtain ⟨turned, all, -, fine, -⟩ := holds
        exact ⟨update_self .., fine, rfl⟩

/-- Any number of starts and stops of one instance run at once, in any interleaving of their
calls, but none begins while one of the other kind is in flight. When all of them have
returned without an error, both stored states say running exactly when the domain runs. -/
theorem start_stop_agree (manager : Manager) (uuid : String) (kinds : ι → Power) (world : World)
    (events : List (PoolEvent ι Moment)) (final : Powers ι) (row : Instance) (domain : Domain)
    (known : world.Known uuid row domain)
    (ran : exec (Powers.step manager) (Powers.begin manager uuid kinds world) events = some final)
    (apart : Obeys (Powers.step manager) (Powers.Apart kinds) (Powers.begin manager uuid kinds world) events)
    (returned : final.Returned) (one : ι) : final.shared.world.Agrees uuid := by
  have initial : (powerRules manager uuid row.name row.hostId kinds).Sound (Ended ·)
    (Powers.begin manager uuid kinds world) := by
    refine ⟨⟨⟨_, row, domain, known, rfl, rfl, rfl⟩, nofun, fun _ _ => nofun⟩, fun i program found => ?_⟩
    cases found
    exact (valid_switch.reporting switch_return_operation).suspended
      ⟨⟨_, row, domain, known, rfl, rfl, rfl⟩, nofun, fun _ _ => nofun⟩ ⟨rfl, rfl⟩
  have same : (powerRules manager uuid row.name row.hostId kinds).Allowed = Powers.Apart kinds := by
    funext pool event
    cases event <;> rfl
  rw [← same] at apart
  have sound := Rules.sound (fun i => stable_ended) ran apart initial
  have ended : ∀ i, Ended i (.ok ()) final.shared := by
    intro i
    obtain ⟨program, found, value⟩ := Option.bind_eq_some_iff.mp (returned i)
    rw [Program.ended_eq_some.mp value] at found
    exact sound.threads i _ found
  exact sound.invariant.settled (fun i => (ended i).1) (fun i => (ended i).2.1) (ended one).2.2

end

def World.states (world : World) (uuid : String) : Option (DesiredState × PowerState × PowerState) := do
  let row ← world.fleet.instances.find? (·.uuid = uuid)
  let domain ← (world.machines row.hostId).domain row.name
  return (row.desiredState, row.state, domain.state)

theorem states_of_known {row : Instance} {domain : Domain} (known : world.Known uuid row domain) :
    world.states uuid = some (row.desiredState, row.state, domain.state) := by
  simp [World.states, known.listed, known.defined]

def oneGuest : World := ⟨smallFleet [plainGuest "0b5e" "web" 1], fun _ =>
    guestMachine (plainGuest "0b5e" "web" 1) .stopped⟩

theorem oneGuest_known : oneGuest.Known "0b5e" (plainGuest "0b5e" "web" 1)
    (guestDomain (plainGuest "0b5e" "web" 1) .stopped) :=
  ⟨by decide +kernel, by decide +kernel⟩

def calls (i : Fin 2) (count : Nat) : List (PoolEvent (Fin 2) Moment) := List.replicate count (.step i calm)

def startAndStop : Fin 2 → Power
  | 0 => .start
  | 1 => .stop

instance (pool : Powers (Fin 2)) : Decidable pool.Returned :=
  inferInstanceAs (Decidable (∀ i, (pool.thread i).bind Program.ended = some (.ok ())))

instance (kinds : Fin 2 → Power) (pool : Powers (Fin 2)) (event : PoolEvent (Fin 2) Moment) :
    Decidable (Powers.Apart kinds pool event) := by
  cases event <;> unfold Powers.Apart <;> infer_instance

theorem start_stop_agree_apart : ∃ final,
    exec (Powers.step exampleManager) (Powers.begin exampleManager "0b5e" startAndStop oneGuest)
      (calls 0 5 ++ calls 1 5) = some final ∧
    final.Returned ∧ final.shared.world.Agrees "0b5e" := by
  have apart : Obeys (Powers.step exampleManager) (Powers.Apart startAndStop)
    (Powers.begin exampleManager "0b5e" startAndStop oneGuest)
      (calls 0 5 ++ calls 1 5) := by decide +kernel
  have ends : ((exec (Powers.step exampleManager) (Powers.begin exampleManager "0b5e" startAndStop oneGuest)
      (calls 0 5 ++ calls 1 5)).map fun final => decide final.Returned) = some true := by decide +kernel
  obtain ⟨final, ran, returned⟩ := Option.map_eq_some_iff.mp ends
  refine ⟨final, ran, of_decide_eq_true returned, ?_⟩
  exact start_stop_agree exampleManager "0b5e" startAndStop oneGuest _ final _ _ oneGuest_known ran apart
    (of_decide_eq_true returned) 0

/-- The start has run its domain when the stop comes in between; it then writes running over
a domain that was stopped. -/
theorem start_stop_part :
    ∃ final, exec (Powers.step exampleManager) (Powers.begin exampleManager "0b5e" startAndStop oneGuest)
      (calls 0 2 ++ calls 1 5 ++ calls 0 3) = some final ∧ final.Returned ∧ ¬ final.shared.world.Agrees "0b5e" := by
  have ends : ((exec (Powers.step exampleManager) (Powers.begin exampleManager "0b5e" startAndStop oneGuest)
      (calls 0 2 ++ calls 1 5 ++ calls 0 3)).map fun final =>
        (decide final.Returned, final.shared.world.states "0b5e")) =
      some (true, some (.running, .running, .stopped)) := by
    decide +kernel
  obtain ⟨final, ran, shown⟩ := Option.map_eq_some_iff.mp ends
  obtain ⟨returned, states⟩ := Prod.mk.inj shown
  refine ⟨final, ran, of_decide_eq_true returned, ?_⟩
  rintro ⟨row, domain, known, desired, -⟩
  have seen := (states_of_known known).symm.trans states
  simp only [Option.some.injEq, Prod.mk.injEq] at seen
  rw [seen.1, seen.2.2] at desired
  cases desired.mp rfl

end Bento.Lifecycle
