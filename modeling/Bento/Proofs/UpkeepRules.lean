import Bento.Proofs.ManagerContracts
import Bento.Proofs.ManagerRuns
import Bento.Proofs.RowFrames

/-! The rules that resizes, polls and removals keep toward each other: what each call holds,
what it owes, and what the others may rely on meanwhile. -/

namespace Bento.Lifecycle
open Hypervisor Library.Contracts Library.Contracts.Rules Library.Programs Store Function List
open Runner (InstanceRef)

variable {ι : Type}

inductive Upkeep where
  | resize (new : ResizeRequest)
  | pollOnce
  | remove (uuid : String)

def Upkeep.program (manager : Manager) : Upkeep → ManagerM Unit
  | .resize new => do let _ ← manager.resize new
  | .pollOnce => manager.pollOnce
  | .remove uuid => manager.remove uuid

def locates (row : Instance) (hostId : Int) (spec : DomainSpec) : Prop := row.hostId = hostId ∧ row.name = spec.name

def describes (row : Instance) (hostId : Int) (spec : DomainSpec) : Prop :=
  locates row hostId spec ∧ row.vcpu = spec.vcpu ∧ row.memoryMib = spec.memoryMib ∧ row.nested = spec.nested

def World.Consistent (world : World) : Prop :=
  ∀ hostId, ∀ domain ∈ (world.machines hostId).domains, ∃ row ∈ world.fleet.instances,
    row.uuid = domain.spec.uuid ∧ describes row hostId domain.spec

/-- The world, the instances whose rows each call has read and not returned from, and the one
whose row it has changed in a way that its definition has to follow. -/
structure UpkeepDesk (ι : Type) where
  world : World
  held : ι → List String
  owing : ι → Option String

def ManagerCall.takes (manager : Manager) (world : World) : ManagerCall → List String
  | .store (.instance uuid) => [uuid]
  | .store (.instancesOnHost hostId) =>
    (world.fleet.instances.filter fun row => row.hostId = hostId ∧
      row.uuid ∈ (world.machines manager.hostId).seeds).map Instance.uuid
  | _ => []

def ManagerCall.resizing : ManagerCall → Option ResizeRequest
  | .store (.resize uuid vcpu memoryMib diskGib nested _) => some ⟨uuid, vcpu, memoryMib, diskGib, nested⟩
  | _ => none

def ManagerCall.owes (world : World) (owing : Option String) : (call : ManagerCall) → call.Answer → Option String
  | .store (.resize uuid vcpu memoryMib diskGib nested _), .ok _ =>
    if (world.fleet.instances.find? (·.uuid = uuid)).any fun row =>
      (ResizeRequest.result ⟨uuid, vcpu, memoryMib, diskGib, nested⟩ row).restartRequired
    then some uuid
    else owing
  | _, _ => owing

abbrev UpkeepAnswer := Program.Reporting ManagerCall.Answer (Except Error Unit)

abbrev Upkeeping (ι : Type) := Pool UpkeepAnswer ι (UpkeepDesk ι) (Except Error Unit)

section
variable [DecidableEq ι]

def UpkeepDesk.serve (manager : Manager) (i : ι) (moment : Moment) :
    (call : ManagerCall ⊕ Except Error Unit) → UpkeepDesk ι → UpkeepAnswer call × UpkeepDesk ι
  | .inl call, desk =>
    let served := call.serve manager moment desk.world
    (served.1, ⟨served.2, Function.update desk.held i (call.takes manager desk.world ++ desk.held i),
      Function.update desk.owing i (call.owes desk.world (desk.owing i) served.1)⟩)
  | .inr _, desk => ((), { desk with held := Function.update desk.held i [], owing := Function.update desk.owing i none })

def Upkeeping.begin (manager : Manager) (upkeeps : ι → Upkeep) (world : World) : Upkeeping ι :=
  ⟨⟨world, fun _ => [], fun _ => none⟩, fun i => some ((upkeeps i).program manager).run.reporting⟩

def Upkeeping.step (manager : Manager) (pool : Upkeeping ι) (event : PoolEvent ι Moment) : Option (Upkeeping ι) :=
  Pool.step (UpkeepDesk.serve manager) pool event

end

def World.Definable (manager : Manager) (world : World) (row : Instance) : Prop :=
  (row.hostId = manager.hostId → manager.definer = true) ∧
    ∃ owner ∈ world.fleet.users.find? (·.id = row.ownerId), (manager.domainXml row owner false).isOk = true

/-- A row is read when no other call holds its instance. A resize writes only what can be
defined, and then goes on. -/
structure UpkeepDesk.Permits (manager : Manager) (i : ι) (moment : Moment) (desk : UpkeepDesk ι)
    (call : ManagerCall) : Prop where
  alone : ∀ uuid ∈ call.takes manager desk.world, ∀ j, uuid ∈ desk.held j → j = i
  definable : ∀ new ∈ call.resizing, ∀ row ∈ desk.world.fleet.instances.find? (·.uuid = new.uuid),
    (new.result row).restartRequired = true → desk.world.Definable manager (Manager.resized new row)
  finishes : desk.owing i ≠ none → moment.fault = none

def Upkeeping.Permitted (manager : Manager) (pool : Upkeeping ι) : PoolEvent ι Moment → Prop
  | .step i moment => ∀ call ∈ (pool.thread i).bind Program.waiting,
      match call with
      | .inl call => pool.shared.Permits manager i moment call
      | .inr _ => True
  | .drop i => pool.shared.owing i = none

structure World.Same (uuid : String) (before after : World) : Prop where
  row : after.row uuid = before.row uuid
  domains : ∀ hostId, (after.machines hostId).domains.filter (·.spec.uuid = uuid) =
    (before.machines hostId).domains.filter (·.spec.uuid = uuid)

def World.Fits (fits : Instance → Int → DomainSpec → Prop) (uuid : String) (world : World) : Prop :=
  ∀ hostId, ∀ domain ∈ (world.machines hostId).domains, domain.spec.uuid = uuid →
    ∃ row, world.row uuid = some row ∧ fits row hostId domain.spec

abbrev World.Placed : String → World → Prop := World.Fits locates

abbrev World.Follows : String → World → Prop := World.Fits describes

section
variable {world before after : World} {uuid : String} {fits : Instance → Int → DomainSpec → Prop}

theorem World.Fits.same (holds : World.Fits fits uuid before) (same : World.Same uuid before after) :
    World.Fits fits uuid after := by
  intro hostId domain listed own
  have known : domain ∈ (after.machines hostId).domains.filter (·.spec.uuid = uuid) :=
    List.mem_filter.mpr ⟨listed, by simpa using own⟩
  rw [same.domains] at known
  rw [same.row]
  exact holds hostId domain (mem_of_mem_filter known) own

theorem placed_of_follows (follows : world.Follows uuid) : world.Placed uuid := by
  intro hostId domain listed own
  obtain ⟨row, found, fits⟩ := follows hostId domain listed own
  exact ⟨row, found, fits.1⟩

theorem row_of_mem (distinct : Distinct world.fleet.instances) {row : Instance} (listed : row ∈ world.fleet.instances) :
    world.row row.uuid = some (still row) := by
  unfold World.row
  rw [find?_of_mem distinct.uuids listed]
  rfl

theorem mem_of_row {known : Instance} (found : world.row uuid = some known) :
    ∃ row ∈ world.fleet.instances, row.uuid = uuid ∧ still row = known := by
  obtain ⟨row, first, rfl⟩ := Option.map_eq_some_iff.mp found
  exact ⟨row, mem_of_find?_eq_some first, by simpa using List.find?_some first, rfl⟩

theorem consistent_iff (distinct : Distinct world.fleet.instances) : world.Consistent ↔ ∀ uuid, world.Follows uuid := by
  constructor
  · rintro consistent uuid hostId domain listed rfl
    obtain ⟨row, known, own, described⟩ := consistent hostId domain listed
    exact ⟨still row, own ▸ row_of_mem distinct known, described⟩
  · intro follows hostId domain listed
    obtain ⟨_, found, described⟩ := follows domain.spec.uuid hostId domain listed rfl
    obtain ⟨row, known, own, rfl⟩ := mem_of_row found
    exact ⟨row, known, own, described⟩

theorem placed_name (distinct : Distinct world.fleet.instances) (placed : ∀ uuid, world.Placed uuid) {row : Instance}
    (found : world.row row.uuid = some (still row)) {hostId : Int} {domain : Domain}
    (listed : domain ∈ (world.machines hostId).domains) :
    domain.spec.uuid = row.uuid ↔ domain.spec.name = row.name := by
  obtain ⟨other, known, -, called⟩ := placed domain.spec.uuid hostId domain listed rfl
  constructor
  · intro same
    rw [same, found] at known
    cases known
    exact called.symm
  · intro same
    obtain ⟨first, member, own, rfl⟩ := mem_of_row known
    obtain ⟨second, also, mine, alike⟩ := mem_of_row found
    have equal : first = second := by
      apply inj_on_of_nodup_map distinct.names member also
      have name : (still second).name = (still row).name := congrArg Instance.name alike
      exact called.trans (same.trans name.symm)
    rw [← own, ← mine, equal]

end

structure UpkeepDesk.Tidy (desk : UpkeepDesk ι) : Prop where
  distinct : Distinct desk.world.fleet.instances
  placed : ∀ uuid, desk.world.Placed uuid
  apart : ∀ i j uuid, uuid ∈ desk.held i → uuid ∈ desk.held j → i = j
  owed : ∀ i uuid, desk.owing i = some uuid → uuid ∈ desk.held i
  follows : ∀ uuid, (∀ i, desk.owing i ≠ some uuid) → desk.world.Follows uuid

structure UpkeepDesk.Steady (i : ι) (before after : UpkeepDesk ι) : Prop where
  held : after.held i = before.held i
  owing : after.owing i = before.owing i
  users : after.world.fleet.users = before.world.fleet.users
  seeds : ∀ hostId, (after.world.machines hostId).seeds ⊆ (before.world.machines hostId).seeds
  same : ∀ uuid ∈ before.held i, World.Same uuid before.world after.world

def Idle (i : ι) (desk : UpkeepDesk ι) : Prop := desk.owing i = none

def Holds (i : ι) (row : Instance) (desk : UpkeepDesk ι) :
    Prop := row.uuid ∈ desk.held i ∧ desk.world.row row.uuid = some (still row)

def Settled (i : ι) (desk : UpkeepDesk ι) : Prop := ∀ uuid, desk.owing i = some uuid → desk.world.Follows uuid

theorem settled_of_idle {i : ι} {desk : UpkeepDesk ι} (idle : Idle i desk) : Settled i desk := by
  intro uuid owing
  rw [idle] at owing
  cases owing

theorem known_row {i : ι} {desk : UpkeepDesk ι} {row : Instance} (held : row.uuid ∈ desk.held i)
    (listed : desk.world.fleet.instances.find? (·.uuid = row.uuid) = some row) :
    Holds i row desk := by
  refine ⟨held, ?_⟩
  unfold World.row
  rw [listed]
  rfl

section
variable [DecidableEq ι] {manager : Manager} {i : ι} {moment : Moment} {desk : UpkeepDesk ι} {call : ManagerCall}

variable (manager) in
def upkeepRules : Rules UpkeepAnswer ι (UpkeepDesk ι) Moment where
  serve := UpkeepDesk.serve manager
  invariant := UpkeepDesk.Tidy
  allowed i moment call desk :=
    match call with
    | .inl call => desk.Permits manager i moment call
    | .inr _ => True
  safe _ _ _ := True
  rely := UpkeepDesk.Steady
  guarantee i before after := ∀ j, j ≠ i → UpkeepDesk.Steady j before after
  compatible := fun different _ _ _ gives => gives _ different

variable (manager) (i) in
abbrev UpkeepAsks (call : ManagerCall) (pre : UpkeepDesk ι → Prop) (reply : call.Answer → UpkeepDesk ι → Prop) : Prop :=
  (upkeepRules manager).silent.Operation i call pre reply

variable (manager) (i) in
abbrev UpkeepDoes {α : Type} (pre : UpkeepDesk ι → Prop) (program : ManagerM α) (post : α → UpkeepDesk ι → Prop) : Prop :=
  (upkeepRules manager).silent.Valid i pre program.run (outcome post (Settled i))

theorem tidy_serve (tidy : desk.Tidy) (permits : desk.Permits manager i moment call) (upkeeps : call.Upkeeps)
    (others : ∀ uuid, uuid ∉ desk.held i → World.Same uuid desk.world (call.serve manager moment desk.world).2)
    (owed : ∀ uuid, call.owes desk.world (desk.owing i) (call.serve manager moment desk.world).1 =
      some uuid → uuid ∈ desk.held i)
    (own : ∀ uuid ∈ desk.held i, (call.serve manager moment desk.world).2.Placed uuid ∧
      (call.owes desk.world (desk.owing i) (call.serve manager moment desk.world).1 = some uuid ∨
        (call.serve manager moment desk.world).2.Follows uuid)) :
    (UpkeepDesk.serve manager i moment (.inl call) desk).2.Tidy ∧
      ∀ j, j ≠ i → UpkeepDesk.Steady j desk (UpkeepDesk.serve manager i moment (.inl call) desk).2 := by
  have mine (uuid : String) (listed : uuid ∈ call.takes manager desk.world ++ desk.held i) (j : ι) (other : j ≠ i) :
      uuid ∉ desk.held j := by
    intro theirs
    rcases List.mem_append.mp listed with taken | held
    · exact other (permits.alone uuid taken j theirs)
    · exact other (tidy.apart j i uuid theirs held)
  constructor
  · refine ⟨serve_distinct upkeeps tidy.distinct, fun uuid => ?_, fun j k uuid one two => ?_, fun j uuid owes =>
      ?_, fun uuid none => ?_⟩
    · by_cases held : uuid ∈ desk.held i
      · exact (own uuid held).1
      · exact (tidy.placed uuid).same (others uuid held)
    · simp only [UpkeepDesk.serve] at one two
      by_cases first : j = i
      · by_cases second : k = i
        · rw [first, second]
        · rw [first, update_self] at one
          rw [update_of_ne second] at two
          exact (mine uuid one k second two).elim
      · rw [update_of_ne first] at one
        by_cases second : k = i
        · rw [second, update_self] at two
          exact (mine uuid two j first one).elim
        · rw [update_of_ne second] at two
          exact tidy.apart j k uuid one two
    · simp only [UpkeepDesk.serve] at owes ⊢
      by_cases same : j = i
      · subst same
        rw [update_self] at owes ⊢
        exact mem_append_right _ (owed uuid owes)
      · rw [update_of_ne same] at owes ⊢
        exact tidy.owed j uuid owes
    · by_cases held : uuid ∈ desk.held i
      · refine (own uuid held).2.resolve_left fun owes => none i ?_
        exact (update_self ..).trans owes
      · refine World.Fits.same (tidy.follows uuid fun j owes => ?_) (others uuid held)
        by_cases same : j = i
        · exact held (tidy.owed i uuid (same ▸ owes))
        · exact none j ((update_of_ne same ..).trans owes)
  · intro j other
    refine ⟨update_of_ne other .., update_of_ne other .., serve_users .., serve_seeds upkeeps, fun uuid theirs => ?_⟩
    exact others uuid fun held => other (tidy.apart j i uuid theirs held)

theorem tidy_same (tidy : desk.Tidy) (permits : desk.Permits manager i moment call) (upkeeps : call.Upkeeps)
    (same : ∀ uuid, World.Same uuid desk.world (call.serve manager moment desk.world).2)
    (owes : call.owes desk.world (desk.owing i) (call.serve manager moment desk.world).1 = desk.owing i) :
    (UpkeepDesk.serve manager i moment (.inl call) desk).2.Tidy ∧
      ∀ j, j ≠ i → UpkeepDesk.Steady j desk (UpkeepDesk.serve manager i moment (.inl call) desk).2 := by
  refine tidy_serve tidy permits upkeeps (fun uuid _ => same uuid) (fun uuid owing => ?_) fun uuid held =>
    ⟨(tidy.placed uuid).same (same uuid), ?_⟩
  · rw [owes] at owing
    exact tidy.owed i uuid owing
  · rw [owes]
    by_cases owing : desk.owing i = some uuid
    · exact .inl owing
    · refine .inr (World.Fits.same (tidy.follows uuid fun j theirs => ?_) (same uuid))
      exact owing (tidy.apart j i uuid (tidy.owed j uuid theirs) held ▸ theirs)

theorem tidy_target {target : String} (tidy : desk.Tidy) (permits : desk.Permits manager i moment call)
    (upkeeps : call.Upkeeps) (held : target ∈ desk.held i)
    (others : ∀ uuid, uuid ≠ target → World.Same uuid desk.world (call.serve manager moment desk.world).2)
    (owes : call.owes desk.world (desk.owing i) (call.serve manager moment desk.world).1 = desk.owing i ∨
      desk.owing i = none ∧ call.owes desk.world (desk.owing i) (call.serve manager moment desk.world).1 = some target)
    (placed : (call.serve manager moment desk.world).2.Placed target)
    (own : call.owes desk.world (desk.owing i) (call.serve manager moment desk.world).1 = some target ∨
      (call.serve manager moment desk.world).2.Follows target) :
    (UpkeepDesk.serve manager i moment (.inl call) desk).2.Tidy ∧
      ∀ j, j ≠ i → UpkeepDesk.Steady j desk (UpkeepDesk.serve manager i moment (.inl call) desk).2 := by
  refine tidy_serve tidy permits upkeeps (fun uuid free => others uuid fun same => free (same ▸ held))
    (fun uuid owing => ?_) fun uuid mine => ?_
  · rcases owes with same | ⟨-, new⟩
    · rw [same] at owing
      exact tidy.owed i uuid owing
    · rw [new] at owing
      cases owing
      exact held
  · by_cases same : uuid = target
    · subst same
      exact ⟨placed, own⟩
    · refine ⟨(tidy.placed uuid).same (others uuid same), ?_⟩
      by_cases owing : desk.owing i = some uuid
      · rcases owes with kept | ⟨none, -⟩
        · exact .inl (kept.trans owing)
        · cases none.symm.trans owing
      · refine .inr (World.Fits.same (tidy.follows uuid fun j theirs => ?_) (others uuid same))
        exact owing (tidy.apart j i uuid (tidy.owed j uuid theirs) mine ▸ theirs)

def ManagerCall.Quiet : ManagerCall → Prop
  | .store (.instance _) | .store (.instancesOnHost _) | .store (.createInstance _ _) | .store (.deleteInstance _) |
      .store (.renameInstance _ _)
  | .store (.resize _ _ _ _ _ _) => False
  | .act _ _ | .define _ | .create _ | .buildIso _ | .change _ _ _ | .provision _ | .redefine _ => False
  | _ => True

structure ManagerCall.Inert (manager : Manager) (world : World) (call : ManagerCall) : Prop where
  upkeeps : call.Upkeeps
  plain : call.Plain
  rewrites : call.rewrites = []
  takes : call.takes manager world = []
  owes : ∀ owing answer, call.owes world owing answer = owing

theorem ManagerCall.Quiet.inert (quiet : call.Quiet) (manager : Manager) (world : World) :
    call.Inert manager world := by
  cases call with
  | store body =>
    cases body with
    | «instance» _ | instancesOnHost _ | createInstance _ _ | deleteInstance _ | renameInstance _ _ | resize _ _ _ _ _ _ =>
      exact quiet.elim
    | _ => exact ⟨trivial, trivial, rfl, rfl, fun _ _ => rfl⟩
  | act _ _ | define _ | create _ | buildIso _ | change _ _ _ | provision _ | redefine _ => exact quiet.elim
  | _ => exact ⟨trivial, trivial, rfl, rfl, fun _ _ => rfl⟩

variable {uuid : String} {world : World} {row : Instance}

theorem plain_same (plain : call.Plain) (kept : uuid ∉ call.rewrites) :
    World.Same uuid world (call.serve manager moment world).2 :=
  ⟨serve_row kept, fun hostId => by rw [serve_plain plain]⟩

theorem quiet_serve (quiet : call.Quiet) (tidy : desk.Tidy) (permits : desk.Permits manager i moment call) :
    (UpkeepDesk.serve manager i moment (.inl call) desk).2.Tidy ∧
      (∀ j, j ≠ i → UpkeepDesk.Steady j desk (UpkeepDesk.serve manager i moment (.inl call) desk).2) ∧
      UpkeepDesk.Steady i desk (UpkeepDesk.serve manager i moment (.inl call) desk).2 := by
  have inert := quiet.inert manager desk.world
  have same (uuid : String) : World.Same uuid desk.world (call.serve manager moment desk.world).2 :=
    plain_same inert.plain (by rw [inert.rewrites]; exact not_mem_nil)
  obtain ⟨kept, gives⟩ := tidy_same tidy permits inert.upkeeps same (inert.owes ..)
  refine ⟨kept, gives, ?_, ?_, serve_users .., serve_seeds inert.upkeeps, fun uuid _ => same uuid⟩
  · refine (update_self ..).trans ?_
    rw [inert.takes, nil_append]
  · exact (update_self ..).trans (inert.owes ..)

theorem quiet_operation {assertion : UpkeepDesk ι → Prop} (quiet : call.Quiet)
    (stable : (upkeepRules manager).Stable i assertion) :
    UpkeepAsks manager i call assertion fun _ => assertion where
  waiting := stable
  safe _ _ _ := trivial
  execute desk moment tidy holds permits := by
    obtain ⟨kept, gives, steady⟩ := quiet_serve quiet tidy permits
    exact ⟨kept, gives, stable _ _ tidy kept steady holds⟩

section
variable (manager) (i)

theorem stable_idle : (upkeepRules manager).Stable i (Idle i) := fun _ _ _ _ steady idle => steady.owing.trans idle

theorem stable_holds (row : Instance) : (upkeepRules manager).Stable i (Holds i row) := by
  rintro before after - - steady ⟨held, known⟩
  refine ⟨?_, (steady.same row.uuid held).row.trans known⟩
  rw [steady.held]
  exact held

theorem stable_settled : (upkeepRules manager).Stable i (Settled i) := by
  rintro before after tidy - steady settled uuid owing
  rw [steady.owing] at owing
  exact (settled uuid owing).same (steady.same uuid (tidy.owed i uuid owing))

end

theorem read_operation : UpkeepAsks manager i (.store (.instance uuid)) (Idle i)
    (outcome (fun row desk => row.uuid = uuid ∧ Holds i row desk ∧ Idle i desk) (Settled i)) where
  waiting := stable_idle manager i
  safe _ _ _ := trivial
  execute desk moment tidy idle permits := by
    obtain ⟨same, found⟩ := instance_serve manager moment uuid desk.world
    have unchanged (other : String) :
        World.Same other desk.world ((ManagerCall.store (.instance uuid)).serve manager moment desk.world).2 :=
      plain_same trivial not_mem_nil
    obtain ⟨kept, gives⟩ := tidy_same tidy permits trivial unchanged rfl
    refine ⟨kept, gives, ?_⟩
    have still : Idle i (UpkeepDesk.serve manager i moment (.inl (.store (.instance uuid))) desk).2 :=
      (update_self ..).trans idle
    simp only [silent, upkeepRules]
    cases answer : (UpkeepDesk.serve manager i moment (.inl (.store (.instance uuid))) desk).1 with
    | error => exact settled_of_idle still
    | ok row =>
      have listed := found row answer
      have own : row.uuid = uuid := by simpa using List.find?_some listed
      refine ⟨own, known_row ?_ ?_, still⟩
      · simp only [UpkeepDesk.serve, update_self]
        rw [own]
        exact mem_cons_self
      · simp only [UpkeepDesk.serve]
        rw [same, own]
        exact listed

theorem valid_read {α : Type} {next : Instance → ManagerM α} {post : α → UpkeepDesk ι → Prop}
    (rest : ∀ row, row.uuid = uuid →
      UpkeepDoes manager i (fun desk => Holds i row desk ∧ Idle i desk) (next row) post) :
    UpkeepDoes manager i (Idle i) (stored (.instance uuid) >>= next) post :=
  Valid.bind_except (valid_stored read_operation) fun row => Valid.given (rest row)

theorem keeps_same (untouched : uuid ∉ call.touched manager world) (kept : uuid ∉ call.rewrites) :
    World.Same uuid world (call.serve manager moment world).2 :=
  ⟨serve_row kept, fun hostId => (serve_keeps untouched hostId).domains⟩

theorem placed_host (placed : world.Placed row.uuid) (found : world.row row.uuid = some (still row)) {hostId : Int}
    {domain : Domain} (listed : domain ∈ (world.machines hostId).domains) (own : domain.spec.uuid = row.uuid) :
    hostId = row.hostId := by
  obtain ⟨other, known, there, -⟩ := placed hostId domain listed own
  rw [found] at known
  cases known
  exact there.symm

theorem follows_define {network : String} {withIso : Bool} {machine : Hypervisor.Machine}
    (placed : world.Placed row.uuid) (found : world.row row.uuid = some (still row))
    (defined : (world.machines row.hostId).define (domainSpec row network withIso) = .ok machine) :
    (world.setMachine row.hostId machine).Follows row.uuid := by
  intro hostId domain listed own
  refine ⟨still row, found, ?_⟩
  by_cases here : hostId = row.hostId
  · subst here
    rw [World.setMachine_same] at listed
    have same := Machine.spec_define defined listed own
    rw [same]
    exact ⟨⟨rfl, rfl⟩, rfl, rfl, rfl⟩
  · rw [World.setMachine_other _ _ _ here] at listed
    exact (here (placed_host placed found listed own)).elim

theorem define_serve {network : String} {withIso : Bool} (tidy : desk.Tidy)
    (permits : desk.Permits manager i moment (.define (domainSpec row network withIso))) (holds : Holds i row desk)
    (here : row.hostId = manager.hostId) :
    (UpkeepDesk.serve manager i moment (.inl (.define (domainSpec row network withIso))) desk).2.Tidy ∧
      (∀ j, j ≠ i → UpkeepDesk.Steady j desk
        (UpkeepDesk.serve manager i moment (.inl (.define (domainSpec row network withIso))) desk).2) ∧
      ((∃ error, ((ManagerCall.define (domainSpec row network withIso)).serve manager moment desk.world).1 =
        .error error) ∨
        ((ManagerCall.define (domainSpec row network withIso)).serve manager moment desk.world).2.Follows
          row.uuid) := by
  rcases define_cases manager moment desk.world (domainSpec row network withIso) with ⟨machine, defined, after⟩ |
    ⟨refused, after⟩
  · have follows : ((ManagerCall.define (domainSpec row network withIso)).serve manager moment desk.world).2.Follows
      row.uuid := by
      rw [after, ← here]
      rw [← here] at defined
      exact follows_define (tidy.placed row.uuid) holds.2 defined
    obtain ⟨kept, gives⟩ := tidy_target tidy permits trivial holds.1
      (fun uuid other => keeps_same (by simpa [ManagerCall.touched, domainSpec] using other) not_mem_nil)
      (.inl rfl) (placed_of_follows follows) (.inr follows)
    exact ⟨kept, gives, .inr follows⟩
  · obtain ⟨kept, gives⟩ := tidy_same tidy permits trivial (fun uuid => by rw [after]; exact ⟨rfl, fun _ => rfl⟩) rfl
    exact ⟨kept, gives, .inl refused⟩

end

end Bento.Lifecycle
