import Bento.Proofs.ManagerContracts
import Bento.Proofs.Removal
import Bento.Proofs.RowFrames

/-! A copy beside starts, stops and resizes of its source. The row is read and the state of
the domain looked up some calls before the overlay is copied, so the copy is of a stopped
disk of the size it has read only if the source stays as it is in between. -/

namespace Bento.Lifecycle
open Hypervisor Library.Contracts Library.Contracts.Rules Library.Programs Library.Runs Store Function List Valid
open Library.Programs.Program (ensures_pure only_ask only_pure)

inductive SourceCall where
  | start
  | startForConnection
  | stop
  | resize (request : ResizeRequest)

abbrev CopyResult := Except Error (Option Instance)

abbrev CopyAnswer := Program.Reporting ManagerCall.Answer CopyResult

def SourceCall.program (manager : Manager) (uuid : String) : SourceCall → ManagerM (Option Instance)
  | .start => do
    manager.start uuid
    return none
  | .startForConnection => do
    manager.startForConnection uuid
    return none
  | .stop => do
    let _ ← manager.stop uuid
    return none
  | .resize request => do
    let _ ← manager.resize (request.named uuid)
    return none

def copying (manager : Manager) (mac : String → String) (uuid : String) (request : Manager.NewRequest) :
    ManagerM (Option Instance) := do
  let row ← manager.copy mac uuid request
  return some row

inductive CopyStage where
  | idle
  | read
  | checked
deriving DecidableEq

structure CopyDesk where
  world : World
  sizes : String → Nat
  stage : CopyStage

def ManagerCall.stageAfter (stage : CopyStage) : ManagerCall → CopyStage
  | .store (.instance _) => .read
  | .state _ => .checked
  | .copyOverlay _ _ => .idle
  | _ => stage

def ManagerCall.sizesAfter (refused : Bool) (sizes : String → Nat) : ManagerCall → String → Nat
  | .copyOverlay source target => if refused then sizes else Function.update sizes target (sizes source)
  | .resizeOverlay uuid diskGib => if refused then sizes else Function.update sizes uuid diskGib
  | _ => sizes

namespace CopyDesk

def refusing (desk : CopyDesk) (moment : Moment) : ManagerCall → Moment
  | .resizeOverlay uuid diskGib =>
    if diskGib < desk.sizes uuid then { moment with fault := some (.refused (.machine "lifecycle: qemu-img resize")) }
    else moment
  | _ => moment

variable {ι : Type}

def serve (manager : Manager) (i : Option ι) (moment : Moment) :
    (call : ManagerCall ⊕ CopyResult) → CopyDesk → CopyAnswer call × CopyDesk
  | .inl call, desk =>
    let served := call.serve manager (desk.refusing moment call) desk.world
    (served.1, {
      world := served.2
      sizes := call.sizesAfter (desk.refusing moment call).refuses desk.sizes
      stage := if i.isNone then call.stageAfter desk.stage else desk.stage })
  | .inr _, desk => ((), { desk with stage := if i.isNone then .idle else desk.stage })

/-- The copy reads its row when the overlay has the stored size. From then on until it has
copied the overlay or returned, the overlay does not grow, and the domain is not started
once the copy has looked it up. -/
def Permits (uuid : String) (desk : CopyDesk) : Option ι → ManagerCall ⊕ CopyResult → Prop
  | none, .inl (.store (.instance _)) => ∀ row ∈ desk.world.fleet.instances.find? (·.uuid = uuid),
    row.diskGib = desk.sizes uuid
  | some _, .inl (.act .start _) => desk.stage ≠ .checked
  | some _, .inl (.resizeOverlay _ _) => desk.stage = .idle
  | _, _ => True

end CopyDesk

section
variable {ι : Type}

abbrev Copying (ι : Type) := Pool CopyAnswer (Option ι) CopyDesk CopyResult

def Copying.begin (manager : Manager) (mac : String → String) (uuid : String) (request : Manager.NewRequest)
    (calls : ι → SourceCall) (world : World) (sizes : String → Nat) : Copying ι :=
  ⟨⟨world, sizes, .idle⟩, fun
    | none => some (copying manager mac uuid request).run.reporting
    | some i => some ((calls i).program manager uuid).run.reporting⟩

def Copying.step [DecidableEq ι] (manager : Manager) (pool : Copying ι) (event : PoolEvent (Option ι) Moment) :
    Option (Copying ι) :=
  Pool.step (CopyDesk.serve manager) pool event

def Copying.Permitted (uuid : String) (pool : Copying ι) : PoolEvent (Option ι) Moment → Prop
  | .step i _ => ∀ call ∈ (pool.thread i).bind Program.waiting, pool.shared.Permits uuid i call
  | .drop _ => True

end

def World.Down (world : World) (hostId : Int) (name : String) : Prop :=
  ∀ domain ∈ (world.machines hostId).domain name, domain.state = .stopped

def World.storedDisk (world : World) (uuid : String) : Option Nat := (world.row uuid).map Instance.diskGib

/-- While the overlay is copied the domain of the source is stopped, and the row of a copy
that was made has the size of its overlay. -/
structure Copying.OfStoppedDisk {ι : Type} (uuid : String) (pool : Copying ι) : Prop where
  stopped : ∀ source target, (pool.thread none).bind Program.waiting = some (.inl (.copyOverlay source target)) →
    ∀ row ∈ pool.shared.world.fleet.instances.find? (·.uuid = uuid), pool.shared.world.Down row.hostId row.name
  sized : ∀ row, (pool.thread none).bind Program.ended = some (.ok (some row)) →
    pool.shared.world.storedDisk row.uuid = some (pool.shared.sizes row.uuid)

def World.place (world : World) (uuid : String) : Option (String × Int) :=
  (world.fleet.instances.find? (·.uuid = uuid)).map fun row => (row.name, row.hostId)

structure CopyDesk.Steady (manager : Manager) (uuid : String) (desk after : CopyDesk) : Prop where
  stage : after.stage = desk.stage
  place : after.world.place uuid = desk.world.place uuid
  rows : ∀ other, other ≠ uuid → after.world.row other = desk.world.row other
  sizes : ∀ other, other ≠ uuid ∨ desk.stage ≠ .idle → after.sizes other = desk.sizes other
  down : desk.stage = .checked → ∀ name, desk.world.Down manager.hostId name → after.world.Down manager.hostId name

def ManagerCall.OnSource (manager : Manager) (uuid : String) : ManagerCall → Prop
  | .store (.instance _) | .store (.hostCapacity _) | .store (.checkResize _ _ _ _) | .store (.userById _)
  | .store (.setDesiredState _ _) | .store (.setObservedState _ _) => True
  | .store (.resize target _ _ _ _ _) | .resizeOverlay target _ => target = uuid
  | .act action _ => action = .start ∨ action = .stop
  | .change hostId _ _ => hostId ≠ manager.hostId
  | .hypervisor _ | .inventory _ | .define _ | .redefine _ | .isoExists _ | .resizeDisk _ _ _ => True
  | _ => False

section
variable {manager : Manager} {uuid : String}

variable {name : String}

theorem domain_define_stopped {machine after : Hypervisor.Machine} {spec : DomainSpec}
    (defined : machine.define spec = .ok after) (down : ∀ domain ∈ machine.domain name, domain.state = .stopped) :
    ∀ domain ∈ after.domain name, domain.state = .stopped := by
  intro domain found
  unfold Machine.define at defined
  split at defined
  next =>
    cases defined
    rcases Option.or_eq_some_iff.mp (List.find?_append.symm.trans found) with old | ⟨-, new⟩
    · exact down domain old
    · rw [List.mem_singleton.mp (mem_of_find?_eq_some new)]
  next =>
    split at defined
    next together =>
      cases defined
      -- the new definition has the name of the one that it replaces
      have same : ∀ other ∈ machine.domains,
        decide ((if other.spec.uuid = spec.uuid then { other with spec } else other).spec.name = name) =
          decide (other.spec.name = name) := by
        intro other listed
        split
        next own => rw [(together other listed).mp own]
        next => rfl
      have named := (List.find?_map ..).symm.trans found
      rw [← List.head?_filter, comp_def, filter_congr same, List.head?_filter] at named
      obtain ⟨before, old, rfl⟩ := Option.map_eq_some_iff.mp named
      split
      next => exact down before old
      next => exact down before old
    next => cases defined

theorem place_rows {body : StoreCall} {before after : List Instance}
    (source : (ManagerCall.store body).OnSource manager uuid) (rows : body.Rows before after) :
    (after.find? (·.uuid = uuid)).map (fun row => (row.name, row.hostId)) =
      (before.find? (·.uuid = uuid)).map fun row => (row.name, row.hostId) := by
  cases rows with
  | read => rfl
  | sameName => rfl
  | created _ | deleted | renamed | polled => exact source.elim
  | _ =>
    apply find?_map_view
    · intro row
      split <;> rfl
    · intro row _
      split <;> rfl

theorem World.Down.set {world : World} {hostId other : Int} {machine : Hypervisor.Machine}
    (down : world.Down hostId name) (there : hostId = other → ∀ domain ∈ machine.domain name, domain.state = .stopped) :
    (world.setMachine other machine).Down hostId name := by
  unfold World.Down
  by_cases same : hostId = other
  · subst same
    rw [World.setMachine_same]
    exact there rfl
  · rw [World.setMachine_other _ _ _ same]
    exact down

theorem World.Down.serve {world : World} {moment : Moment} {call : ManagerCall} (down : world.Down manager.hostId name)
    (source : call.OnSource manager uuid) (idle : ∀ other, call ≠ .act .start other) :
    (call.serve manager moment world).2.Down manager.hostId name := by
  have plain (plain : call.Plain) : (call.serve manager moment world).2.Down manager.hostId name := by
    unfold World.Down Machine.domain
    rw [serve_plain plain]
    exact down
  cases call with
  | act action other =>
    rcases act_cases manager moment world action other with ⟨machine, acted, same⟩ | ⟨-, same⟩
    · rw [same]
      refine down.set fun _ domain found => ?_
      cases acted with
      | start => exact (idle other rfl).elim
      | stopped => exact down domain found
      | stop =>
        rw [Machine.domain_setState] at found
        obtain ⟨before, old, rfl⟩ := Option.map_eq_some_iff.mp found
        split
        next => rfl
        next => exact down before old
      | _ => rcases source with other | other <;> cases other
    · rw [same]
      exact down
  | define spec =>
    rcases define_cases manager moment world spec with ⟨machine, defined, same⟩ | ⟨-, same⟩
    · rw [same]
      exact down.set fun _ => domain_define_stopped defined down
    · rw [same]
      exact down
  | change hostId action target =>
    rcases change_cases manager moment world hostId action target with ⟨machine, -, same⟩ | ⟨-, same⟩
    · rw [same]
      exact down.set fun here => (source here.symm).elim
    · rw [same]
      exact down
  | redefine spec =>
    have performed : ((ManagerCall.redefine spec).perform manager moment world).2.Down manager.hostId name := by
      simp only [ManagerCall.perform]
      split
      next => exact down
      next remote => exact down.set fun here => (remote here.symm).elim
    rcases serve_cases manager moment (.redefine spec) world with same | ⟨_, -, same | same⟩
    · rw [same]
      exact performed
    · rw [same]
      exact down
    · rw [same]
      exact performed
  | create _ | provision _ => exact source.elim
  | _ => exact plain trivial

variable {ι : Type}

theorem steady_serve {call : ManagerCall} {desk : CopyDesk} {moment : Moment} {i : ι}
    (source : call.OnSource manager uuid) (permits : desk.Permits uuid (some i) (.inl call)) :
    desk.Steady manager uuid (CopyDesk.serve manager (some i) moment (.inl call) desk).2 where
  stage := rfl
  place := by
    rcases serve_rows manager (desk.refusing moment call) call desk.world with same | ⟨body, rfl, rows⟩
    · exact congrArg (fun rows : List Instance => (rows.find? (·.uuid = uuid)).map fun row =>
        (row.name, row.hostId)) same
    · exact place_rows source rows
  rows other apart := by
    refine serve_row fun listed => ?_
    cases call with
    | store body =>
      cases body with
      | resize => exact apart ((List.mem_singleton.mp listed).trans source)
      | createInstance _ _ | deleteInstance _ | renameInstance _ _ => exact source
      | _ => cases listed
    | _ => cases listed
  sizes other apart := by
    cases call with
    | resizeOverlay target =>
      obtain rfl : target = uuid := source
      have elsewhere : other ≠ target := apart.resolve_right (not_not.mpr permits)
      simp only [CopyDesk.serve, ManagerCall.sizesAfter]
      split
      next => rfl
      next => exact update_of_ne elsewhere ..
    | copyOverlay => exact source.elim
    | _ => rfl
  down checked name down := by
    refine down.serve source fun other same => ?_
    subst same
    exact permits checked

end

def copyRules (ι : Type) (manager : Manager) (uuid : String) : Rules CopyAnswer (Option ι) CopyDesk Moment where
  serve := CopyDesk.serve manager
  invariant _ := True
  allowed i _ call desk := desk.Permits uuid i call
  safe i call desk := i = none → ∀ source target, call = .inl (.copyOverlay source target) →
    ∀ row ∈ desk.world.fleet.instances.find? (·.uuid = uuid), desk.world.Down row.hostId row.name
  rely i before after := i = none → before.Steady manager uuid after
  guarantee i before after := i ≠ none → before.Steady manager uuid after
  compatible := fun different _ _ _ gives own => gives fun same => different (own.trans same.symm)

section
variable (ι : Type) (manager : Manager) (uuid : String)

abbrev CopyStable (assertion : CopyDesk → Prop) : Prop := (copyRules ι manager uuid).silent.Stable none assertion

abbrev CopyAsks (call : ManagerCall) (pre : CopyDesk → Prop) (reply : call.Answer → CopyDesk → Prop) : Prop :=
  (copyRules ι manager uuid).silent.Operation none call pre reply

abbrev CopyDoes {α : Type} (pre : CopyDesk → Prop) (program : ManagerM α) (post : α → CopyDesk → Prop) : Prop :=
  (copyRules ι manager uuid).silent.Valid none pre program.run (outcome post fun _ => True)

end

structure CopyDesk.Read (uuid : String) (source : Instance) (desk : CopyDesk) : Prop where
  busy : desk.stage ≠ .idle
  place : desk.world.place uuid = some (source.name, source.hostId)
  size : desk.sizes uuid = source.diskGib

structure CopyDesk.Checked (manager : Manager) (uuid : String) (source : Instance) (desk : CopyDesk) :
    Prop extends desk.Read uuid source where
  checked : desk.stage = .checked
  down : desk.world.Down manager.hostId source.name

def CopyDesk.Stored (uuid : String) (row : Instance) (desk : CopyDesk) : Prop :=
  row.uuid ≠ uuid ∧ desk.world.storedDisk row.uuid = some row.diskGib

def CopyDesk.Sized (uuid : String) (row : Instance) (size : Nat) (desk : CopyDesk) : Prop :=
  desk.Stored uuid row ∧ desk.sizes row.uuid = size

section
variable {ι : Type} {manager : Manager} {uuid : String} {source row : Instance}

theorem stable_read : CopyStable ι manager uuid (CopyDesk.Read uuid source) := by
  intro before after _ _ relies read
  have steady := relies rfl
  exact ⟨steady.stage ▸ read.busy, steady.place.trans read.place, (steady.sizes uuid (.inr read.busy)).trans read.size⟩

theorem stable_checked : CopyStable ι manager uuid (CopyDesk.Checked manager uuid source) := by
  intro before after kept still relies known
  have steady := relies rfl
  exact ⟨stable_read before after kept still relies known.toRead, steady.stage.trans known.checked,
    steady.down known.checked _ known.down⟩

theorem stable_stored : CopyStable ι manager uuid (CopyDesk.Stored uuid row) := by
  intro before after _ _ relies stored
  refine ⟨stored.1, ?_⟩
  unfold World.storedDisk
  rw [(relies rfl).rows _ stored.1]
  exact stored.2

variable {size : Nat} {call : ManagerCall} {pre : CopyDesk → Prop} {α : Type}

theorem stable_sized : CopyStable ι manager uuid (CopyDesk.Sized uuid row size) := by
  intro before after kept still relies sized
  exact ⟨stable_stored before after kept still relies sized.1, ((relies rfl).sizes _ (.inl sized.1.1)).trans sized.2⟩

theorem copy_operation {reply : call.Answer → CopyDesk → Prop}
    (stable : CopyStable ι manager uuid pre) (other : ∀ source target, call ≠ .copyOverlay source target)
    (executes : ∀ desk moment, pre desk → desk.Permits (ι := ι) uuid none (.inl call) →
      reply (CopyDesk.serve (ι := ι) manager none moment (.inl call) desk).1
        (CopyDesk.serve (ι := ι) manager none moment (.inl call) desk).2) :
    CopyAsks ι manager uuid call pre reply where
  waiting := stable
  safe _ _ _ _ source target same := (other source target (Sum.inl.inj same)).elim
  execute desk moment _ holds permits := ⟨trivial, fun own => (own rfl).elim, executes desk moment holds permits⟩

def ManagerCall.Prepares : ManagerCall → Prop
  | .store (.imageVersion _) | .store (.hostCapacity _) | .allocateInOwnedSlot _ _ | .mint => True
  | _ => False

theorem ManagerCall.Prepares.keeps (prepares : call.Prepares) :
    call.Reads ∧ (∀ world, call.touched manager world = []) ∧ (∀ stage, call.stageAfter stage = stage) ∧
      ∀ refused sizes, call.sizesAfter refused sizes = sizes := by
  cases call with
  | store body =>
    cases body <;> first | exact prepares.elim | exact ⟨trivial, fun _ => rfl, fun _ => rfl, fun _ _ => rfl⟩
  | allocateInOwnedSlot | mint => exact ⟨trivial, fun _ => rfl, fun _ => rfl, fun _ _ => rfl⟩
  | _ => exact prepares.elim

theorem prepare_operation (stable : CopyStable ι manager uuid pre) (prepares : call.Prepares) :
    CopyAsks ι manager uuid call pre fun _ => pre := by
  refine copy_operation stable ?_ fun desk moment holds _ => ?_
  · rintro _ _ rfl
    exact prepares
  · obtain ⟨reads, none, stage, sizes⟩ := @ManagerCall.Prepares.keeps manager call prepares
    have same : (call.serve manager (desk.refusing moment call) desk.world).2 = desk.world := by
      refine congrArg₂ World.mk (serve_reads reads) (funext fun hostId => ?_)
      refine (serve_changes manager _ call desk.world hostId).induct (· = _) rfl fun edit _ _ among => ?_
      exact absurd (none _ ▸ among.target) not_mem_nil
    simp only [CopyDesk.serve, same, stage, sizes, ite_self]
    exact holds

theorem valid_prepares {program : ManagerM α} {post : α → Prop}
    (stable : CopyStable ι manager uuid pre) (ensures : program.run.Ensures ManagerCall.Prepares (succeeding post)) :
    CopyDoes ι manager uuid pre program fun value desk => post value ∧ pre desk := by
  refine (of_ensures (fun _ => prepare_operation stable) ensures).post_mono fun result => ?_
  cases result with
  | ok => exact .rfl
  | error => exact fun _ _ _ => trivial

theorem copy_read_operation : CopyAsks ι manager uuid (.store (.instance uuid)) (fun _ => True)
    (outcome (fun source desk => source.uuid = uuid ∧ desk.Read uuid source) fun _ => True) := by
  refine copy_operation (fun _ _ _ _ _ _ => trivial) nofun fun desk moment _ permits => ?_
  obtain ⟨same, known⟩ := instance_serve manager moment uuid desk.world
  simp only [CopyDesk.serve, CopyDesk.refusing, same]
  cases answer : ((ManagerCall.store (.instance uuid)).serve manager moment desk.world).1 with
  | error => trivial
  | ok source =>
    have found := known source answer
    refine ⟨by simpa using List.find?_some found, nofun, ?_, (permits source found).symm⟩
    exact congrArg (Option.map fun row : Instance => (row.name, row.hostId)) found

theorem lookup_operation : CopyAsks ι manager uuid (.state source.name) (CopyDesk.Read uuid source)
      fun answer desk => Manager.copyable source answer = .ok () → desk.Checked manager uuid source := by
  refine copy_operation stable_read nofun fun desk moment read _ copyable => ?_
  have answered : ((ManagerCall.state source.name).serve manager moment desk.world).2 = desk.world ∧
      (Manager.copyable source ((ManagerCall.state source.name).serve manager moment desk.world).1 = .ok () →
        desk.world.Down manager.hostId source.name) := by
    unfold ManagerCall.serve
    split
    next =>
      refine ⟨rfl, fun passed domain found => ?_⟩
      simp only [ManagerCall.perform, Machine.state, Machine.lookup_ok.mpr found, Except.map] at passed
      cases state : domain.state <;> rw [state] at passed <;> first | rfl | cases passed
    next => exact ⟨rfl, fun passed => by cases passed⟩
    next => exact ⟨rfl, fun passed => by cases passed⟩
  simp only [CopyDesk.serve, CopyDesk.refusing, answered.1]
  exact ⟨⟨fun same => (by cases same), read.place, read.size⟩, rfl, answered.2 copyable⟩

theorem insert_operation (capacity : Capacity) :
    CopyAsks ι manager uuid (.store (.createInstance row capacity)) (CopyDesk.Checked manager uuid source)
      (outcome (fun _ desk => desk.Checked manager uuid source ∧ desk.Stored uuid row) fun _ => True) := by
  refine copy_operation stable_checked nofun fun desk moment known _ => ?_
  simp only [CopyDesk.serve, CopyDesk.refusing]
  rcases store_cases manager moment desk.world (.createInstance row capacity) with ⟨reply, fleet, answer, ran, same⟩ |
    ⟨⟨cause, answer⟩, -⟩
  · rw [answer, same]
    obtain ⟨-, admitted, createdAt, rfl⟩ := createInstance_ok ran
    have fresh (other : Instance) (listed : other ∈ desk.world.fleet.instances) :
        other.uuid ≠ row.uuid := (admitted.1 other listed).1
    obtain ⟨before, found, placed⟩ := Option.map_eq_some_iff.mp known.place
    have own : before.uuid = uuid := by simpa using List.find?_some found
    have apart : row.uuid ≠ uuid := fun same => fresh before (mem_of_find?_eq_some found) (own.trans same.symm)
    have absent : desk.world.fleet.instances.find? (·.uuid = row.uuid) = none :=
      List.find?_eq_none.mpr fun other listed => by simpa using fresh other listed
    refine ⟨⟨⟨known.busy, ?_, known.size⟩, known.checked, known.down⟩, apart, ?_⟩
    · unfold World.place
      rw [List.find?_append, found, Option.some_or, Option.map_some, placed]
    · unfold World.storedDisk World.row
      rw [List.find?_append, absent, Option.none_or, List.find?_cons_of_pos (by simp)]
      rfl
  · rw [answer]
    trivial

theorem overlay_operation (here : source.hostId = manager.hostId) : CopyAsks ι manager uuid (.copyOverlay uuid row.uuid)
      (fun desk => desk.Checked manager uuid source ∧ desk.Stored uuid row)
        (outcome (fun _ => CopyDesk.Sized uuid row source.diskGib) fun _ => True) where
  waiting := stable_checked.and stable_stored
  safe desk _ known _ _ _ _ found listed := by
    obtain ⟨before, same, placed⟩ := Option.map_eq_some_iff.mp known.1.place
    cases listed.symm.trans same
    obtain ⟨named, there⟩ := Prod.mk.inj placed
    rw [named, there, here]
    exact known.1.down
  execute desk moment _ known _ := by
    refine ⟨trivial, fun own => (own rfl).elim, ?_⟩
    simp only [Rules.silent, copyRules, CopyDesk.serve, CopyDesk.refusing]
    unfold ManagerCall.serve
    cases failing : moment.fault with
    | some fault => cases fault <;> trivial
    | none =>
      refine ⟨known.2, ?_⟩
      simp only [ManagerCall.sizesAfter, Moment.refuses, failing]
      exact (update_self ..).trans known.1.size

theorem grow_operation : CopyAsks ι manager uuid (.resizeOverlay row.uuid row.diskGib)
    (CopyDesk.Sized uuid row size) (outcome (fun _ => CopyDesk.Sized uuid row row.diskGib) fun _ => True) := by
  refine copy_operation stable_sized nofun fun desk moment sized _ => ?_
  simp only [CopyDesk.serve]
  unfold ManagerCall.serve
  cases failing : (desk.refusing moment (.resizeOverlay row.uuid row.diskGib)).fault with
  | some fault => cases fault <;> trivial
  | none =>
    refine ⟨sized.1, ?_⟩
    simp only [ManagerCall.sizesAfter, Moment.refuses, failing]
    exact update_self ..

def ManagerCall.FinishesCopy : ManagerCall → Prop
  | .buildIso _ | .create _ | .store (.setObservedState _ _) => True
  | _ => False

theorem finish_operation (finishes : call.FinishesCopy) :
    CopyAsks ι manager uuid call (CopyDesk.Sized uuid row size) fun _ => CopyDesk.Sized uuid row size := by
  refine copy_operation stable_sized ?_ fun desk moment sized _ => ?_
  · rintro _ _ rfl
    exact finishes
  · have rewrites : row.uuid ∉ call.rewrites := by
      cases call with
      | store body => cases body <;> first | exact finishes.elim | exact not_mem_nil
      | _ => exact not_mem_nil
    refine ⟨⟨sized.1.1, ?_⟩, ?_⟩
    · exact (congrArg (Option.map Instance.diskGib) (serve_row rewrites)).trans sized.1.2
    · cases call with
      | copyOverlay _ _ | resizeOverlay _ _ => exact finishes.elim
      | _ => exact sized.2

theorem any_operation (other : ∀ source target, call ≠ .copyOverlay source target) :
    CopyAsks ι manager uuid call (fun _ => True) fun _ _ => True :=
  copy_operation (fun _ _ _ _ _ _ => trivial) other fun _ _ _ _ => trivial

theorem valid_unwindCopy {cause : String} {post : α → CopyDesk → Prop} :
    CopyDoes ι manager uuid pre (manager.unwindCopy row cause : ManagerM α) post := by
  have unwinds : CopyDoes ι manager uuid (fun _ => True) (manager.unwindCopy row cause : ManagerM α) post := by
    refine bind_except (valid_answered (any_operation nofun)) fun _ => ?_
    refine bind_except (valid_answered (any_operation nofun)) fun _ => ?_
    refine bind_except (valid_answered (any_operation nofun)) fun _ => ?_
    exact valid_throw fun _ _ _ => trivial
  exact unwinds.weaken fun _ _ _ => trivial

theorem valid_copyStep {δ : Type} {text : δ → String} {program : ManagerProgram (Except δ α)}
    {post : α → CopyDesk → Prop}
    (valid : (copyRules ι manager uuid).silent.Valid none pre program (outcome post fun _ => True)) :
    CopyDoes ι manager uuid pre (manager.copyStep row text program) post := by
  refine bind_except (valid_lift valid) fun result => ?_
  cases result with
  | ok => exact valid_return .rfl
  | error => exact valid_unwindCopy

theorem valid_finishStep {δ : Type} {text : δ → String} {program : ManagerProgram (Except δ α)}
    (only : program.Only ManagerCall.FinishesCopy) :
    CopyDoes ι manager uuid (CopyDesk.Sized uuid row size) (manager.copyStep row text program) fun _ =>
      CopyDesk.Sized uuid row size := by
  refine valid_copyStep ((of_only (fun _ => finish_operation) only).post_mono fun result => ?_)
  cases result with
  | ok => exact .rfl
  | error => exact fun _ _ _ => trivial

theorem valid_growCopy (large : source.diskGib ≤ row.diskGib) :
    CopyDoes ι manager uuid (CopyDesk.Sized uuid row source.diskGib) (manager.growCopy source row) fun _ =>
      CopyDesk.Sized uuid row row.diskGib := by
  unfold Manager.growCopy
  split
  next => exact valid_copyStep (valid_ask grow_operation)
  next small =>
    rw [Nat.le_antisymm large (Nat.not_lt.mp small)]
    exact valid_return .rfl

theorem valid_finishCopy {owner : User} {subnet : Network.Ipv4Prefix} {address : Network.Ipv4Addr}
    (here : source.hostId = manager.hostId) (own : source.uuid = uuid) (large : source.diskGib ≤ row.diskGib) :
    CopyDoes ι manager uuid (fun desk => desk.Checked manager uuid source ∧ desk.Stored uuid row)
      (manager.finishCopy source row owner subnet address) fun made => CopyDesk.Sized uuid made made.diskGib := by
  subst own
  refine bind_except (valid_copyStep (valid_ask (overlay_operation here))) fun _ => ?_
  refine bind_except (valid_growCopy large) fun _ => ?_
  refine bind_except (valid_finishStep only_pure) fun _ => ?_
  refine bind_except (valid_finishStep (only_ask trivial)) fun _ => ?_
  refine bind_except (valid_finishStep only_pure) fun xml => ?_
  refine bind_except (valid_finishStep (only_ask trivial)) fun _ => ?_
  refine bind_except (valid_answered (finish_operation trivial)) fun _ => ?_
  exact valid_return .rfl

theorem checkCopy_ok {request : Manager.NewRequest} (passed : manager.checkCopy source request = .ok ()) :
    source.diskGib ≤ request.diskGib := by
  unfold Manager.checkCopy at passed
  split at passed
  next => cases passed
  split at passed
  next => cases passed
  split at passed
  next => cases passed
  next large => exact Nat.not_lt.mp large

theorem checkCopyMachine_ok {request : Manager.NewRequest} (passed : manager.checkCopyMachine source request = .ok ()) :
    source.hostId = manager.hostId := by
  unfold Manager.checkCopyMachine at passed
  split at passed
  next => cases passed
  next same => exact not_not.mp fun other => same (.inl other)

theorem ensures_result {kind : ManagerCall → Prop} (result : Except Error α) :
    (liftM result : ManagerM α).run.Ensures kind (succeeding fun value => result = .ok value) := by
  cases result with
  | ok => exact ensures_pure rfl
  | error => exact ensures_pure trivial

theorem valid_copyOnce (mac : String → String) (request : Manager.NewRequest) :
    CopyDoes ι manager uuid (fun _ => True) (manager.copy mac uuid request) fun made =>
      CopyDesk.Sized uuid made made.diskGib := by
  refine bind_except (valid_stored copy_read_operation) fun source => Valid.given fun own => ?_
  refine bind_except (valid_prepares stable_read (only_succeeds (only_stored trivial))) fun _ => Valid.given fun _ => ?_
  refine bind_except (valid_prepares stable_read (ensures_result _)) fun _ => Valid.given fun passed => ?_
  have large := checkCopy_ok passed
  refine bind_except (valid_prepares stable_read (ensures_result _)) fun _ => Valid.given fun same => ?_
  have here := checkCopyMachine_ok same
  refine bind_except (valid_answered lookup_operation) fun state => ?_
  have checks : CopyDoes ι manager uuid (fun desk => Manager.copyable source state = .ok () →
    desk.Checked manager uuid source)
      (liftM (Manager.copyable source state) : ManagerM Unit) fun _ => CopyDesk.Checked manager uuid source := by
    cases Manager.copyable source state with
    | ok => exact of_pure fun _ _ known => known rfl
    | error => exact of_pure fun _ _ _ => trivial
  refine bind_except checks fun _ => ?_
  refine bind_except (valid_prepares stable_checked (ensures_result _)) fun subnet => Valid.given fun _ => ?_
  refine bind_except (valid_prepares stable_checked (only_succeeds (only_checked (only_ask trivial)))) fun place =>
    Valid.given fun _ => ?_
  refine bind_except (valid_prepares stable_checked (only_succeeds (only_stored trivial))) fun capacity =>
    Valid.given fun _ => ?_
  refine bind_except (valid_prepares stable_checked (only_succeeds (only_answered trivial))) fun minted =>
    Valid.given fun _ => ?_
  refine bind_except (valid_stored (insert_operation capacity)) fun _ => ?_
  exact valid_finishCopy here own large

variable {i : ι}

theorem source_operation (source : call.OnSource manager uuid) :
    (copyRules ι manager uuid).silent.Operation (some i) call (fun _ => True) fun _ _ => True where
  waiting _ _ _ _ _ _ := trivial
  safe _ _ _ := nofun
  execute _ _ _ _ permits := ⟨trivial, fun _ => steady_serve source permits, trivial⟩

theorem valid_onSource {next : Instance → ManagerM α}
    (rest : ∀ row, row.uuid = uuid → (next row).run.Only (ManagerCall.OnSource manager uuid)) :
    (copyRules ι manager uuid).silent.Valid (some i) (fun _ => True) (stored (.instance uuid) >>= next).run
      (outcome (fun _ _ => True) fun _ => True) := by
  have reads : (copyRules ι manager uuid).silent.Operation (some i) (.store (.instance uuid)) (fun _ => True)
      (outcome (fun row _ => row.uuid = uuid ∧ True) fun _ => True) := by
    refine ⟨fun _ _ _ _ _ _ => trivial, fun _ _ _ => nofun, fun desk moment _ _ permits =>
      ⟨trivial, fun _ => steady_serve trivial permits, ?_⟩⟩
    simp only [Rules.silent, copyRules, CopyDesk.serve, CopyDesk.refusing]
    cases answer : ((ManagerCall.store (.instance uuid)).serve manager moment desk.world).1 with
    | error => trivial
    | ok row =>
      exact ⟨by simpa using List.find?_some ((instance_serve manager moment uuid desk.world).2 row answer), trivial⟩
  refine bind_except (valid_stored reads) fun row => Valid.given fun own => ?_
  refine (of_only (fun _ => source_operation) (rest row own)).post_mono fun result => ?_
  cases result <;> exact fun _ _ _ => trivial

theorem only_domainAction_source {action : DomainAction} {word : String} (power : action = .start ∨ action = .stop) :
    (manager.domainAction action word row).run.Only (ManagerCall.OnSource manager uuid) :=
  only_domainAction (fun _ => power) trivial trivial fun remote _ => remote

theorem valid_sourceCall (call : SourceCall) :
    (copyRules ι manager uuid).silent.Valid (some i) (fun _ => True) (call.program manager uuid).run
      (outcome (fun _ _ => True) fun _ => True) := by
  cases call with
  | start =>
    refine bind_except (valid_onSource fun row _ => ?_) fun _ => valid_return fun _ _ _ => trivial
    refine only_except (only_domainAction_source (.inl rfl)) fun _ => ?_
    exact only_except (only_stored trivial) fun _ => only_stored trivial
  | startForConnection =>
    exact bind_except (valid_onSource fun row _ => only_domainAction_source (.inl rfl)) fun _ =>
      valid_return fun _ _ _ => trivial
  | stop =>
    refine bind_except (valid_onSource fun row _ => ?_) fun _ => valid_return fun _ _ _ => trivial
    refine only_except (only_stored trivial) fun _ => ?_
    refine only_except (only_domainAction_source (.inr rfl)) fun _ => ?_
    exact only_except (only_stored trivial) fun _ => only_pure
  | resize =>
    refine bind_except (valid_onSource fun row own => ?_) fun _ => valid_return fun _ _ _ => trivial
    refine only_except only_pure fun _ => ?_
    refine only_except (only_stored trivial) fun capacity => ?_
    refine only_except (only_stored trivial) fun _ => ?_
    refine only_except (only_growDisk own trivial) fun _ => ?_
    refine only_except (only_stored rfl) fun _ => ?_
    refine only_except ?_ fun _ => only_pure
    unfold Manager.redefineResized
    split
    next => exact only_redefine trivial (fun _ => trivial) trivial fun _ _ => trivial
    next => exact only_pure

end

section
variable {ι : Type} {manager : Manager} {uuid : String}

def CopyPost (uuid : String) : Option ι → CopyResult → CopyDesk → Prop
  | none, .ok made, desk => ∀ row ∈ made, desk.Sized uuid row row.diskGib
  | _, _, _ => True

theorem stable_post (i : Option ι) (result : CopyResult) :
    (copyRules ι manager uuid).Stable i (CopyPost uuid i result) := by
  cases i with
  | some => exact fun _ _ _ _ _ _ => trivial
  | none =>
    cases result with
    | error => exact fun _ _ _ _ _ _ => trivial
    | ok =>
      exact fun before after kept still relies sized row listed =>
        stable_sized before after kept still relies (sized row listed)

theorem report_operation {i : Option ι} (result : CopyResult) :
    (copyRules ι manager uuid).Operation i (.inr result) (CopyPost uuid i result) fun _ => CopyPost uuid i result where
  waiting := stable_post i result
  safe _ _ _ _ _ _ := nofun
  execute desk moment _ holds _ := by
    cases i with
    | some => exact ⟨trivial, fun _ => ⟨rfl, rfl, fun _ _ => rfl, fun _ _ => rfl, fun _ _ down => down⟩, trivial⟩
    | none =>
      refine ⟨trivial, fun own => (own rfl).elim, ?_⟩
      cases result with
      | error => trivial
      | ok => exact holds

theorem valid_copying (mac : String → String) (request : Manager.NewRequest) :
    (copyRules ι manager uuid).silent.Valid none (fun _ => True) (copying manager mac uuid request).run
      (CopyPost (ι := ι) uuid none) := by
  have made : CopyDoes ι manager uuid (fun _ => True) (copying manager mac uuid request)
      fun made desk => ∀ row ∈ made, desk.Sized uuid row row.diskGib := by
    refine bind_except (valid_copyOnce mac request) fun row => valid_return fun desk _ sized other same => ?_
    cases same
    exact sized
  refine made.post_mono fun result => ?_
  cases result <;> exact .rfl

variable [DecidableEq ι]

/-- A copy and any number of starts, stops and resizes of its source run at once, in any
interleaving of their calls, but between its calls the source stays as the copy has read
it. Then the domain of the source is stopped as long as the overlay is copied, and a copy
that was made has the size of its overlay. -/
theorem copy_of_stopped_disk (manager : Manager) (mac : String → String) (uuid : String) (request : Manager.NewRequest)
    (calls : ι → SourceCall) (world : World) (sizes : String → Nat) (events : List (PoolEvent (Option ι) Moment))
    (reached : Copying ι) (ran : exec (Copying.step manager) (Copying.begin manager mac uuid request calls world sizes)
      events = some reached)
    (permitted : Obeys (Copying.step manager) (Copying.Permitted uuid)
      (Copying.begin manager mac uuid request calls world sizes) events) :
    reached.OfStoppedDisk uuid := by
  have initial : (copyRules ι manager uuid).Sound (CopyPost uuid)
    (Copying.begin manager mac uuid request calls world sizes) := by
    refine ⟨trivial, fun i program found => ?_⟩
    cases i with
    | none =>
      cases found
      exact ((valid_copying mac request).reporting report_operation).suspended trivial trivial
    | some i =>
      cases found
      refine (Valid.reporting ((valid_sourceCall (calls i)).post_mono ?_) report_operation).suspended trivial trivial
      exact fun _ _ _ _ => trivial
  have same : (copyRules ι manager uuid).Allowed = Copying.Permitted uuid := by
    funext pool event
    cases event <;> rfl
  rw [← same] at permitted
  have sound := Rules.sound stable_post ran permitted initial
  refine ⟨fun source target waits => sound.safe waits rfl source target rfl, fun row ended => ?_⟩
  obtain ⟨program, found, value⟩ := Option.bind_eq_some_iff.mp ended
  cases Program.ended_eq_some.mp value
  have sized := sound.threads none _ found row rfl
  exact sized.1.2.trans (congrArg some sized.2.symm)

end

instance (uuid : String) (desk : CopyDesk) {ι : Type} (i : Option ι) (call : ManagerCall ⊕ CopyResult) :
    Decidable (desk.Permits uuid i call) := by
  unfold CopyDesk.Permits
  split <;> infer_instance

instance (uuid : String) {ι : Type} (pool : Copying ι) : ∀ event, Decidable (Copying.Permitted uuid pool event)
  | .step i _ => inferInstanceAs
    (Decidable (∀ call ∈ (pool.thread i).bind Program.waiting, pool.shared.Permits uuid i call))
  | .drop _ => .isTrue trivial

def copyWorld : World :=
  ⟨{ smallFleet [plainGuest "0b5e" "web" 1] with slots := [⟨0, .active, 1, 1, none, none, none⟩] }, fun _ =>
    guestMachine (plainGuest "0b5e" "web" 1) .stopped⟩

def copyRequest : Manager.NewRequest where
  name := "copy"
  owner := ⟨1, "alice", "10.100.0.0/24".toList⟩
  hostId := 1
  imageName := "debian"
  vcpu := 1
  memoryMib := 512
  diskGib := 10
  nested := false
  disableKsm := false
  httpPort := 80

def copyPool : Copying Bool :=
  .begin exampleManager (fun _ => "52:54:00:00:00:01") "0b5e" copyRequest (fun
    | false => .start
    | true => .resize ⟨"", 1, 512, 20, false⟩) copyWorld fun _ => 10

def copyCalls (i : Option Bool) (count : Nat) : List (PoolEvent (Option Bool) Moment) :=
  List.replicate count (.step i calm)

def Copying.seen (pool : Copying Bool) :
    Option ManagerCall × Except Hypervisor.Error PowerState × Option (Option Nat × Nat) :=
  (match (pool.thread none).bind Program.waiting with
    | some (.inl call) => some call
    | _ => none,
    (pool.shared.world.machines 1).state "web",
    match (pool.thread none).bind Program.ended with
    | some (.ok (some row)) => some (pool.shared.world.storedDisk row.uuid, pool.shared.sizes row.uuid)
    | _ => none)

/-- A start is asked for first, but it comes to the domain when the copy has returned. -/
def startedLate : List (PoolEvent (Option Bool) Moment) :=
  copyCalls (some false) 1 ++ copyCalls none 12 ++ copyCalls (some false) 4

theorem copy_of_stopped_disk_apart : ∃ reached, exec (Copying.step exampleManager) copyPool startedLate = some reached ∧
    reached.seen = (none, .ok .running, some (some 10, 10)) ∧ reached.OfStoppedDisk "0b5e" := by
  have permitted : Obeys (Copying.step exampleManager) (Copying.Permitted "0b5e") copyPool startedLate := by
    decide +kernel
  have runs : (exec (Copying.step exampleManager) copyPool startedLate).map Copying.seen =
    some (none, .ok .running, some (some 10, 10)) := by
    decide +kernel
  obtain ⟨reached, ran, seen⟩ := Option.map_eq_some_iff.mp runs
  exact ⟨reached, ran, seen, copy_of_stopped_disk exampleManager _ "0b5e" copyRequest _ copyWorld _ _
    reached ran permitted⟩

/-- The guest is grown once the copy has read its row, and started once the copy has looked
up its state: the overlay is copied from a running guest, and it is twice as large as the
row of the copy says. -/
theorem copy_of_running_disk :
    ((exec (Copying.step exampleManager) copyPool
      (copyCalls none 1 ++ copyCalls (some true) 5 ++ copyCalls none 6 ++ copyCalls (some false) 2)).map
      Copying.seen = some (some (.copyOverlay "0b5e" "5ac1"), .ok .running, none)) ∧
    (exec (Copying.step exampleManager) copyPool
      (copyCalls none 1 ++ copyCalls (some true) 5 ++ copyCalls none 6 ++ copyCalls (some false) 2 ++
      copyCalls none 5)).map Copying.seen = some (none, .ok .running, some (some 10, 20)) :=
  ⟨by decide +kernel, by decide +kernel⟩

end Bento.Lifecycle
