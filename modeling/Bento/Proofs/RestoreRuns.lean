import Bento.Proofs.ManagerContracts
import Bento.Proofs.ManagerEffects

/-! The restore of a machine beside the actions of its users. The list of instances is read
once, and the starts follow one by one, so what is stopped in between is started all the
same. -/

namespace Bento.Lifecycle
open Hypervisor Library.Contracts Library.Contracts.Rules Library.Programs Library.Runs Store List Option Valid
open Library.Programs.Program (only_ask only_bind only_pure)

variable {ι : Type}

structure RestoreDesk where
  world : World
  pending : List Instance

def ManagerCall.pendingAfter (pending : List Instance) : (call : ManagerCall) → call.Answer → List Instance
  | .store (.instancesToRestore _), .ok rows => rows
  | .act .start _, _ => pending.tail
  | _, _ => pending

def RestoreDesk.serve (manager : Manager) (i : Option ι) (moment : Moment) (call : ManagerCall) (desk : RestoreDesk) :
    call.Answer × RestoreDesk :=
  let served := call.serve manager moment desk.world
  (served.1, ⟨served.2, if i.isNone then call.pendingAfter desk.pending served.1 else desk.pending⟩)

abbrev Restoring (ι : Type) := Pool ManagerCall.Answer (Option ι) RestoreDesk (Except Error Unit)

def Restoring.begin (manager : Manager) (actions : ι → Action) (world : World) : Restoring ι :=
  ⟨⟨world, []⟩, fun
    | none => some manager.restore.run
    | some i => some ((actions i).program manager).run⟩

def Restoring.step [DecidableEq ι] (manager : Manager) (pool : Restoring ι) (event : PoolEvent (Option ι) Moment) :
    Option (Restoring ι) :=
  Pool.step (RestoreDesk.serve manager) pool event

def ManagerCall.givesUp (uuid : String) : ManagerCall → Bool
  | .store (.setDesiredState target .stopped) | .store (.deleteInstance target) => target = uuid
  | _ => false

def ManagerCall.Spares (manager : Manager) (row : Instance) (call : ManagerCall) : Prop :=
  call.givesUp row.uuid = false ∧ ∀ defined ∈ call.definitions manager, defined.hostId = manager.hostId →
    defined.name = row.name →
    defined.uuid = row.uuid

def World.OwnsName (world : World) (manager : Manager) (row : Instance) : Prop :=
  ∀ uuid, (world.machines manager.hostId).Names uuid row.name → uuid = row.uuid

def Restoring.Spared (manager : Manager) (pool : Restoring ι) : PoolEvent (Option ι) Moment → Prop
  | .step (some i) _ => ∀ call ∈ (pool.thread (some i)).bind Program.waiting, ∀ row ∈ pool.shared.pending,
    call.Spares manager row
  | .step none _ => ∀ call ∈ (pool.thread none).bind Program.waiting,
    call = .store (.instancesToRestore manager.hostId) →
      ∀ row ∈ pool.shared.world.fleet.instances, row.hostId = manager.hostId → row.desiredState = .running →
        row.state = .stopped →
        pool.shared.world.OwnsName manager row
  | .drop _ => True

def World.Wanted (world : World) (uuid : String) : Prop :=
  ∃ row, world.fleet.instances.find? (·.uuid = uuid) = some row ∧ row.desiredState = .running

/-- A start under a name is for an instance that is wanted, and so is the instance of the
domain that it finds. -/
def RestoreDesk.StartsWanted (manager : Manager) (desk : RestoreDesk) (name : String) : Prop :=
  ∃ row rest, desk.pending = row :: rest ∧ row.name = name ∧ desk.world.Wanted row.uuid ∧
    ∀ domain, (desk.world.machines manager.hostId).domain name = some domain → desk.world.Wanted domain.spec.uuid

structure World.Fresh (world : World) (manager : Manager) (row : Instance) : Prop where
  wanted : world.Wanted row.uuid
  owned : world.OwnsName manager row

section
variable {manager : Manager} {moment : Moment} {call : ManagerCall} {world : World} {row : Instance}

theorem wanted_map {rows : List Instance} {found : Instance} {change : Instance → Instance}
    (keeps : ∀ other, (change other).uuid = other.uuid) (known : rows.find? (·.uuid = row.uuid) = some found)
    (running : (change found).desiredState = .running) :
    ∃ other, (rows.map change).find? (·.uuid = row.uuid) = some other ∧ other.desiredState = .running := by
  have same : ((fun other : Instance => decide (other.uuid = row.uuid)) ∘ change) = fun other =>
    decide (other.uuid = row.uuid) := by
    funext other
    rw [Function.comp_apply, keeps]
  exact ⟨change found, by rw [List.find?_map, same, known, map_some], running⟩

theorem StoreCall.Rows.wanted {body : StoreCall} {before after : List Instance} {found : Instance}
    (rows : body.Rows before after) (known : before.find? (·.uuid = row.uuid) = some found)
    (running : found.desiredState = .running) (spares : (ManagerCall.store body).Spares manager row) :
    ∃ other, after.find? (·.uuid = row.uuid) = some other ∧ other.desiredState = .running := by
  have own : found.uuid = row.uuid := by simpa using List.find?_some known
  cases rows with
  | read | sameName => exact ⟨found, known, running⟩
  | created => exact ⟨found, by rw [List.find?_append, known, some_or], running⟩
  | deleted =>
    refine ⟨found, ?_, running⟩
    rw [List.find?_filter, ← known]
    congr 1
    funext other
    have apart := of_decide_eq_false spares.1
    by_cases same : other.uuid = row.uuid
    · simp [same, Ne.symm apart]
    · simp [same]
  | renamed | resized | observed =>
    apply wanted_map _ known
    · split <;> exact running
    · intro other
      split <;> rfl
  | @desired uuid state _ =>
    apply wanted_map _ known
    · split
      next same =>
        cases state with
        | running => rfl
        | stopped => exact absurd (same.symm.trans own) (of_decide_eq_false spares.1)
      next => exact running
    · intro other
      split <;> rfl
  | polled => exact wanted_map (fun _ => rfl) known running

theorem wanted_serve (wanted : world.Wanted row.uuid) (spares : call.Spares manager row) :
    (call.serve manager moment world).2.Wanted row.uuid := by
  obtain ⟨found, known, running⟩ := wanted
  rcases serve_rows manager moment call world with same | ⟨body, rfl, rows⟩
  · exact ⟨found, by rw [same]; exact known, running⟩
  · exact rows.wanted known running spares

theorem fresh_serve (fresh : world.Fresh manager row) (spares : call.Spares manager row) :
    (call.serve manager moment world).2.Fresh manager row where
  wanted := wanted_serve fresh.wanted spares
  owned uuid named := by
    rcases serve_names named with already | defines
    · exact fresh.owned uuid already
    · exact spares.2 _ defines rfl rfl

theorem instancesToRestore_serve (manager : Manager) (moment : Moment) (hostId : Int) (world : World) :
    ((ManagerCall.store (.instancesToRestore hostId)).serve manager moment world).2 = world ∧
      ∀ rows, ((ManagerCall.store (.instancesToRestore hostId)).serve manager moment world).1 = .ok rows →
        ∀ row ∈ rows, row ∈ world.fleet.instances ∧ row.hostId = hostId ∧ row.desiredState = .running ∧
          row.state = .stopped := by
  rcases store_cases manager moment world (.instancesToRestore hostId) with ⟨reply, fleet, answer, ran, after⟩ |
    ⟨⟨cause, refused⟩, after⟩
  · cases ran
    refine ⟨after, fun rows same row listed => ?_⟩
    cases answer.symm.trans same
    obtain ⟨known, chosen⟩ := List.mem_filter.mp ((mem_insertionSort older).mp listed)
    exact ⟨known, of_decide_eq_true chosen⟩
  · refine ⟨after, fun rows same => ?_⟩
    cases refused.symm.trans same

end

structure RestoreInvariant (manager : Manager) (desk : RestoreDesk) : Prop where
  keyed : KeyedRows desk.world.fleet.instances
  fresh : ∀ row ∈ desk.pending, desk.world.Fresh manager row

def restoreRules (manager : Manager) : Rules ManagerCall.Answer (Option ι) RestoreDesk Moment where
  serve := RestoreDesk.serve manager
  invariant := RestoreInvariant manager
  allowed i _ call desk :=
    match i with
    | some _ => ∀ row ∈ desk.pending, call.Spares manager row
    | none => call = .store (.instancesToRestore manager.hostId) →
      ∀ row ∈ desk.world.fleet.instances, row.hostId = manager.hostId →
        row.desiredState = .running → row.state = .stopped → desk.world.OwnsName manager row
  safe i call desk := i = none → ∀ name, call = .act .start name → desk.StartsWanted manager name
  rely i before after := i = none → after.pending = before.pending
  guarantee i before after := i ≠ none → after.pending = before.pending
  compatible := fun different _ _ _ gives own => gives fun same => different (own.trans same.symm)

section
variable {manager : Manager}

theorem action_operation (i : ι) (call : ManagerCall) :
    (restoreRules manager).Operation (some i) call (fun _ => True) fun _ _ => True where
  waiting _ _ _ _ _ _ := trivial
  safe _ _ _ := nofun
  execute _ _ kept _ spares :=
    ⟨⟨serve_keyed kept.keyed, fun row listed => fresh_serve (kept.fresh row listed) (spares row listed)⟩,
      fun _ => rfl, trivial⟩

def Left (rows : List Instance) (desk : RestoreDesk) : Prop := desk.pending = rows

variable {rows : List Instance}

theorem stable_left : (restoreRules (ι := ι) manager).Stable none (Left rows) :=
  fun _ _ _ _ relies left => (relies rfl).trans left

def ManagerCall.Idle (call : ManagerCall) : Prop :=
  (∀ rows answer, call.pendingAfter rows answer = rows) ∧ (∀ manager row, call.Spares manager row) ∧
    ∀ name, call ≠ .act .start name

theorem idle_operation (call : ManagerCall) (idle : call.Idle) :
    (restoreRules (ι := ι) manager).Operation none call (Left rows) fun _ => Left rows where
  waiting := stable_left
  safe _ _ _ _ name same := (idle.2.2 name same).elim
  execute desk moment kept left _ := by
    obtain rfl : desk.pending = rows := left
    have same : (RestoreDesk.serve (ι := ι) manager none moment call desk).2.pending = desk.pending := idle.1 _ _
    refine ⟨⟨serve_keyed kept.keyed, ?_⟩, fun own => (own rfl).elim, same⟩
    simp only [restoreRules, same]
    exact fun row listed => fresh_serve (kept.fresh row listed) (idle.2.1 manager row)

theorem start_operation (row : Instance) :
    (restoreRules (ι := ι) manager).Operation none (.act .start row.name) (Left (row :: rows)) fun _ => Left rows where
  waiting := stable_left
  safe desk kept left _ name same := by
    cases same
    have fresh := kept.fresh row (left ▸ mem_cons_self)
    refine ⟨row, rows, left, rfl, fresh.wanted, fun domain found => ?_⟩
    rw [fresh.owned domain.spec.uuid (Machine.names_of_domain found)]
    exact fresh.wanted
  execute desk moment kept left _ := by
    have same : (RestoreDesk.serve (ι := ι) manager none moment (.act .start row.name) desk).2.pending = rows :=
      congrArg List.tail left
    refine ⟨⟨serve_keyed kept.keyed, ?_⟩, fun own => (own rfl).elim, same⟩
    simp only [restoreRules, same]
    intro later listed
    exact fresh_serve (kept.fresh later (left ▸ mem_cons_of_mem _ listed))
      ⟨rfl, fun defined none => absurd none not_mem_nil⟩

theorem restore_list_operation :
    (restoreRules (ι := ι) manager).Operation none (.store (.instancesToRestore manager.hostId)) (Left [])
      (outcome Left (Left [])) where
  waiting := stable_left
  safe _ _ _ _ _ same := nomatch same
  execute desk moment kept left owns := by
    obtain ⟨same, chosen⟩ := instancesToRestore_serve manager moment manager.hostId desk.world
    simp only [restoreRules, RestoreDesk.serve, same, isNone_none, if_true]
    cases answer : ((ManagerCall.store (.instancesToRestore manager.hostId)).serve manager moment desk.world).1 with
    | error => exact ⟨kept, fun own => (own rfl).elim, left⟩
    | ok rows =>
      refine ⟨⟨kept.keyed, fun row listed => ?_⟩, fun own => (own rfl).elim, rfl⟩
      obtain ⟨known, placed, desired, stopped⟩ := chosen rows answer row listed
      exact ⟨⟨row, find?_of_mem kept.keyed known, desired⟩, owns rfl row known placed desired stopped⟩

theorem idle_state (name : String) : (ManagerCall.state name).Idle := ⟨fun _ _ => rfl, fun _ _ => ⟨rfl, nofun⟩, nofun⟩

theorem idle_setObservedState (uuid : String) (state : PowerState) :
    (ManagerCall.store (.setObservedState uuid state)).Idle :=
  ⟨fun _ _ => rfl, fun _ _ => ⟨rfl, nofun⟩, nofun⟩

theorem only_syncObserved (row : Instance) : (Manager.syncObserved row).Only ManagerCall.Idle :=
  only_bind (only_ask (idle_state _)) fun _ => only_bind (only_ask (idle_setObservedState ..)) fun _ => only_pure

theorem valid_restoreOne (row : Instance) :
    (restoreRules (ι := ι) manager).Valid none (Left (row :: rows)) (Manager.restoreOne row) fun _ => Left rows := by
  refine Valid.bind (valid_ask (idle_operation _ (idle_setObservedState ..))) fun _ => ?_
  refine Valid.bind (valid_ask (start_operation row)) fun answer => ?_
  cases answer with
  | ok => exact of_pure .rfl
  | error => exact of_only idle_operation (only_bind (only_syncObserved row) fun _ => only_pure)

theorem valid_startBatch (batch : List Instance) :
    (restoreRules (ι := ι) manager).Valid none (Left (batch ++ rows)) (Manager.startBatch batch) fun _ =>
      Left rows := by
  induction batch with
  | nil => exact of_pure .rfl
  | cons row batch ih =>
    refine Valid.bind (valid_restoreOne row) fun started => ?_
    exact Valid.bind ih fun rest => of_pure .rfl

theorem only_waitRunning (name : String) (attempts : Nat) :
    (Manager.waitRunning name attempts).Only ManagerCall.Idle := by
  induction attempts with
  | zero => exact only_pure
  | succ attempts ih =>
    refine only_bind (only_ask (idle_state name)) fun answer => ?_
    split
    · exact only_pure
    · exact ih
    · exact only_pure

theorem only_awaitOne (row : Instance) : (manager.awaitOne row).Only ManagerCall.Idle := by
  refine only_bind (only_waitRunning ..) fun running => ?_
  cases running with
  | true => exact only_bind (only_ask (idle_setObservedState ..)) fun _ => only_pure
  | false => exact only_syncObserved row

theorem only_awaitBatch (batch : List Instance) : (manager.awaitBatch batch).Only ManagerCall.Idle := by
  induction batch with
  | nil => exact only_pure
  | cons row batch ih => exact only_bind (only_awaitOne row) fun _ => ih

theorem valid_restoreBatches (batches : List (List Instance)) :
    (restoreRules (ι := ι) manager).Valid none (Left batches.flatten) (manager.restoreBatches batches) fun _ =>
      Left [] := by
  induction batches with
  | nil => exact of_pure .rfl
  | cons batch batches ih =>
    refine Valid.bind (valid_startBatch batch) fun started => ?_
    exact Valid.bind (of_only idle_operation (only_awaitBatch started)) fun _ => ih

theorem chunks_flatten {size : Nat} (positive : 0 < size) (count : Nat) (rows : List Instance)
    (enough : rows.length ≤ count) :
    (Manager.chunks size count rows).flatten = rows := by
  induction count generalizing rows with
  | zero =>
    obtain rfl := List.length_eq_zero_iff.mp (Nat.le_zero.mp enough)
    rfl
  | succ count ih =>
    cases rows with
    | nil => rfl
    | cons row rows =>
      have shorter : ((row :: rows).drop size).length ≤ count := by
        rw [length_drop]
        omega
      calc (Manager.chunks size (count + 1) (row :: rows)).flatten
          = (row :: rows).take size ++ (Manager.chunks size count ((row :: rows).drop size)).flatten := rfl
        _ = (row :: rows).take size ++ (row :: rows).drop size := by rw [ih _ shorter]
        _ = row :: rows := take_append_drop size _

theorem only_clearAllAutostarts (domains : List DomainInfo) :
    (manager.clearAllAutostarts domains).Only ManagerCall.Idle := by
  unfold Manager.clearAllAutostarts
  split
  next =>
    induction domains with
    | nil => exact only_pure
    | cons domain domains ih => exact only_bind (only_ask ⟨fun _ _ => rfl, fun _ _ => ⟨rfl, nofun⟩, nofun⟩) fun _ => ih
  next => exact only_pure

theorem valid_restore : (restoreRules (ι := ι) manager).Valid none (Left []) manager.restore.run
    (outcome (fun _ => Left []) (Left [])) := by
  have looked : (restoreRules (ι := ι) manager).Operation none .list (Left [])
    (outcome (fun _ => Left []) (Left [])) := by
    refine (idle_operation .list ⟨fun _ _ => rfl, fun _ _ => ⟨rfl, nofun⟩, nofun⟩).mono fun answer => ?_
    cases answer <;> exact .rfl
  have recorded (states : List (String × PowerState)) : (restoreRules (ι := ι) manager).Operation none
      (.store (.updateObservedStates states)) (Left []) (outcome (fun _ => Left []) (Left [])) := by
    refine (idle_operation (.store (.updateObservedStates states))
      ⟨fun _ _ => rfl, fun _ _ => ⟨rfl, nofun⟩, nofun⟩).mono fun answer => ?_
    cases answer <;> exact .rfl
  refine bind_except (valid_checked (valid_ask looked)) fun domains => ?_
  refine bind_except (valid_lift (of_only idle_operation (only_clearAllAutostarts domains))) fun _ => ?_
  refine bind_except (valid_checked (valid_ask (recorded _))) fun _ => ?_
  refine bind_except (valid_checked (valid_ask restore_list_operation)) fun rows => valid_lift ?_
  refine (valid_restoreBatches _).weaken fun desk _ left => ?_
  rw [chunks_flatten manager.batches _ rows le_rfl]
  exact left

end

variable [DecidableEq ι]

/-- One restore and any number of actions run at once, in any interleaving of their calls,
but no action stops, deletes or takes the name of an instance that restore has listed and
not started. Then every start that restore issues is for an instance that exists and whose
desired state is running. -/
theorem restore_respects_stops (manager : Manager) (actions : ι → Action) (world : World)
    (keyed : KeyedRows world.fleet.instances) (events : List (PoolEvent (Option ι) Moment)) (reached : Restoring ι)
    (ran : exec (Restoring.step manager) (Restoring.begin manager actions world) events = some reached)
    (spared : Obeys (Restoring.step manager) (Restoring.Spared manager) (Restoring.begin manager actions world) events)
    (name : String) (starts : (reached.thread none).bind Program.waiting = some (.act .start name)) :
    reached.shared.StartsWanted manager name := by
  have kept : (restoreRules (ι := ι) manager).invariant (Restoring.begin manager actions world).shared :=
    ⟨keyed, fun _ listed => (not_mem_nil listed).elim⟩
  have initial : (restoreRules manager).Sound (fun _ _ _ => True) (Restoring.begin manager actions world) := by
    refine ⟨kept, fun i program found => ?_⟩
    cases i with
    | none =>
      cases found
      exact (valid_restore.post_mono fun _ _ _ _ => trivial).suspended kept rfl
    | some i =>
      cases found
      exact (of_operations (action_operation i)).suspended kept trivial
  have same : (restoreRules (ι := ι) manager).Allowed = Restoring.Spared manager := by
    funext pool event
    cases event with
    | step i => cases i <;> rfl
    | drop => rfl
  rw [← same] at spared
  have sound : (restoreRules manager).Sound (fun _ _ _ => True) reached :=
    Rules.sound (fun _ _ _ _ _ _ _ _ => trivial) ran spared initial
  exact sound.safe starts rfl name rfl

section
variable (manager : Manager) (world : World) (row : Instance) (pool : Restoring ι)

instance : Decidable (world.OwnsName manager row) :=
  decidable_of_iff (∀ domain ∈ (world.machines manager.hostId).domains, domain.spec.name = row.name →
    domain.spec.uuid = row.uuid)
    ⟨fun owns _ ⟨domain, listed, same, named⟩ => same ▸ owns domain listed named,
      fun owns domain listed named => owns _ ⟨domain, listed, rfl, named⟩⟩

instance (uuid : String) : Decidable (world.Wanted uuid) :=
  decidable_of_iff ((world.fleet.instances.find? (·.uuid = uuid)).any fun row => row.desiredState = .running)
    (by simp [World.Wanted, Option.any_eq_true])

instance (call : ManagerCall) : Decidable (call.Spares manager row) := inferInstanceAs (Decidable (_ ∧ _))

instance (event : PoolEvent (Option ι) Moment) : Decidable (Restoring.Spared manager pool event) := by
  unfold Restoring.Spared
  split <;> infer_instance

end

def rebootedGuest : Instance := { plainGuest "0b5e" "web" 1 with desiredState := .running }

def rebooted : World :=
  ⟨smallFleet [rebootedGuest, plainGuest "9f1c" "db" 1], fun _ =>
    ⟨[guestDomain rebootedGuest .stopped], ["0b5e", "9f1c"], []⟩⟩

theorem rebooted_keyed : KeyedRows rebooted.fleet.instances := by
  unfold KeyedRows
  decide +kernel

def restoreCalls (i : Option (Fin 1)) (count : Nat) : List (PoolEvent (Option (Fin 1)) Moment) :=
  List.replicate count (.step i calm)

theorem restore_respects_stops_removal : ∃ reached,
    exec (Restoring.step exampleManager) (Restoring.begin exampleManager (fun _ => .remove "9f1c") rebooted)
      (restoreCalls none 5 ++ restoreCalls (some 0) 4) = some reached ∧
    (reached.thread none).bind Program.waiting = some (.act .start "web") ∧
      reached.shared.StartsWanted exampleManager "web" := by
  have spared : Obeys (Restoring.step exampleManager) (Restoring.Spared exampleManager)
      (Restoring.begin exampleManager (fun _ => .remove "9f1c") rebooted)
        (restoreCalls none 5 ++ restoreCalls (some 0) 4) := by
    decide +kernel
  have waits : ((exec (Restoring.step exampleManager)
    (Restoring.begin exampleManager (fun _ => .remove "9f1c") rebooted)
      (restoreCalls none 5 ++ restoreCalls (some 0) 4)).map fun reached => (reached.thread none).bind Program.waiting) =
      some (some (.act .start "web")) := by
    decide +kernel
  obtain ⟨reached, ran, starts⟩ := Option.map_eq_some_iff.mp waits
  refine ⟨reached, ran, starts, ?_⟩
  exact restore_respects_stops exampleManager _ rebooted rebooted_keyed _ reached ran spared "web" starts

/-- The guest itself is stopped there. Restore starts it all the same. -/
theorem restore_starts_stopped :
    ∃ reached, exec (Restoring.step exampleManager) (Restoring.begin exampleManager (fun _ => .stop "0b5e") rebooted)
      (restoreCalls none 5 ++ restoreCalls (some 0) 4) = some reached ∧
        (reached.thread none).bind Program.waiting = some (.act .start "web") ∧
    (∀ i, (reached.thread (some i)).bind Program.ended = some (.ok ())) ∧
      ¬ reached.shared.StartsWanted exampleManager "web" := by
  have ends : ((exec (Restoring.step exampleManager) (Restoring.begin exampleManager (fun _ => .stop "0b5e") rebooted)
      (restoreCalls none 5 ++ restoreCalls (some 0) 4)).map fun reached => ((reached.thread none).bind Program.waiting,
        decide ((reached.thread (some 0)).bind Program.ended = some (.ok ())), reached.shared.pending.map Instance.uuid,
        decide (reached.shared.world.Wanted "0b5e"))) = some (some (.act .start "web"), true, ["0b5e"], false) := by
    decide +kernel
  obtain ⟨reached, ran, shown⟩ := Option.map_eq_some_iff.mp ends
  simp only [Prod.mk.injEq] at shown
  obtain ⟨starts, returned, pending, unwanted⟩ := shown
  refine ⟨reached, ran, starts, fun i => ?_, ?_⟩
  · obtain rfl := Subsingleton.elim i 0
    exact of_decide_eq_true returned
  · rintro ⟨row, rest, listed, -, wanted, -⟩
    rw [listed, map_cons] at pending
    rw [(List.cons.inj pending).1] at wanted
    exact of_decide_eq_false unwanted wanted

end Bento.Lifecycle
