import Bento.Proofs.UpkeepRules
import Mathlib.Data.Fintype.Basic

/-! Resizes, polls and removals at once, and the definitions of their domains. A call that has
changed a row owes the definition that goes with it until it has written it, and no other
call takes the instance before. The rules of the calls are in the module before; here every
program keeps them, and then so does every run. -/

namespace Bento.Lifecycle
open Hypervisor Library.Contracts.Rules Library.Programs Library.Programs.Program Library.Runs Store Function
  List Machine Option Valid
open Runner (InstanceRef)

variable {ι : Type}

section
variable [DecidableEq ι] {manager : Manager} {i : ι} {moment : Moment} {desk : UpkeepDesk ι} {call : ManagerCall}

def Sweeping (manager : Manager) (i : ι) (rows : List Instance) (desk : UpkeepDesk ι) : Prop :=
  Idle i desk ∧ ∀ row ∈ rows, row.hostId = manager.hostId ∧
    (Holds i row desk ∨ row.uuid ∉ (desk.world.machines manager.hostId).seeds)

theorem stable_sweeping (rows : List Instance) : (upkeepRules manager).Stable i (Sweeping manager i rows) := by
  rintro before after tidy kept steady ⟨idle, swept⟩
  refine ⟨stable_idle manager i _ _ tidy kept steady idle, fun row listed => ⟨(swept row listed).1, ?_⟩⟩
  rcases (swept row listed).2 with holds | gone
  · exact .inl (stable_holds manager i row _ _ tidy kept steady holds)
  · exact .inr fun present => gone (steady.seeds _ present)

variable {row : Instance} {rows : List Instance} {world : World}

theorem holds_serve (takes : call.takes manager desk.world = []) (rewrites : call.rewrites = [])
    (holds : Holds i row desk) :
    Holds i row (UpkeepDesk.serve manager i moment (.inl call) desk).2 := by
  refine ⟨?_, (serve_row (by rw [rewrites]; exact not_mem_nil)).trans holds.2⟩
  simp only [UpkeepDesk.serve, update_self, takes, nil_append]
  exact holds.1

theorem instancesOnHost_serve (manager : Manager) (moment : Moment) (hostId : Int) (world : World) :
    ((ManagerCall.store (.instancesOnHost hostId)).serve manager moment world).2 = world ∧
      ∀ rows, ((ManagerCall.store (.instancesOnHost hostId)).serve manager moment world).1 = .ok rows →
        ∀ row ∈ rows, row ∈ world.fleet.instances ∧ row.hostId = hostId := by
  rcases store_cases manager moment world (.instancesOnHost hostId) with ⟨found, fleet, answer, ran, after⟩ |
    ⟨⟨cause, refused⟩, after⟩
  · cases ran
    refine ⟨after, fun rows same row listed => ?_⟩
    cases answer.symm.trans same
    have known := (perm_insertionSort older _).mem_iff.mp listed
    simpa using known
  · refine ⟨after, fun rows same => ?_⟩
    cases refused.symm.trans same

theorem list_operation : UpkeepAsks manager i (.store (.instancesOnHost manager.hostId)) (Idle i)
    (outcome (Sweeping manager i) (Settled i)) where
  waiting := stable_idle manager i
  safe _ _ _ := trivial
  execute desk moment tidy idle permits := by
    obtain ⟨same, found⟩ := instancesOnHost_serve manager moment manager.hostId desk.world
    have unchanged (other : String) :
        World.Same other desk.world
        ((ManagerCall.store (.instancesOnHost manager.hostId)).serve manager moment desk.world).2 :=
      plain_same trivial not_mem_nil
    obtain ⟨kept, gives⟩ := tidy_same tidy permits trivial unchanged rfl
    refine ⟨kept, gives, ?_⟩
    have still : Idle i (UpkeepDesk.serve manager i moment (.inl (.store (.instancesOnHost manager.hostId))) desk).2 :=
      (update_self ..).trans idle
    simp only [silent, upkeepRules]
    cases answer : (UpkeepDesk.serve manager i moment (.inl (.store (.instancesOnHost manager.hostId))) desk).1 with
    | error => exact settled_of_idle still
    | ok rows =>
      refine ⟨still, fun row listed => ?_⟩
      obtain ⟨known, here⟩ := found rows answer row listed
      refine ⟨here, ?_⟩
      by_cases present : row.uuid ∈ (desk.world.machines manager.hostId).seeds
      · refine .inl (known_row ?_ ?_)
        · simp only [UpkeepDesk.serve, update_self]
          apply mem_append_left
          exact mem_map_of_mem (List.mem_filter.mpr ⟨known, by simpa using ⟨here, present⟩⟩)
        · simp only [UpkeepDesk.serve]
          rw [same]
          exact find?_of_mem tidy.distinct.uuids known
      · refine .inr ?_
        simp only [UpkeepDesk.serve]
        rw [same]
        exact present

theorem isoExists_operation (listed : row ∈ rows) : UpkeepAsks manager i (.isoExists row.uuid) (Sweeping manager i rows)
      fun present desk => (present = true → Holds i row desk) ∧ Sweeping manager i rows desk where
  waiting := stable_sweeping rows
  safe _ _ _ := trivial
  execute desk moment tidy swept permits := by
    obtain ⟨kept, gives, steady⟩ := quiet_serve (show (ManagerCall.isoExists row.uuid).Quiet from trivial) tidy permits
    refine ⟨kept, gives, fun present => ?_, stable_sweeping rows _ _ tidy kept steady swept⟩
    have there : row.uuid ∈ (desk.world.machines manager.hostId).seeds := by
      have answer : ((ManagerCall.isoExists row.uuid).serve manager moment desk.world).1 = true := present
      unfold ManagerCall.serve at answer
      split at answer
      next => simpa [ManagerCall.perform] using answer
      next => cases answer
      next => cases answer
    exact stable_holds manager i row _ _ tidy kept steady ((swept.2 row listed).2.resolve_right fun gone => gone there)

def Boots (row : Instance) (call : ManagerCall) : Prop :=
  call.Quiet ∨ ∃ network, call = .define (domainSpec row network false)

theorem boots_operation (here : row.hostId = manager.hostId) (boots : Boots row call) :
    UpkeepAsks manager i call (fun desk => Holds i row desk ∧ Sweeping manager i rows desk)
      fun _ desk => Holds i row desk ∧ Sweeping manager i rows desk := by
  have stable : (upkeepRules manager).Stable i fun desk => Holds i row desk ∧ Sweeping manager i rows desk :=
    (stable_holds manager i row).and (stable_sweeping rows)
  rcases boots with quiet | ⟨network, rfl⟩
  · exact quiet_operation quiet stable
  · refine ⟨stable, fun _ _ _ => trivial, fun desk moment tidy holds permits => ?_⟩
    obtain ⟨kept, gives, -⟩ := define_serve tidy permits holds.1 here
    refine ⟨kept, gives, holds_serve rfl rfl holds.1, (update_self ..).trans holds.2.1, fun other listed => ?_⟩
    refine ⟨(holds.2.2 other listed).1,
      (holds.2.2 other listed).2.imp (holds_serve rfl rfl) fun gone present => gone ?_⟩
    exact @serve_seeds manager moment (.define (domainSpec row network false)) desk.world trivial _ _ present

theorem boots_dropSeed (row : Instance) : (manager.dropSeed row).run.Only (Boots row) := by
  refine only_except ?_ fun _ => only_checked (only_ask (.inl trivial))
  unfold Manager.detachSeed
  split
  next =>
    refine only_given (ensures_domainXmlByUuid false (.inl trivial)) fun xml written => ?_
    obtain ⟨network, rfl⟩ := written
    exact only_checked (only_ask (.inr ⟨network, rfl⟩))
  next => exact only_pure

theorem valid_quiet {α : Type} {program : ManagerM α} {assertion : UpkeepDesk ι → Prop}
    (stable : (upkeepRules manager).Stable i assertion) (settles : ∀ desk, assertion desk → Settled i desk)
    (only : program.run.Only ManagerCall.Quiet) :
    UpkeepDoes manager i assertion program fun _ => assertion := by
  refine (of_only (fun _ quiet => quiet_operation quiet stable) only).post_mono fun result => ?_
  cases result with
  | ok => exact .rfl
  | error => exact fun desk _ holds => settles desk holds

theorem valid_finishFirstBoot (listed : row ∈ rows) :
    (upkeepRules manager).silent.Valid i (Sweeping manager i rows) (manager.finishFirstBoot row).run
      (outcome (fun _ => Sweeping manager i rows) (Sweeping manager i rows)) := by
  refine bind_except (valid_answered (isoExists_operation listed)) fun present => ?_
  cases present with
  | false => exact valid_return fun _ _ swept => swept.2
  | true =>
    have dropped : (upkeepRules manager).silent.Valid i
        (fun desk => row.hostId = manager.hostId ∧ Holds i row desk ∧ Sweeping manager i rows desk)
          (manager.dropSeed row).run
        (outcome (fun _ => Sweeping manager i rows) (Sweeping manager i rows)) := by
      refine Valid.given fun here =>
        (of_only (fun _ boots => boots_operation here boots) (boots_dropSeed row)).post_mono fun result => ?_
      cases result with
      | ok | error => exact fun _ _ holds => holds.2
    exact dropped.weaken fun desk _ holds => ⟨(holds.2.2 row listed).1, holds.1 rfl, holds.2⟩

theorem valid_finishFirstBoots (remaining : List Instance) (listed : ∀ row ∈ remaining, row ∈ rows) :
    (upkeepRules manager).silent.Valid i (Sweeping manager i rows) (manager.finishFirstBoots remaining) fun _ =>
      Sweeping manager i rows := by
  induction remaining with
  | nil => exact of_pure .rfl
  | cons row remaining ih =>
    refine Valid.bind (valid_finishFirstBoot (listed row mem_cons_self)) fun result => ?_
    have rest := ih fun other later => listed other (mem_cons_of_mem _ later)
    cases result with
    | ok => exact rest
    | error => exact rest

theorem valid_pollOnce : UpkeepDoes manager i (Idle i) manager.pollOnce fun _ => Settled i := by
  have stable := stable_idle manager i
  have settles (desk : UpkeepDesk ι) (idle : Idle i desk) : Settled i desk := settled_of_idle idle
  refine bind_except (valid_quiet stable settles (only_checked (only_ask trivial))) fun domains => ?_
  refine bind_except (valid_quiet stable settles (only_checked (only_ask trivial))) fun _ => ?_
  refine bind_except (valid_checked (valid_ask list_operation)) fun rows => ?_
  refine valid_lift ((valid_finishFirstBoots _ fun row listed => ?_).post_mono fun _ desk _ swept =>
    settles desk swept.1)
  exact mem_of_mem_filter listed

def Owes (manager : Manager) (i : ι) (row : Instance) (desk : UpkeepDesk ι) : Prop :=
  Holds i row desk ∧ desk.owing i = some row.uuid ∧ desk.world.Definable manager row

theorem stable_owes (row : Instance) : (upkeepRules manager).Stable i (Owes manager i row) := by
  rintro before after tidy kept steady ⟨holds, owing, definable⟩
  refine ⟨stable_holds manager i row _ _ tidy kept steady holds, steady.owing.trans owing, ?_⟩
  unfold World.Definable
  rw [steady.users]
  exact definable

theorem result_still (new : ResizeRequest) (row : Instance) : new.result (still row) = new.result row := rfl

theorem resized_still (new : ResizeRequest) (row : Instance) :
    still (Manager.resized new row) = Manager.resized new (still row) := rfl

theorem definable_still (row : Instance) : world.Definable manager (still row) = world.Definable manager row := rfl

abbrev writing (new : ResizeRequest) (capacity : Capacity) : ManagerCall :=
  .store (.resize new.uuid new.vcpu new.memoryMib new.diskGib new.nested capacity)

theorem writing_cases (manager : Manager) (moment : Moment) {new : ResizeRequest}
    (capacity : Capacity) {first : Instance} (found : world.fleet.instances.find? (·.uuid = new.uuid) = some first) :
    (∃ reply, ((writing new capacity).serve manager moment world).1 = .ok reply ∧
      ((writing new capacity).serve manager moment world).2.row new.uuid = some (still (Manager.resized new first))) ∨
    (∃ cause, ((writing new capacity).serve manager moment world).1 = .error cause) ∧
      ((writing new capacity).serve manager moment world).2 = world := by
  rcases store_cases manager moment world (.resize new.uuid new.vcpu new.memoryMib new.diskGib new.nested capacity) with
    ⟨reply, fleet, answer, ran, after⟩ | refused
  · refine .inl ⟨reply, answer, ?_⟩
    obtain ⟨-, rfl⟩ := resize_ok.mp ran
    have own : first.uuid = new.uuid := by simpa using List.find?_some found
    have seen := @find?_update world.fleet.instances new.uuid (Manager.resized new) (fun _ => rfl) new.uuid
    rw [found, map_some, if_pos own] at seen
    rw [after]
    exact congrArg (Option.map still) seen
  · exact .inr refused

theorem owes_writing {new : ResizeRequest} {capacity : Capacity} {first : Instance}
    {owing : Option String} (reply : Unit) (found : world.fleet.instances.find? (·.uuid = new.uuid) = some first) :
    (writing new capacity).owes world owing (.ok reply) =
      if (new.result first).restartRequired then some new.uuid else owing := by
  rw [ManagerCall.owes, found]
  rfl

omit [DecidableEq ι] in
theorem follows_of_idle (tidy : desk.Tidy) (holds : Holds i row desk) (idle : Idle i desk) :
    desk.world.Follows row.uuid := by
  refine tidy.follows row.uuid fun j owing => ?_
  rw [tidy.apart j i row.uuid (tidy.owed j row.uuid owing) holds.1, idle] at owing
  cases owing

section
variable {row : Instance} {new : ResizeRequest} {capacity : Capacity}

variable {world : World} {uuid : String}

theorem fits_written {fits : Instance → Int → DomainSpec → Prop} (found : world.row row.uuid = some (still row))
    (written : ((writing new capacity).serve manager moment world).2.row row.uuid =
      some (still (Manager.resized new row)))
    (grown : ∀ hostId spec, fits (still row) hostId spec → fits (still (Manager.resized new row)) hostId spec)
    (before : World.Fits fits row.uuid world) :
    World.Fits fits row.uuid ((writing new capacity).serve manager moment world).2 := by
  intro hostId domain listed mine
  rw [serve_plain (show (writing new capacity).Plain from trivial)] at listed
  obtain ⟨known, same, fitting⟩ := before hostId domain listed mine
  rw [found] at same
  cases same
  exact ⟨_, written, grown hostId _ fitting⟩

theorem describes_resized (unneeded : ¬ (new.result row).restartRequired = true) {hostId : Int} {spec : DomainSpec}
    (described : describes (still row) hostId spec) : describes (still (Manager.resized new row)) hostId spec := by
  simp only [ResizeRequest.result, decide_eq_true_eq, not_or, not_not] at unneeded
  obtain ⟨vcpu, memory, nested⟩ := unneeded
  obtain ⟨located, sameVcpu, sameMemory, sameNested⟩ := described
  exact ⟨located, vcpu.trans sameVcpu, memory.trans sameMemory, nested.trans sameNested⟩

theorem written_tidy {reply : Unit} (tidy : desk.Tidy) (permits : desk.Permits manager i moment (writing new capacity))
    (own : row.uuid = new.uuid) (holds : Holds i row desk) (idle : Idle i desk)
    (answer : ((writing new capacity).serve manager moment desk.world).1 = .ok reply)
    (owes : (writing new capacity).owes desk.world (desk.owing i) (.ok reply) =
      if (new.result row).restartRequired then some row.uuid else desk.owing i)
    (written : ((writing new capacity).serve manager moment desk.world).2.row row.uuid =
      some (still (Manager.resized new row))) :
    (UpkeepDesk.serve manager i moment (.inl (writing new capacity)) desk).2.Tidy ∧
      ∀ j, j ≠ i → UpkeepDesk.Steady j desk
        (UpkeepDesk.serve manager i moment (.inl (writing new capacity)) desk).2 := by
  have others (uuid : String) (other : uuid ≠ row.uuid) :
      World.Same uuid desk.world ((writing new capacity).serve manager moment desk.world).2 :=
    plain_same trivial fun listed => other ((List.mem_singleton.mp listed).trans own.symm)
  have placed := fits_written holds.2 written (fun _ _ located => located) (tidy.placed row.uuid)
  by_cases required : (new.result row).restartRequired = true
  · rw [if_pos required, ← answer] at owes
    exact tidy_target tidy permits trivial holds.1 others (.inr ⟨idle, owes⟩) placed (.inl owes)
  · rw [if_neg required, ← answer] at owes
    have follows := fits_written holds.2 written (fun _ _ described => describes_resized required described)
      (follows_of_idle tidy holds idle)
    exact tidy_target tidy permits trivial holds.1 others (.inl owes) placed (.inr follows)

theorem write_operation (own : row.uuid = new.uuid) :
    UpkeepAsks manager i (writing new capacity) (fun desk => Holds i row desk ∧ Idle i desk)
      (outcome (fun _ desk =>
        if (new.result row).restartRequired then Owes manager i (Manager.resized new row) desk else Idle i desk)
        (Settled i)) where
  waiting := (stable_holds manager i row).and (stable_idle manager i)
  safe _ _ _ := trivial
  execute desk moment tidy known permits := by
    obtain ⟨holds, idle⟩ := known
    obtain ⟨first, found, alike⟩ := Option.map_eq_some_iff.mp holds.2
    rw [own] at found
    have again : new.result first = new.result row := by rw [← result_still, alike, result_still]
    have bigger : still (Manager.resized new first) = still (Manager.resized new row) := by
      rw [resized_still, alike, resized_still]
    rcases writing_cases manager moment capacity found with ⟨reply, answer, written⟩ | ⟨⟨cause, refused⟩, after⟩
    · have owes := @owes_writing desk.world new capacity first (desk.owing i) reply found
      rw [again, ← own] at owes
      rw [bigger, ← own] at written
      obtain ⟨kept, gives⟩ := written_tidy tidy permits own holds idle answer owes written
      refine ⟨kept, gives, ?_⟩
      have owing : (UpkeepDesk.serve manager i moment (.inl (writing new capacity)) desk).2.owing i =
          if (new.result row).restartRequired then some row.uuid else desk.owing i := by
        refine (update_self ..).trans ?_
        rw [answer]
        exact owes
      simp only [silent, upkeepRules]
      rw [show (UpkeepDesk.serve manager i moment (.inl (writing new capacity)) desk).1 = .ok reply from answer]
      by_cases required : (new.result row).restartRequired = true
      · rw [if_pos required] at owing
        show (if (new.result row).restartRequired = true then _ else _)
        rw [if_pos required]
        refine ⟨⟨?_, written⟩, owing, ?_⟩
        · simp only [UpkeepDesk.serve, update_self]
          exact mem_append_right _ holds.1
        · have definable := permits.definable new rfl first found (by rw [again, required])
          rw [← definable_still, bigger, definable_still] at definable
          unfold World.Definable
          rw [show (UpkeepDesk.serve manager i moment (.inl (writing new capacity)) desk).2.world.fleet.users =
            desk.world.fleet.users from serve_users ..]
          exact definable
      · rw [if_neg required] at owing
        show (if (new.result row).restartRequired = true then _ else _)
        rw [if_neg required]
        exact owing.trans idle
    · obtain ⟨kept, gives⟩ :=
        tidy_same tidy permits trivial (fun uuid => by rw [after]; exact ⟨rfl, fun _ => rfl⟩) (by rw [refused]; rfl)
      refine ⟨kept, gives, ?_⟩
      have owing : (UpkeepDesk.serve manager i moment (.inl (writing new capacity)) desk).2.owing i = desk.owing i := by
        refine (update_self ..).trans ?_
        rw [refused]
        rfl
      simp only [silent, upkeepRules]
      rw [show (UpkeepDesk.serve manager i moment (.inl (writing new capacity)) desk).1 = .error cause from refused]
      exact settled_of_idle (owing.trans idle)

theorem userById_serve {id : Int} {user : User} (fine : moment.fault = none)
    (found : world.fleet.users.find? (·.id = id) = some user) :
    ((ManagerCall.store (.userById id)).serve manager moment world).1 = .ok user := by
  unfold ManagerCall.serve
  rw [fine]
  simp only [ManagerCall.perform, StoreCall.tx, Library.Transactions.withTx, Library.Transactions.run_get_bind, found]
  rfl

theorem owner_operation : UpkeepAsks manager i (.store (.userById row.ownerId)) (Owes manager i row)
    (outcome (fun owner desk => (manager.domainXml row owner false).isOk = true ∧ Owes manager i row desk) (Settled i))
      where
  waiting := stable_owes row
  safe _ _ _ := trivial
  execute desk moment tidy owes permits := by
    obtain ⟨kept, gives, steady⟩ :=
      quiet_serve (show (ManagerCall.store (.userById row.ownerId)).Quiet from trivial) tidy permits
    refine ⟨kept, gives, ?_⟩
    have fine : moment.fault = none := permits.finishes (by rw [owes.2.1]; exact some_ne_none _)
    obtain ⟨owner, found, written⟩ := owes.2.2.2
    simp only [silent, upkeepRules]
    rw [show (UpkeepDesk.serve manager i moment (.inl (.store (.userById row.ownerId))) desk).1 =
      .ok owner from userById_serve fine found]
    exact ⟨written, stable_owes row _ _ tidy kept steady owes⟩

theorem domainXml_seed {spec : DomainSpec} (withIso : Bool) (written : (Hypervisor.domainXml spec).isOk = true) :
    Hypervisor.domainXml { spec with withIso } = .ok { spec with withIso } := by
  have fine : spec.complaint = none := by
    unfold Hypervisor.domainXml at written
    split at written
    next => cases written
    next none => exact none
  have same : { spec with withIso }.complaint = none := fine
  rw [Hypervisor.domainXml, same]

theorem isOk_iff {ε α : Type} {result : Except ε α} : result.isOk = true ↔ ∃ value, result = .ok value := by
  cases result <;> simp [Except.isOk, Except.toBool]

theorem network_of_written {owner : User} (written : (manager.domainXml row owner false).isOk = true) :
    ∃ network, manager.userNetworkName owner = .ok network ∧
      ∀ withIso, Hypervisor.domainXml (domainSpec row network withIso) = .ok (domainSpec row network withIso) := by
  obtain ⟨xml, same⟩ := isOk_iff.mp written
  obtain ⟨network, named, rendered⟩ := Library.Results.bind_ok.mp same
  refine ⟨network, named, fun withIso => ?_⟩
  have fine : (Hypervisor.domainXml (domainSpec row network false)).isOk = true := by
    cases result : Hypervisor.domainXml (domainSpec row network false) with
    | ok => rfl
    | error =>
      rw [result] at rendered
      cases rendered
  exact domainXml_seed withIso fine

omit [DecidableEq ι] in
theorem define_taken (tidy : desk.Tidy) (holds : Holds i row desk) (network : String) (withIso : Bool) :
    ∃ machine, (desk.world.machines row.hostId).define (domainSpec row network withIso) = .ok machine :=
  define_runs fun _ listed => placed_name tidy.distinct tidy.placed holds.2 listed

theorem settled_serve (owing : desk.owing i = some row.uuid)
    (same : ∀ owing answer, call.owes desk.world owing answer = owing)
    (follows : (call.serve manager moment desk.world).2.Follows row.uuid) :
    Settled i (UpkeepDesk.serve manager i moment (.inl call) desk).2 := by
  intro uuid owed
  have now : (UpkeepDesk.serve manager i moment (.inl call) desk).2.owing i = desk.owing i :=
    (update_self ..).trans (same ..)
  rw [now, owing] at owed
  cases owed
  exact follows

theorem define_operation {network : String} {withIso : Bool} (here : row.hostId = manager.hostId) :
    UpkeepAsks manager i (.define (domainSpec row network withIso)) (Owes manager i row)
      (outcome (fun _ => Settled i) (Settled i)) where
  waiting := stable_owes row
  safe _ _ _ := trivial
  execute desk moment tidy owes permits := by
    obtain ⟨kept, gives, effect⟩ := define_serve tidy permits owes.1 here
    refine ⟨kept, gives, ?_⟩
    have fine : moment.fault = none := permits.finishes (by rw [owes.2.1]; exact some_ne_none _)
    obtain ⟨machine, defined⟩ := define_taken tidy owes.1 network withIso
    have answer : ((ManagerCall.define (domainSpec row network withIso)).serve manager moment desk.world).1 =
      .ok () := by
      rw [here] at defined
      unfold ManagerCall.serve
      rw [fine]
      simp only [ManagerCall.perform, defined]
      rfl
    have follows := effect.resolve_left (by rw [answer]; rintro ⟨error, same⟩; cases same)
    simp only [silent, upkeepRules]
    rw [show (UpkeepDesk.serve manager i moment (.inl (.define (domainSpec row network withIso))) desk).1 =
      .ok () from answer]
    exact settled_serve owes.2.1 (fun _ _ => rfl) follows

theorem redefine_operation {network : String} (remote : row.hostId ≠ manager.hostId)
    (written : ∀ withIso, Hypervisor.domainXml (domainSpec row network withIso) =
      .ok (domainSpec row network withIso)) :
    UpkeepAsks manager i (.redefine ⟨row.hostId, row, network, none⟩) (Owes manager i row)
      (outcome (fun _ => Settled i) (Settled i)) where
  waiting := stable_owes row
  safe _ _ _ := trivial
  execute desk moment tidy owes permits := by
    have fine : moment.fault = none := permits.finishes (by rw [owes.2.1]; exact some_ne_none _)
    obtain ⟨machine, defined⟩ :=
      define_taken tidy owes.1 network ((desk.world.machines row.hostId).seeds.contains row.uuid)
    have served : (ManagerCall.redefine ⟨row.hostId, row, network, none⟩).serve manager moment desk.world =
        (.ok (Machine.observed machine row.name), desk.world.setMachine row.hostId machine) := by
      unfold ManagerCall.serve
      rw [fine]
      have rendered : Machine.rendered (desk.world.machines row.hostId) ⟨row.hostId, row, network, none⟩ row.name =
          .ok (domainSpec row network ((desk.world.machines row.hostId).seeds.contains row.uuid)) := written _
      simp only [ManagerCall.perform, if_neg remote, Machine.redefine, rendered, defined]
      rfl
    have follows : ((ManagerCall.redefine ⟨row.hostId, row, network, none⟩).serve manager moment desk.world).2.Follows
      row.uuid := by
      rw [served]
      exact follows_define (tidy.placed row.uuid) owes.1.2 defined
    obtain ⟨kept, gives⟩ := tidy_target tidy permits trivial owes.1.1
      (fun uuid other => keeps_same (by simpa [ManagerCall.touched] using other) not_mem_nil) (.inl rfl)
        (placed_of_follows follows) (.inr follows)
    refine ⟨kept, gives, ?_⟩
    simp only [silent, upkeepRules]
    rw [show (UpkeepDesk.serve manager i moment (.inl (.redefine ⟨row.hostId, row, network, none⟩)) desk).1 =
      .ok (Machine.observed machine row.name) from
      congrArg Prod.fst served]
    exact settled_serve owes.2.1 (fun _ _ => rfl) follows

theorem valid_redefineElsewhere (remote : row.hostId ≠ manager.hostId) :
    UpkeepDoes manager i (Owes manager i row) (manager.redefineElsewhere row none) fun _ => Settled i := by
  refine bind_except (valid_checked (valid_ask owner_operation)) fun owner => Valid.given fun written => ?_
  obtain ⟨network, named, rendered⟩ := network_of_written written
  rw [named]
  exact valid_checked (valid_ask (redefine_operation remote rendered))

theorem valid_redefineHere (here : row.hostId = manager.hostId) :
    UpkeepDoes manager i (Owes manager i row) (manager.redefineHere row) fun _ => Settled i := by
  refine bind_except (valid_answered (quiet_operation trivial (stable_owes row))) fun withIso => ?_
  have rendered : UpkeepDoes manager i (Owes manager i row) (manager.domainXmlByUuid row withIso) fun xml desk =>
    (∃ network, xml = domainSpec row network withIso) ∧ Owes manager i row desk := by
    refine bind_except (valid_checked (valid_ask owner_operation)) fun owner => Valid.given fun written => ?_
    obtain ⟨network, named, rendered⟩ := network_of_written written
    have xml : manager.domainXml row owner withIso = .ok (domainSpec row network withIso) := by
      rw [Manager.domainXml, named]
      exact congrArg (Except.mapError _) (rendered withIso)
    rw [xml]
    exact valid_return fun _ _ owes => ⟨⟨network, rfl⟩, owes⟩
  refine bind_except rendered fun xml => Valid.given fun written => ?_
  obtain ⟨network, rfl⟩ := written
  exact valid_checked (valid_ask (define_operation here))

theorem valid_redefine : UpkeepDoes manager i (Owes manager i row) (manager.redefine row) fun _ => Settled i := by
  unfold Manager.redefine
  split
  next remote => exact bind_except (valid_redefineElsewhere remote) fun _ => valid_return .rfl
  next here =>
    split
    next => exact valid_redefineHere (not_not.mp here)
    next lacking =>
      refine Valid.unreached fun desk owes => lacking (owes.2.2.1 (not_not.mp here))

theorem valid_resize : UpkeepDoes manager i (Idle i) (manager.resize new) fun _ => Settled i := by
  refine valid_read fun row own => ?_
  have stable : (upkeepRules manager).Stable i fun desk => Holds i row desk ∧ Idle i desk :=
    (stable_holds manager i row).and (stable_idle manager i)
  have settles (desk : UpkeepDesk ι) (known : Holds i row desk ∧ Idle i desk) :
      Settled i desk := settled_of_idle known.2
  refine bind_except (valid_quiet stable settles only_pure) fun _ => ?_
  refine bind_except (valid_quiet stable settles (only_stored trivial)) fun capacity => ?_
  refine bind_except (valid_quiet stable settles (only_stored trivial)) fun _ => ?_
  have grows : (manager.growDisk new row).run.Only ManagerCall.Quiet := only_growDisk trivial trivial
  refine bind_except (valid_quiet stable settles grows) fun _ => ?_
  refine bind_except (valid_stored (write_operation own)) fun _ => ?_
  refine bind_except (?_ : (upkeepRules manager).silent.Valid i _ _ (outcome (fun _ => Settled i) (Settled i))) fun _ =>
    valid_return .rfl
  unfold Manager.redefineResized
  split
  next => exact valid_redefine
  next => exact valid_return fun desk _ idle => settled_of_idle idle

def World.Gone (uuid : String) (world : World) : Prop :=
  ∀ hostId, ∀ domain ∈ (world.machines hostId).domains, domain.spec.uuid ≠ uuid

theorem fits_of_gone (gone : world.Gone uuid) (fits : Instance → Int → DomainSpec → Prop) :
    World.Fits fits uuid world :=
  fun hostId domain listed own => (gone hostId domain listed own).elim

theorem gone_same {before after : World} (same : World.Same uuid before after) (gone : before.Gone uuid) :
    after.Gone uuid := by
  intro hostId domain listed own
  have known : domain ∈ (after.machines hostId).domains.filter (·.spec.uuid = uuid) :=
    List.mem_filter.mpr ⟨listed, by simpa using own⟩
  rw [same.domains] at known
  exact gone hostId domain (mem_of_mem_filter known) own

def Removing (i : ι) (row : Instance) (desk : UpkeepDesk ι) : Prop := Holds i row desk ∧ Idle i desk

def Removed (i : ι) (row : Instance) (desk : UpkeepDesk ι) : Prop := desk.world.Gone row.uuid ∧ Removing i row desk

theorem stable_removing (manager : Manager) (i : ι) (row : Instance) :
    (upkeepRules manager).Stable i (Removing i row) :=
  (stable_holds manager i row).and (stable_idle manager i)

theorem stable_removed (manager : Manager) (i : ι) (row : Instance) :
    (upkeepRules manager).Stable i (Removed i row) := by
  rintro before after tidy kept steady ⟨gone, removing⟩
  exact ⟨gone_same (steady.same row.uuid removing.1.1) gone,
    stable_removing manager i row _ _ tidy kept steady removing⟩

def Undefined : Except Hypervisor.Error Unit → Prop
  | .ok _ | .error (.domainNotFound _) => True
  | .error (.operation _) => False

theorem gone_of_unnamed (distinct : Distinct world.fleet.instances) (placed : ∀ uuid, world.Placed uuid)
    (found : world.row row.uuid = some (still row)) (unnamed : (world.machines row.hostId).domain row.name = none) :
    world.Gone row.uuid := by
  intro hostId domain listed own
  obtain rfl := placed_host (placed row.uuid) found listed own
  have unlike := List.find?_eq_none.mp unnamed domain listed
  simp [(placed_name distinct placed found listed).mp own] at unlike

theorem gone_of_removed {machine final : Hypervisor.Machine} (distinct : Distinct world.fleet.instances)
    (placed : ∀ uuid, world.Placed uuid) (found : world.row row.uuid = some (still row))
    (acted : (world.machines row.hostId).Acted row.name .remove machine) (same : final.domains = machine.domains) :
    (world.setMachine row.hostId final).Gone row.uuid := by
  intro hostId domain listed own
  by_cases here : hostId = row.hostId
  · subst here
    rw [World.setMachine_same, same] at listed
    cases acted with
    | remove first =>
      have mine := (placed_name distinct placed found (domain_mem first)).mpr (domain_name first)
      have other := (List.mem_filter.mp listed).2
      simp [own, mine] at other
  · rw [World.setMachine_other _ _ _ here] at listed
    exact here (placed_host (placed row.uuid) found listed own)

theorem untouched_named (distinct : Distinct world.fleet.instances) (placed : ∀ uuid, world.Placed uuid)
    (found : world.row row.uuid = some (still row)) {hostId : Int} (other : uuid ≠ row.uuid) :
    uuid ∉ ((world.machines hostId).domain row.name).toList.map (·.spec.uuid) := by
  intro touched
  obtain ⟨domain, first, rfl⟩ := List.mem_map.mp touched
  have first := Option.mem_toList.mp first
  exact other ((placed_name distinct placed found (domain_mem first)).mpr (domain_name first))

theorem remove_notFound {name missing : String}
    (answer : ((ManagerCall.act .remove name).serve manager moment world).1 = .error (.domainNotFound missing)) :
    (world.machines manager.hostId).domain name = none := by
  cases known : (world.machines manager.hostId).domain name with
  | none => rfl
  | some domain =>
    unfold ManagerCall.serve at answer
    split at answer
    next =>
      have removed : (world.machines manager.hostId).act moment.graceful name .remove =
        .ok ((), (world.machines manager.hostId).undefine domain.spec.uuid) := by
        rw [Machine.act, Machine.remove, Machine.lookup_ok.mpr known]
        rfl
      simp only [ManagerCall.perform, removed, World.attempt] at answer
      cases answer
    next => cases answer
    next => cases answer

abbrev AfterRemoval (i : ι) (row : Instance) (answer : Except Hypervisor.Error Unit) (desk : UpkeepDesk ι) : Prop :=
  (Undefined answer → desk.world.Gone row.uuid) ∧ Removing i row desk

theorem removal_serve {answer : Except Hypervisor.Error Unit} (tidy : desk.Tidy)
    (permits : desk.Permits manager i moment call) (upkeeps : call.Upkeeps) (rewrites : call.rewrites = [])
    (takes : call.takes manager desk.world = []) (owes : ∀ owing answer, call.owes desk.world owing answer = owing)
    (removing : Removing i row desk)
    (others : ∀ uuid, uuid ≠ row.uuid → World.Same uuid desk.world (call.serve manager moment desk.world).2)
    (effect : (call.serve manager moment desk.world).2.Gone row.uuid ∨
      (call.serve manager moment desk.world).2 = desk.world ∧ (Undefined answer → desk.world.Gone row.uuid)) :
    (UpkeepDesk.serve manager i moment (.inl call) desk).2.Tidy ∧
      (∀ j, j ≠ i → UpkeepDesk.Steady j desk (UpkeepDesk.serve manager i moment (.inl call) desk).2) ∧
      AfterRemoval i row answer (UpkeepDesk.serve manager i moment (.inl call) desk).2 := by
  have still : Removing i row (UpkeepDesk.serve manager i moment (.inl call) desk).2 :=
    ⟨holds_serve takes rewrites removing.1, (update_self ..).trans ((owes ..).trans removing.2)⟩
  rcases effect with gone | ⟨after, told⟩
  · obtain ⟨kept, gives⟩ :=
      tidy_target tidy permits upkeeps removing.1.1 others (.inl (owes ..)) (fits_of_gone gone _)
      (.inr (fits_of_gone gone _))
    exact ⟨kept, gives, fun _ => gone, still⟩
  · obtain ⟨kept, gives⟩ :=
      tidy_same tidy permits upkeeps (fun uuid => by rw [after]; exact ⟨rfl, fun _ => rfl⟩) (owes ..)
    refine ⟨kept, gives, fun undefined => ?_, still⟩
    simp only [UpkeepDesk.serve]
    rw [after]
    exact told undefined

theorem act_operation (here : row.hostId = manager.hostId) :
    UpkeepAsks manager i (.act .remove row.name) (Removing i row) (AfterRemoval i row) where
  waiting := stable_removing manager i row
  safe _ _ _ := trivial
  execute desk moment tidy removing permits := by
    refine removal_serve tidy permits trivial rfl rfl (fun _ _ => rfl) removing
      (fun uuid other => keeps_same ?_ not_mem_nil) ?_
    · exact untouched_named tidy.distinct tidy.placed removing.1.2 other
    · rcases act_cases manager moment desk.world .remove row.name with ⟨machine, acted, after⟩ |
        ⟨⟨error, refused⟩, after⟩
      · left
        rw [after, ← here]
        rw [← here] at acted
        exact gone_of_removed tidy.distinct tidy.placed removing.1.2 acted rfl
      · refine .inr ⟨after, fun undefined => gone_of_unnamed tidy.distinct tidy.placed removing.1.2 ?_⟩
        have answer : ((upkeepRules manager).silent.serve i moment (.act .remove row.name) desk).1 = .error error :=
          refused
        rw [answer] at undefined
        cases error with
        | domainNotFound =>
          rw [here]
          exact remove_notFound refused
        | operation => exact undefined.elim

theorem inventory_operation : UpkeepAsks manager i (.inventory row.hostId) (Removing i row)
    (outcome (fun domains => whenListed row.name domains (AfterRemoval i row (.error (.domainNotFound row.name)))
      fun domain desk => domain.uuid = row.uuid ∧ Removing i row desk) (Removing i row)) where
  waiting := stable_removing manager i row
  safe _ _ _ := trivial
  execute desk moment tidy removing permits := by
    obtain ⟨kept, gives, steady⟩ :=
      quiet_serve (show (ManagerCall.inventory row.hostId).Quiet from trivial) tidy permits
    refine ⟨kept, gives, ?_⟩
    have after := stable_removing manager i row _ _ tidy kept steady removing
    cases answer : ((upkeepRules manager).silent.serve i moment (.inventory row.hostId) desk).1 with
    | error => exact after
    | ok =>
      obtain rfl := inventory_ok answer
      show whenListed _ _ _ _ _
      unfold whenListed
      rw [list_find?]
      cases found : (desk.world.machines row.hostId).domain row.name with
      | none =>
        refine ⟨fun _ => gone_same (steady.same row.uuid removing.1.1) ?_, after⟩
        exact gone_of_unnamed tidy.distinct tidy.placed removing.1.2 found
      | some =>
        exact ⟨(placed_name tidy.distinct tidy.placed removing.1.2 (domain_mem found)).mpr (domain_name found), after⟩

theorem change_operation : UpkeepAsks manager i (.change row.hostId .remove ⟨row.uuid, row.name⟩) (Removing i row)
    fun answer => AfterRemoval i row ((answer.mapError .operation).map (runnerResult .remove)) where
  waiting := stable_removing manager i row
  safe _ _ _ := trivial
  execute desk moment tidy removing permits := by
    refine removal_serve tidy permits trivial rfl rfl (fun _ _ => rfl) removing
      (fun uuid other => keeps_same ?_ not_mem_nil) ?_
    · intro touched
      rcases List.mem_append.mp touched with named | sent
      · exact untouched_named tidy.distinct tidy.placed removing.1.2 other named
      · exact other (List.mem_singleton.mp sent)
    · rcases change_cases manager moment desk.world row.hostId .remove
        ⟨row.uuid, row.name⟩ with ⟨machine, acted, after⟩ | ⟨⟨error, refused⟩, after⟩
      · left
        rw [after]
        refine gone_of_removed tidy.distinct tidy.placed removing.1.2 acted ?_
        show (Machine.removeFiles machine moment.deletes row.uuid).domains = machine.domains
        unfold Machine.removeFiles
        split <;> rfl
      · refine .inr ⟨after, fun undefined => ?_⟩
        have answer : ((upkeepRules manager).silent.serve i moment (.change row.hostId .remove ⟨row.uuid, row.name⟩)
          desk).1 = .error error := refused
        rw [answer] at undefined
        exact undefined.elim

theorem valid_removeDomain {reach : Reach}
    (found : row.hostId = manager.hostId ∧ reach = .here ∨ row.hostId ≠ manager.hostId ∧ reach = .there row.hostId) :
    (upkeepRules manager).silent.Valid i (Removing i row) (reach.act .remove row.name) (AfterRemoval i row) := by
  rcases found with ⟨here, rfl⟩ | ⟨-, rfl⟩
  · exact valid_ask (act_operation here)
  · have changed (domain : DomainInfo) (_ : domain.name = row.name) :
        UpkeepAsks manager i (.change row.hostId .remove ⟨domain.uuid, row.name⟩)
          (fun desk => domain.uuid = row.uuid ∧ Removing i row desk)
          fun answer => AfterRemoval i row ((answer.mapError .operation).map (runnerResult .remove)) := by
      refine Operation.given fun own => ?_
      rw [own]
      exact change_operation
    refine valid_actThere (inventory_operation.mono fun answer => ?_) changed
    cases answer with
    | error => exact fun _ _ removing => ⟨False.elim, removing⟩
    | ok => exact fun _ _ listed => listed

theorem delete_operation : UpkeepAsks manager i (.store (.deleteInstance row.uuid)) (Removed i row)
    (outcome (fun _ => Settled i) (Settled i)) where
  waiting := stable_removed manager i row
  safe _ _ _ := trivial
  execute desk moment tidy removed permits := by
    have gone : ((ManagerCall.store (.deleteInstance row.uuid)).serve manager moment desk.world).2.Gone row.uuid := by
      intro hostId domain listed
      rw [serve_plain (show (ManagerCall.store (.deleteInstance row.uuid)).Plain from trivial)] at listed
      exact removed.1 hostId domain listed
    obtain ⟨kept, gives⟩ := tidy_target tidy permits trivial removed.2.1.1
      (fun uuid other => plain_same trivial fun listed => other (List.mem_singleton.mp listed)) (.inl rfl)
        (fits_of_gone gone _) (.inr (fits_of_gone gone _))
    refine ⟨kept, gives, ?_⟩
    have settled : Settled i (UpkeepDesk.serve manager i moment (.inl (.store (.deleteInstance row.uuid))) desk).2 :=
      settled_of_idle ((update_self ..).trans removed.2.2)
    simp only [silent, upkeepRules]
    cases (UpkeepDesk.serve manager i moment (.inl (.store (.deleteInstance row.uuid))) desk).1 with
    | ok | error => exact settled

theorem valid_remove : UpkeepDoes manager i (Idle i) (manager.remove uuid) fun _ => Settled i := by
  refine valid_read fun row own => ?_
  subst own
  have reaches : UpkeepDoes manager i (Removing i row) (manager.hypFor row) fun reach desk =>
      (row.hostId = manager.hostId ∧ reach = .here ∨ row.hostId ≠ manager.hostId ∧ reach = .there row.hostId) ∧
        Removing i row desk := by
    refine (of_ensures (fun _ quiet => quiet_operation quiet (stable_removing manager i row))
      (ensures_hypFor trivial)).post_mono fun result => ?_
    cases result with
    | ok => exact .rfl
    | error => exact fun _ _ holds => settled_of_idle holds.2.2
  refine bind_except reaches fun reach => Valid.given fun found => ?_
  refine bind_except (valid_lift (valid_removeDomain found)) fun answer => ?_
  refine bind_except (?_ : (upkeepRules manager).silent.Valid i _ _
    (outcome (fun _ => Removed i row) (Settled i))) fun _ => ?_
  · cases answer with
    | ok => exact valid_return fun _ _ holds => ⟨holds.1 trivial, holds.2⟩
    | error error =>
      cases error with
      | domainNotFound => exact valid_return fun _ _ holds => ⟨holds.1 trivial, holds.2⟩
      | operation => exact valid_throw fun _ _ holds => settled_of_idle holds.2.2
  · refine bind_except (valid_answered (quiet_operation trivial (stable_removed manager i row))) fun _ => ?_
    exact bind_except (valid_checked (valid_ask delete_operation)) fun _ => valid_return .rfl

end

theorem return_settled (result : Except Error Unit) :
    (upkeepRules manager).Operation i (.inr result) (Settled i) fun _ => Idle i where
  waiting := stable_settled manager i
  safe _ _ _ := trivial
  execute desk moment tidy settled _ := by
    have held (j : ι) (uuid : String) (listed : uuid ∈ Function.update desk.held i [] j) :
        j ≠ i ∧ uuid ∈ desk.held j := by
      by_cases same : j = i
      · rw [same, update_self] at listed
        cases listed
      · rw [update_of_ne same] at listed
        exact ⟨same, listed⟩
    refine ⟨⟨tidy.distinct, tidy.placed, fun j k uuid one two => ?_, fun j uuid owes => ?_, fun uuid none => ?_⟩,
      fun j other => ?_, ?_⟩
    · exact tidy.apart j k uuid (held j uuid one).2 (held k uuid two).2
    · rcases update_eq_some owes with ⟨-, impossible⟩ | ⟨other, before⟩
      · cases impossible
      · show uuid ∈ Function.update desk.held i [] j
        rw [update_of_ne other]
        exact tidy.owed j uuid before
    · by_cases mine : desk.owing i = some uuid
      · exact settled uuid mine
      · refine tidy.follows uuid fun j owes => ?_
        by_cases same : j = i
        · exact mine (same ▸ owes)
        · exact none j ((update_of_ne same ..).trans owes)
    · exact ⟨update_of_ne other .., update_of_ne other .., rfl, fun _ =>
        List.Subset.refl _, fun _ _ => ⟨rfl, fun _ => rfl⟩⟩
    · exact update_self ..

theorem valid_upkeep (upkeep : Upkeep) :
    (upkeepRules manager).silent.Valid i (Idle i) (upkeep.program manager).run fun _ => Settled i := by
  have either {program : ManagerM Unit} (valid : UpkeepDoes manager i (Idle i) program fun _ => Settled i) :
      (upkeepRules manager).silent.Valid i (Idle i) program.run fun _ => Settled i := by
    refine valid.post_mono fun result => ?_
    cases result with
    | ok => exact .rfl
    | error => exact .rfl
  cases upkeep with
  | resize => exact either (bind_except valid_resize fun _ => valid_return .rfl)
  | pollOnce => exact either valid_pollOnce
  | remove => exact either valid_remove

/-- Calls in flight know their rows, and a call that was dropped owed nothing. -/
structure Upkeeping.Orderly (manager : Manager) (pool : Upkeeping ι) : Prop where
  sound : (upkeepRules manager).Sound (fun i _ => Idle i) pool
  dropped : ∀ i, pool.thread i = none → Idle i pool.shared

theorem Upkeeping.Orderly.step {pool next : Upkeeping ι} {event : PoolEvent ι Moment} (orderly : pool.Orderly manager)
    (permitted : pool.Permitted manager event) (moved : pool.step manager event = some next) :
    next.Orderly manager := by
  have allowed : (upkeepRules manager).Allowed pool event := by
    cases event with
    | step => exact permitted
    | drop => trivial
  refine ⟨orderly.sound.step (fun i _ => stable_idle manager i) allowed moved, fun j none => ?_⟩
  rcases Pool.step_cases moved with ⟨i, moment, program, rest, shared, rfl, found, resumed, rfl⟩ |
    ⟨i, call, rest, rfl, _, rfl⟩
  · have other : j ≠ i := by
      rintro rfl
      rw [Pool.set_thread_same] at none
      cases none
    rw [Pool.set_thread_other pool other] at none
    cases program with
    | pure => cases resumed
    | request call =>
      cases resumed
      cases call with
      | inl | inr => exact (update_of_ne other ..).trans (orderly.dropped j none)
  · by_cases same : j = i
    · rw [same]
      exact permitted
    · rw [Pool.set_thread_other pool same] at none
      exact orderly.dropped j none

theorem Upkeeping.orderly_begin (upkeeps : ι → Upkeep) (distinct : Distinct world.fleet.instances)
    (consistent : world.Consistent) :
    (Upkeeping.begin manager upkeeps world).Orderly manager := by
  have follows := (consistent_iff distinct).mp consistent
  have tidy : (Upkeeping.begin manager upkeeps world).shared.Tidy :=
    ⟨distinct, fun uuid => placed_of_follows (follows uuid), fun _ _ _ => nofun, fun _ _ =>
      nofun, fun uuid _ => follows uuid⟩
  refine ⟨⟨tidy, fun i program found => ?_⟩, fun _ => nofun⟩
  cases found
  exact ((valid_upkeep (upkeeps i)).reporting return_settled).suspended tidy rfl

/-- Any number of resizes, polls and removals, in any interleaving of their calls. When none
is in flight any more, every domain has a row and is defined as it says. -/
theorem definitions_follow_rows (manager : Manager) (upkeeps : ι → Upkeep) (world : World)
    (distinct : Distinct world.fleet.instances) (consistent : world.Consistent) (events : List (PoolEvent ι Moment))
    (final : Upkeeping ι) (ran : exec (Upkeeping.step manager)
      (Upkeeping.begin manager upkeeps world) events = some final)
    (permitted : Obeys (Upkeeping.step manager) (Upkeeping.Permitted manager)
      (Upkeeping.begin manager upkeeps world) events)
    (quiet : ∀ i, (final.thread i).bind Program.waiting = none) : final.shared.world.Consistent := by
  have orderly : final.Orderly manager :=
    Library.Runs.invariant (fun _ _ _ permitted moved orderly => orderly.step permitted moved) ran permitted
      (Upkeeping.orderly_begin upkeeps distinct consistent)
  have idle (i : ι) : Idle i final.shared := by
    cases found : final.thread i with
    | none => exact orderly.dropped i found
    | some program =>
      cases program with
      | pure => exact orderly.sound.threads i _ found
      | request =>
        have waits := quiet i
        rw [found] at waits
        cases waits
  refine (consistent_iff orderly.sound.invariant.distinct).mpr fun uuid =>
    orderly.sound.invariant.follows uuid fun i owing => ?_
  cases (idle i).symm.trans owing

end

instance (row : Instance) (hostId : Int) (spec : DomainSpec) : Decidable (describes row hostId spec) :=
  inferInstanceAs (Decidable ((row.hostId = hostId ∧ row.name = spec.name) ∧ _ ∧ _ ∧ _))

instance (manager : Manager) (world : World) (row : Instance) : Decidable (world.Definable manager row) := by
  unfold World.Definable
  infer_instance

instance [Fintype ι] [DecidableEq ι] (manager : Manager) (i : ι) (moment : Moment) (desk : UpkeepDesk ι)
    (call : ManagerCall) :
    Decidable (desk.Permits manager i moment call) :=
  decidable_of_iff ((∀ uuid ∈ call.takes manager desk.world, ∀ j, uuid ∈ desk.held j → j = i) ∧
      (∀ new ∈ call.resizing, ∀ row ∈ desk.world.fleet.instances.find? (·.uuid = new.uuid),
        (new.result row).restartRequired = true → desk.world.Definable manager (Manager.resized new row)) ∧
      (desk.owing i ≠ none → moment.fault = none))
    ⟨fun ⟨alone, definable, finishes⟩ => ⟨alone, definable, finishes⟩, fun ⟨alone, definable, finishes⟩ =>
      ⟨alone, definable, finishes⟩⟩

instance [Fintype ι] [DecidableEq ι] (manager : Manager) (pool : Upkeeping ι) :
    ∀ event, Decidable (pool.Permitted manager event)
  | .step i moment =>
    have : DecidablePred fun call : ManagerCall ⊕ Except Error Unit =>
        match call with
        | .inl call => pool.shared.Permits manager i moment call
        | .inr _ => True
      | .inl call => (inferInstance : Decidable (pool.shared.Permits manager i moment call))
      | .inr _ => .isTrue trivial
    (inferInstance : Decidable (∀ call ∈ (pool.thread i).bind Program.waiting,
      match call with
      | .inl call => pool.shared.Permits manager i moment call
      | .inr _ => True))
  | .drop i => (inferInstance : Decidable (pool.shared.owing i = none))

def bootedGuest (uuid name mac : String) : Instance :=
  { plainGuest uuid name 1 with mac, state := .running, desiredState := .running }

def webBooted : Instance := bootedGuest "0b5e" "web" "52:54:00:00:0b:5e"

def dbBooted : Instance := bootedGuest "9f1c" "db" "52:54:00:00:9f:1c"

def bootedWorld : World :=
  ⟨smallFleet [webBooted, dbBooted], fun hostId =>
    if hostId = 1 then ⟨[guestDomain webBooted .running, guestDomain dbBooted .running], ["0b5e", "9f1c"],
      ["0b5e"]⟩ else .empty⟩

theorem booted_distinct : Distinct bootedWorld.fleet.instances := ⟨by decide +kernel, by decide +kernel⟩

theorem booted_consistent : bootedWorld.Consistent := by
  intro hostId domain listed
  by_cases here : hostId = 1
  · subst here
    revert domain
    decide +kernel
  · simp only [bootedWorld, if_neg here] at listed
    cases listed

def moreProcessors : ResizeRequest := ⟨"0b5e", 2, 512, 10, false⟩

def upkeepCalls (i : Fin 2) (steps : Nat) : List (PoolEvent (Fin 2) Moment) := List.replicate steps (.step i calm)

def resizeAndRemove : Fin 2 → Upkeep
  | 0 => .resize moreProcessors
  | 1 => .remove "9f1c"

def resizeAndPoll : Fin 2 → Upkeep
  | 0 => .resize moreProcessors
  | 1 => .pollOnce

theorem definitions_follow_rows_removal :
    ∃ final, exec (Upkeeping.step exampleManager) (Upkeeping.begin exampleManager resizeAndRemove bootedWorld)
      (upkeepCalls 0 4 ++ upkeepCalls 1 5 ++ upkeepCalls 0 4) = some final ∧
    (∀ i, (final.thread i).bind Program.waiting = none) ∧ final.shared.world.Consistent := by
  have permitted : Obeys (Upkeeping.step exampleManager) (Upkeeping.Permitted exampleManager)
      (Upkeeping.begin exampleManager resizeAndRemove bootedWorld)
        (upkeepCalls 0 4 ++ upkeepCalls 1 5 ++ upkeepCalls 0 4) := by
    decide +kernel
  have runs : ((exec (Upkeeping.step exampleManager) (Upkeeping.begin exampleManager resizeAndRemove bootedWorld)
      (upkeepCalls 0 4 ++ upkeepCalls 1 5 ++ upkeepCalls 0 4)).map fun final =>
        decide (∀ i, (final.thread i).bind Program.waiting = none)) =
      some true := by
    decide +kernel
  obtain ⟨final, ran, quiet⟩ := Option.map_eq_some_iff.mp runs
  refine ⟨final, ran, of_decide_eq_true quiet, ?_⟩
  exact definitions_follow_rows exampleManager resizeAndRemove bootedWorld booted_distinct booted_consistent _ final ran
    permitted (of_decide_eq_true quiet)

/-- The poll has listed the rows when the resize comes; it then defines the guest as it was. -/
theorem definitions_fall_behind :
    ∃ final, exec (Upkeeping.step exampleManager) (Upkeeping.begin exampleManager resizeAndPoll bootedWorld)
      (upkeepCalls 1 3 ++ upkeepCalls 0 8 ++ upkeepCalls 1 6) = some final ∧
    (∀ i, (final.thread i).bind Program.ended = some (.ok ())) ∧ ¬ final.shared.world.Consistent := by
  have runs : ((exec (Upkeeping.step exampleManager) (Upkeeping.begin exampleManager resizeAndPoll bootedWorld)
      (upkeepCalls 1 3 ++ upkeepCalls 0 8 ++ upkeepCalls 1 6)).map fun final =>
        (decide (∀ i, (final.thread i).bind Program.ended = some (.ok ())),
        decide (∀ domain ∈ (final.shared.world.machines 1).domains, ∃ row ∈ final.shared.world.fleet.instances,
          row.uuid = domain.spec.uuid ∧ describes row 1 domain.spec))) = some (true, false) := by
    decide +kernel
  obtain ⟨final, ran, shown⟩ := Option.map_eq_some_iff.mp runs
  obtain ⟨returned, behind⟩ := Prod.mk.inj shown
  exact ⟨final, ran, of_decide_eq_true returned, fun consistent => of_decide_eq_false behind (consistent 1)⟩

end Bento.Lifecycle
