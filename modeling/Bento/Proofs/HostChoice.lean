import Bento.Bentod.Placement
import Bento.Proofs.HostCapacity
import Mathlib.Data.Fintype.EquivFin

/-! A machine that is chosen for an instance, against the ceiling that its row is then checked
against. The choice looks at the free storage of the machine, and the check at what is
provisioned on it. -/

namespace Bento.Store
open Lifecycle (Placing)

section
variable {φ : Type} {floats : Floats φ} {roster : Roster} {fleet : Fleet} {arch : Option String} {want : Placing}
  {host : Host}

/-- What a machine must have reported and own to be weighed for a request. -/
structure Eligible (floats : Floats φ) (fleet : Fleet) (arch : Option String) (want : Placing) (hostId : Int)
    (seen : Observation) : Prop where
  healthy : seen.health = .ok
  slotted : fleet.slots.countP (fun slot => slot.ownerHostId = hostId ∧ slot.state = .active) ≠ 0
  arch : archMismatch arch seen.arch = none
  readable : fleet.used hostId Instance.memoryMib ≤ maxInteger ∧ fleet.used hostId Instance.vcpu ≤ maxInteger
  memory : ∃ memory ∈ seen.memoryTotalMib, 0 < memory ∧
    Ceiling.Admits (.limit (floats.overcommittedMemoryMib memory)) (fleet.used hostId Instance.memoryMib) want.memoryMib
  disk : ∀ available ∈ seen.storageAvailableGib, want.diskGib ≤ available

theorem reserved_ok {hostId : Int} {figure : Instance → Nat} {total : Nat} :
    reserved fleet hostId figure = .ok total ↔ total = fleet.used hostId figure ∧
      fleet.used hostId figure ≤ maxInteger := by
  unfold reserved
  dsimp only
  split
  next large => exact iff_of_false (by simp) fun small => absurd small.2 (Int.not_le.mpr large)
  next small =>
    rw [Except.ok.injEq, eq_comm]
    exact (and_iff_left (Int.not_lt.mp small)).symm

theorem weighRoom_ok {seen : Observation} {reservedMemory reservedVcpu : Nat} :
    (∃ weight, weighRoom floats want seen reservedMemory reservedVcpu = .ok weight) ↔
      (∃ memory ∈ seen.memoryTotalMib, 0 < memory ∧
        Ceiling.Admits (.limit (floats.overcommittedMemoryMib memory)) reservedMemory want.memoryMib) ∧
      ∀ available ∈ seen.storageAvailableGib, want.diskGib ≤ available := by
  unfold weighRoom
  dsimp only
  split
  next nothing =>
    refine iff_of_false (by simp) ?_
    rintro ⟨⟨memory, reported, positive, -⟩, -⟩
    rw [reported] at nothing
    exact Nat.ne_of_gt positive nothing
  next something =>
    obtain ⟨memory, reported, positive⟩ : ∃ memory, seen.memoryTotalMib = some memory ∧ 0 < memory := by
      cases reported : seen.memoryTotalMib with
      | none => simp [reported] at something
      | some memory => exact ⟨memory, rfl, Nat.pos_of_ne_zero (by simpa [reported] using something)⟩
    simp only [reported, Option.getD_some, Option.mem_def, Option.some.injEq, exists_eq_left', positive,
      true_and, Ceiling.Admits]
    split
    next beyond => exact iff_of_false (by simp) fun both => absurd both.1 (Nat.not_le.mpr beyond)
    next fits =>
      split
      next available less =>
        obtain ⟨known, smaller⟩ := Option.filter_eq_some_iff.mp less
        exact iff_of_false (by simp) fun both =>
          absurd (both.2 available known) (Nat.not_le.mpr (of_decide_eq_true smaller))
      next enough =>
        refine iff_of_true ⟨_, rfl⟩ ⟨Nat.not_lt.mp fits, fun available known => ?_⟩
        have large := Option.filter_eq_none_iff.mp enough available known
        exact Nat.not_lt.mp fun smaller => large (decide_eq_true smaller)

theorem weighHost_ok : (∃ weight, weighHost floats roster fleet arch want host = .ok (.ok weight)) ↔
    ∃ seen ∈ roster.observation host.id, Eligible floats fleet arch want host.id seen := by
  unfold weighHost
  cases roster.observation host.id with
  | none => simp
  | some seen =>
    simp only [Option.mem_def, Option.some.injEq, exists_eq_left']
    constructor
    · rintro ⟨weight, weighed⟩
      split at weighed
      next => cases weighed
      next healthy =>
        split at weighed
        next => cases weighed
        next slotted =>
          split at weighed
          next => cases weighed
          next same =>
            obtain ⟨memory, memoryRead, rest⟩ := Library.Results.bind_ok.mp weighed
            obtain ⟨vcpu, vcpuRead, room⟩ := Library.Results.bind_ok.mp rest
            obtain ⟨rfl, memorySmall⟩ := reserved_ok.mp memoryRead
            obtain ⟨fits, free⟩ := weighRoom_ok.mp ⟨weight, Library.Results.pure_ok.mp room⟩
            exact ⟨not_not.mp healthy, slotted, same, ⟨memorySmall, (reserved_ok.mp vcpuRead).2⟩, fits, free⟩
    · intro eligible
      obtain ⟨weight, weighed⟩ := weighRoom_ok.mpr ⟨eligible.memory, eligible.disk⟩
      have memoryRead := reserved_ok.mpr ⟨rfl, eligible.readable.1⟩
      have vcpuRead := reserved_ok.mpr ⟨rfl, eligible.readable.2⟩
      rw [if_neg (not_not_intro eligible.healthy), if_neg eligible.slotted, eligible.arch, memoryRead, vcpuRead]
      exact ⟨weight, congrArg Except.ok weighed⟩

/-- When every machine can be read and one of them is eligible, one is chosen. -/
theorem chooseFrom_finds {hosts : List Host} {rejected : List String} {best : Option (Weight φ × Host)}
    (read : ∀ host ∈ hosts, ∃ verdict, weighHost floats roster fleet arch want host = .ok verdict)
    (some : best.isSome ∨ ∃ host ∈ hosts, ∃ weight, weighHost floats roster fleet arch want host = .ok (.ok weight)) :
    ∃ host, chooseFrom floats roster fleet arch want hosts rejected best = .ok host := by
  induction hosts generalizing rejected best with
  | nil =>
    obtain ⟨current, rfl⟩ := Option.isSome_iff_exists.mp (some.resolve_right (by simp))
    exact ⟨current.2, rfl⟩
  | cons first hosts ih =>
    obtain ⟨verdict, weighed⟩ := read first List.mem_cons_self
    have later : ∀ host ∈ hosts, ∃ verdict, weighHost floats roster fleet arch want host = .ok verdict :=
      fun host listed => read host (List.mem_cons_of_mem _ listed)
    unfold chooseFrom
    rw [weighed]
    cases verdict with
    | ok weight =>
      refine ih later (.inl ?_)
      cases best with
      | none => rfl
      | some => split <;> rfl
    | error =>
      refine ih later (some.imp_right ?_)
      rintro ⟨host, listed, weight, weighs⟩
      rcases List.mem_cons.mp listed with rfl | listed
      · cases weighed.symm.trans weighs
      · exact ⟨host, listed, weight, weighs⟩

theorem chooseFrom_ok {hosts : List Host} {rejected : List String} {best : Option (Weight φ × Host)}
    (chosen : chooseFrom floats roster fleet arch want hosts rejected best = .ok host) :
    (∃ weight, best = some (weight, host)) ∨ host ∈ hosts ∧
      ∃ weight, weighHost floats roster fleet arch want host = .ok (.ok weight) := by
  induction hosts generalizing rejected best with
  | nil =>
    cases best with
    | none => cases chosen
    | some current =>
      cases chosen
      exact .inl ⟨current.1, rfl⟩
  | cons first hosts ih =>
    unfold chooseFrom at chosen
    split at chosen
    next => cases chosen
    next weight weighed =>
      rcases ih chosen with ⟨other, found⟩ | ⟨listed, weighs⟩
      · split at found
        next =>
          cases found
          exact .inr ⟨List.mem_cons_self, weight, weighed⟩
        next => exact .inl ⟨other, found⟩
      · exact .inr ⟨List.mem_cons_of_mem _ listed, weighs⟩
    next =>
      rcases ih chosen with found | ⟨listed, weighs⟩
      · exact .inl found
      · exact .inr ⟨List.mem_cons_of_mem _ listed, weighs⟩

theorem chooseHost_ok (chosen : chooseHost floats roster fleet arch want = .ok host) :
    host ∈ fleet.hosts ∧ roster.takes host.id = true ∧
      ∃ seen ∈ roster.observation host.id, Eligible floats fleet arch want host.id seen := by
  rcases chooseFrom_ok chosen with ⟨weight, none⟩ | ⟨listed, weighs⟩
  · cases none
  · obtain ⟨member, takes⟩ := List.mem_filter.mp listed
    exact ⟨member, takes, weighHost_ok.mp weighs⟩

theorem Ceiling.Admits.mono {ceiling : Ceiling} {less used asked requested : Nat}
    (admits : Ceiling.Admits ceiling used requested) (smaller : less ≤ used) (fewer : asked ≤ requested) :
    Ceiling.Admits ceiling less asked := by
  cases ceiling with
  | unbounded => trivial
  | limit =>
    unfold Ceiling.Admits at admits ⊢
    dsimp only at admits ⊢
    omega

theorem Eligible.mono {less : Placing} {seen : Observation} (eligible : Eligible floats fleet arch want host.id seen)
    (fewer : less.memoryMib ≤ want.memoryMib) (smaller : less.diskGib ≤ want.diskGib) :
    Eligible floats fleet none less host.id seen where
  healthy := eligible.healthy
  slotted := eligible.slotted
  arch := rfl
  readable := eligible.readable
  memory := by
    obtain ⟨memory, reported, positive, fits⟩ := eligible.memory
    exact ⟨memory, reported, positive, fits.mono (Nat.le_refl _) fewer⟩
  disk available known := smaller.trans (eligible.disk available known)

end

theorem Fleet.exists_free_name (fleet : Fleet) (userId : Int) (cooldown : Nat) (now : Int) :
    ∃ name, fleet.claimRefusal name userId cooldown now = none := by
  have : Infinite String := .of_injective String.ofList fun _ _ same => String.ofList_injective same
  obtain ⟨name, unused⟩ := Infinite.exists_notMem_finset
    (fleet.instances.map Instance.name ++ fleet.releasedNames.map ReleasedName.name).toFinset
  refine ⟨name, ?_⟩
  have unclaimed : ¬ ∃ row ∈ fleet.instances, row.name = name := by
    rintro ⟨row, listed, rfl⟩
    exact unused (List.mem_toFinset.mpr (List.mem_append_left _ (List.mem_map_of_mem listed)))
  have unreleased : fleet.lastRelease name = none := by
    rw [Fleet.lastRelease, List.find?_eq_none]
    intro record listed same
    rw [decide_eq_true_eq] at same
    exact unused (List.mem_toFinset.mpr (List.mem_append_right _ (List.mem_map.mpr ⟨record, listed, same⟩)))
  rw [Fleet.claimRefusal, if_neg unclaimed, unreleased, Option.bind_none]

end Bento.Store

namespace Bento.Bentod
open Store
open Lifecycle (Placing)

/-- The create for a machine that was chosen finds its ceiling and is not refused for
capacity. -/
def Agrees {φ : Type} (floats : Floats φ) (this : ThisHost) (roster : Roster) (fleet : Fleet) (hostId : Int) : Prop :=
  ∀ arch want host, chooseHost floats roster fleet arch want = .ok host → host.id = hostId →
    ∃ capacity, hostCapacity floats this roster hostId = .ok capacity ∧
      ∀ now row cooldown, row.hostId = hostId ∧ row.memoryMib = want.memoryMib ∧ row.diskGib = want.diskGib →
        ¬ fleet.Full (fun _ => capacity) (.createInstance now row cooldown)

/-- The machine has reported its storage, and what is free on it is not more than what is
not provisioned. A sum of disks that SQLite cannot hold is refused as such. -/
def FreeAccounted (fleet : Fleet) (hostId : Int) (seen : Observation) : Prop :=
  ∃ total ∈ seen.storageTotalGib, 0 < total ∧ (maxInteger < fleet.usedBeside hostId "" Instance.diskGib ∨
    ∃ available ∈ seen.storageAvailableGib, fleet.usedBeside hostId "" Instance.diskGib + available ≤ total)

section
variable {φ : Type} {floats : Floats φ} {this : ThisHost} {roster : Roster} {fleet : Fleet} {hostId : Int}
  {capacity : Capacity} {seen : Observation} {arch : Option String} {want : Placing}

theorem hostCapacity_ok (other : hostId ≠ this.hostId) (observed : roster.observation hostId = some seen) :
    hostCapacity floats this roster hostId = .ok capacity ↔ ∃ memory ∈ seen.memoryTotalMib, 0 < memory ∧
      ∃ disk ∈ seen.storageTotalGib, 0 < disk ∧
        capacity = ⟨.limit (floats.overcommittedMemoryMib memory), .limit disk⟩ := by
  unfold hostCapacity
  rw [if_neg other, observed]
  dsimp only
  split
  next memory disk memorySeen diskSeen =>
    obtain ⟨memorySeen, memoryPositive⟩ := Option.filter_eq_some_iff.mp memorySeen
    obtain ⟨diskSeen, diskPositive⟩ := Option.filter_eq_some_iff.mp diskSeen
    simp only [Except.ok.injEq, memorySeen, diskSeen, Option.mem_def, Option.some.injEq, exists_eq_left',
      of_decide_eq_true memoryPositive, of_decide_eq_true diskPositive, true_and, eq_comm]
  next unknown =>
    refine iff_of_false (by simp) ?_
    rintro ⟨memory, memorySeen, memoryPositive, disk, diskSeen, diskPositive, -⟩
    exact unknown memory disk (Option.filter_eq_some_iff.mpr ⟨memorySeen, decide_eq_true memoryPositive⟩)
      (Option.filter_eq_some_iff.mpr ⟨diskSeen, decide_eq_true diskPositive⟩)

/-- A row for an eligible machine is refused for capacity exactly when its disk is. -/
theorem full_iff {now : Int} {row : Instance} {cooldown memory disk : Nat}
    (eligible : Eligible floats fleet arch want hostId seen) (reported : memory ∈ seen.memoryTotalMib)
    (here : row.hostId = hostId ∧ row.memoryMib = want.memoryMib ∧ row.diskGib = want.diskGib) :
    fleet.Full (fun _ => ⟨.limit (floats.overcommittedMemoryMib memory), .limit disk⟩)
      (.createInstance now row cooldown) ↔
      fleet.claimRefusal row.name row.ownerId cooldown now = none ∧
        ¬ maxInteger < fleet.usedBeside hostId "" Instance.diskGib ∧
        ¬ Store.Ceiling.Admits (.limit disk) (fleet.usedBeside hostId "" Instance.diskGib) want.diskGib := by
  obtain ⟨rfl, memoryAsked, diskAsked⟩ := here
  obtain ⟨again, reportedAgain, -, memoryFits⟩ := eligible.memory
  cases Option.mem_unique reported reportedAgain
  have less := @usedBeside_le fleet row.hostId Instance.memoryMib ""
  have small := eligible.readable.1
  have memoryRead : ¬ maxInteger < fleet.usedBeside row.hostId "" Instance.memoryMib := by omega
  rw [full_createInstance, memoryAsked, diskAsked]
  refine and_congr_right fun _ => ?_
  by_cases diskRead : maxInteger < fleet.usedBeside row.hostId "" Instance.diskGib
  · -- The sum of the disks cannot be read, which is another refusal.
    refine iff_of_false ?_ fun both => both.1 diskRead
    rintro ⟨error, refused, capacities⟩
    unfold Fleet.capacityRefusal at refused
    dsimp only at refused
    rw [if_pos (.inr diskRead)] at refused
    cases refused
    cases capacities
  · have memoryAdmitted : Store.Ceiling.refusal (.limit (floats.overcommittedMemoryMib memory)) .memory
        (fleet.usedBeside row.hostId "" Instance.memoryMib) want.memoryMib = none :=
          refusal_none.mpr (memoryFits.mono less (Nat.le_refl _))
    rw [capacityRefusal_readable (not_or.mpr ⟨memoryRead, diskRead⟩), memoryAdmitted, Option.none_or,
      ← @refusal_none _ .disk]
    cases refused : Store.Ceiling.refusal (.limit disk) .disk
      (fleet.usedBeside row.hostId "" Instance.diskGib) want.diskGib with
    | none => simp
    | some => simp [diskRead, (refusal_some refused).1]

theorem agrees_of_accounted (other : hostId ≠ this.hostId)
    (accounted : ∀ seen ∈ roster.observation hostId, Eligible floats fleet none ⟨0, 0, 0⟩ hostId seen →
      FreeAccounted fleet hostId seen) :
    Agrees floats this roster fleet hostId := by
  rintro arch want host chosen rfl
  obtain ⟨-, -, seen, observed, eligible⟩ := chooseHost_ok chosen
  obtain ⟨memory, reported, positive, -⟩ := eligible.memory
  obtain ⟨total, storage, some, room⟩ := accounted seen observed (eligible.mono (Nat.zero_le _) (Nat.zero_le _))
  refine ⟨_, (hostCapacity_ok other observed).mpr ⟨memory, reported, positive, total, storage, some, rfl⟩, ?_⟩
  intro now row cooldown placed
  rw [full_iff eligible reported placed]
  rintro ⟨-, readable, beyond⟩
  obtain ⟨available, free, within⟩ := room.resolve_left readable
  have asked := eligible.disk available free
  apply beyond
  unfold Store.Ceiling.Admits
  dsimp only
  omega

/-- The other machines are open and have never answered. -/
def alone (roster : Roster) (hostId : Int) : Roster where
  enabled _ := true
  placement _ := .active
  observation other := if other = hostId then roster.observation hostId else none

theorem alone_chosen (listed : ∃ host ∈ fleet.hosts, host.id = hostId) (observed : seen ∈ roster.observation hostId)
    (eligible : Eligible floats fleet arch want hostId seen) :
    ∃ host, chooseHost floats (alone roster hostId) fleet arch want = .ok host ∧ host.id = hostId := by
  have own : (alone roster hostId).observation hostId = some seen := by simpa [alone] using observed
  have weighs (host : Store.Host) (same : host.id = hostId) :
      ∃ weight, weighHost floats (alone roster hostId) fleet arch want host = .ok (.ok weight) :=
    weighHost_ok.mpr ⟨seen, same ▸ own, same ▸ eligible⟩
  obtain ⟨host, chosen⟩ : ∃ host, chooseHost floats (alone roster hostId) fleet arch want = .ok host := by
    apply chooseFrom_finds
    · intro host _
      by_cases same : host.id = hostId
      · obtain ⟨weight, weighed⟩ := weighs host same
        exact ⟨_, weighed⟩
      · exact ⟨.error "never answered the controller", by simp [weighHost, alone, same]⟩
    · obtain ⟨host, listed, same⟩ := listed
      exact .inr ⟨host, List.mem_filter.mpr ⟨listed, rfl⟩, weighs host same⟩
  obtain ⟨-, -, again, seenThere, -⟩ := chooseHost_ok chosen
  refine ⟨host, chosen, ?_⟩
  by_contra different
  simp [alone, different] at seenThere

/-- Every disk that the machine is weighed for is within its ceiling. -/
theorem admitted_of_agrees {diskGib : Nat} (listed : ∃ host ∈ fleet.hosts, host.id = hostId)
    (other : hostId ≠ this.hostId) (observed : seen ∈ roster.observation hostId)
    (eligible : Eligible floats fleet none ⟨0, 0, 0⟩ hostId seen)
    (agrees : Agrees floats this (alone roster hostId) fleet hostId)
    (free : ∀ available ∈ seen.storageAvailableGib, diskGib ≤ available) :
    ∃ total ∈ seen.storageTotalGib, 0 < total ∧ (¬ maxInteger < fleet.usedBeside hostId "" Instance.diskGib →
      Store.Ceiling.Admits (.limit total) (fleet.usedBeside hostId "" Instance.diskGib) diskGib) := by
  have own : (alone roster hostId).observation hostId = some seen := by simpa [alone] using observed
  have asking : Eligible floats fleet none ⟨0, 0, diskGib⟩ hostId seen := { eligible with disk := free }
  obtain ⟨host, chosen, same⟩ := alone_chosen listed observed asking
  obtain ⟨capacity, known, admits⟩ := agrees none ⟨0, 0, diskGib⟩ host chosen same
  obtain ⟨memory, reported, -, total, storage, positive, rfl⟩ := (hostCapacity_ok other own).mp known
  refine ⟨total, storage, positive, fun readable => ?_⟩
  obtain ⟨name, unclaimed⟩ := fleet.exists_free_name 1 0 0
  by_contra beyond
  let row : Instance := { plainGuest "" name hostId with memoryMib := 0, diskGib }
  exact admits 0 row 0 ⟨rfl, rfl, rfl⟩ ((full_iff asking reported ⟨rfl, rfl, rfl⟩).mpr ⟨unclaimed, readable, beyond⟩)

theorem accounted_of_agrees (listed : ∃ host ∈ fleet.hosts, host.id = hostId) (other : hostId ≠ this.hostId)
    (observed : seen ∈ roster.observation hostId) (small : ∀ total ∈ seen.storageTotalGib, total ≤ maxInteger)
    (eligible : Eligible floats fleet none ⟨0, 0, 0⟩ hostId seen)
    (agrees : Agrees floats this (alone roster hostId) fleet hostId) :
    FreeAccounted fleet hostId seen := by
  have admitted (diskGib : Nat) := @admitted_of_agrees _ _ _ _ _ _ _ diskGib listed other observed eligible agrees
  unfold Store.Ceiling.Admits at admitted
  dsimp only at admitted
  cases free : seen.storageAvailableGib with
  | none =>
    obtain ⟨total, storage, positive, -⟩ := admitted 0 (by simp)
    refine ⟨total, storage, positive, .inl ?_⟩
    by_contra readable
    obtain ⟨again, storageAgain, -, fits⟩ := admitted (total + 1) (by simp [free])
    cases Option.mem_unique storage storageAgain
    have below := small total storage
    have within := fits readable
    unfold maxInteger at below
    omega
  | some available =>
    obtain ⟨total, storage, positive, fits⟩ := admitted available (by simp [free])
    refine ⟨total, storage, positive, ?_⟩
    by_cases readable : maxInteger < fleet.usedBeside hostId "" Instance.diskGib
    · exact .inl readable
    · refine .inr ⟨available, free, ?_⟩
      have below := small total storage
      have within := fits readable
      unfold maxInteger at below
      omega

end

/-- Whatever the other machines report, and whichever are open beside it, an instance for a
machine that is chosen is not refused for capacity: exactly when the machine has reported
its storage and its free storage is within what is not provisioned. -/
theorem choice_admitted {φ : Type} (floats : Floats φ) (this : ThisHost) (roster : Roster)
    (fleet : Fleet) (hostId : Int) (listed : ∃ host ∈ fleet.hosts, host.id = hostId) (several : 2 ≤ fleet.hosts.length)
    (other : hostId ≠ this.hostId)
    (small : ∀ seen ∈ roster.observation hostId, ∀ total ∈ seen.storageTotalGib, total ≤ maxInteger) :
    (∀ others : Roster, others.observation hostId = roster.observation hostId → 2 ≤ placeableHosts others fleet →
      Agrees floats this others fleet hostId) ↔
      ∀ seen ∈ roster.observation hostId, Eligible floats fleet none ⟨0, 0, 0⟩ hostId seen →
        FreeAccounted fleet hostId seen := by
  constructor
  · intro agree seen observed eligible
    refine accounted_of_agrees listed other observed (small seen observed) eligible (agree _ (by simp [alone]) ?_)
    simpa [placeableHosts, alone, Roster.takes] using several
  · intro accounted others same _
    apply agrees_of_accounted other
    rw [same]
    exact accounted

/-! Two open machines, of which only the runner answers. It has one guest. -/

def fractions : Floats (Nat × Nat) where
  overcommittedMemoryMib := id
  ratio := Prod.mk
  partialCmp left right := some (compare (left.1 * right.2) (right.1 * left.2))

def twoOpen (storage : Option Nat) : Roster where
  enabled _ := true
  placement _ := .active
  observation hostId := if hostId = 2 then some ⟨.ok, none, some 4, some 8192, storage, some 90⟩ else none

def guestOf (diskGib : Nat) : Fleet :=
  { smallFleet [{ plainGuest "u1" "web" 2 with diskGib }] with slots := [⟨0, .active, 2, 1, none, none, none⟩] }

def runnerHost : Store.Host := ⟨2, none, "runner", none, none⟩

def newGuest : Instance := { plainGuest "u2" "db" 2 with diskGib := 30 }

theorem choice_admitted_small :
    chooseHost fractions (twoOpen (some 100)) (guestOf 10) none ⟨1, 512, 30⟩ = .ok runnerHost ∧
    ∃ capacity, hostCapacity fractions ⟨1, unlimited⟩ (twoOpen (some 100)) 2 = .ok capacity ∧
      ¬ (guestOf 10).Full (fun _ => capacity) (.createInstance 1 newGuest 0) := by
  have chosen : chooseHost fractions (twoOpen (some 100)) (guestOf 10) none ⟨1, 512, 30⟩ = .ok runnerHost := by
    decide +kernel
  have small : ∀ seen ∈ (twoOpen (some 100)).observation 2, ∀ total ∈ seen.storageTotalGib, total ≤ maxInteger := by
    decide
  have agrees := (choice_admitted fractions ⟨1, unlimited⟩ (twoOpen (some 100)) (guestOf 10) 2
    ⟨runnerHost, by decide, rfl⟩ (by decide) (by decide) small).mpr (by
      rintro seen ⟨⟩ -
      exact ⟨100, rfl, by decide, .inr ⟨90, rfl, by decide⟩⟩)
  obtain ⟨capacity, known, admits⟩ := agrees _ rfl (by decide) none ⟨1, 512, 30⟩ runnerHost chosen rfl
  exact ⟨chosen, capacity, known, admits 1 newGuest 0 ⟨rfl, rfl, rfl⟩⟩

/-- Of 100 GiB the guest has provisioned 80, and 90 are still free. A machine that has not
reported how much it has in all is chosen as well. -/
theorem choice_refused : placeableHosts (twoOpen (some 100)) (guestOf 80) = 2 ∧
    chooseHost fractions (twoOpen (some 100)) (guestOf 80) none ⟨1, 512, 30⟩ = .ok runnerHost ∧
    hostCapacity fractions ⟨1, unlimited⟩ (twoOpen (some 100)) 2 = .ok ⟨.limit 8192, .limit 100⟩ ∧
    (guestOf 80).Full (fun _ => ⟨.limit 8192, .limit 100⟩) (.createInstance 1 newGuest 0) ∧
    chooseHost fractions (twoOpen none) (guestOf 10) none ⟨1, 512, 30⟩ = .ok runnerHost ∧
    (hostCapacity fractions ⟨1, unlimited⟩ (twoOpen none) 2).isOk = false := by
  have full : (guestOf 80).Full (fun _ => ⟨.limit 8192, .limit 100⟩) (.createInstance 1 newGuest 0) :=
    ⟨.capacity .disk 80 30 100, by decide +kernel, rfl⟩
  exact ⟨by decide +kernel, by decide +kernel, by decide +kernel, full, by decide +kernel, by decide +kernel⟩

end Bento.Bentod
