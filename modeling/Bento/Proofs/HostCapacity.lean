import Bento.Proofs.InstanceRows
import Mathlib.Algebra.Order.BigOperators.Group.List
import Mathlib.Algebra.Order.Group.Nat

/-! The sums over the rows of a machine against its ceilings. Every row that is written was
checked with all the others in the same transaction, so no run goes beyond a ceiling, and a
write is refused for capacity just when it would. -/

namespace Bento.Store
open Library.Transactions Store.Ceiling List

def Fleet.used (fleet : Fleet) (hostId : Int) (figure : Instance → Nat) : Nat :=
  ((fleet.instances.filter (·.hostId = hostId)).map figure).sum

def Fleet.usedBeside (fleet : Fleet) (hostId : Int) (excludeUuid : String) (figure : Instance → Nat) : Nat :=
  ((fleet.beside hostId excludeUuid).map figure).sum

def Ceiling.Holds (ceiling : Ceiling) (total : Nat) : Prop :=
  match ceiling with
  | .unbounded => True
  | .limit limit => total ≤ limit

instance : ∀ (ceiling : Ceiling) (total : Nat), Decidable (Ceiling.Holds ceiling total)
  | .unbounded, _ => .isTrue trivial
  | .limit limit, total => inferInstanceAs (Decidable (total ≤ limit))

theorem Ceiling.Holds.mono {ceiling : Ceiling} {less total : Nat} (holds : Ceiling.Holds ceiling total)
    (smaller : less ≤ total) :
    Ceiling.Holds ceiling less := by
  cases ceiling with
  | unbounded => trivial
  | limit => exact smaller.trans holds

theorem Ceiling.admits_iff {ceiling : Ceiling} {used requested : Nat} (stored : used ≤ maxInteger)
    (small : requested ≤ maxInteger) :
    Ceiling.Admits ceiling used requested ↔ Ceiling.Holds ceiling (used + requested) := by
  cases ceiling with
  | unbounded => exact Iff.rfl
  | limit =>
    unfold maxInteger at stored small
    unfold Ceiling.Admits Ceiling.Holds
    dsimp only
    rw [Nat.min_eq_left (by omega)]

section
variable {fleet : Fleet} {hostId : Int} {figure : Instance → Nat}

theorem usedBeside_empty (named : ∀ row ∈ fleet.instances, row.uuid ≠ "") :
    fleet.usedBeside hostId "" figure = fleet.used hostId figure := by
  unfold Fleet.usedBeside Fleet.used Fleet.beside
  congr 2
  apply filter_congr
  intro row listed
  simp [named row listed]

theorem used_append (row : Instance) :
    ({ fleet with instances := fleet.instances ++ [row] } : Fleet).used hostId figure =
    fleet.used hostId figure + if row.hostId = hostId then figure row else 0 := by
  unfold Fleet.used
  by_cases here : row.hostId = hostId
  · simp [here]
  · simp [here]

theorem used_sublist {after : Fleet} (fewer : after.instances.Sublist fleet.instances) :
    after.used hostId figure ≤ fleet.used hostId figure :=
  ((fewer.filter _).map figure).sum_le_sum fun _ _ => Nat.zero_le _

theorem usedBeside_le (uuid : String) : fleet.usedBeside hostId uuid figure ≤ fleet.used hostId figure := by
  unfold Fleet.usedBeside Fleet.used Fleet.beside
  refine List.Sublist.sum_le_sum (List.Sublist.map _ ?_) fun _ _ => Nat.zero_le _
  apply monotone_filter_right
  intro row
  simp only [decide_eq_true_eq]
  exact fun here => here.1

theorem used_update {uuid : String} {row : Instance} {change : Instance → Instance}
    (keyed : (fleet.instances.map Instance.uuid).Nodup) (known : fleet.instances.find? (·.uuid = uuid) = some row)
    (stays : (change row).hostId = row.hostId) :
    ({ fleet with instances := fleet.instances.map fun other => if other.uuid = uuid then change other else other } :
      Fleet).used hostId figure =
      fleet.usedBeside hostId uuid figure + if row.hostId = hostId then figure (change row) else 0 := by
  unfold Fleet.used Fleet.usedBeside Fleet.beside
  dsimp only
  generalize fleet.instances = rows at keyed known
  induction rows with
  | nil => cases known
  | cons first rest ih =>
    rw [map_cons, nodup_cons] at keyed
    by_cases mine : first.uuid = uuid
    · subst mine
      rw [List.find?_cons_of_pos (by simp)] at known
      cases known
      have others : ∀ other ∈ rest, other.uuid ≠ row.uuid := fun other listed same =>
        keyed.1 (List.mem_map.mpr ⟨other, listed, same⟩)
      have same : (rest.map fun other => if other.uuid = row.uuid then change other else other) = rest := by
        conv_rhs => rw [← map_id rest]
        apply map_congr_left
        intro other listed
        rw [if_neg (others other listed), id]
      have beside : (row :: rest).filter (fun other => decide (other.hostId = hostId ∧ other.uuid ≠ row.uuid)) =
          rest.filter (·.hostId = hostId) := by
        rw [filter_cons_of_neg (by simp)]
        apply filter_congr
        intro other listed
        simp [others other listed]
      rw [map_cons, if_pos rfl, same, beside]
      by_cases here : row.hostId = hostId
      · rw [filter_cons_of_pos (by simp [stays, here]), map_cons, sum_cons, if_pos here, Nat.add_comm]
      · rw [filter_cons_of_neg (by simp [stays, here]), if_neg here, Nat.add_zero]
    · rw [List.find?_cons_of_neg (by simp [mine])] at known
      have later := ih keyed.2 known
      rw [map_cons, if_neg mine]
      by_cases here : first.hostId = hostId
      · rw [filter_cons_of_pos (by simp [here]), filter_cons_of_pos (by simp [here, mine]), map_cons, map_cons,
          sum_cons, sum_cons, later, Nat.add_assoc]
      · rw [filter_cons_of_neg (by simp [here]), filter_cons_of_neg (by simp [here]), later]

end

def Ceiling.refusal (ceiling : Ceiling) (resource : Resource) (used requested : Nat) : Option Error :=
  match ceiling with
  | .unbounded => none
  | .limit limit =>
    if limit < min (used + requested) (2 ^ 64 - 1) then some (.capacity resource used requested limit) else none

def Fleet.capacityRefusal (fleet : Fleet) (hostId : Int) (excludeUuid : String) (addMemory addDisk : Nat)
    (capacity : Capacity) : Option Error :=
  let memory := fleet.usedBeside hostId excludeUuid Instance.memoryMib
  let disk := fleet.usedBeside hostId excludeUuid Instance.diskGib
  if maxInteger < memory ∨ maxInteger < disk then some .sqlite
  else (Ceiling.refusal capacity.memoryMib .memory memory addMemory).or
    (Ceiling.refusal capacity.diskGib .disk disk addDisk)

def Error.isCapacity : Error → Bool
  | .capacity .. => true
  | _ => false

section
variable {fleet : Fleet} {ceiling : Ceiling} {resource : Resource} {used requested : Nat}

theorem refuse_run : (Ceiling.refuse ceiling resource used requested).run fleet =
    match Ceiling.refusal ceiling resource used requested with
    | none => .ok ((), fleet)
    | some error => .error error := by
  cases ceiling with
  | unbounded => rfl
  | limit limit =>
    unfold Ceiling.refuse Ceiling.refusal
    dsimp only
    rw [run_refuseIf]
    by_cases beyond : limit < min (used + requested) (2 ^ 64 - 1)
    · rw [if_pos beyond, if_pos beyond]
    · rw [if_neg beyond, if_neg beyond]

theorem refusal_none : Ceiling.refusal ceiling resource used requested = none ↔
    Ceiling.Admits ceiling used requested := by
  cases ceiling with
  | unbounded => exact ⟨fun _ => trivial, fun _ => rfl⟩
  | limit =>
    unfold Ceiling.refusal Ceiling.Admits
    simp only [ite_eq_right_iff, reduceCtorEq, imp_false, Nat.not_lt]

theorem refusal_some {error : Error} (refused : Ceiling.refusal ceiling resource used requested = some error) :
    error.isCapacity = true ∧ ¬ Ceiling.Holds ceiling (used + requested) := by
  cases ceiling with
  | unbounded => cases refused
  | limit =>
    unfold Ceiling.refusal at refused
    dsimp only at refused
    split at refused
    next beyond =>
      cases refused
      exact ⟨rfl, Nat.not_le.mpr (beyond.trans_le (Nat.min_le_left _ _))⟩
    next => cases refused

end

section
variable {fleet : Fleet} {hostId : Int} {excludeUuid : String} {addMemory addDisk : Nat} {capacity : Capacity}

theorem checkCapacityTx_run : (checkCapacityTx hostId excludeUuid addMemory addDisk capacity).run fleet =
    match fleet.capacityRefusal hostId excludeUuid addMemory addDisk capacity with
    | none => .ok ((), fleet)
    | some error => .error error := by
  unfold checkCapacityTx
  rw [run_get_bind]
  dsimp only
  rw [run_refuseIf_bind]
  unfold Fleet.capacityRefusal Fleet.usedBeside Fleet.beside
  dsimp only
  split
  next => rfl
  next =>
    rw [StateT.run_bind, refuse_run]
    cases Ceiling.refusal capacity.memoryMib .memory _ addMemory with
    | none => exact refuse_run
    | some => rfl

theorem capacityRefusal_readable (readable : ¬ (maxInteger < fleet.usedBeside hostId excludeUuid Instance.memoryMib ∨
      maxInteger < fleet.usedBeside hostId excludeUuid Instance.diskGib)) :
    fleet.capacityRefusal hostId excludeUuid addMemory addDisk capacity =
      (Ceiling.refusal capacity.memoryMib .memory (fleet.usedBeside hostId excludeUuid Instance.memoryMib) addMemory).or
        (Ceiling.refusal capacity.diskGib .disk (fleet.usedBeside hostId excludeUuid Instance.diskGib) addDisk) := by
  unfold Fleet.capacityRefusal
  dsimp only
  rw [if_neg readable]

theorem capacityRefusal_over {error : Error}
    (refused : fleet.capacityRefusal hostId excludeUuid addMemory addDisk capacity = some error)
    (capacities : error.isCapacity = true) :
    ¬ (Ceiling.Holds capacity.memoryMib (fleet.usedBeside hostId excludeUuid Instance.memoryMib + addMemory) ∧
      Ceiling.Holds capacity.diskGib (fleet.usedBeside hostId excludeUuid Instance.diskGib + addDisk)) := by
  unfold Fleet.capacityRefusal at refused
  dsimp only at refused
  split at refused
  next =>
    cases refused
    cases capacities
  next =>
    rintro ⟨memory, disk⟩
    rcases Option.or_eq_some_iff.mp refused with first | ⟨-, last⟩
    · exact (refusal_some first).2 memory
    · exact (refusal_some last).2 disk

theorem capacityRefusal_iff (readable : ¬ (maxInteger < fleet.usedBeside hostId excludeUuid Instance.memoryMib ∨
      maxInteger < fleet.usedBeside hostId excludeUuid Instance.diskGib)) (memory : addMemory ≤ maxInteger)
    (disk : addDisk ≤ maxInteger) :
    (∃ error, fleet.capacityRefusal hostId excludeUuid addMemory addDisk capacity = some error ∧
      error.isCapacity = true) ↔
      ¬ (Ceiling.Holds capacity.memoryMib (fleet.usedBeside hostId excludeUuid Instance.memoryMib + addMemory) ∧
        Ceiling.Holds capacity.diskGib (fleet.usedBeside hostId excludeUuid Instance.diskGib + addDisk)) := by
  constructor
  · rintro ⟨error, refused, capacities⟩
    exact capacityRefusal_over refused capacities
  · intro beyond
    rw [capacityRefusal_readable readable]
    obtain ⟨memoryRead, diskRead⟩ := not_or.mp readable
    rw [← admits_iff (Int.not_lt.mp memoryRead) memory, ← admits_iff (Int.not_lt.mp diskRead) disk] at beyond
    cases first : Ceiling.refusal capacity.memoryMib .memory
      (fleet.usedBeside hostId excludeUuid Instance.memoryMib) addMemory with
    | some error => exact ⟨error, rfl, (refusal_some first).1⟩
    | none =>
      cases last : Ceiling.refusal capacity.diskGib .disk
        (fleet.usedBeside hostId excludeUuid Instance.diskGib) addDisk with
      | some error => exact ⟨error, rfl, (refusal_some last).1⟩
      | none => exact absurd ⟨refusal_none.mp first, refusal_none.mp last⟩ beyond

end

inductive Operation where
  | createInstance (now : Int) (row : Instance) (nameCooldown : Nat)
  | resize (uuid : String) (vcpu memoryMib diskGib : Nat) (nested : Bool)
  | deleteInstance (now : Int) (uuid : String)

def Fleet.ceilingOf (fleet : Fleet) (ceilings : Int → Capacity) (uuid : String) : Capacity :=
  match fleet.instances.find? (·.uuid = uuid) with
  | some row => ceilings row.hostId
  | none => unlimited

def Operation.tx (ceilings : Int → Capacity) : Operation → FleetTx Unit
  | .createInstance now row nameCooldown => Store.createInstance now row nameCooldown (ceilings row.hostId)
  | .resize uuid vcpu memoryMib diskGib nested => do
    let fleet ← get
    Store.resize uuid vcpu memoryMib diskGib nested (fleet.ceilingOf ceilings uuid)
  | .deleteInstance now uuid => do
    let _ ← Store.deleteInstance now uuid

def Fleet.operate (ceilings : Int → Capacity) (fleet : Fleet) (operation : Operation) :
    Fleet := (withTx (operation.tx ceilings) fleet).2

def Fleet.Full (fleet : Fleet) (ceilings : Int → Capacity) (operation : Operation) : Prop :=
  ∃ error, (withTx (operation.tx ceilings) fleet).1 = .error error ∧ error.isCapacity = true

def Fleet.Within (fleet : Fleet) (ceilings : Int → Capacity) : Prop :=
  ∀ hostId, Ceiling.Holds (ceilings hostId).memoryMib (fleet.used hostId Instance.memoryMib) ∧
    Ceiling.Holds (ceilings hostId).diskGib (fleet.used hostId Instance.diskGib)

structure Fleet.Keyed (fleet : Fleet) : Prop where
  unique : (fleet.instances.map Instance.uuid).Nodup
  named : ∀ row ∈ fleet.instances, row.uuid ≠ ""

def Operation.Named : Operation → Prop
  | .createInstance _ row _ => row.uuid ≠ ""
  | .resize .. | .deleteInstance .. => True

def Fleet.Exceeds (fleet : Fleet) (ceilings : Int → Capacity) : Operation → Prop
  | .createInstance _ row _ =>
    ¬ (Ceiling.Holds (ceilings row.hostId).memoryMib (fleet.used row.hostId Instance.memoryMib + row.memoryMib) ∧
      Ceiling.Holds (ceilings row.hostId).diskGib (fleet.used row.hostId Instance.diskGib + row.diskGib))
  | .resize uuid _ memoryMib diskGib _ => ∃ row ∈ fleet.instances.find? (·.uuid = uuid),
      ¬ (Ceiling.Holds (ceilings row.hostId).memoryMib
        (fleet.usedBeside row.hostId uuid Instance.memoryMib + memoryMib) ∧
        Ceiling.Holds (ceilings row.hostId).diskGib (fleet.usedBeside row.hostId uuid Instance.diskGib + diskGib))
  | .deleteInstance .. => False

section
variable {fleet : Fleet} {ceilings : Int → Capacity}

variable {now : Int} {row : Instance} {uuid : String} {vcpu memoryMib diskGib : Nat} {nested : Bool} {after : Fleet}
  {operation : Operation}

theorem full_createInstance {cooldown : Nat} : fleet.Full ceilings (.createInstance now row cooldown) ↔
    fleet.claimRefusal row.name row.ownerId cooldown now = none ∧ ∃ error,
      fleet.capacityRefusal row.hostId "" row.memoryMib row.diskGib (ceilings row.hostId) = some error ∧
        error.isCapacity = true := by
  unfold Fleet.Full
  simp only [withTx_refused, Operation.tx]
  unfold createInstance
  have claims := claimNameTx_run fleet row.name row.ownerId cooldown now
  cases claim : fleet.claimRefusal row.name row.ownerId cooldown now with
  | some refusal =>
    have other : refusal.isCapacity = false := by
      unfold Fleet.claimRefusal at claim
      split at claim
      next =>
        cases claim
        rfl
      next =>
        obtain ⟨released, -, rest⟩ := Option.bind_eq_some_iff.mp claim
        split at rest
        next => cases rest
        obtain ⟨left, -, rfl⟩ := Option.map_eq_some_iff.mp rest
        rfl
    rw [claim] at claims
    rw [run_bind_failed claims]
    simp [other]
  | none =>
    rw [claim] at claims
    rw [run_bind_passed claims]
    have checks := @checkCapacityTx_run fleet row.hostId "" row.memoryMib row.diskGib (ceilings row.hostId)
    cases room : fleet.capacityRefusal row.hostId "" row.memoryMib row.diskGib (ceilings row.hostId) with
    | some =>
      rw [room] at checks
      rw [run_bind_failed checks]
      simp
    | none =>
      rw [room] at checks
      rw [run_bind_passed checks]
      simp only [reduceCtorEq, false_and, exists_false, and_false, iff_false, not_exists, not_and]
      intro error failed
      have raises : Raises (fun error : Error => error.isCapacity = false) (do
          let createdAt := if row.createdAt = 0 then now else row.createdAt
          let _ ← formatTime createdAt
          let fleet ← get
          refuseIf (¬ fleet.admits row) .sqlite
          set { fleet with instances := fleet.instances ++ [{ row with createdAt, lastSeenAt := none }] } : FleetTx
            Unit) := by
        exact .bind (raises_formatTime (by rfl) _) fun _ => .bind .get fun _ => .bind (.refuseIf rfl) fun _ => .set _
      rw [raises fleet error failed]
      exact Bool.false_ne_true

theorem full_resize : fleet.Full ceilings (.resize uuid vcpu memoryMib diskGib nested) ↔
    ∃ row ∈ fleet.instances.find? (·.uuid = uuid), ∃ error,
      fleet.capacityRefusal row.hostId uuid memoryMib diskGib (ceilings row.hostId) = some error ∧
        error.isCapacity = true := by
  unfold Fleet.Full
  simp only [withTx_refused, Operation.tx]
  rw [run_get_bind]
  unfold resize Fleet.ceilingOf
  cases found : fleet.instances.find? (·.uuid = uuid) with
  | none =>
    have missing : (getInstanceTx uuid).run fleet = .error .notFound := by
      unfold getInstanceTx
      rw [run_get_bind, found]
      rfl
    rw [run_bind_failed missing]
    simp [Error.isCapacity]
  | some row =>
    rw [run_bind_passed (getInstanceTx_ok.mpr ⟨found, rfl⟩)]
    have checks := @checkCapacityTx_run fleet row.hostId uuid memoryMib diskGib (ceilings row.hostId)
    dsimp only
    cases room : fleet.capacityRefusal row.hostId uuid memoryMib diskGib (ceilings row.hostId) with
    | some =>
      rw [room] at checks
      rw [run_bind_failed checks]
      simp [room]
    | none =>
      rw [room] at checks
      rw [run_bind_passed checks]
      simp only [Option.mem_def, Option.some.injEq, exists_eq_left', room, reduceCtorEq, false_and, exists_false,
        iff_false, not_exists, not_and]
      intro error failed
      have raises : Raises (fun error : Error => error.isCapacity = false) (do
          refuseIf (maxInteger < memoryMib ∨ maxInteger < diskGib) .sqlite
          let _ ← updateInstances (·.uuid = uuid) fun row =>
            { row with vcpu, memoryMib, diskGib, nested } : FleetTx Unit) := by
        exact .bind (.refuseIf rfl) fun _ => .bind (raises_updateInstances (by rfl) _ _) fun _ => .pure _
      rw [raises fleet error failed]
      exact Bool.false_ne_true

theorem not_full_deleteInstance : ¬ fleet.Full ceilings (.deleteInstance now uuid) := by
  unfold Fleet.Full
  simp only [withTx_refused, Operation.tx]
  rintro ⟨error, failed, capacities⟩
  have raises : Raises (fun error : Error => error.isCapacity = false)
    (do let _ ← deleteInstance now uuid : FleetTx Unit) := by
    refine .bind ?_ fun _ => .pure _
    refine .bind (raises_getInstanceTx (by rfl) uuid) fun row => .bind nofun fun _ => ?_
    exact .bind (raises_releaseNameTx (by rfl) _ _ _) fun _ => .pure _
  rw [raises fleet error failed] at capacities
  cases capacities

theorem within_iff {hostId : Int} {memory disk : Nat} (within : fleet.Within ceilings)
    (memoryHere : after.used hostId Instance.memoryMib = memory) (diskHere : after.used hostId Instance.diskGib = disk)
    (elsewhere : ∀ other, hostId ≠ other → ∀ figure, after.used other figure ≤ fleet.used other figure) :
    after.Within ceilings ↔ Ceiling.Holds (ceilings hostId).memoryMib memory ∧
      Ceiling.Holds (ceilings hostId).diskGib disk := by
  subst memoryHere diskHere
  constructor
  · exact fun kept => kept hostId
  · intro kept other
    by_cases same : hostId = other
    · subst same
      exact kept
    · exact ⟨(within other).1.mono (elsewhere other same _), (within other).2.mono (elsewhere other same _)⟩

theorem within_createInstance (row : Instance) (createdAt : Int) (within : fleet.Within ceilings) :
    ({ fleet with instances := fleet.instances ++ [{ row with createdAt, lastSeenAt := none }] } : Fleet).Within
      ceilings ↔
      Ceiling.Holds (ceilings row.hostId).memoryMib (fleet.used row.hostId Instance.memoryMib + row.memoryMib) ∧
        Ceiling.Holds (ceilings row.hostId).diskGib (fleet.used row.hostId Instance.diskGib + row.diskGib) := by
  apply within_iff within
  · rw [used_append, if_pos rfl]
  · rw [used_append, if_pos rfl]
  · intro other apart figure
    rw [used_append, if_neg apart]
    exact Nat.le_refl _

theorem within_resize (keyed : fleet.Keyed) (within : fleet.Within ceilings)
    (known : fleet.instances.find? (·.uuid = uuid) = some row) :
    ({ fleet with instances := fleet.instances.map fun row =>
        if row.uuid = uuid then { row with vcpu, memoryMib, diskGib, nested } else row } : Fleet).Within ceilings ↔
      Ceiling.Holds (ceilings row.hostId).memoryMib (fleet.usedBeside row.hostId uuid Instance.memoryMib + memoryMib) ∧
        Ceiling.Holds (ceilings row.hostId).diskGib (fleet.usedBeside row.hostId uuid Instance.diskGib + diskGib) := by
  apply within_iff within
  · rw [used_update keyed.unique known rfl, if_pos rfl]
  · rw [used_update keyed.unique known rfl, if_pos rfl]
  · intro other apart figure
    rw [used_update keyed.unique known rfl, if_neg apart]
    exact usedBeside_le uuid

theorem createInstance_room {cooldown : Nat} {capacity : Capacity}
    (created : (createInstance now row cooldown capacity).run fleet = .ok ((), after)) :
    fleet.HasRoom row.hostId "" row.memoryMib row.diskGib capacity := by
  simp only [createInstance, run_bind_ok] at created
  obtain ⟨_, _, claimed, _, _, room, -⟩ := created
  obtain ⟨-, rfl⟩ := claimNameTx_ok.mp claimed
  exact (checkCapacityTx_ok.mp room).1

theorem HasRoom.holds {hostId : Int} {memory disk : Nat} {capacity : Capacity}
    (room : fleet.HasRoom hostId uuid memory disk capacity) (memorySmall : memory ≤ maxInteger)
    (diskSmall : disk ≤ maxInteger) :
    Ceiling.Holds capacity.memoryMib (fleet.usedBeside hostId uuid Instance.memoryMib + memory) ∧
      Ceiling.Holds capacity.diskGib (fleet.usedBeside hostId uuid Instance.diskGib + disk) := by
  obtain ⟨memoryRead, diskRead⟩ := not_or.mp room.readable
  exact ⟨(admits_iff (Int.not_lt.mp memoryRead) memorySmall).mp room.memory,
    (admits_iff (Int.not_lt.mp diskRead) diskSmall).mp room.disk⟩

theorem tx_resize (resized : ((Operation.resize uuid vcpu memoryMib diskGib nested).tx ceilings).run
    fleet = .ok ((), after)) :
    ∃ row, fleet.instances.find? (·.uuid = uuid) = some row ∧
      fleet.HasRoom row.hostId uuid memoryMib diskGib (ceilings row.hostId) ∧
      memoryMib ≤ maxInteger ∧ diskGib ≤ maxInteger ∧ after = { fleet with instances := fleet.instances.map fun row =>
        if row.uuid = uuid then { row with vcpu, memoryMib, diskGib, nested } else row } := by
  rw [Operation.tx, run_get_bind] at resized
  obtain ⟨⟨⟨row, known, room⟩, memory, disk, -⟩, rfl⟩ := resize_ok.mp resized
  unfold Fleet.ceilingOf at room
  rw [known] at room
  exact ⟨row, known, room, memory, disk, rfl⟩

theorem tx_deleteInstance (deleted : ((Operation.deleteInstance now uuid).tx ceilings).run fleet = .ok ((), after)) :
    after.instances = fleet.instances.filter fun other => other.uuid ≠ uuid := by
  obtain ⟨row, _, removed, rest⟩ := run_bind_ok.mp deleted
  obtain ⟨-, rfl⟩ := run_pure_ok.mp rest
  rw [(deleteInstance_ok removed).2]

theorem operate_cases (ceilings : Int → Capacity) (fleet : Fleet) (operation : Operation) :
    fleet.operate ceilings operation = fleet ∨ (operation.tx ceilings).run fleet =
      .ok ((), fleet.operate ceilings operation) := by
  unfold Fleet.operate withTx
  cases ended : (operation.tx ceilings).run fleet with
  | error => exact .inl rfl
  | ok => exact .inr rfl

theorem keyed_operate (ceilings : Int → Capacity) (keyed : fleet.Keyed) (named : operation.Named) :
    (fleet.operate ceilings operation).Keyed := by
  rcases operate_cases ceilings fleet operation with same | done
  · rw [same]
    exact keyed
  generalize fleet.operate ceilings operation = after at done
  cases operation with
  | createInstance =>
    obtain ⟨-, admitted, createdAt, rfl⟩ := createInstance_ok done
    constructor
    · rw [map_append, nodup_append]
      refine ⟨keyed.unique, by simp, ?_⟩
      intro uuid listed other last same
      obtain ⟨stored, member, rfl⟩ := List.mem_map.mp listed
      rw [map_singleton, mem_singleton] at last
      exact (admitted.1 stored member).1 (same.trans last)
    · intro other listed
      cases List.mem_append.mp listed with
      | inl before => exact keyed.named other before
      | inr last =>
        cases List.mem_singleton.mp last
        exact named
  | resize uuid vcpu memoryMib diskGib nested =>
    obtain ⟨row, -, -, -, -, rfl⟩ := tx_resize done
    have kept (other : Instance) :
        (if other.uuid = uuid then { other with vcpu, memoryMib, diskGib, nested } else other : Instance).uuid =
        other.uuid := by
      split <;> rfl
    constructor
    · rw [map_map]
      simpa only [Function.comp_def, kept] using keyed.unique
    · intro other listed
      obtain ⟨before, member, rfl⟩ := List.mem_map.mp listed
      rw [kept]
      exact keyed.named before member
  | deleteInstance =>
    have fewer := tx_deleteInstance done
    constructor
    · rw [fewer]
      exact keyed.unique.sublist (List.filter_sublist.map _)
    · rw [fewer]
      exact fun other listed => keyed.named other (List.mem_filter.mp listed).1

theorem within_operate (keyed : fleet.Keyed) (within : fleet.Within ceilings) :
    (fleet.operate ceilings operation).Within ceilings := by
  rcases operate_cases ceilings fleet operation with same | done
  · rw [same]
    exact within
  generalize fleet.operate ceilings operation = after at done
  cases operation with
  | createInstance now row =>
    obtain ⟨-, admitted, createdAt, rfl⟩ := createInstance_ok done
    obtain ⟨-, -, -, -, -, -, memory, disk⟩ := admitted
    refine (within_createInstance row createdAt within).mpr ?_
    rw [← usedBeside_empty keyed.named, ← usedBeside_empty keyed.named]
    exact HasRoom.holds (createInstance_room done) memory disk
  | resize =>
    obtain ⟨row, known, room, memory, disk, rfl⟩ := tx_resize done
    exact (within_resize keyed within known).mpr (HasRoom.holds room memory disk)
  | deleteInstance =>
    have fewer : after.instances.Sublist fleet.instances := by
      rw [tx_deleteInstance done]
      exact filter_sublist
    exact fun hostId => ⟨(within hostId).1.mono (used_sublist fewer), (within hostId).2.mono (used_sublist fewer)⟩

theorem full_iff (keyed : fleet.Keyed) (within : fleet.Within ceilings)
    (free : (operation.tx fun _ => unlimited).run fleet = .ok ((), after)) :
    fleet.Full ceilings operation ↔ ¬ after.Within ceilings := by
  cases operation with
  | createInstance now row =>
    obtain ⟨claim, admitted, createdAt, rfl⟩ := createInstance_ok free
    obtain ⟨-, -, -, -, -, -, memory, disk⟩ := admitted
    rw [full_createInstance, capacityRefusal_iff (createInstance_room free).readable memory disk,
      usedBeside_empty keyed.named, usedBeside_empty keyed.named, within_createInstance row createdAt within]
    exact and_iff_right claim
  | resize =>
    obtain ⟨row, known, room, memory, disk, rfl⟩ := tx_resize free
    rw [within_resize keyed within known, full_resize, ← capacityRefusal_iff room.readable memory disk]
    simp only [Option.mem_def, known, Option.some.injEq, exists_eq_left']
  | deleteInstance =>
    refine iff_of_false not_full_deleteInstance (not_not_intro ?_)
    have fewer : after.instances.Sublist fleet.instances := by
      rw [tx_deleteInstance free]
      exact filter_sublist
    exact fun hostId => ⟨(within hostId).1.mono (used_sublist fewer), (within hostId).2.mono (used_sublist fewer)⟩

theorem full_exceeds (keyed : fleet.Keyed) (full : fleet.Full ceilings operation) :
    fleet.Exceeds ceilings operation := by
  cases operation with
  | createInstance =>
    obtain ⟨-, error, refused, capacities⟩ := full_createInstance.mp full
    have beyond := capacityRefusal_over refused capacities
    rwa [usedBeside_empty keyed.named, usedBeside_empty keyed.named] at beyond
  | resize =>
    obtain ⟨row, known, error, refused, capacities⟩ := full_resize.mp full
    exact ⟨row, known, capacityRefusal_over refused capacities⟩
  | deleteInstance => exact absurd full not_full_deleteInstance

end

/-- In every state that creates, resizes and deletes can lead to, what is provisioned on a
machine is under its ceiling. A create or resize is refused for capacity when it would break
this, and what is refused changes nothing. -/
theorem capacity_kept (ceilings : Int → Capacity) (fleet : Fleet) (keyed : fleet.Keyed) (within : fleet.Within ceilings)
    (operations : List Operation) (named : ∀ operation ∈ operations, operation.Named) :
    let reached := operations.foldl (Fleet.operate ceilings) fleet
    reached.Within ceilings ∧ ∀ operation,
      (∀ error, (withTx (operation.tx ceilings) reached).1 = .error error →
        reached.operate ceilings operation = reached) ∧
      (reached.Full ceilings operation → reached.Exceeds ceilings operation) ∧
      (∀ after, (operation.tx fun _ => unlimited).run reached = .ok ((), after) →
        (reached.Full ceilings operation ↔ ¬ after.Within ceilings)) := by
  have kept : (operations.foldl (Fleet.operate ceilings) fleet).Keyed ∧
    (operations.foldl (Fleet.operate ceilings) fleet).Within ceilings := by
    induction operations generalizing fleet with
    | nil => exact ⟨keyed, within⟩
    | cons operation operations ih =>
      have first := keyed_operate ceilings keyed (named operation mem_cons_self)
      exact ih _ first (within_operate keyed within) fun other listed => named other (mem_cons_of_mem _ listed)
  refine ⟨kept.2, fun operation => ⟨?_, full_exceeds kept.1, fun after free => full_iff kept.1 kept.2 free⟩⟩
  intro error refused
  exact withTx_error (Prod.ext refused rfl)

def oneGuest (_hostId : Int) : Capacity := ⟨.limit 600, .limit 100⟩

theorem within_smallFleet : (smallFleet []).Keyed ∧ (smallFleet []).Within oneGuest := by
  have empty : (smallFleet []).instances = [] := rfl
  refine ⟨⟨by simp [empty], by simp [empty]⟩, fun hostId => ?_⟩
  have unused (figure : Instance → Nat) : (smallFleet []).used hostId figure = 0 := rfl
  rw [unused, unused]
  exact ⟨Nat.zero_le _, Nat.zero_le _⟩

def twoGuests (uuid : String) : List Operation :=
  [.createInstance 1 (plainGuest uuid "web" 1) 0, .createInstance 1 (plainGuest "u2" "db" 1) 0]

theorem capacity_kept_one_guest :
    ((twoGuests "u1").foldl (Fleet.operate oneGuest) (smallFleet [])).Within oneGuest := by
  refine (capacity_kept oneGuest (smallFleet []) within_smallFleet.1 within_smallFleet.2 (twoGuests "u1") ?_).1
  intro operation listed
  simp only [twoGuests, mem_cons, not_mem_nil, or_false] at listed
  rcases listed with rfl | rfl
  · exact (by decide : "u1" ≠ "")
  · exact (by decide : "u2" ≠ "")

/-- A row with an empty uuid is in no sum, so a second guest is let in beside it. A create
with a name that is taken is refused for its name, however much it asks for. -/
theorem unnamed_row_uncounted : ¬ ((twoGuests "").foldl (Fleet.operate oneGuest) (smallFleet [])).Within oneGuest ∧
    (smallFleet [plainGuest "u1" "web" 1]).Exceeds oneGuest (.createInstance 1 (plainGuest "u2" "web" 1) 0) ∧
    (withTx ((Operation.createInstance 1 (plainGuest "u2" "web" 1) 0).tx oneGuest)
      (smallFleet [plainGuest "u1" "web" 1])).1 = .error .nameTaken := by
  have provisioned : ((twoGuests "").foldl (Fleet.operate oneGuest) (smallFleet [])).used 1
    Instance.memoryMib = 1024 := by
    decide +kernel
  refine ⟨fun within => ?_, ?_, by decide +kernel⟩
  · obtain ⟨memory, -⟩ := within 1
    rw [provisioned] at memory
    exact absurd memory (by decide)
  · unfold Fleet.Exceeds
    decide

end Bento.Store
