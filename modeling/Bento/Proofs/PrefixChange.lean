import Bento.Library.Results
import Bento.Proofs.InstanceRows
import Bento.Store.Runners

/-! What changing the runner prefix does to the slots. Splitting a slot keeps every host
octet where it was. Merging keeps an octet only where all the slots that become one have
a row, and the row that stays carries the highest epoch. -/

namespace Bento.Store
open Library.Results Library.Transactions List Nat Option UInt8

section
variable {new : UInt8} {placed rows final : List Slot}

theorem place_ok {row : Slot} : place new placed row = .ok final ↔
    (placed.find? (·.slot = row.slot) = none ∧ final = placed ++ [row]) ∨
      ∃ existing, placed.find? (·.slot = row.slot) = some existing ∧ existing.ownerHostId = row.ownerHostId ∧
        existing.state = row.state ∧ final = placed := by
  unfold place
  cases found : placed.find? (·.slot = row.slot) with
  | none => simp [eq_comm]
  | some existing =>
    by_cases same : existing.ownerHostId = row.ownerHostId ∧ existing.state = row.state
    · simp [same, eq_comm]
    · simp only [same, if_false, reduceCtorEq, false_and, Option.some.injEq, false_or, false_iff]
      rintro ⟨other, rfl, owner, state, -⟩
      exact same ⟨owner, state⟩

theorem find_placed (joined : rows.foldlM (place new) placed = .ok final) (number : Nat) :
    final.find? (·.slot = number) = (placed ++ rows).find? (·.slot = number) := by
  induction rows generalizing placed with
  | nil =>
    cases joined
    rw [append_nil]
  | cons row rows ih =>
    rw [foldlM_cons] at joined
    obtain ⟨next, step, onward⟩ := bind_ok.mp joined
    rw [ih onward]
    rcases place_ok.mp step with ⟨-, rfl⟩ | ⟨existing, found, -, -, rfl⟩
    · rw [append_assoc, singleton_append]
    · -- A row whose number is taken is found behind the row that has it.
      simp only [List.find?_append, List.find?_cons]
      by_cases same : row.slot = number
      · rw [← same, found]
        rfl
      · simp [same]

theorem placed_agree (joined : rows.foldlM (place new) placed = .ok final) :
    ∀ row ∈ rows, ∃ kept, final.find? (·.slot = row.slot) = some kept ∧ kept.ownerHostId = row.ownerHostId ∧
      kept.state = row.state := by
  induction rows generalizing placed with
  | nil => simp
  | cons first rows ih =>
    rw [foldlM_cons] at joined
    obtain ⟨next, step, onward⟩ := bind_ok.mp joined
    intro row listed
    rcases List.mem_cons.mp listed with rfl | later
    · have found := find_placed onward row.slot
      rcases place_ok.mp step with ⟨none, rfl⟩ | ⟨existing, held, owner, state, rfl⟩
      · refine ⟨row, ?_, rfl, rfl⟩
        rw [found, List.find?_append, List.find?_append, none]
        simp
      · refine ⟨existing, ?_, owner, state⟩
        rw [found, List.find?_append, held, some_or]
    · exact ih onward row later

theorem placed_mem (joined : rows.foldlM (place new) placed = .ok final) :
    ∀ row ∈ final, row ∈ placed ∨ row ∈ rows := by
  induction rows generalizing placed with
  | nil =>
    cases joined
    exact fun row listed => .inl listed
  | cons first rows ih =>
    rw [foldlM_cons] at joined
    obtain ⟨next, step, onward⟩ := bind_ok.mp joined
    intro row listed
    rcases ih onward row listed with early | later
    · rcases place_ok.mp step with ⟨-, rfl⟩ | ⟨-, -, -, -, rfl⟩
      · rcases List.mem_append.mp early with old | this
        · exact .inl old
        · exact .inr (List.mem_singleton.mp this ▸ mem_cons_self)
      · exact .inl early
    · exact .inr (mem_cons_of_mem _ later)

theorem placed_ordered (joined : rows.foldlM (place new) placed = .ok final)
    (done : placed.Pairwise (·.slot < ·.slot)) (coming : rows.Pairwise (·.slot ≤ ·.slot))
    (above : ∀ old ∈ placed, ∀ row ∈ rows, old.slot ≤ row.slot) : final.Pairwise (·.slot < ·.slot) := by
  induction rows generalizing placed with
  | nil =>
    cases joined
    exact done
  | cons first rows ih =>
    obtain ⟨least, rest⟩ := List.pairwise_cons.mp coming
    rw [foldlM_cons] at joined
    obtain ⟨next, step, onward⟩ := bind_ok.mp joined
    rcases place_ok.mp step with ⟨fresh, rfl⟩ | ⟨-, -, -, -, rfl⟩
    · refine ih onward ?_ rest ?_
      · refine List.pairwise_append.mpr ⟨done, pairwise_singleton _ _, ?_⟩
        intro old listed row this
        rw [List.mem_singleton.mp this]
        have apart : old.slot ≠ first.slot := by simpa using List.find?_eq_none.mp fresh old listed
        exact Nat.lt_of_le_of_ne (above old listed first mem_cons_self) apart
      · intro old listed row later
        rcases List.mem_append.mp listed with early | this
        · exact above old early row (mem_cons_of_mem _ later)
        · rw [List.mem_singleton.mp this]
          exact least row later
    · exact ih onward done rest fun old listed row later => above old listed row (mem_cons_of_mem _ later)

end

section
variable {old new : UInt8} {slot number : Nat}

theorem mem_renumber_finer (finer : old < new) : number ∈ renumber old new slot ↔
    number / 2 ^ (new.toNat - old.toNat) = slot := by
  have positive : 0 < 2 ^ (new.toNat - old.toNat) := Nat.two_pow_pos _
  simp only [renumber, finer, if_true, List.mem_map, List.mem_range]
  constructor
  · rintro ⟨child, small, rfl⟩
    rw [Nat.mul_comm, Nat.mul_add_div positive, Nat.div_eq_of_lt small, Nat.add_zero]
  · rintro rfl
    exact ⟨number % 2 ^ (new.toNat - old.toNat), Nat.mod_lt _ positive, Nat.div_add_mod' _ _⟩

theorem mem_renumber_coarser (coarser : ¬ old < new) : number ∈ renumber old new slot ↔
    slot / 2 ^ (old.toNat - new.toNat) = number := by
  simp [renumber, coarser, eq_comm]

theorem find_numbered {numbers : List Nat} {row : Slot} :
    (numbers.map fun slot => { row with slot }).find? (·.slot = number) =
      if number ∈ numbers then some { row with slot := number } else none := by
  induction numbers with
  | nil => rfl
  | cons first numbers ih =>
    rw [map_cons, List.find?_cons, ih]
    by_cases same : first = number
    · simp [same]
    · simp [same, Ne.symm same]

theorem find_renumbered {rows : List Slot} : (renumbered old new rows).find? (·.slot = number) =
      (rows.find? fun row => number ∈ renumber old new row.slot).map fun row => { row with slot := number } := by
  induction rows with
  | nil => rfl
  | cons row rows ih =>
    have split : renumbered old new (row :: rows) =
        ((renumber old new row.slot).map fun slot => { row with slot }) ++ renumbered old new rows := by
      simp [renumbered]
    rw [split, List.find?_append, find_numbered, ih, List.find?_cons]
    by_cases inside : number ∈ renumber old new row.slot
    · simp [inside]
    · simp [inside]

end

section
variable {old new : UInt8} {rows : List Slot}

theorem mem_renumbered {row : Slot} : row ∈ renumbered old new rows ↔
    ∃ origin ∈ rows, row.slot ∈ renumber old new origin.slot ∧ row = { origin with slot := row.slot } := by
  simp only [renumbered, List.mem_flatMap, List.mem_map]
  constructor
  · rintro ⟨origin, listed, slot, number, rfl⟩
    exact ⟨origin, listed, number, rfl⟩
  · rintro ⟨origin, listed, number, same⟩
    exact ⟨origin, listed, row.slot, number, same.symm⟩

theorem renumber_mono {slot other number later : Nat} (below : slot < other) (first : number ∈ renumber old new slot)
    (last : later ∈ renumber old new other) : number ≤ later := by
  by_cases finer : old < new
  · rw [mem_renumber_finer finer] at first last
    by_contra above
    have order : later / 2 ^ (new.toNat - old.toNat) ≤ number / 2 ^ (new.toNat - old.toNat) :=
      Nat.div_le_div_right (by omega)
    omega
  · rw [mem_renumber_coarser finer] at first last
    rw [← first, ← last]
    exact Nat.div_le_div_right (Nat.le_of_lt below)

theorem renumber_ordered (slot : Nat) : (renumber old new slot).Pairwise (· ≤ ·) := by
  unfold renumber
  split
  · apply List.pairwise_map.mpr
    apply List.pairwise_lt_range.imp
    intro child other below
    omega
  · exact pairwise_singleton _ _

theorem renumbered_ordered (ordered : rows.Pairwise (·.slot < ·.slot)) :
    (renumbered old new rows).Pairwise (·.slot ≤ ·.slot) := by
  refine List.pairwise_flatMap.mpr ⟨fun row _ => List.pairwise_map.mpr (renumber_ordered row.slot), ordered.imp ?_⟩
  intro row other below first early last late
  obtain ⟨number, mine, rfl⟩ := List.mem_map.mp early
  obtain ⟨later, theirs, rfl⟩ := List.mem_map.mp late
  exact renumber_mono below mine theirs

theorem joined_ordered {next : List Slot} (ordered : rows.Pairwise (·.slot < ·.slot))
    (placed : joined new (renumbered old new rows) = .ok next) : next.Pairwise (·.slot < ·.slot) :=
  placed_ordered placed .nil (renumbered_ordered ordered) fun _ listed => absurd listed not_mem_nil

theorem joined_numbered {next : List Slot} (low : 24 ≤ old) (high : new ≤ 27)
    (numbered : ∀ row ∈ rows, row.slot < slotCount old) (fits : ∀ row ∈ rows, row.slot < slotCount new)
    (placed : joined new (renumbered old new rows) = .ok next) : ∀ row ∈ next, row.slot < slotCount new := by
  intro row listed
  have candidate := (placed_mem placed row listed).resolve_left not_mem_nil
  obtain ⟨origin, member, number, -⟩ := mem_renumbered.mp candidate
  by_cases finer : old < new
  · rw [mem_renumber_finer finer] at number
    have inside := numbered origin member
    rw [← number, Nat.div_lt_iff_lt_mul (Nat.two_pow_pos _), slotCount, ← Nat.pow_add] at inside
    rw [le_iff_toNat_le] at low high
    rw [lt_iff_toNat_lt] at finer
    have first : (24 : UInt8).toNat = 24 := rfl
    have last : (27 : UInt8).toNat = 27 := rfl
    have width : min (old.toNat - 24) 3 + (new.toNat - old.toNat) = min (new.toNat - 24) 3 := by omega
    rw [width] at inside
    exact inside
  · rw [mem_renumber_coarser finer] at number
    rw [← number]
    exact Nat.lt_of_le_of_lt (Nat.div_le_self _ _) (fits origin member)

end

def Fleet.covering (fleet : Fleet) (octet : Nat) : Option Slot :=
  fleet.slots.find? (·.slot = octet / 2 ^ slotShift fleet.runnerPrefix)

/-- Every host octet is covered as before, under the same owner and state and not under an
older epoch, and every instance is in the slot of its address. -/
structure Unmoved (before after : Fleet) : Prop where
  covered : ∀ octet < 256, ∀ row ∈ before.covering octet, ∃ now ∈ after.covering octet,
    now.ownerHostId = row.ownerHostId ∧ now.state = row.state ∧ row.ownershipEpoch ≤ now.ownershipEpoch
  uncovered : ∀ octet < 256, before.covering octet = none → after.covering octet = none
  instances : after.instances = before.instances.map fun row =>
    { row with slot := slotOfAddress row.address (slotShift after.runnerPrefix) }

/-- The slots that merge all have a row, and none has a higher epoch than the first. -/
def Fleet.Whole (fleet : Fleet) (ratio : Nat) : Prop :=
  ∀ row ∈ fleet.slots, ∀ number, number / ratio = row.slot / ratio →
    ∃ sibling ∈ fleet.slots, sibling.slot = number ∧
      (number % ratio = 0 → row.ownershipEpoch ≤ sibling.ownershipEpoch)

def Fleet.Divided (fleet : Fleet) : Prop := 24 ≤ fleet.runnerPrefix ∧ fleet.runnerPrefix ≤ 27

inductive PrefixChanged (fleet : Fleet) (new : UInt8) : Fleet → Prop where
  | same (equal : fleet.runnerPrefix = new) : PrefixChanged fleet new fleet
  | renumbered (next : List Slot) (differ : fleet.runnerPrefix ≠ new)
      (placed : joined new (renumbered fleet.runnerPrefix new fleet.slots) = .ok next)
      (owned : ∀ row ∈ fleet.instances, ∀ slot ∈ slotOfAddress row.address (slotShift new),
        ∃ owner ∈ next, owner.slot = slot ∧ owner.ownerHostId = row.hostId) :
      PrefixChanged fleet new { fleet with
        runnerPrefix := new
        slots := next
        instances := fleet.instances.map fun row => { row with slot := slotOfAddress row.address (slotShift new) } }

variable {fleet after : Fleet} {new : UInt8}

theorem checkStranded_ok {value : Unit} :
    (checkStranded new).run fleet = .ok (value, after) ↔
      (∀ row ∈ fleet.slots, row.slot < slotCount new) ∧ fleet = after := by
  have bound : (∀ row ∈ fleet.slots, row.slot < slotCount new) ↔
      ∀ highest ∈ (fleet.slots.map Slot.slot).max?, highest < slotCount new := by
    cases found : (fleet.slots.map Slot.slot).max? with
    | none =>
      rw [List.max?_eq_none_iff, map_eq_nil_iff] at found
      simp [found]
    | some highest =>
      obtain ⟨listed, above⟩ := List.max?_eq_some_iff.mp found
      obtain ⟨last, member, same⟩ := List.mem_map.mp listed
      constructor
      · rintro inside _ ⟨⟩
        rw [← same]
        exact inside last member
      · intro inside row known
        exact Nat.lt_of_le_of_lt (above row.slot (mem_map_of_mem known)) (inside highest rfl)
  rw [bound]
  simp only [checkStranded, run_bind_ok, run_get_ok]
  constructor
  · rintro ⟨_, _, ⟨rfl, rfl⟩, passed⟩
    cases found : (fleet.slots.map Slot.slot).max? with
    | none =>
      rw [found] at passed
      exact ⟨by simp, (run_pure_ok.mp passed).2⟩
    | some =>
      rw [found] at passed
      obtain ⟨inside, same⟩ := run_refuseIf_ok.mp passed
      exact ⟨by simpa using inside, same⟩
  · rintro ⟨inside, rfl⟩
    refine ⟨_, _, ⟨rfl, rfl⟩, ?_⟩
    cases found : (fleet.slots.map Slot.slot).max? with
    | none => exact run_pure_ok.mpr ⟨rfl, rfl⟩
    | some highest => exact run_refuseIf_ok.mpr ⟨by simpa using inside highest found, rfl⟩

theorem renumberSlots_ok {old : UInt8} {value : Unit}
    (changed : (renumberSlots old new).run fleet = .ok (value, after)) :
    ∃ next, joined new (renumbered old new fleet.slots) = .ok next ∧
      (∀ row ∈ fleet.instances, ∀ slot ∈ slotOfAddress row.address (slotShift new),
        ∃ owner ∈ next, owner.slot = slot ∧ owner.ownerHostId = row.hostId) ∧ after = { fleet with
        slots := next
        instances := fleet.instances.map fun row =>
          { row with slot := slotOfAddress row.address (slotShift new) } } := by
  simp only [renumberSlots, run_bind_ok, run_get_ok, run_lift_ok, updateInstances_ok, run_modify_ok,
    run_pure_ok] at changed
  obtain ⟨_, _, ⟨rfl, rfl⟩, next, _, ⟨placed, rfl⟩, _, _, ⟨-, -, rfl⟩, _, _, rfl, _, _, ⟨owned, -, rfl⟩, -, rfl⟩ :=
    changed
  refine ⟨next, placed, ?_, ?_⟩
  · intro row listed slot held
    have released : { row with slot := none } ∈ fleet.instances.map fun row => { row with slot := none } :=
      List.mem_map.mpr ⟨row, listed, rfl⟩
    exact owned _ released (by simp [Option.mem_def.mp held]) slot held
  · congr 1
    rw [List.map_map]
    apply map_congr_left
    intro row _
    cases held : slotOfAddress row.address (slotShift new) <;> simp [held]

theorem setRunnerPrefix_ok {value : UInt8} (changed : (setRunnerPrefix new).run fleet = .ok (value, after)) :
    24 ≤ new ∧ new ≤ 27 ∧ (∀ row ∈ fleet.slots, row.slot < slotCount new) ∧ PrefixChanged fleet new after := by
  simp only [setRunnerPrefix, run_bind_ok, run_refuseIf_ok, checkStranded_ok, followPrefix, run_get_ok, run_modify_ok,
    run_pure_ok] at changed
  obtain ⟨_, _, ⟨range, rfl⟩, _, _, ⟨inside, rfl⟩, _, _, ⟨_, _, ⟨rfl, rfl⟩, followed⟩, _, _, rfl, -, rfl⟩ := changed
  obtain ⟨low, high⟩ := not_or.mp range
  refine ⟨by simpa using low, by simpa using high, inside, ?_⟩
  split at followed
  next same =>
    obtain ⟨-, rfl⟩ := run_pure_ok.mp followed
    subst same
    exact .same rfl
  next differ =>
    obtain ⟨next, placed, owned, rfl⟩ := renumberSlots_ok followed
    exact .renumbered next differ placed owned

theorem shift_between {coarse fine : UInt8} (low : 24 ≤ coarse) (order : coarse ≤ fine)
    (high : fine ≤ 27) (octet : Nat) :
    octet / 2 ^ slotShift fine / 2 ^ (fine.toNat - coarse.toNat) = octet / 2 ^ slotShift coarse := by
  rw [UInt8.le_iff_toNat_le] at low order high
  have first : (24 : UInt8).toNat = 24 := rfl
  have last : (27 : UInt8).toNat = 27 := rfl
  have width : slotShift fine + (fine.toNat - coarse.toNat) = slotShift coarse := by
    unfold slotShift
    omega
  rw [Nat.div_div_eq_div_mul, ← Nat.pow_add, width]

section
variable {fleet : Fleet} {new : UInt8} {next : List Slot}

theorem covering_renumbered (placed : joined new (renumbered fleet.runnerPrefix new fleet.slots) = .ok next)
    (octet : Nat) :
    next.find? (·.slot = octet / 2 ^ slotShift new) =
      (fleet.slots.find? fun row => octet / 2 ^ slotShift new ∈ renumber fleet.runnerPrefix new row.slot).map
        fun row => { row with slot := octet / 2 ^ slotShift new } := by
  rw [find_placed placed, nil_append, find_renumbered]

theorem covering_finer (low : 24 ≤ fleet.runnerPrefix) (finer : fleet.runnerPrefix < new) (high : new ≤ 27)
    (placed : joined new (renumbered fleet.runnerPrefix new fleet.slots) = .ok next) (octet : Nat) :
    next.find? (·.slot = octet / 2 ^ slotShift new) =
      (fleet.covering octet).map fun row => { row with slot := octet / 2 ^ slotShift new } := by
  rw [covering_renumbered placed, Fleet.covering]
  simp only [mem_renumber_finer finer, shift_between low (UInt8.le_of_lt finer) high, eq_comm]

theorem covering_coarser (low : 24 ≤ new) (coarser : ¬ fleet.runnerPrefix < new) (high : fleet.runnerPrefix ≤ 27)
    (placed : joined new (renumbered fleet.runnerPrefix new fleet.slots) = .ok next) (octet : Nat) :
    next.find? (·.slot = octet / 2 ^ slotShift new) =
      (fleet.slots.find? fun row => row.slot / 2 ^ (fleet.runnerPrefix.toNat - new.toNat) =
        octet / 2 ^ slotShift fleet.runnerPrefix / 2 ^ (fleet.runnerPrefix.toNat - new.toNat)).map
        fun row => { row with slot := octet / 2 ^ slotShift new } := by
  rw [covering_renumbered placed]
  simp only [mem_renumber_coarser coarser, shift_between low (UInt8.not_lt.mp coarser) high]

end

section
variable {rows : List Slot} (ordered : rows.Pairwise (·.slot < ·.slot))
include ordered

theorem slot_unique {row other : Slot} (listed : row ∈ rows) (known : other ∈ rows) (same : row.slot = other.slot) :
    row = other := by
  have numbers : (rows.map Slot.slot).Nodup := List.pairwise_map.mpr (ordered.imp Nat.ne_of_lt)
  exact inj_on_of_nodup_map numbers listed known same

theorem find_lowest {fits : Slot → Bool} {first row : Slot} (found : rows.find? fits = some first) (listed : row ∈ rows)
    (fit : fits row = true) : first.slot ≤ row.slot := by
  obtain ⟨-, before, after, rfl, unfit⟩ := List.find?_eq_some_iff_append.mp found
  rcases List.mem_append.mp listed with early | rest
  · have broken := unfit row early
    rw [fit] at broken
    cases broken
  · rcases List.mem_cons.mp rest with rfl | late
    · exact Nat.le_refl _
    · have later := (List.pairwise_cons.mp (List.pairwise_append.mp ordered).2.1).1
      exact Nat.le_of_lt (later row late)

end

section
variable {fleet : Fleet}

variable {octet : Nat} {row : Slot} {new : UInt8}

theorem covering_some (covers : fleet.covering octet = some row) :
    row ∈ fleet.slots ∧ row.slot = octet / 2 ^ slotShift fleet.runnerPrefix := by
  unfold Fleet.covering at covers
  exact ⟨mem_of_find?_eq_some covers, by simpa using List.find?_some covers⟩

theorem covering_none (uncovered : fleet.covering octet = none) :
    ∀ row ∈ fleet.slots, row.slot ≠ octet / 2 ^ slotShift fleet.runnerPrefix := by
  simpa [Fleet.covering] using uncovered

theorem covering_of_mem (ordered : fleet.slots.Pairwise (·.slot < ·.slot)) (listed : row ∈ fleet.slots)
    (number : row.slot = octet / 2 ^ slotShift fleet.runnerPrefix) :
    fleet.covering octet = some row := by
  cases found : fleet.covering octet with
  | none => exact absurd number (covering_none found row listed)
  | some =>
    obtain ⟨known, same⟩ := covering_some found
    rw [slot_unique ordered known listed (same.trans number.symm)]

theorem octet_of_number (divided : fleet.Divided) {number : Nat} (valid : number < slotCount fleet.runnerPrefix) :
    number * 2 ^ slotShift fleet.runnerPrefix < 256 ∧
      number * 2 ^ slotShift fleet.runnerPrefix / 2 ^ slotShift fleet.runnerPrefix = number := by
  refine ⟨?_, Nat.mul_div_cancel _ (Nat.two_pow_pos _)⟩
  obtain ⟨low, high⟩ := divided
  rw [le_iff_toNat_le] at low high
  have first : (24 : UInt8).toNat = 24 := rfl
  have last : (27 : UInt8).toNat = 27 := rfl
  have width : min (fleet.runnerPrefix.toNat - 24) 3 + slotShift fleet.runnerPrefix = 8 := by
    unfold slotShift
    omega
  calc number * 2 ^ slotShift fleet.runnerPrefix
      < slotCount fleet.runnerPrefix * 2 ^ slotShift fleet.runnerPrefix :=
        Nat.mul_lt_mul_of_pos_right valid (Nat.two_pow_pos _)
    _ = 256 := by rw [slotCount, ← Nat.pow_add, width]

/-- After a merge an octet is covered by the lowest row of its group, which has the owner
and the state of them all. -/
theorem merged_covers {next : List Slot} (divided : fleet.Divided)
    (ordered : fleet.slots.Pairwise (·.slot < ·.slot)) (low : 24 ≤ new) (coarser : ¬ fleet.runnerPrefix < new)
    (placed : joined new (renumbered fleet.runnerPrefix new fleet.slots) = .ok next) (listed : row ∈ fleet.slots)
    (near : row.slot / 2 ^ (fleet.runnerPrefix.toNat - new.toNat) =
      octet / 2 ^ slotShift fleet.runnerPrefix / 2 ^ (fleet.runnerPrefix.toNat - new.toNat)) :
    ∃ first ∈ fleet.slots, next.find? (·.slot = octet / 2 ^ slotShift new) =
      some { first with slot := octet / 2 ^ slotShift new } ∧
      first.ownerHostId = row.ownerHostId ∧ first.state = row.state ∧
      first.slot / 2 ^ (fleet.runnerPrefix.toNat - new.toNat) = row.slot / 2 ^ (fleet.runnerPrefix.toNat - new.toNat) ∧
      ∀ other ∈ fleet.slots, other.slot / 2 ^ (fleet.runnerPrefix.toNat - new.toNat) =
        row.slot / 2 ^ (fleet.runnerPrefix.toNat - new.toNat) → first.slot ≤ other.slot := by
  have covers := covering_coarser low coarser divided.2 placed octet
  rw [← near] at covers
  cases found : fleet.slots.find? fun other => other.slot / 2 ^ (fleet.runnerPrefix.toNat - new.toNat) =
      row.slot / 2 ^ (fleet.runnerPrefix.toNat - new.toNat) with
  | none =>
    have none := List.find?_eq_none.mp found row listed
    simp at none
  | some first =>
    rw [found, map_some] at covers
    have group : first.slot / 2 ^ (fleet.runnerPrefix.toNat - new.toNat) =
        row.slot / 2 ^ (fleet.runnerPrefix.toNat - new.toNat) := by simpa using List.find?_some found
    have parent : row.slot / 2 ^ (fleet.runnerPrefix.toNat - new.toNat) = octet / 2 ^ slotShift new := by
      rw [near, shift_between low (UInt8.not_lt.mp coarser) divided.2]
    have candidate : { row with slot := octet / 2 ^ slotShift new } ∈
      renumbered fleet.runnerPrefix new fleet.slots := by
      refine List.mem_flatMap.mpr ⟨row, listed, List.mem_map.mpr ⟨_, ?_, rfl⟩⟩
      exact (mem_renumber_coarser coarser).mpr parent
    obtain ⟨kept, stays, owner, state⟩ := placed_agree placed _ candidate
    cases covers.symm.trans stays
    refine ⟨first, mem_of_find?_eq_some found, covers, owner, state, group, ?_⟩
    intro other known same
    exact find_lowest ordered found known (by simpa using same)

theorem lowest_aligned {ratio : Nat} {first sibling : Slot} (ordered : fleet.slots.Pairwise (·.slot < ·.slot))
    (listed : first ∈ fleet.slots) (known : sibling ∈ fleet.slots) (group : first.slot / ratio = sibling.slot / ratio)
    (below : first.slot ≤ sibling.slot) (aligned : sibling.slot % ratio = 0) : first = sibling := by
  apply slot_unique ordered listed known
  apply Nat.le_antisymm below
  calc sibling.slot = ratio * (sibling.slot / ratio) + sibling.slot % ratio := (div_add_mod _ _).symm
    _ = ratio * (first.slot / ratio) := by rw [aligned, group, Nat.add_zero]
    _ ≤ first.slot := mul_div_le _ _

theorem sibling_valid (divided : fleet.Divided) (low : 24 ≤ new) {row number : Nat}
    (valid : row < slotCount fleet.runnerPrefix)
    (near : number / 2 ^ (fleet.runnerPrefix.toNat - new.toNat) = row / 2 ^ (fleet.runnerPrefix.toNat - new.toNat)) :
    number < slotCount fleet.runnerPrefix := by
  obtain ⟨-, high⟩ := divided
  rw [UInt8.le_iff_toNat_le] at low high
  have first : (24 : UInt8).toNat = 24 := rfl
  have last : (27 : UInt8).toNat = 27 := rfl
  have width : min (fleet.runnerPrefix.toNat - 24) 3 =
      (min (fleet.runnerPrefix.toNat - 24) 3 - (fleet.runnerPrefix.toNat - new.toNat)) +
        (fleet.runnerPrefix.toNat - new.toNat) := by omega
  rw [slotCount, width, Nat.pow_add] at valid ⊢
  rw [← Nat.div_lt_iff_lt_mul (Nat.two_pow_pos _)] at valid ⊢
  rw [near]
  exact valid

theorem unmoved_coarser {after : Fleet} {next : List Slot} (divided : fleet.Divided)
    (ordered : fleet.slots.Pairwise (·.slot < ·.slot))
    (valid : ∀ row ∈ fleet.slots, row.slot < slotCount fleet.runnerPrefix) (low : 24 ≤ new)
    (coarser : ¬ fleet.runnerPrefix < new)
    (placed : joined new (renumbered fleet.runnerPrefix new fleet.slots) = .ok next) (named : after.runnerPrefix = new)
    (rows : after.slots = next) (instances : after.instances = fleet.instances.map fun row =>
      { row with slot := slotOfAddress row.address (slotShift new) }) :
    Unmoved fleet after ↔ fleet.Whole (2 ^ (fleet.runnerPrefix.toNat - new.toNat)) := by
  have covering (octet : Nat) : after.covering octet = next.find? (·.slot = octet / 2 ^ slotShift new) := by
    rw [Fleet.covering, rows, named]
  constructor
  · intro unmoved row listed number near
    obtain ⟨inside, exact⟩ := octet_of_number divided (sibling_valid divided low (valid row listed) near)
    have merged := merged_covers divided ordered low coarser placed listed (exact.symm ▸ near.symm)
    cases covers : fleet.covering (number * 2 ^ slotShift fleet.runnerPrefix) with
    | none =>
      obtain ⟨first, -, found, -⟩ := merged
      have uncovered := unmoved.uncovered _ inside covers
      rw [covering, found] at uncovered
      cases uncovered
    | some sibling =>
      obtain ⟨known, place⟩ := covering_some covers
      rw [exact] at place
      refine ⟨sibling, known, place, fun aligned => ?_⟩
      obtain ⟨small, own⟩ := octet_of_number divided (valid row listed)
      obtain ⟨now, held, -, -, epoch⟩ := unmoved.covered _ small row (covering_of_mem ordered listed own.symm)
      obtain ⟨first, member, found, -, -, group, lowest⟩ :=
        merged_covers divided ordered low coarser placed listed (congrArg (· / _) own.symm)
      rw [mem_def, covering, found] at held
      cases held
      have same : first = sibling := lowest_aligned ordered member known (by rw [group, place, near])
        (lowest sibling known (by rw [place, near])) (by rw [place, aligned])
      exact same ▸ epoch
  · intro whole
    constructor
    · intro octet _ row covers
      obtain ⟨listed, place⟩ := covering_some covers
      obtain ⟨first, member, found, owner, state, group, lowest⟩ :=
        merged_covers divided ordered low coarser placed listed (congrArg (· / _) place)
      refine ⟨_, (covering octet).trans found, owner, state, ?_⟩
      obtain ⟨sibling, known, number, epoch⟩ := whole row listed
        (row.slot / 2 ^ (fleet.runnerPrefix.toNat - new.toNat) * 2 ^ (fleet.runnerPrefix.toNat - new.toNat))
        (Nat.mul_div_cancel _ (Nat.two_pow_pos _))
      have aligned : sibling.slot % 2 ^ (fleet.runnerPrefix.toNat - new.toNat) = 0 := by
        rw [number]
        exact mul_mod_left _ _
      have near : sibling.slot / 2 ^ (fleet.runnerPrefix.toNat - new.toNat) =
          row.slot / 2 ^ (fleet.runnerPrefix.toNat - new.toNat) := by
        rw [number, Nat.mul_div_cancel _ (Nat.two_pow_pos _)]
      have same : first = sibling :=
        lowest_aligned ordered member known (group.trans near.symm) (lowest sibling known near) aligned
      rw [same]
      exact epoch (mul_mod_left _ _)
    · intro octet _ uncovered
      rw [covering, covering_coarser low coarser divided.2 placed, map_eq_none_iff, List.find?_eq_none]
      intro first listed group
      obtain ⟨sibling, known, number, -⟩ := whole first listed _ (of_decide_eq_true group).symm
      exact covering_none uncovered sibling known number
    · rw [named]
      exact instances

end

/-- Changing the prefix moves no address when the new prefix is not coarser, or when what
merges is whole; a refused change leaves everything as it was. -/
theorem prefix_change_moves_nothing (fleet : Fleet) (new : UInt8) (divided : fleet.Divided)
    (ordered : fleet.slots.Pairwise (·.slot < ·.slot))
    (valid : ∀ row ∈ fleet.slots, row.slot < slotCount fleet.runnerPrefix)
    (held : ∀ row ∈ fleet.instances, row.slot = slotOfAddress row.address (slotShift fleet.runnerPrefix)) :
    (∀ error after, withTx (setRunnerPrefix new) fleet = (.error error, after) → after = fleet) ∧
    ∀ value after, withTx (setRunnerPrefix new) fleet = (.ok value, after) → (Unmoved fleet after ↔
        fleet.runnerPrefix ≤ new ∨ fleet.Whole (2 ^ (fleet.runnerPrefix.toNat - new.toNat))) := by
  refine ⟨fun error after refused => withTx_error refused, fun value after changed => ?_⟩
  obtain ⟨low, high, -, changed⟩ := setRunnerPrefix_ok (withTx_ok.mp changed)
  cases changed with
  | same equal =>
    simp only [← equal, UInt8.le_refl, true_or, iff_true]
    constructor
    · intro octet _ row covers
      exact ⟨row, covers, rfl, rfl, Int.le_refl _⟩
    · exact fun octet _ uncovered => uncovered
    · rw [map_congr_left (fun row listed => congrArg (fun slot => { row with slot }) (held row listed).symm)]
      exact (map_id _).symm
  | renumbered next differ placed =>
    by_cases finer : fleet.runnerPrefix < new
    · simp only [UInt8.le_of_lt finer, true_or, iff_true]
      have covers (octet : Nat) := covering_finer divided.1 finer high placed octet
      constructor
      · intro octet _ row covered
        rw [mem_def] at covered
        refine ⟨{ row with slot := octet / 2 ^ slotShift new }, ?_, rfl, rfl, Int.le_refl _⟩
        exact (covers octet).trans (congrArg _ covered)
      · intro octet _ uncovered
        exact (covers octet).trans (congrArg _ uncovered)
      · rfl
    · have coarse : ¬ fleet.runnerPrefix ≤ new := by
        intro order
        exact differ (UInt8.le_antisymm order (UInt8.not_lt.mp finer))
      simp only [coarse, false_or]
      exact unmoved_coarser divided ordered valid low finer placed rfl rfl rfl

/-- Two machines with a pair of slots each, and an instance in the upper slot of each pair. -/
def wholePairs : Fleet :=
  { smallFleet [{ plainGuest "0b5e" "web" 1 with address := "10.100.0.40".toList, slot := some 1 },
      { plainGuest "9f1c" "db" 2 with address := "10.100.0.100".toList, slot := some 3 }] with
    runnerPrefix := 27
    slots := [⟨0, .active, 1, 4, none, none, none⟩, ⟨1, .active, 1, 2, none, none, none⟩,
      ⟨2, .active, 2, 1, none, none, none⟩,
      ⟨3, .active, 2, 1, none, none, none⟩] }

theorem wholePairs_whole : wholePairs.Whole 2 := by
  have low : ∀ row ∈ wholePairs.slots, row.slot < 4 := by decide
  have siblings : ∀ number < 4, ∀ row ∈ wholePairs.slots, number / 2 = row.slot / 2 →
      ∃ sibling ∈ wholePairs.slots, sibling.slot = number ∧
        (number % 2 = 0 → row.ownershipEpoch ≤ sibling.ownershipEpoch) := by
    decide
  intro row listed number same
  have small := low row listed
  exact siblings number (by omega) row listed same

theorem prefix_change_moves_nothing_merged : ∃ after, withTx (setRunnerPrefix 26) wholePairs = (.ok 26, after) ∧
    after.slots.map (fun row => (row.slot, row.ownerHostId)) = [(0, 1), (1, 2)] ∧
      after.instances.map Instance.slot = [some 0, some 1] ∧
    Unmoved wholePairs after := by
  have changed : withTx (setRunnerPrefix 26) wholePairs = (.ok 26, (withTx (setRunnerPrefix 26) wholePairs).2) := by
    decide +kernel
  have moved := (prefix_change_moves_nothing wholePairs 26 ⟨by decide, by decide⟩ (by decide) (by decide) (by decide)).2
  exact ⟨_, changed, by decide +kernel, by decide +kernel, (moved 26 _ changed).mpr (.inr wholePairs_whole)⟩

def lowerHalf : Fleet where
  runnerPrefix := 25
  hosts := [⟨1, none, "controller", none, none⟩]
  slots := [⟨0, .active, 1, 0, none, none, none⟩]
  instances := []
  users := []
  images := []
  imageVersions := []
  releasedNames := []

def newerSibling : Fleet :=
  { lowerHalf with
    runnerPrefix := 26
    slots := [⟨0, .active, 1, 0, none, none, none⟩, ⟨1, .active, 1, 5, none, none, none⟩] }

/-- Octet 200 had no owner and gets one; octet 100 had epoch 5 and gets epoch 0. -/
theorem merges_move_octets :
    (∃ after, withTx (setRunnerPrefix 24) lowerHalf = (.ok 24, after) ∧ lowerHalf.covering 200 = none ∧
      (after.covering 200).map Slot.ownerHostId = some 1 ∧ ¬ Unmoved lowerHalf after) ∧
    ∃ after, withTx (setRunnerPrefix 25) newerSibling = (.ok 25, after) ∧
      (newerSibling.covering 100).map Slot.ownershipEpoch = some 5 ∧
      (after.covering 100).map Slot.ownershipEpoch = some 0 ∧ ¬ Unmoved newerSibling after := by
  refine ⟨⟨(withTx (setRunnerPrefix 24) lowerHalf).2, by decide +kernel, by decide, by decide +kernel, ?_⟩,
    ⟨(withTx (setRunnerPrefix 25) newerSibling).2, by decide +kernel, by decide, by decide +kernel, ?_⟩⟩
  · intro unmoved
    exact absurd (unmoved.uncovered 200 (by decide) (by decide)) (by decide +kernel)
  · intro unmoved
    obtain ⟨now, covers, -, -, epoch⟩ :=
      unmoved.covered 100 (by decide) ⟨1, .active, 1, 5, none, none, none⟩ (by decide)
    have lower : ∀ row ∈ (withTx (setRunnerPrefix 25) newerSibling).2.covering 100, row.ownershipEpoch < 5 := by
      decide +kernel
    exact absurd epoch (Int.not_le.mpr (lower now covers))

end Bento.Store
