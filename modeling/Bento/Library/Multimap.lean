import Mathlib.Data.List.Nodup

/-! Maps that keep several values under a name and their names in a vector. A new name
goes to the end and the last name fills the place of one that is removed, so the order of
the names depends on what was done to the map. -/

namespace Bento.Library
open List

abbrev Values (ν : Type) := ν × List ν

@[ext] structure Multimap (κ ν : Type) where
  entries : List (κ × Values ν)
  distinct : (entries.map Prod.fst).Nodup
deriving DecidableEq

namespace Multimap

variable {κ ν : Type} [DecidableEq κ]

def alterEntry (name : κ) (change : Option (Values ν) → Values ν) : List (κ × Values ν) → List (κ × Values ν)
  | [] => [(name, change none)]
  | (key, values) :: rest =>
    if key = name then (key, change (some values)) :: rest else (key, values) :: alterEntry name change rest

def swapRemove (name : κ) : List (κ × Values ν) → List (κ × Values ν)
  | [] => []
  | (key, values) :: rest =>
    if key = name then rest.getLast?.toList ++ rest.dropLast else (key, values) :: swapRemove name rest

variable {name key : κ} {entries : List (κ × Values ν)}

theorem mem_alterEntry {change : Option (Values ν) → Values ν}
    (member : key ∈ (alterEntry name change entries).map Prod.fst) : key = name ∨ key ∈ entries.map Prod.fst := by
  induction entries with
  | nil => exact .inl (by simpa [alterEntry] using member)
  | cons entry rest ih =>
    unfold alterEntry at member
    split at member
    · exact .inr member
    · rcases List.mem_cons.mp member with first | later
      · exact .inr (by simp [first])
      · exact (ih later).imp_right (mem_cons_of_mem _)

theorem nodup_alterEntry (name : κ) (change : Option (Values ν) → Values ν)
    (distinct : (entries.map Prod.fst).Nodup) : ((alterEntry name change entries).map Prod.fst).Nodup := by
  induction entries with
  | nil => simp [alterEntry]
  | cons entry rest ih =>
    obtain ⟨fresh, others⟩ := List.nodup_cons.mp distinct
    unfold alterEntry
    split
    · exact distinct
    next other =>
      apply List.nodup_cons.mpr
      exact ⟨fun member => (mem_alterEntry member).elim other fresh, ih others⟩

theorem getLast_dropLast_perm {α : Type} (items : List α) : (items.getLast?.toList ++ items.dropLast).Perm items := by
  cases last : items.getLast? with
  | none => simp [List.getLast?_eq_none_iff.mp last]
  | some item =>
    calc item :: items.dropLast
      _ |>.Perm (items.dropLast ++ [item]) := (perm_append_singleton _ _).symm
      _ = items := dropLast_append_getLast? item last

theorem swapRemove_perm (name : κ) (entries : List (κ × Values ν)) :
    ∃ others : List (κ × Values ν), others.Sublist entries ∧ others.Perm (swapRemove name entries) := by
  induction entries with
  | nil => exact ⟨[], .slnil, .nil⟩
  | cons entry rest ih =>
    unfold swapRemove
    split
    · exact ⟨rest, sublist_cons_self _ _, (getLast_dropLast_perm rest).symm⟩
    · obtain ⟨others, within, same⟩ := ih
      exact ⟨entry :: others, within.cons_cons entry, same.cons entry⟩

theorem nodup_swapRemove (name : κ) (distinct : (entries.map Prod.fst).Nodup) :
    ((swapRemove name entries).map Prod.fst).Nodup := by
  obtain ⟨others, within, same⟩ := swapRemove_perm name entries
  exact (same.map Prod.fst).nodup ((within.map Prod.fst).nodup distinct)

def empty : Multimap κ ν := ⟨[], nodup_nil⟩

def alter (map : Multimap κ ν) (name : κ) (change : Option (Values ν) → Values ν) : Multimap κ ν :=
  ⟨alterEntry name change map.entries, nodup_alterEntry name change map.distinct⟩

def insert (map : Multimap κ ν) (name : κ) (value : ν) : Multimap κ ν := map.alter name fun _ => (value, [])

def append (map : Multimap κ ν) (name : κ) (value : ν) : Multimap κ ν :=
  map.alter name fun
    | none => (value, [])
    | some (first, others) => (first, others ++ [value])

def remove (map : Multimap κ ν) (name : κ) : Multimap κ ν :=
  ⟨swapRemove name map.entries, nodup_swapRemove name map.distinct⟩

def values (map : Multimap κ ν) (name : κ) : Option (Values ν) :=
  (map.entries.find? (·.1 = name)).map Prod.snd

def get (map : Multimap κ ν) (name : κ) : Option ν := (map.values name).map Prod.fst

def getAll (map : Multimap κ ν) (name : κ) : List ν :=
  match map.values name with
  | none => []
  | some (first, others) => first :: others

theorem values_eq_some {map : Multimap κ ν} {values : Values ν} :
    map.values name = some values ↔ (name, values) ∈ map.entries := by
  unfold Multimap.values
  constructor
  · intro found
    obtain ⟨entry, first, rfl⟩ := Option.map_eq_some_iff.mp found
    have named : entry.1 = name := by simpa using List.find?_some first
    exact named ▸ mem_of_find?_eq_some first
  · intro member
    cases first : map.entries.find? (·.1 = name) with
    | none => simpa using List.find?_eq_none.mp first _ member
    | some entry =>
      have named : entry.1 = name := by simpa using List.find?_some first
      have same := inj_on_of_nodup_map map.distinct (mem_of_find?_eq_some first) member named
      rw [same]
      rfl

theorem find_alterEntry (other : key ≠ name) (change : Option (Values ν) → Values ν) (entries : List (κ × Values ν)) :
    (alterEntry name change entries).find? (·.1 = key) = entries.find? (·.1 = key) := by
  induction entries with
  | nil => simp [alterEntry, other.symm]
  | cons entry rest ih =>
    unfold alterEntry
    split
    next same => simp [same, other.symm]
    next => simp only [List.find?_cons, ih]

theorem values_alter_of_ne (other : key ≠ name) (map : Multimap κ ν)
    (change : Option (Values ν) → Values ν) : (map.alter name change).values key = map.values key := by
  unfold values alter
  rw [find_alterEntry other]

theorem find_alterEntry_self (name : κ) (change : Option (Values ν) → Values ν) (entries : List (κ × Values ν)) :
    (alterEntry name change entries).find? (·.1 = name) =
      some (name, change ((entries.find? (·.1 = name)).map Prod.snd)) := by
  induction entries with
  | nil => simp [alterEntry]
  | cons entry rest ih =>
    unfold alterEntry
    split
    next same => simp [same]
    next other => simp [other, ih]

theorem values_alter_self (map : Multimap κ ν) (name : κ) (change : Option (Values ν) → Values ν) :
    (map.alter name change).values name = some (change (map.values name)) := by
  unfold values alter
  rw [find_alterEntry_self]
  rfl

theorem getAll_append (map : Multimap κ ν) (name : κ) (value : ν) :
    (map.append name value).getAll name = map.getAll name ++ [value] := by
  unfold getAll append
  rw [values_alter_self]
  cases map.values name with
  | none => rfl
  | some => rfl

theorem mem_swapRemove {entry : κ × Values ν} (distinct : (entries.map Prod.fst).Nodup) :
    entry ∈ swapRemove name entries ↔ entry ∈ entries ∧ entry.1 ≠ name := by
  induction entries with
  | nil => simp [swapRemove]
  | cons first rest ih =>
    obtain ⟨fresh, others⟩ := List.nodup_cons.mp distinct
    unfold swapRemove
    split
    next found =>
      rw [(getLast_dropLast_perm rest).mem_iff]
      grind
    next other =>
      rw [mem_cons, ih others]
      grind

theorem values_remove (map : Multimap κ ν) (name key : κ) :
    (map.remove name).values key = if key = name then none else map.values key := by
  ext values
  rw [values_eq_some, remove, mem_swapRemove map.distinct]
  split
  next same => simp [same]
  next other => simp [other, values_eq_some]

/-! ### Rewriting values

What an operation does to names does not depend on the values of others, so rewriting the
values of some names before it or after it comes to the same. -/

section
variable (rewrite : κ → Values ν → Values ν)

def mapValues (map : Multimap κ ν) : Multimap κ ν :=
  ⟨map.entries.map fun entry => (entry.1, rewrite entry.1 entry.2), by simpa [Function.comp_def] using map.distinct⟩

variable {rewrite}

variable {name : κ}

theorem alterEntry_map {fixed : Values ν} (kept : rewrite name fixed = fixed) (entries : List (κ × Values ν)) :
    alterEntry name (fun _ => fixed) (entries.map fun entry => (entry.1, rewrite entry.1 entry.2)) =
      (alterEntry name (fun _ => fixed) entries).map fun entry => (entry.1, rewrite entry.1 entry.2) := by
  induction entries with
  | nil => simp [alterEntry, kept]
  | cons entry rest ih =>
    simp only [map_cons, alterEntry]
    split
    next found => rw [map_cons, found, kept]
    next => rw [map_cons, ih]

theorem swapRemove_map (name : κ) (entries : List (κ × Values ν)) :
    swapRemove name (entries.map fun entry => (entry.1, rewrite entry.1 entry.2)) =
      (swapRemove name entries).map fun entry => (entry.1, rewrite entry.1 entry.2) := by
  induction entries with
  | nil => rfl
  | cons entry rest ih =>
    simp only [map_cons, swapRemove]
    split
    · simp [List.getLast?_map, Option.toList_map, map_dropLast]
    · rw [map_cons, ih]

theorem remove_mapValues (map : Multimap κ ν) (name : κ) :
    (map.mapValues rewrite).remove name = (map.remove name).mapValues rewrite :=
  Multimap.ext (swapRemove_map name map.entries)

theorem insert_mapValues (map : Multimap κ ν) (kept : ∀ values, rewrite name values = values) (value : ν) :
    (map.mapValues rewrite).insert name value = (map.insert name value).mapValues rewrite :=
  Multimap.ext (alterEntry_map (kept _) map.entries)

theorem values_mapValues (map : Multimap κ ν) (name : κ) :
    (map.mapValues rewrite).values name = (map.values name).map (rewrite name) := by
  unfold values mapValues
  rw [List.find?_map, Option.map_map, Option.map_map]
  cases found : map.entries.find? (·.1 = name) with
  | none => simp [Function.comp_def, found]
  | some entry =>
    have named : entry.1 = name := by simpa using List.find?_some found
    simp [Function.comp_def, found, named]

theorem get_mapValues (map : Multimap κ ν) (kept : ∀ values, rewrite name values = values) :
    (map.mapValues rewrite).get name = map.get name := by
  unfold get
  rw [values_mapValues, funext kept, Option.map_id']

theorem getAll_mapValues (map : Multimap κ ν) (kept : ∀ values, rewrite name values = values) :
    (map.mapValues rewrite).getAll name = map.getAll name := by
  unfold getAll
  rw [values_mapValues, funext kept, Option.map_id']

end

end Multimap

end Bento.Library
