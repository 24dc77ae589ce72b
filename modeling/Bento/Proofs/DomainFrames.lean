import Bento.Proofs.ManagerEffects

/-! What a call of the manager leaves alone on the machines: the domains and the files of every
instance that it is not for. -/

namespace Bento.Hypervisor.Machine
open List

variable {machine middle after : Machine} {uuid other name : String} {spec : DomainSpec}

structure Keeps (uuid : String) (machine after : Machine) : Prop where
  domains : after.domains.filter (·.spec.uuid = uuid) = machine.domains.filter (·.spec.uuid = uuid)
  overlay : uuid ∈ after.overlays ↔ uuid ∈ machine.overlays
  seed : uuid ∈ after.seeds ↔ uuid ∈ machine.seeds

namespace Keeps

theorem refl (uuid : String) (machine : Machine) : Keeps uuid machine machine := ⟨rfl, .rfl, .rfl⟩

theorem trans (first : Keeps uuid machine middle) (second : Keeps uuid middle after) : Keeps uuid machine after :=
  ⟨second.domains.trans first.domains, second.overlay.trans first.overlay, second.seed.trans first.seed⟩

end Keeps

theorem keeps_map {change : Domain → Domain}
    (alone : ∀ domain ∈ machine.domains, domain.spec.uuid = uuid → change domain = domain)
    (apart : ∀ domain ∈ machine.domains, domain.spec.uuid ≠ uuid → (change domain).spec.uuid ≠ uuid) :
    Keeps uuid machine { machine with domains := machine.domains.map change } where
  domains := by
    simp only
    generalize machine.domains = domains at alone apart
    induction domains with
    | nil => rfl
    | cons first rest ih =>
      have later := ih (fun domain listed => alone domain (mem_cons_of_mem _ listed))
        fun domain listed => apart domain (mem_cons_of_mem _ listed)
      rw [map_cons]
      by_cases same : first.spec.uuid = uuid
      · rw [alone first mem_cons_self same, filter_cons_of_pos (by simpa using same),
          filter_cons_of_pos (by simpa using same), later]
      · rw [filter_cons_of_neg (by simpa using apart first mem_cons_self same),
          filter_cons_of_neg (by simpa using same), later]
  overlay := .rfl
  seed := .rfl

theorem keeps_setState {state : PowerState} (different : uuid ≠ other) :
    Keeps uuid machine (machine.setState other state) := by
  apply keeps_map
  · intro domain _ same
    rw [if_neg fun own => different (same.symm.trans own)]
  · intro domain _ apart
    split
    next => exact apart
    next => exact apart

theorem keeps_undefine (different : uuid ≠ other) : Keeps uuid machine (machine.undefine other) where
  domains := by
    simp only [undefine]
    rw [filter_filter]
    congr 1
    funext domain
    by_cases same : domain.spec.uuid = uuid
    · simp [same, different]
    · simp [same]
  overlay := .rfl
  seed := .rfl

theorem keeps_define (defined : machine.define spec = .ok after) (different : uuid ≠ spec.uuid) :
    Keeps uuid machine after := by
  unfold define at defined
  split at defined
  next =>
    cases defined
    refine ⟨?_, .rfl, .rfl⟩
    simp only [filter_append]
    rw [filter_cons_of_neg (by simpa using Ne.symm different), filter_nil, append_nil]
  next =>
    split at defined
    next =>
      cases defined
      apply keeps_map
      · intro domain _ same
        rw [if_neg fun own => different (same.symm.trans own)]
      · intro domain _ apart
        split
        next => exact Ne.symm different
        next => exact apart
    next => cases defined

theorem Edited.keeps {edits : Edit → Prop} (changes : Edited edits machine after)
    (apart : ∀ edit, edits edit → uuid ≠ edit.target) :
    Keeps uuid machine after := by
  refine changes.induct _ (.refl uuid machine) fun edit middle after among made before => before.trans ?_
  have different := apart edit among
  cases edit with
  | define => exact keeps_define made different
  | setState =>
    cases made
    exact keeps_setState different
  | undefine =>
    cases made
    exact keeps_undefine different
  | withOverlay target | withoutOverlay target =>
    cases made
    rw [Edit.target] at different
    exact ⟨rfl, by simp [withOverlay, withoutOverlay, different], .rfl⟩
  | withSeed target | withoutSeed target =>
    cases made
    rw [Edit.target] at different
    exact ⟨rfl, .rfl, by simp [withSeed, withoutSeed, different]⟩

end Bento.Hypervisor.Machine

namespace Bento.Lifecycle
open Hypervisor
open Runner (InstanceRef)

def World.Keeps (uuid : String) (world after : World) : Prop :=
  ∀ hostId, Machine.Keeps uuid (world.machines hostId) (after.machines hostId)

theorem serve_keeps {manager : Manager} {moment : Moment} {world : World} {uuid : String} {call : ManagerCall}
    (untouched : uuid ∉ call.touched manager world) : World.Keeps uuid world (call.serve manager moment world).2 :=
  fun hostId => (serve_changes manager moment call world hostId).keeps fun _ among same =>
    untouched (same ▸ among.target)

end Bento.Lifecycle
