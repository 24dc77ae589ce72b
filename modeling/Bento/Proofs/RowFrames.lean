import Bento.Proofs.DomainFrames

/-! What a call of the manager leaves alone in the database: the row of every instance that it
does not write, but for the state and the time it was last seen. -/

namespace Bento.Lifecycle
open Hypervisor Hypervisor.Machine Library.Transactions Store List
open Runner (InstanceRef)

def still (row : Instance) : Instance := { row with state := .stopped, desiredState := .stopped, lastSeenAt := none }

def World.row (world : World) (uuid : String) : Option Instance :=
  (world.fleet.instances.find? (·.uuid = uuid)).map still

def StoreCall.rewrites : StoreCall → List String
  | .createInstance row _ => [row.uuid]
  | .deleteInstance uuid | .renameInstance uuid _ | .resize uuid _ _ _ _ _ => [uuid]
  | _ => []

def ManagerCall.rewrites : ManagerCall → List String
  | .store body => body.rewrites
  | _ => []

section
variable {uuid : String}

theorem find?_map_view {β : Type} (view : Instance → β) (rows : List Instance) {change : Instance → Instance}
    (keeps : ∀ row, (change row).uuid = row.uuid) (alone : ∀ row, row.uuid = uuid → view (change row) = view row) :
    ((rows.map change).find? (·.uuid = uuid)).map view = (rows.find? (·.uuid = uuid)).map view := by
  rw [List.find?_map, Option.map_map]
  have same : ((fun row : Instance => decide (row.uuid = uuid)) ∘ change) = fun row => decide (row.uuid = uuid) := by
    funext row
    simp only [Function.comp_apply, keeps]
  rw [same]
  cases found : rows.find? (·.uuid = uuid) with
  | none => rfl
  | some row => exact congrArg some (alone row (by simpa using List.find?_some found))

theorem StoreCall.Rows.still {call : StoreCall} {before after : List Instance} (rows : call.Rows before after)
    (other : uuid ∉ call.rewrites) :
    (after.find? (·.uuid = uuid)).map still = (before.find? (·.uuid = uuid)).map still := by
  have selected {change : Instance → Instance} {target : String} (keeps : ∀ row, (change row).uuid = row.uuid)
      (alone : ∀ row, row.uuid = uuid → row.uuid = target → Lifecycle.still (change row) = Lifecycle.still row) :
      ((before.map fun row => if row.uuid = target then change row else row).find? (·.uuid = uuid)).map
        Lifecycle.still =
        (before.find? (·.uuid = uuid)).map Lifecycle.still := by
    apply find?_map_view
    · intro row
      split
      next => exact keeps row
      next => rfl
    · intro row own
      split
      next chosen => exact alone row own chosen
      next => rfl
  cases rows with
  | read => rfl
  | sameName => rfl
  | @created row _ _ _ fresh =>
    have apart : row.uuid ≠ uuid := fun same => other (same ▸ mem_singleton_self _)
    rw [List.find?_append, List.find?_cons_of_neg (by simpa using apart), List.find?_nil, Option.or_none]
  | @deleted target _ =>
    rw [List.find?_filter]
    congr 2
    funext row
    by_cases own : row.uuid = uuid
    · have apart : uuid ≠ target := fun same => other (same ▸ mem_singleton_self _)
      simp [own, apart]
    · simp [own]
  | renamed | resized =>
    exact selected (fun _ => rfl) fun row own chosen => (other (own ▸ chosen ▸ mem_singleton_self _)).elim
  | desired | observed => exact selected (fun _ => rfl) fun _ _ _ => rfl
  | polled => exact find?_map_view _ before (fun _ => rfl) fun _ _ => rfl

end

def ManagerCall.Upkeeps : ManagerCall → Prop
  | .store (.createInstance _ _) | .store (.renameInstance _ _) | .create _ | .buildIso _ | .provision _ => False
  | _ => True

section
variable {manager : Manager} {moment : Moment} {call : ManagerCall} {world : World}

theorem StoreCall.Rows.distinct {body : StoreCall} {before after : List Instance}
    (upkeeps : (ManagerCall.store body).Upkeeps) (rows : body.Rows before after) (distinct : Distinct before) :
    Distinct after := by
  refine ⟨rows.keyed distinct.uuids, ?_⟩
  have renamed {change : Instance → Instance} (keeps : ∀ row, (change row).name = row.name) :
      ((before.map change).map Instance.name).Nodup := by
    rw [map_map]
    exact (map_congr_left fun row _ => keeps row) ▸ distinct.names
  cases rows with
  | read | sameName => exact distinct.names
  | created | renamed => exact upkeeps.elim
  | deleted => exact distinct.names.sublist (List.filter_sublist.map _)
  | polled => exact renamed fun _ => rfl
  | _ =>
    apply renamed
    intro row
    split <;> rfl

theorem serve_distinct (upkeeps : call.Upkeeps) (distinct : Distinct world.fleet.instances) :
    Distinct (call.serve manager moment world).2.fleet.instances := by
  rcases serve_rows manager moment call world with same | ⟨body, rfl, rows⟩
  · rw [same]
    exact distinct
  · exact rows.distinct upkeeps distinct

theorem serve_row {uuid : String} (other : uuid ∉ call.rewrites) :
    (call.serve manager moment world).2.row uuid = world.row uuid := by
  unfold World.row
  rcases serve_rows manager moment call world with same | ⟨body, rfl, rows⟩
  · rw [same]
  · exact rows.still other

theorem updateObservedStates_users {states : List (String × PowerState)} {fleet after : Fleet} {value : Unit}
    (written : (updateObservedStates states).run fleet = .ok (value, after)) : after.users = fleet.users := by
  induction states generalizing fleet with
  | nil =>
    obtain ⟨-, rfl⟩ := run_pure_ok.mp written
    rfl
  | cons first states ih =>
    simp only [updateObservedStates, run_bind_ok, updateInstances_ok] at written
    obtain ⟨_, _, ⟨-, -, rfl⟩, rest⟩ := written
    have same := ih rest
    exact same

theorem tx_users {body : StoreCall} {fleet after : Fleet} {reply : body.Reply}
    (ran : (body.tx manager moment).run fleet = .ok (reply, after)) :
    after.users = fleet.users := by
  by_cases reads : body.Reads
  · rw [tx_reads reads ran]
  cases body with
  | createInstance =>
    obtain ⟨-, -, createdAt, rfl⟩ := createInstance_ok ran
    rfl
  | deleteInstance =>
    obtain ⟨-, rfl⟩ := deleteInstance_ok ran
    rfl
  | renameInstance =>
    obtain ⟨_, -, ⟨-, rfl⟩ | ⟨-, -, rfl⟩⟩ := renameInstanceAt_ok ran
    · rfl
    · rfl
  | resize =>
    obtain ⟨-, rfl⟩ := resize_ok.mp ran
    rfl
  | setDesiredState | setObservedState => rw [updateInstance_ok ran]
  | updateObservedStates => exact updateObservedStates_users ran
  | _ => exact (reads trivial).elim

theorem serve_users (manager : Manager) (moment : Moment) (call : ManagerCall) (world : World) :
    (call.serve manager moment world).2.fleet.users = world.fleet.users := by
  by_cases stores : ∃ body, call = .store body
  · obtain ⟨body, rfl⟩ := stores
    rcases store_cases manager moment world body with ⟨reply, fleet, -, ran, same⟩ | ⟨-, same⟩
    · rw [same]
      exact tx_users ran
    · rw [same]
  · rw [serve_machines fun body same => stores ⟨body, same⟩]

end

def ManagerCall.Plain : ManagerCall → Prop
  | .act _ _ | .define _ | .create _ | .change _ _ _ | .provision _ | .redefine _ => False
  | _ => True

section
variable {manager : Manager} {moment : Moment} {call : ManagerCall} {world : World}

theorem serve_plain (plain : call.Plain) (hostId : Int) :
    ((call.serve manager moment world).2.machines hostId).domains = (world.machines hostId).domains := by
  have there {other : Int} {machine : Hypervisor.Machine} (same : machine.domains = (world.machines other).domains) :
      ((world.setMachine other machine).machines hostId).domains = (world.machines hostId).domains := by
    by_cases here : hostId = other
    · subst here
      rw [World.setMachine_same, same]
    · rw [World.setMachine_other _ _ _ here]
  have performed : ((call.perform manager moment world).2.machines hostId).domains =
    (world.machines hostId).domains := by
    cases call with
    | deleteIso | buildIso | copyOverlay | removeOverlay => exact there rfl
    | deprovision =>
      simp only [ManagerCall.perform]
      split
      next =>
        refine there ?_
        unfold Machine.removeFiles
        split <;> rfl
      next => rfl
    | resizeDisk =>
      simp only [ManagerCall.perform]
      split <;> rfl
    | act _ _ | define _ | create _ | change _ _ _ | provision _ | redefine _ => exact plain.elim
    | _ => rfl
  rcases serve_cases manager moment call world with same | ⟨_, -, nothing | done⟩
  · rw [same, performed]
  · rw [nothing]
  · rw [done, performed]

end

theorem serve_seeds {manager : Manager} {moment : Moment} {call : ManagerCall} {world : World}
    (upkeeps : call.Upkeeps) (hostId : Int) :
    ((call.serve manager moment world).2.machines hostId).seeds ⊆ (world.machines hostId).seeds := by
  refine (serve_changes manager moment call world hostId).induct (·.seeds ⊆ _) (List.Subset.refl _)
    fun edit middle after among made before => List.Subset.trans ?_ before
  cases edit with
  | define =>
    simp only [Edit.Makes, Machine.define] at made
    split at made
    next =>
      cases made
      exact List.Subset.refl _
    next =>
      split at made <;> cases made
      exact List.Subset.refl _
  | withSeed uuid =>
    rcases among.seeds uuid rfl with ⟨_, rfl⟩ | rfl
    · exact upkeeps.elim
    · exact upkeeps.elim
  | withoutSeed =>
    cases made
    exact List.filter_sublist.subset
  | _ =>
    cases made
    exact List.Subset.refl _

end Bento.Lifecycle
