import Bento.Library.Contracts
import Bento.Lifecycle.Actions

/-! The rules of the contracts for the manager's own steps: one for each way in which an action
asks and reports, and one for each part that several actions share. -/

namespace Bento.Lifecycle
open Hypervisor Library.Contracts Library.Contracts.Rules Store Valid
open Runner (InstanceRef)

section Contracts
variable {ι σ ε α β : Type} {rules : Rules ManagerCall.Answer ι σ ε} {i : ι} {pre fail : σ → Prop}

theorem valid_ask {call : ManagerCall} {reply : call.Answer → σ → Prop} (operation : rules.Operation i call pre reply) :
    rules.Valid i pre (ask call) reply := Valid.ask operation

variable {post : α → σ → Prop}

theorem valid_lift {program : ManagerProgram α} (valid : rules.Valid i pre program post) :
    rules.Valid i pre (ExceptT.lift program : ManagerM α).run (outcome post fail) :=
  Valid.bind valid fun _ => of_pure .rfl

theorem valid_answered {call : ManagerCall} {reply : call.Answer → σ → Prop}
    (operation : rules.Operation i call pre reply) :
    rules.Valid i pre (answered call).run (outcome reply fail) :=
  valid_lift (valid_ask operation)

theorem valid_checked {δ : Type} {program : ManagerProgram (Except δ α)} {describe : δ → Error}
    (valid : rules.Valid i pre program (outcome post fail)) :
    rules.Valid i pre (checked program describe).run (outcome post fail) := by
  refine Valid.bind valid fun result => of_pure ?_
  cases result with
  | ok => exact .rfl
  | error => exact .rfl

theorem valid_stored {call : StoreCall} {post : call.Reply → σ → Prop}
    (operation : rules.Operation i (.store call) pre (outcome post fail)) :
    rules.Valid i pre (stored call).run (outcome post fail) :=
  valid_checked (valid_ask operation)

theorem valid_return {value : α} (holds : rules.Implies pre (post value)) :
    rules.Valid i pre (pure value : ManagerM α).run (outcome post fail) := of_pure holds

theorem valid_throw {error : Error} (holds : rules.Implies pre fail) :
    rules.Valid i pre (throw error : ManagerM α).run (outcome post fail) := of_pure holds

variable {manager : Manager} {row : Instance}

theorem valid_hypFor {next : Reach → ManagerM α} {reached : σ → Prop}
    (here : row.hostId = manager.hostId → rules.Valid i pre (next .here).run (outcome post fail))
    (asked : row.hostId ≠ manager.hostId → rules.Operation i (.hypervisor row.hostId) pre fun answer =>
      if answer then reached else fail)
    (there : row.hostId ≠ manager.hostId → rules.Valid i reached (next (.there row.hostId)).run (outcome post fail)) :
    rules.Valid i pre (manager.hypFor row >>= next).run (outcome post fail) := by
  by_cases same : row.hostId = manager.hostId
  · rw [Manager.hypFor, if_pos same]
    exact here same
  · rw [Manager.hypFor, if_neg same]
    refine ⟨pre, _, .rfl, asked same, fun answer => ?_⟩
    cases answer with
    | true => exact there same
    | false => exact of_pure .rfl

def whenListed (name : String) (domains : List DomainInfo) (missing : σ → Prop) (listed : DomainInfo → σ → Prop) :
    σ → Prop :=
  match domains.find? (·.name = name) with
  | none => missing
  | some domain => listed domain

theorem whenListed_of {name : String} {domains : List DomainInfo} {missing : σ → Prop}
    {listed : DomainInfo → σ → Prop} {state : σ} (absent : missing state) (present : ∀ domain, listed domain state) :
    whenListed name domains missing listed state := by
  unfold whenListed
  cases domains.find? (·.name = name) with
  | none => exact absent
  | some domain => exact present domain

section
variable {action : DomainAction} {name : String} {hostId : Int}
  {post : Except Hypervisor.Error action.Result → σ → Prop} {listed : DomainInfo → σ → Prop}

theorem valid_actThrough {domains : List DomainInfo}
    (changed : ∀ domain, domain.name = name →
      rules.Operation i (.change hostId action ⟨domain.uuid, name⟩) (listed domain)
      fun answer => post ((answer.mapError .operation).map (runnerResult action))) :
    rules.Valid i (whenListed name domains (post (.error (.domainNotFound name))) listed)
      (actThrough hostId action name domains) post := by
  unfold actThrough whenListed
  cases known : domains.find? (·.name = name) with
  | none => exact of_pure .rfl
  | some domain =>
    have named : domain.name = name := by simpa using List.find?_some known
    exact Valid.bind (valid_ask (changed domain named)) fun _ => of_pure .rfl

theorem valid_actThere (inventory : rules.Operation i (.inventory hostId) pre fun answer =>
      match answer with
      | .error text => post (.error (.operation text))
      | .ok domains => whenListed name domains (post (.error (.domainNotFound name))) listed)
    (changed : ∀ domain, domain.name = name →
      rules.Operation i (.change hostId action ⟨domain.uuid, name⟩) (listed domain)
      fun answer => post ((answer.mapError .operation).map (runnerResult action))) :
    rules.Valid i pre (Reach.act action name (.there hostId)) post := by
  refine Valid.bind (valid_ask inventory) fun answer => ?_
  cases answer with
  | error => exact of_pure .rfl
  | ok => exact valid_actThrough changed

end

theorem valid_domainAction {action : DomainAction} {word : String}
    {post : action.Result → σ → Prop} (reached : σ → Prop) (listed : DomainInfo → σ → Prop)
    (here : row.hostId = manager.hostId → rules.Operation i (.act action row.name) pre (outcome post fail))
    (asked : row.hostId ≠ manager.hostId → rules.Operation i (.hypervisor row.hostId) pre fun answer =>
      if answer then reached else fail)
    (inventory : row.hostId ≠ manager.hostId → rules.Operation i (.inventory row.hostId) reached
      (outcome (fun domains => whenListed row.name domains fail listed) fail))
    (changed : row.hostId ≠ manager.hostId → ∀ domain, domain.name = row.name →
      rules.Operation i (.change row.hostId action ⟨domain.uuid, row.name⟩) (listed domain)
        (outcome (fun state => post (runnerResult action state)) fail)) :
    rules.Valid i pre (manager.domainAction action word row).run (outcome post fail) := by
  refine valid_hypFor (fun same => valid_checked (valid_ask (here same))) asked fun remote => valid_checked ?_
  apply valid_actThere
  · refine (inventory remote).mono fun answer => ?_
    cases answer with
    | error => exact .rfl
    | ok => exact .rfl
  · refine fun domain named => (changed remote domain named).mono fun answer => ?_
    cases answer with
    | error => exact .rfl
    | ok => exact .rfl

end Contracts

end Bento.Lifecycle
