import Bento.Hypervisor.Libvirt
import Bento.Proofs.Domains
import Mathlib.Data.List.Nodup

/-! Calls of the libvirt client while others act on its machine. A call reads first and acts on
what it has read, so it matters what happens in between: a guest that powers off by itself,
and a domain that is removed while all are listed. -/

namespace Bento.Hypervisor
open Library.Programs List Machine

section
variable {α β : Type} {outside : Nat → Machine → Machine} {libvirt : Libvirt}

theorem run_pure (value : α) : (pure value : ClientM α).run outside libvirt = (.ok value, libvirt) := rfl

theorem run_bind {method : ClientM α} {next : α → ClientM β} :
    (method >>= next).run outside libvirt = match method.run outside libvirt with
      | (.ok value, after) => (next value).run outside after
      | (.error error, after) => (.error error, after) := by
  have steps (program : Program LibvirtCall.Answer (Except Error α)) :
      ClientM.run outside (ExceptT.mk program >>= next) libvirt =
        match ClientM.run outside (ExceptT.mk program) libvirt with
        | (.ok value, after) => (next value).run outside after
        | (.error error, after) => (.error error, after) := by
    induction program generalizing libvirt with
    | pure result => cases result <;> rfl
    | request call rest ih => exact ih _
  exact steps method

theorem run_map {method : ClientM α} {after : α → β} :
    ((method >>= fun value => pure (after value)).run outside libvirt).1 =
      (method.run outside libvirt).1.map after := by
  rw [run_bind]
  cases method.run outside libvirt with
  | mk result => cases result <;> rfl

theorem run_asked {call : LibvirtCall} {describe : CallError → Error} :
    (asked call describe).run outside libvirt =
      ((libvirt.serve outside call).1.mapError describe, (libvirt.serve outside call).2) := rfl

end

def Machine.seen (machine : Machine) (uuid : String) : Option PowerState :=
  (machine.domains.find? (·.spec.uuid = uuid)).map Domain.state

namespace Machine
variable {machine : Machine} {domain : DomainHandle} {state : PowerState}

theorem seen_setState (uuid : String) (state : PowerState) :
    (machine.setState uuid state).seen uuid = (machine.seen uuid).map fun _ => state := by
  unfold seen setState
  induction machine.domains with
  | nil => rfl
  | cons first rest ih =>
    by_cases same : first.spec.uuid = uuid
    · simp [same]
    · simpa [same] using ih

theorem seen_undefine (uuid : String) : (machine.undefine uuid).seen uuid = none := by
  simp [seen, undefine, List.find?_eq_none]

theorem getState_seen (known : machine.seen domain.uuid = some state) :
    (LibvirtCall.getState domain).serve machine = (.ok state, machine) := by
  obtain ⟨found, same, rfl⟩ := Option.map_eq_some_iff.mp known
  simp only [LibvirtCall.serve, same]

theorem onActive_seen (known : machine.seen domain.uuid = some state) (after : Machine) :
    machine.onActive domain after = if state = .stopped then (.error .other, machine) else (.ok (), after) := by
  obtain ⟨found, same, rfl⟩ := Option.map_eq_some_iff.mp known
  simp only [onActive, same]

end Machine

def powersOff (uuid : String) (moment : Option Nat) (call : Nat) (machine : Machine) : Machine :=
  if moment = some call then machine.setState uuid .stopped else machine

section
variable {client : Client} {domain : DomainHandle} {moment : Option Nat} {machine : Machine} {calls : CallLog}
  {state : PowerState}

def Client.waits (client : Client) (elapsed : Nat) : Nat :=
  if _late : client.stopTimeout ≤ elapsed then 0 else client.waits (elapsed + client.pollInterval) + 1
termination_by client.stopTimeout - elapsed
decreasing_by
  have := client.moves
  omega

theorem Client.waits_enough (elapsed : Nat) :
    client.stopTimeout ≤ elapsed + client.waits elapsed * client.pollInterval := by
  fun_induction client.waits elapsed with
  | case1 => omega
  | case2 elapsed early ih =>
    rw [Nat.succ_mul]
    omega

theorem run_domainState (domain : DomainHandle) {next : PowerState → ClientM β}
    (known : (powersOff domain.uuid moment calls.length machine).seen domain.uuid = some state) :
    (Client.domainState domain >>= next).run (powersOff domain.uuid moment) ⟨machine, calls⟩ =
      (next state).run (powersOff domain.uuid moment)
        ⟨powersOff domain.uuid moment calls.length machine, calls ++ [(.getState domain, some state)]⟩ := by
  rw [Client.domainState, run_bind, run_asked]
  simp only [Libvirt.serve, getState_seen known, LibvirtCall.read, Except.mapError]

theorem seen_stopped {uuid : String} (live : machine.seen uuid = some state) :
    (machine.setState uuid .stopped).seen uuid = some .stopped := by
  rw [seen_setState, live]
  rfl

theorem seen_off (live : machine.seen domain.uuid = some state) (now : moment = some calls.length) :
    (powersOff domain.uuid moment calls.length machine).seen domain.uuid = some .stopped := by
  rw [powersOff, if_pos now, seen_stopped live]

theorem wait_off (elapsed : Nat) (live : machine.seen domain.uuid = some state) (now : moment = some calls.length) :
    (client.waitStopped domain elapsed).run (powersOff domain.uuid moment) ⟨machine, calls⟩ =
      (.ok true, ⟨machine.setState domain.uuid .stopped, calls ++ [(.getState domain, some .stopped)]⟩) := by
  rw [Client.waitStopped, run_domainState domain (seen_off live now), if_pos rfl, powersOff, if_pos now]
  rfl

/-- The wait ends at the read that finds the guest off, or after the whole timeout. -/
theorem wait_ends {elapsed : Nat} (live : machine.seen domain.uuid = some state) (on : state ≠ .stopped) :
    (∃ reads ≤ client.waits elapsed, moment = some (calls.length + reads) ∧
      (client.waitStopped domain elapsed).run (powersOff domain.uuid moment) ⟨machine, calls⟩ =
        (.ok true, ⟨machine.setState domain.uuid .stopped,
          calls ++ List.replicate reads (.getState domain, some state) ++ [(.getState domain, some .stopped)]⟩)) ∨
    (∀ reads ≤ client.waits elapsed, moment ≠ some (calls.length + reads)) ∧
      (client.waitStopped domain elapsed).run (powersOff domain.uuid moment) ⟨machine, calls⟩ =
        (.ok false, ⟨machine, calls ++ List.replicate (client.waits elapsed + 1) (.getState domain, some state)⟩) := by
  induction elapsed using Client.waits.induct client generalizing calls with
  | case1 elapsed late =>
    by_cases now : moment = some calls.length
    · exact .inl ⟨0, Nat.zero_le _, now, by rw [wait_off elapsed live now, replicate_zero, append_nil]⟩
    · rw [Client.waitStopped, Client.waits, dif_pos late]
      refine .inr ⟨fun reads none => by rwa [Nat.le_zero.mp none], ?_⟩
      rw [run_domainState domain (by rwa [powersOff, if_neg now]), if_neg on, dif_pos late, powersOff, if_neg now]
      rfl
  | case2 elapsed early ih =>
    by_cases now : moment = some calls.length
    · exact .inl ⟨0, Nat.zero_le _, now, by rw [wait_off elapsed live now, replicate_zero, append_nil]⟩
    · rw [Client.waitStopped, Client.waits, dif_neg early]
      rw [run_domainState domain (by rwa [powersOff, if_neg now]), if_neg on, dif_neg early, powersOff, if_neg now]
      have later (reads : Nat) :
          (calls ++ [(LibvirtCall.getState domain, some state)]).length + reads = calls.length + (reads + 1) := by
        rw [length_append, length_singleton, Nat.add_assoc, Nat.add_comm 1]
      rcases @ih (calls ++ [(.getState domain, some state)]) with ⟨reads, few, off, ends⟩ | ⟨never, ends⟩
      · refine .inl ⟨reads + 1, Nat.succ_le_succ few, off.trans (congrArg some (later reads)), ?_⟩
        rw [ends, append_assoc calls, replicate_succ]
        rfl
      · refine .inr ⟨fun reads few => ?_, by rw [ends, append_assoc]; rfl⟩
        cases reads with
        | zero => exact now
        | succ reads => exact later reads ▸ never reads (Nat.le_of_succ_le_succ few)

end

section
variable {client : Client} {machine : Machine} {name : String} {found : Domain} {moment : Option Nat}

theorem powersOff_domain (there : machine.domain name = some found) (uuid : String) (call : Nat) :
    ∃ domain, (powersOff uuid moment call machine).domain name = some domain ∧ domain.spec = found.spec := by
  unfold powersOff
  split
  next =>
    rw [domain_setState, there]
    refine ⟨_, rfl, ?_⟩
    simp only
    split <;> rfl
  next => exact ⟨found, there, rfl⟩

theorem seen_of_unique (there : machine.domain name = some found) (unique : (machine.domains.map (·.spec.uuid)).Nodup) :
    machine.seen found.spec.uuid = some found.state := by
  have listed := domain_mem there
  unfold Machine.seen
  cases looked : machine.domains.find? (·.spec.uuid = found.spec.uuid) with
  | none => exact absurd (List.find?_eq_none.mp looked found listed) (by simp)
  | some other =>
    have same : other = found :=
      inj_on_of_nodup_map unique (mem_of_find?_eq_some looked) listed (by simpa using List.find?_some looked)
    rw [same]
    rfl

theorem run_opening {β : Type} {next : DomainHandle → PowerState → ClientM β} (there : machine.domain name = some found)
    (unique : (machine.domains.map (·.spec.uuid)).Nodup) :
    ∃ machine' state, machine'.seen found.spec.uuid = some state ∧
      (state = .stopped ↔ found.state = .stopped ∨ moment = some 0 ∨ moment = some 1) ∧
      ClientM.run (powersOff found.spec.uuid moment) (Client.lookup name >>= fun domain =>
        Client.domainState domain >>= next domain) ⟨machine, []⟩ =
        (next ⟨name, found.spec.uuid⟩ state).run (powersOff found.spec.uuid moment)
          ⟨machine', [(.lookupByName name, none), (.getState ⟨name, found.spec.uuid⟩, some state)]⟩ := by
  have live := seen_of_unique there unique
  obtain ⟨domain, looked, spec⟩ := @powersOff_domain machine name found moment there found.spec.uuid 0
  have opened : (LibvirtCall.lookupByName name).serve (powersOff found.spec.uuid moment 0 machine) =
      (.ok ⟨name, found.spec.uuid⟩, powersOff found.spec.uuid moment 0 machine) := by
    unfold Machine.domain at looked
    simp only [LibvirtCall.serve, looked, spec, domain_name there]
  have seen : ∃ state, (powersOff found.spec.uuid moment 1 (powersOff found.spec.uuid moment 0 machine)).seen
    found.spec.uuid = some state ∧
      (state = .stopped ↔ found.state = .stopped ∨ moment = some 0 ∨ moment = some 1) := by
    by_cases first : moment = some 0
    · exact ⟨.stopped, by simp [powersOff, first, seen_setState, live], by simp [first]⟩
    · by_cases second : moment = some 1
      · exact ⟨.stopped, by simp [powersOff, second, seen_setState, live], by simp [second]⟩
      · exact ⟨found.state, by simp [powersOff, first, second, live], by simp [first, second]⟩
  obtain ⟨state, known, off⟩ := seen
  refine ⟨_, state, known, off, ?_⟩
  rw [Client.lookup, run_bind, run_asked]
  simp only [Libvirt.serve, length_nil, opened, Except.mapError]
  exact run_domainState ⟨name, found.spec.uuid⟩ known

section
variable {β : Type} {domain : DomainHandle} {calls : CallLog} {state : PowerState} {describe : CallError → Error}

theorem run_shutdown {next : Unit → ClientM β} (live : machine.seen domain.uuid = some state) (on : state ≠ .stopped) :
    (asked (.shutdown domain) describe >>= next).run (powersOff domain.uuid moment) ⟨machine, calls⟩ =
      if moment = some calls.length then
        (.error (describe .other), ⟨machine.setState domain.uuid .stopped, calls ++ [(.shutdown domain, none)]⟩)
      else (next ()).run (powersOff domain.uuid moment) ⟨machine, calls ++ [(.shutdown domain, none)]⟩ := by
  rw [run_bind, run_asked]
  by_cases now : moment = some calls.length
  · simp [Libvirt.serve, LibvirtCall.serve, LibvirtCall.read, powersOff, now,
      onActive_seen (seen_stopped live), Except.mapError]
  · simp [Libvirt.serve, LibvirtCall.serve, powersOff, now, onActive_seen live, on, LibvirtCall.read, Except.mapError]

theorem run_destroy {next : Unit → ClientM β} (live : machine.seen domain.uuid = some state) (on : state ≠ .stopped) :
    (asked (.destroy domain) describe >>= next).run (powersOff domain.uuid moment) ⟨machine, calls⟩ =
      if moment = some calls.length then
        (.error (describe .other), ⟨machine.setState domain.uuid .stopped, calls ++ [(.destroy domain, none)]⟩)
      else (next ()).run (powersOff domain.uuid moment)
        ⟨machine.setState domain.uuid .stopped, calls ++ [(.destroy domain, none)]⟩ := by
  rw [run_bind, run_asked]
  by_cases now : moment = some calls.length
  · simp [Libvirt.serve, LibvirtCall.serve, LibvirtCall.read, powersOff, now,
      onActive_seen (seen_stopped live), Except.mapError]
  · simp [Libvirt.serve, LibvirtCall.serve, powersOff, now, onActive_seen live, on, LibvirtCall.read, Except.mapError]

end

def Stopped (uuid : String) (outcome : Except Error StopResult × Libvirt) : Prop :=
  outcome.1.isOk = true ∧ outcome.2.machine.seen uuid = some .stopped

def Removed (uuid : String) (outcome : Except Error Unit × Libvirt) : Prop :=
  outcome.1.isOk = true ∧ outcome.2.machine.seen uuid = none

/-- The domain was destroyed only after it was read running through the whole timeout, from
the shutdown request on. -/
def LateDestroy (client : Client) (domain : DomainHandle) (calls : CallLog) : Prop :=
  (.destroy domain, none) ∈ calls → ∃ before state waits,
    calls = before ++ [(.shutdown domain, none)] ++ List.replicate (waits + 1) (.getState domain, some state) ++
      [(.destroy domain, none)] ∧
    (.destroy domain, none) ∉ before ∧ state ≠ .stopped ∧ client.stopTimeout ≤ waits * client.pollInterval

theorem shutDown_ends (client : Client) {domain : DomainHandle} {calls : CallLog} {state : PowerState}
    (live : machine.seen domain.uuid = some state) (on : state ≠ .stopped) (two : calls.length = 2)
    (undestroyed : (.destroy domain, none) ∉ calls) :
    (Stopped domain.uuid ((client.shutDown name domain).run (powersOff domain.uuid moment) ⟨machine, calls⟩) ↔
      moment ≠ some 2 ∧ moment ≠ some (client.waits 0 + 4)) ∧
    LateDestroy client domain
      ((client.shutDown name domain).run (powersOff domain.uuid moment) ⟨machine, calls⟩).2.calls := by
  have off := seen_stopped live
  rw [Client.shutDown, run_shutdown live on, two]
  by_cases early : moment = some 2
  · rw [if_pos early]
    simp [Stopped, LateDestroy, early, Except.isOk, Except.toBool, undestroyed]
  · rw [if_neg early]
    rw [run_bind]
    have three : (calls ++ [(LibvirtCall.shutdown domain, none)]).length = 3 := by simp [two]
    rcases @wait_ends client domain moment machine (calls ++ [(.shutdown domain, none)]) state 0 live on with
      ⟨reads, few, now, ends⟩ | ⟨never, ends⟩
    · have before : moment ≠ some (client.waits 0 + 4) := by
        rw [now, three]
        simp only [ne_eq, Option.some.injEq]
        omega
      rw [ends]
      refine ⟨iff_of_true ⟨rfl, off⟩ ⟨early, before⟩, ?_⟩
      simp [run_pure, LateDestroy, undestroyed]
    · rw [ends]
      simp only [Bool.false_eq_true, if_false]
      have last : (calls ++ [(LibvirtCall.shutdown domain, none)] ++
        List.replicate (client.waits 0 + 1) (LibvirtCall.getState domain, some state)).length =
          client.waits 0 + 4 := by
        rw [length_append, three, length_replicate]
        omega
      rw [run_destroy live on, last]
      have late : LateDestroy client domain (calls ++ [(.shutdown domain, none)] ++
          List.replicate (client.waits 0 + 1) (.getState domain, some state) ++ [(.destroy domain, none)]) := by
        intro _
        exact ⟨calls, state, client.waits 0, rfl, undestroyed, on, by simpa using client.waits_enough 0⟩
      by_cases gone : moment = some (client.waits 0 + 4)
      · rw [if_pos gone]
        exact ⟨iff_of_false (fun stopped => nomatch stopped.1) fun apart => apart.2 gone, late⟩
      · rw [if_neg gone]
        exact ⟨iff_of_true ⟨rfl, off⟩ ⟨early, gone⟩, late⟩

theorem undefine_ends {domain : DomainHandle} {calls : CallLog} {state : PowerState}
    {describe : CallError → Error} (live : machine.seen domain.uuid = some state) :
    Removed domain.uuid ((asked (.undefineFlags domain) describe).run (powersOff domain.uuid moment)
      ⟨machine, calls⟩) := by
  have still : ((powersOff domain.uuid moment calls.length machine).domains.any (·.spec.uuid = domain.uuid)) =
    true := by
    have known : ∃ state, (powersOff domain.uuid moment calls.length machine).seen domain.uuid = some state := by
      unfold powersOff
      split
      next => exact ⟨_, seen_stopped live⟩
      next => exact ⟨_, live⟩
    obtain ⟨_, seen⟩ := known
    obtain ⟨other, looked, -⟩ := Option.map_eq_some_iff.mp seen
    exact List.any_eq_true.mpr ⟨other, mem_of_find?_eq_some looked, by simpa using List.find?_some looked⟩
  rw [run_asked]
  simp only [Libvirt.serve, LibvirtCall.serve, still, if_true]
  exact ⟨rfl, seen_undefine _⟩

end

/-- A guest may power off by itself before any one call of the client, or never. `stop` and
`remove` do what they say just when that is not between the state that was read and the
shutdown or destroy request sent for it. -/
theorem guest_may_power_off (client : Client) (machine : Machine) (name : String) (found : Domain) (moment : Option Nat)
    (there : machine.domain name = some found) (unique : (machine.domains.map (·.spec.uuid)).Nodup) :
    (Stopped found.spec.uuid ((client.stop name).run (powersOff found.spec.uuid moment) ⟨machine, []⟩) ↔
      found.state = .stopped ∨ moment ≠ some 2 ∧ moment ≠ some (client.waits 0 + 4)) ∧
    LateDestroy client ⟨name, found.spec.uuid⟩
      ((client.stop name).run (powersOff found.spec.uuid moment) ⟨machine, []⟩).2.calls ∧
    (Removed found.spec.uuid ((Client.remove name).run (powersOff found.spec.uuid moment) ⟨machine, []⟩) ↔
      found.state = .stopped ∨ moment ≠ some 2) := by
  have stops := @run_opening machine name found moment StopResult
    (fun domain state => if state = .stopped then pure .alreadyStopped else client.shutDown name domain) there unique
  have removes := @run_opening machine name found moment Unit
    (fun domain state => do
      if state ≠ .stopped then asked (.destroy domain) (operationError ("destroy domain " ++ name))
      asked (.undefineFlags domain) (operationError ("undefine domain " ++ name))) there unique
  rw [← and_assoc]
  constructor
  · obtain ⟨opened, state, live, off, ran⟩ := stops
    rw [show (client.stop name).run (powersOff found.spec.uuid moment) ⟨machine, []⟩ = _ from ran]
    by_cases stopped : state = .stopped
    · rw [if_pos stopped]
      refine ⟨iff_of_true ⟨rfl, stopped ▸ live⟩ ?_, by simp [run_pure, LateDestroy]⟩
      rcases off.mp stopped with before | rfl | rfl
      · exact .inl before
      · exact .inr ⟨by simp, by simp⟩
      · exact .inr ⟨by simp, by simp⟩
    · rw [if_neg stopped]
      have on : found.state ≠ .stopped := fun before => stopped (off.mpr (.inl before))
      simpa [on] using @shutDown_ends opened name moment client ⟨name, found.spec.uuid⟩
        [(.lookupByName name, none), (.getState ⟨name, found.spec.uuid⟩, some state)] state live stopped rfl (by simp)
  · obtain ⟨opened, state, live, off, ran⟩ := removes
    rw [show (Client.remove name).run (powersOff found.spec.uuid moment) ⟨machine, []⟩ = _ from ran]
    by_cases stopped : state = .stopped
    · rw [if_neg (not_not.mpr stopped)]
      refine iff_of_true (@undefine_ends _ _ ⟨name, found.spec.uuid⟩ _ _ _ live) ?_
      rcases off.mp stopped with before | rfl | rfl
      · exact .inl before
      · exact .inr (by simp)
      · exact .inr (by simp)
    · rw [if_pos stopped]
      have on : found.state ≠ .stopped := fun before => stopped (off.mpr (.inl before))
      have destroyed := @run_destroy opened moment Unit ⟨name, found.spec.uuid⟩
        [(.lookupByName name, none), (.getState ⟨name, found.spec.uuid⟩, some state)] state
          (operationError ("destroy domain " ++ name))
        (fun _ => asked (.undefineFlags ⟨name, found.spec.uuid⟩) (operationError ("undefine domain " ++ name))) live
          stopped
      rw [destroyed]
      split
      next gone =>
        exact iff_of_false (fun removed => nomatch removed.1) fun apart => apart.elim on fun other => other gone
      next gone => exact iff_of_true (@undefine_ends _ _ ⟨name, found.spec.uuid⟩ _ _ _ (seen_stopped live)) (.inr gone)

def webMachine : Machine :=
  ⟨[⟨⟨"web", "0b5e", 1, 512, false, "net", "52:54:00:00:0b:5e", false, false⟩, .running⟩], [], []⟩

/-- It powers off on the request to shut down, or before the domain is undefined. -/
theorem guest_may_power_off_later :
    Stopped "0b5e" ((Client.connect.stop "web").run (powersOff "0b5e" (some 3)) ⟨webMachine, []⟩) ∧
      Removed "0b5e" ((Client.remove "web").run (powersOff "0b5e" (some 3)) ⟨webMachine, []⟩) := by
  have both := guest_may_power_off Client.connect webMachine "web" _ (some 3) rfl (by decide)
  exact ⟨both.1.mpr (.inr (by decide)), both.2.2.mpr (.inr (by decide))⟩

/-- It powers off right after its state was read: libvirt refuses the next request, and the
whole call fails. -/
theorem guest_powers_off_unseen :
    ¬ Stopped "0b5e" ((Client.connect.stop "web").run (powersOff "0b5e" (some 2)) ⟨webMachine, []⟩) ∧
      ¬ Removed "0b5e" ((Client.remove "web").run (powersOff "0b5e" (some 2)) ⟨webMachine, []⟩) := by
  constructor
  · exact fun stopped => absurd stopped.1 (by decide)
  · exact fun removed => absurd removed.1 (by decide)

def undefines (removed : Nat → List String) (call : Nat) (machine : Machine) :
    Machine := (removed call).foldl Machine.undefine machine

def Listed (removed : Nat → List String) (machine : Machine) (result : Except Error (List DomainInfo)) : Prop :=
  ∃ infos, result = .ok infos ∧ ∀ domain ∈ machine.domains,
    (∀ call, domain.spec.uuid ∉ removed call) → domain.info ∈ infos

section
variable {removed : Nat → List String} {machine : Machine} {domain : Domain}

def Left (removed : Nat → List String) (calls : Nat) (domain : Domain) :
    Prop := ∀ call < calls, domain.spec.uuid ∉ removed call

instance (calls : Nat) : Decidable (Left removed calls domain) := inferInstanceAs (Decidable (∀ _ < _, _))

theorem left_succ {calls : Nat} : Left removed (calls + 1) domain ↔
    domain.spec.uuid ∉ removed calls ∧ Left removed calls domain := by
  simp only [Left, Nat.lt_succ_iff_lt_or_eq, or_imp, forall_and, forall_eq, and_comm]

def Machine.left (removed : Nat → List String) (calls : Nat) (machine : Machine) : Machine :=
  { machine with domains := machine.domains.filter (Left removed calls ·) }

theorem undefines_left (calls : Nat) :
    undefines removed calls (machine.left removed calls) = machine.left removed (calls + 1) := by
  have all (machine : Machine) (uuids : List String) :
      uuids.foldl Machine.undefine machine =
        { machine with domains := machine.domains.filter fun domain => domain.spec.uuid ∉ uuids } := by
    induction uuids generalizing machine with
    | nil => simp
    | cons uuid rest ih =>
      rw [foldl_cons, ih]
      simp only [Machine.undefine, filter_filter, mem_cons, not_or, Bool.decide_and, Bool.and_comm]
  rw [undefines, all]
  simp only [Machine.left, filter_filter, left_succ, Bool.decide_and]

theorem getState_left {calls : Nat} (unique : (machine.domains.map (·.spec.uuid)).Nodup)
    (listed : domain ∈ machine.domains) :
    (machine.left removed calls).seen domain.spec.uuid =
      if Left removed calls domain then some domain.state else none := by
  have only (other : Domain) (known : other ∈ machine.domains) (same : other.spec.uuid = domain.spec.uuid) :
      other = domain :=
    inj_on_of_nodup_map unique known listed same
  unfold Machine.seen
  split
  next there =>
    cases looked : (machine.left removed calls).domains.find? (·.spec.uuid = domain.spec.uuid) with
    | none =>
      exact absurd (List.find?_eq_none.mp looked domain (List.mem_filter.mpr ⟨listed, decide_eq_true there⟩)) (by simp)
    | some other =>
      rw [only other (mem_of_mem_filter (mem_of_find?_eq_some looked)) (by simpa using List.find?_some looked)]
      rfl
  next gone =>
    rw [List.find?_eq_none.mpr, Option.map_none]
    intro other known same
    obtain ⟨known, left⟩ := List.mem_filter.mp known
    rw [only other known (of_decide_eq_true same)] at left
    exact gone (of_decide_eq_true left)

def Kept (removed : Nat → List String) : Nat → List Domain → Prop
  | _, [] => True
  | call, domain :: domains => Left removed (call + 1) domain ∧ Kept removed (call + 1) domains

theorem infos_run {domains : List Domain} {calls : CallLog}
    (unique : (machine.domains.map (·.spec.uuid)).Nodup) (there : ∀ domain ∈ domains, domain ∈ machine.domains) :
    let result := ((Client.infos (domains.map fun domain => ⟨domain.spec.name, domain.spec.uuid⟩)).run
      (undefines removed)
      ⟨machine.left removed calls.length, calls⟩).1
    Kept removed calls.length domains ∧ result = .ok (domains.map Domain.info) ∨
      ¬ Kept removed calls.length domains ∧ ∃ error, result = .error error := by
  induction domains generalizing calls with
  | nil => exact .inl ⟨trivial, rfl⟩
  | cons domain domains ih =>
    have seen := @getState_left removed machine domain (calls.length + 1) unique (there domain mem_cons_self)
    simp only [map_cons, Client.infos, Kept]
    by_cases left : Left removed (calls.length + 1) domain
    · rw [if_pos left] at seen
      have state := @Machine.getState_seen _ ⟨domain.spec.name, domain.spec.uuid⟩ _ seen
      have rest := @ih (calls ++ [(.getState ⟨domain.spec.name, domain.spec.uuid⟩, some domain.state)])
        fun other listed => there other (mem_cons_of_mem _ listed)
      rw [length_append, length_singleton] at rest
      rw [Client.domainState, run_bind, run_asked]
      simp only [Libvirt.serve, undefines_left, state, LibvirtCall.read, Except.mapError]
      rw [run_map]
      rcases rest with ⟨kept, same⟩ | ⟨gone, error, same⟩
      · exact .inl ⟨⟨left, kept⟩, by rw [same]; rfl⟩
      · exact .inr ⟨fun kept => gone kept.2, error, by rw [same]; rfl⟩
    · rw [if_neg left] at seen
      refine .inr ⟨fun kept => left kept.1, .operation ("get state of domain " ++ domain.spec.name), ?_⟩
      rw [Client.domainState, run_bind, run_asked]
      simp only [Libvirt.serve, undefines_left, LibvirtCall.serve, Option.map_eq_none_iff.mp seen, Except.mapError]
      rfl

end

/-- Others may undefine any domains before any call. The list is there, with every domain that
stayed, just when none of the domains in it is undefined before its own state was read. -/
theorem listing_complete_iff (machine : Machine) (removed : Nat → List String)
    (unique : (machine.domains.map (·.spec.uuid)).Nodup) :
    Listed removed machine (Client.list.run (undefines removed) ⟨machine, []⟩).1 ↔
      Kept removed 1 (machine.left removed 1).domains := by
  have first : undefines removed 0 machine = machine.left removed 1 := by
    rw [← undefines_left]
    simp [Machine.left, Left]
  have rest := @infos_run removed machine (machine.left removed 1).domains [(.listAllDomains, none)] unique fun _ =>
    mem_of_mem_filter
  have ran : (Client.list.run (undefines removed) ⟨machine, []⟩).1 =
      ((Client.infos ((machine.left removed 1).domains.map fun domain => ⟨domain.spec.name, domain.spec.uuid⟩)).run
        (undefines removed)
        ⟨machine.left removed 1, [(.listAllDomains, none)]⟩).1 := by
    rw [Client.list, run_bind, run_asked]
    simp only [Libvirt.serve, LibvirtCall.serve, length_nil, first, Except.mapError, LibvirtCall.read, nil_append]
  rw [ran]
  rcases rest with ⟨kept, same⟩ | ⟨gone, error, same⟩
  · refine iff_of_true ⟨_, same, fun domain listed stays => ?_⟩ kept
    exact mem_map_of_mem (List.mem_filter.mpr ⟨listed, decide_eq_true fun call _ => stays call⟩)
  · refine iff_of_false ?_ gone
    rintro ⟨infos, fine, -⟩
    cases same.symm.trans fine

def dbDomain : Domain := ⟨⟨"db", "9f1c", 1, 512, false, "net", "52:54:00:00:9f:1c", false, false⟩, .stopped⟩

def twoMachine : Machine := { webMachine with domains := webMachine.domains ++ [dbDomain] }

/-- The domain with this uuid is removed when the state of the first has been read. -/
def removesLate (uuid : String) (call : Nat) : List String := if call = 2 then [uuid] else []

theorem listing_complete_read :
    Listed (removesLate "0b5e") twoMachine (Client.list.run (undefines (removesLate "0b5e")) ⟨twoMachine, []⟩).1 := by
  refine (listing_complete_iff twoMachine (removesLate "0b5e") (by decide)).mpr ?_
  exact ⟨by decide, by decide, trivial⟩

/-- The second domain is removed after it was listed: nobody learns the state of the first. -/
theorem listing_fails_for_all : ¬ Listed (removesLate "9f1c") twoMachine
    (Client.list.run (undefines (removesLate "9f1c")) ⟨twoMachine, []⟩).1 := by
  rintro ⟨infos, fine, -⟩
  have failed : (Client.list.run (undefines (removesLate "9f1c")) ⟨twoMachine, []⟩).1.isOk = false := by decide
  rw [fine] at failed
  cases failed

end Bento.Hypervisor
