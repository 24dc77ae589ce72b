import Bento.Bentod.Deployment
import Bento.Proofs.DispatchRuns
import Bento.Proofs.LeaseRuns

/-! Fencing across a restore. The runners remember epochs and generations on disks of
their own, so a database that is put back must not fall behind them: no epoch that was
acquired since the copy, and no generation above what the next epoch starts from. -/

namespace Bento.Bentod
open Runner Store Library.Runs Function List

def Names (sent : List Envelope) (object : ObjectFence) : Prop :=
  ∃ envelope ∈ sent, envelope.object = some object

namespace Deployment

/-- The copy knows every epoch that was acquired, and it or the floor of its next epoch
reaches every generation that was sent. -/
def Reaches (state : Deployment) (copy : Database) : Prop :=
  (∀ lease ∈ state.leases, lease.epoch ≤ copy.lease.epoch) ∧
    ∀ envelope ∈ state.sent, ∀ object ∈ envelope.object,
      object.generation ≤ (copy.lease.epoch + 1) * 1000000 ∨
        ∃ current ∈ copy.generations object.objectId, object.generation ≤ current

/-- A copy is put back only when it reaches the history, and epochs stay in the range
where their floor is a machine integer. -/
def Careful (state : Deployment) : Event → Prop
  | .restore index => ∀ copy ∈ state.snapshots[index]?, state.Reaches copy
  | .lease (.acquire _ _ _) => (state.database.lease.epoch + 1) * 1000000 < 2 ^ 63
  | _ => True

def FreshEpoch (state : Deployment) : Prop :=
  ∀ now holderId ttl lease row, acquireLease now holderId ttl state.database.lease = .ok (lease, row) →
    ∀ earlier ∈ state.leases, earlier.epoch ≠ lease.epoch

def Ahead (state : Deployment) (lease : Lease) : Prop :=
  ∀ objectId generation rows,
    nextDispatchGeneration objectId lease.epoch state.database.generations = .ok (generation, rows) →
    ∀ machineId accepted digest, (state.runners machineId).objectGenerations objectId = some (accepted, digest) →
      accepted < generation

def Heeded (setting : Setting) (state : Deployment) (lease : Lease) : Prop :=
  ∀ (sending : Sending) (order : Order) (envelope : Envelope), sending.lease.epoch = lease.epoch →
    ((order.dispatch setting.codec sending).run.run state.database.generations).1 = .ok (some envelope) →
    ∀ machineId around refusal,
      (exchange ⟨machineId, setting.maxSkewSeconds⟩ setting.encode (state.runners machineId) around envelope).result =
        .ok (.refused refusal) →
      (∀ yours theirs, refusal ≠ .staleEpoch yours theirs) ∧
      (∀ objectId yours theirs, refusal ≠ .staleGeneration objectId yours theirs) ∧
      ∀ objectId generation, refusal ≠ .generationConflict objectId generation

def recent (state : Deployment) : List Lease := state.leases.drop state.replaced

structure Fenced (setting : Setting) (state : Deployment) : Prop where
  epoch : state.FreshEpoch
  ahead : ∀ lease ∈ state.recent, state.Ahead lease
  heeded : ∀ lease, state.recent.getLast? = some lease → state.Heeded setting lease

structure Sane (state : Deployment) (fresh : Int) : Prop where
  written : state.database.lease.Written
  started : 0 ≤ state.database.lease.epoch
  copies : ∀ copy ∈ state.snapshots, copy.lease.Written ∧ 0 ≤ copy.lease.epoch
  epochs : ∀ lease ∈ state.leases, lease.epoch ≤ state.database.lease.epoch
  small : ∀ lease ∈ state.leases, lease.epoch * 1000000 < 2 ^ 63
  spoken : ∀ envelope ∈ state.sent, ∃ lease ∈ state.leases, lease.epoch = envelope.epoch
  objects : ∀ machineId, (state.runners machineId).From (Names state.sent)
  accepted : ∀ machineId, (state.runners machineId).acceptedEpoch = 0 ∨
    ∃ lease ∈ state.leases, lease.epoch = (state.runners machineId).acceptedEpoch
  replaced : state.replaced ≤ state.leases.length
  begun : fresh ≤ state.database.lease.epoch + 1
  since : ∀ lease ∈ state.recent, fresh ≤ lease.epoch
  newest : ∀ lease, state.recent.getLast? = some lease → lease.epoch = state.database.lease.epoch
  covered : ∀ object, Names state.sent object → object.generation ≤ fresh * 1000000 ∨
    ∃ current, state.database.generations object.objectId = some current ∧ object.generation ≤ current

theorem sane_new : new.Sane 0 where
  written := .free 0
  started := Int.le_refl _
  copies _ member := absurd member not_mem_nil
  epochs _ member := absurd member not_mem_nil
  small _ member := absurd member not_mem_nil
  spoken _ member := absurd member not_mem_nil
  objects _ _ _ _ found := by cases found
  accepted _ := .inl rfl
  replaced := Nat.le_refl _
  begun := by decide
  since _ member := absurd member not_mem_nil
  newest _ last := by cases last
  covered := by
    rintro object ⟨envelope, member, _⟩
    cases member

section
variable {setting : Setting} {state next : Deployment} {fresh : Int}

theorem Sane.accepted_le (sane : state.Sane fresh) (machineId : String) :
    (state.runners machineId).acceptedEpoch ≤ state.database.lease.epoch := by
  obtain zero | ⟨lease, listed, same⟩ := sane.accepted machineId
  · rw [zero]
    exact sane.started
  · rw [← same]
    exact sane.epochs lease listed

theorem Sane.setLease (sane : state.Sane fresh) {row : LeaseRow} (written : row.Written)
    (same : row.epoch = state.database.lease.epoch) :
    Sane { state with database := { state.database with lease := row } } fresh where
  __ := sane
  written := written
  started := by
    rw [same]
    exact sane.started
  epochs lease listed := by
    rw [same]
    exact sane.epochs lease listed
  begun := by
    rw [same]
    exact sane.begun
  newest lease last := by
    rw [same]
    exact sane.newest lease last

theorem Sane.acquire (sane : state.Sane fresh) {row : LeaseRow} {lease : Lease} (written : row.Written)
    (same : row.epoch = lease.epoch) (next : lease.epoch = state.database.lease.epoch + 1)
    (small : lease.epoch * 1000000 < 2 ^ 63) :
    Sane { state with database := { state.database with lease := row }, leases := state.leases ++ [lease] } fresh := by
  have recent : (state.leases ++ [lease]).drop state.replaced = state.recent ++ [lease] :=
    drop_append_of_le_length sane.replaced
  have begun := sane.begun
  have started := sane.started
  constructor
  · exact written
  · change 0 ≤ row.epoch
    omega
  · exact sane.copies
  · intro earlier listed
    change earlier.epoch ≤ row.epoch
    obtain old | new := List.mem_append.mp listed
    · have reached := sane.epochs earlier old
      omega
    · rw [List.mem_singleton.mp new]
      omega
  · intro earlier listed
    obtain old | new := List.mem_append.mp listed
    · exact sane.small earlier old
    · rw [List.mem_singleton.mp new]
      exact small
  · intro envelope sent
    obtain ⟨speaker, listed, spoke⟩ := sane.spoken envelope sent
    exact ⟨speaker, mem_append_left _ listed, spoke⟩
  · exact sane.objects
  · intro machineId
    refine (sane.accepted machineId).imp_right ?_
    rintro ⟨speaker, listed, spoke⟩
    exact ⟨speaker, mem_append_left _ listed, spoke⟩
  · change state.replaced ≤ (state.leases ++ [lease]).length
    have bound := sane.replaced
    simp only [length_append]
    omega
  · change fresh ≤ row.epoch + 1
    omega
  · intro late listed
    change late ∈ (state.leases ++ [lease]).drop state.replaced at listed
    rw [recent] at listed
    obtain old | new := List.mem_append.mp listed
    · exact sane.since late old
    · rw [List.mem_singleton.mp new]
      omega
  · intro late last
    change ((state.leases ++ [lease]).drop state.replaced).getLast? = some late at last
    rw [recent, List.getLast?_concat] at last
    cases last
    exact same.symm
  · exact sane.covered

theorem Sane.lease (sane : state.Sane fresh) {call : LeaseCall} (careful : state.Careful (.lease call))
    (moved : state.step setting (.lease call) = some next) : next.Sane fresh := by
  simp only [step, Option.some.injEq] at moved
  subst moved
  obtain same | ⟨_, _, _, _, rfl, written, same⟩ | ⟨_, _, _, written, _, same⟩ | same :=
    call.perform_cases sane.written
  · rw [same]
    simpa using sane.setLease sane.written rfl
  · rw [same]
    exact sane.acquire (.held written) rfl rfl careful
  · rw [same]
    simpa using sane.setLease (.held written) rfl
  · rw [same]
    simpa using sane.setLease (.free _) rfl

theorem Sane.send (sane : state.Sane fresh) {generations : Generations} {extra : List Envelope}
    (rises : state.database.generations.Rises generations)
    (spoken : ∀ envelope ∈ extra, ∃ lease ∈ state.leases, lease.epoch = envelope.epoch)
    (stored : ∀ object, Names extra object → generations object.objectId = some object.generation) :
    Sane { state with database := { state.database with generations }, sent := state.sent ++ extra } fresh where
  __ := sane
  spoken envelope member := (List.mem_append.mp member).elim (sane.spoken envelope) (spoken envelope)
  objects machineId objectId generation digest found := by
    obtain ⟨envelope, member, named⟩ := sane.objects machineId objectId generation digest found
    exact ⟨envelope, mem_append_left extra member, named⟩
  covered := by
    rintro object ⟨envelope, member, named⟩
    obtain old | new := List.mem_append.mp member
    · refine (sane.covered object ⟨envelope, old, named⟩).imp_right ?_
      rintro ⟨current, found, reached⟩
      obtain ⟨later, left, beyond⟩ := rises object.objectId current found
      exact ⟨later, left, Int.le_trans reached beyond⟩
    · exact .inr ⟨object.generation, stored object ⟨envelope, new, named⟩, Int.le_refl _⟩

theorem Sane.dispatch (sane : state.Sane fresh) {sending : Sending} {order : Order}
    (moved : state.step setting (.dispatch sending order) = some next) : next.Sane fresh := by
  obtain ⟨rises, sends⟩ := order.dispatch_sound setting.codec state.database.generations sending
  simp only [step] at moved
  generalize (order.dispatch setting.codec sending).run.run state.database.generations = ended at moved rises sends
  obtain ⟨result, generations⟩ := ended
  split at moved
  next speaks =>
    cases moved
    obtain ⟨speaker, listed, spoke, _⟩ := speaks
    have sent : ∀ envelope ∈ result.toOption.join.toList, result = .ok (some envelope) := by
      intro envelope member
      exact sent_iff.mp (Option.mem_toList.mp member)
    apply sane.send rises
    · intro envelope member
      obtain ⟨same, _⟩ := sends envelope (sent envelope member)
      exact ⟨speaker, listed, spoke.trans same.symm⟩
    · rintro object ⟨envelope, member, named⟩
      obtain ⟨_, took⟩ := sends envelope (sent envelope member)
      obtain ⟨_, after, _⟩ := nextDispatchGeneration_ok (took object named)
      rw [after, update_self]
  next => cases moved

theorem Sane.deliver (sane : state.Sane fresh) {index : Nat} {machineId : String} {around : Surroundings}
    (moved : state.step setting (.deliver index machineId around) = some next) : next.Sane fresh := by
  simp only [step, bind, Option.bind_eq_some_iff] at moved
  obtain ⟨envelope, found, same⟩ := moved
  cases same
  have member := mem_of_getElem? found
  have draws := (exchange_sound ⟨machineId, setting.maxSkewSeconds⟩ setting.encode (state.runners machineId) around
    envelope).draws
  refine { sane with objects := fun other => ?_, accepted := fun other => ?_ }
  · by_cases touched : other = machineId
    · subst touched
      simp only [update_self]
      exact (sane.objects other).draws draws fun object named => ⟨envelope, member, named⟩
    · simp only [update_of_ne touched]
      exact sane.objects other
  · by_cases touched : other = machineId
    · subst touched
      simp only [update_self]
      obtain same | taken := draws.epoch
      · rw [same]
        exact sane.accepted other
      · obtain ⟨lease, listed, spoke⟩ := sane.spoken envelope member
        exact .inr ⟨lease, listed, spoke.trans taken.symm⟩
    · simp only [update_of_ne touched]
      exact sane.accepted other

theorem Sane.restore (sane : state.Sane fresh) {index : Nat} (careful : state.Careful (.restore index))
    (moved : state.step setting (.restore index) = some next) : ∃ fresh, next.Sane fresh := by
  simp only [step, bind, Option.bind_eq_some_iff] at moved
  obtain ⟨copy, found, same⟩ := moved
  cases same
  obtain ⟨written, started⟩ := sane.copies copy (mem_of_getElem? found)
  obtain ⟨epochs, generations⟩ := careful copy found
  have none : state.leases.drop state.leases.length = [] := drop_length
  refine ⟨copy.lease.epoch + 1, { sane with
    written := written, started := started, epochs := epochs, replaced := Nat.le_refl _, begun := Int.le_refl _
    since := fun late listed => ?_, newest := fun late last => ?_, covered := ?_ }⟩
  · change late ∈ state.leases.drop state.leases.length at listed
    rw [none] at listed
    cases listed
  · change (state.leases.drop state.leases.length).getLast? = some late at last
    rw [none] at last
    cases last
  · rintro object ⟨envelope, member, named⟩
    exact generations envelope member object named

theorem Sane.step (sane : state.Sane fresh) {event : Event} (careful : state.Careful event)
    (moved : state.step setting event = some next) : ∃ fresh, next.Sane fresh := by
  cases event with
  | lease => exact ⟨fresh, sane.lease careful moved⟩
  | dispatch => exact ⟨fresh, sane.dispatch moved⟩
  | deliver => exact ⟨fresh, sane.deliver moved⟩
  | restore => exact sane.restore careful moved
  | snapshot =>
    cases moved
    refine ⟨fresh, { sane with copies := fun copy member => ?_ }⟩
    obtain old | new := List.mem_append.mp member
    · exact sane.copies copy old
    · rw [List.mem_singleton.mp new]
      exact ⟨sane.written, sane.started⟩

theorem Sane.ahead (sane : state.Sane fresh) {lease : Lease} (listed : lease ∈ state.recent) : state.Ahead lease := by
  intro objectId generation rows taken machineId accepted digest found
  obtain ⟨below, _, exceeds⟩ := nextDispatchGeneration_ok taken
  have above := exceeds (sane.small lease (mem_of_mem_drop listed))
  have since := sane.since lease listed
  obtain low | ⟨current, stored, reached⟩ := sane.covered _ (sane.objects machineId objectId accepted digest found)
  · change accepted ≤ fresh * 1000000 at low
    omega
  · exact Int.lt_of_le_of_lt reached (below current stored)

theorem Sane.heeded (sane : state.Sane fresh) {lease : Lease} (last : state.recent.getLast? = some lease) :
    state.Heeded setting lease := by
  intro sending order envelope speaks sent machineId around refusal refused
  have ahead := sane.ahead (mem_of_getLast? last)
  have newest := sane.newest lease last
  have accepted := sane.accepted_le machineId
  obtain ⟨epoch, took⟩ := (order.dispatch_sound setting.codec state.database.generations sending).2 envelope sent
  rw [speaks] at took epoch
  have reason := (exchange_sound _ _ _ _ _).refused refusal refused
  refine ⟨?_, ?_, ?_⟩
  · rintro yours theirs rfl
    obtain ⟨rfl, rfl, older⟩ := reason
    change envelope.epoch < (state.runners machineId).acceptedEpoch at older
    omega
  · rintro objectId yours theirs rfl
    obtain ⟨digest, kept, named, stored, older⟩ := reason
    have newer := ahead objectId yours _ (took _ named) machineId theirs kept stored
    omega
  · rintro objectId generation rfl
    obtain ⟨digest, kept, named, stored, _⟩ := reason
    have newer := ahead objectId generation _ (took _ named) machineId generation kept stored
    omega

/-- In every careful run the holder after a restore has an epoch of its own, is ahead of
what the runners accepted, and is heeded by them. -/
theorem restored_controller_fenced (setting : Setting) (events : List Event) (state : Deployment)
    (ran : exec (step setting) new events = some state) (careful : Obeys (step setting) Careful new events) :
    state.Fenced setting := by
  have kept : ∀ state event next, Careful state event → step setting state event = some next →
      (∃ fresh, state.Sane fresh) → ∃ fresh, next.Sane fresh := by
    intro state event next careful moved known
    obtain ⟨fresh, sane⟩ := known
    exact sane.step careful moved
  obtain ⟨fresh, sane⟩ := invariant kept ran careful ⟨0, sane_new⟩
  refine ⟨?_, fun lease => sane.ahead, fun lease => sane.heeded⟩
  intro now holderId ttl lease row taken earlier listed
  obtain ⟨_, _, _, rfl, _⟩ := acquireLease_ok sane.written taken
  have reached := sane.epochs earlier listed
  exact Int.ne_of_lt (Int.lt_add_one_of_le reached)

end

instance (state : Deployment) : DecidablePred state.Reaches :=
  fun _ => inferInstanceAs (Decidable (_ ∧ _))

instance (state : Deployment) : DecidablePred state.Careful := by
  intro event
  unfold Deployment.Careful
  split <;> infer_instance

def plainSetting : Setting := ⟨plainCodec, 60, plainEncode⟩

def plainHistory : List Event :=
  .lease (.acquire 0 "controller" 1000000000) ::
    plainOrders.map (fun order => .dispatch order.1 order.2) ++
    [.deliver 0 "m1" plainSurroundings, .deliver 1 "m1" plainSurroundings]

def successor : Event := .lease (.acquire 2000000000 "successor" 1000000000)

theorem restored_controller_fenced_at_once :
    ∃ state, exec (step plainSetting) new (plainHistory ++ [.snapshot, .restore 0, successor]) = some state ∧
      state.recent = [⟨"successor", 2, 3000000000⟩] ∧ state.Fenced plainSetting := by
  obtain ⟨state, ran, recent⟩ := Option.map_eq_some_iff.mp (by decide :
    (exec (step plainSetting) new (plainHistory ++ [.snapshot, .restore 0, successor])).map recent =
      some [⟨"successor", 2, 3000000000⟩])
  refine ⟨state, ran, recent, restored_controller_fenced plainSetting _ state ran ?_⟩
  decide

def successorSending : Sending :=
  { plainSending "r3" with lease := ⟨"successor", 1, 3000000000⟩, now := 2000000000 }

def successorSent : Envelope :=
  send successorSending (.stopInstance ⟨"i1", "box"⟩) (some ⟨"i1", 1000001, "sha256-00"⟩)

/-- With a copy from before the first lease, the successor gets the epoch of the controller
before it, dispatches below what the runner accepted and is refused. -/
theorem restore_of_old_copy : (¬ ∀ events state, exec (step plainSetting) new events = some state → state.FreshEpoch) ∧
    (¬ ∀ events state, exec (step plainSetting) new events = some state → ∀ lease ∈ state.recent, state.Ahead lease) ∧
    ¬ ∀ events state, exec (step plainSetting) new events = some state → ∀ lease, state.recent.getLast? = some lease →
      state.Heeded plainSetting lease := by
  refine ⟨fun every => ?_, fun every => ?_, fun every => ?_⟩
  · obtain ⟨state, ran, known⟩ := Option.map_eq_some_iff.mp (by decide :
      (exec (step plainSetting) new (.snapshot :: plainHistory ++ [.restore 0])).map
        (fun state => (state.database.lease, state.leases)) = some (.free, [⟨"controller", 1, 1000000000⟩]))
    obtain ⟨row, leases⟩ := Prod.mk.inj known
    have fresh := every _ state ran 2000000000 "successor" 1000000000
    rw [row, leases] at fresh
    exact fresh ⟨"successor", 1, 3000000000⟩ ⟨some "successor", 1, some "1970-01-01T00:00:03Z".toList⟩ (by decide)
      ⟨"controller", 1, 1000000000⟩ mem_cons_self rfl
  · obtain ⟨state, ran, known⟩ := Option.map_eq_some_iff.mp (by decide :
      (exec (step plainSetting) new (.snapshot :: plainHistory ++ [.restore 0, successor])).map
        (fun state => (state.recent, (nextDispatchGeneration "i1" 1 state.database.generations).toOption.map Prod.fst,
          (state.runners "m1").objectGenerations "i1")) =
        some ([⟨"successor", 1, 3000000000⟩], some 1000001, some (1000002, "sha256-00")))
    obtain ⟨recent, rest⟩ := Prod.mk.inj known
    obtain ⟨taken, accepted⟩ := Prod.mk.inj rest
    have ahead := every _ state ran ⟨"successor", 1, 3000000000⟩ (recent ▸ mem_cons_self) "i1"
    cases took : nextDispatchGeneration "i1" 1 state.database.generations with
    | error =>
      rw [took] at taken
      cases taken
    | ok result =>
      rw [took] at taken
      have newer := ahead result.1 result.2 took "m1" 1000002 "sha256-00" accepted
      rw [Option.some.inj taken] at newer
      exact absurd newer (by decide)
  · obtain ⟨state, ran, known⟩ := Option.map_eq_some_iff.mp (by decide :
      (exec (step plainSetting) new (.snapshot :: plainHistory ++ [.restore 0, successor])).map
        (fun state => (state.recent.getLast?,
          (((Order.change (.stopInstance ⟨"i1", "box"⟩)).dispatch plainCodec successorSending).run.run
            state.database.generations).1,
          (exchange ⟨"m1", 60⟩ plainEncode (state.runners "m1") { plainSurroundings with now := 2000000000 }
            successorSent).result)) =
        some (some ⟨"successor", 1, 3000000000⟩, .ok (some successorSent),
          .ok (.refused (.staleGeneration "i1" 1000001 1000002))))
    obtain ⟨last, rest⟩ := Prod.mk.inj known
    obtain ⟨sent, refused⟩ := Prod.mk.inj rest
    have heeded := every _ state ran _ last successorSending _ successorSent rfl sent "m1" _ _ refused
    exact heeded.2.1 "i1" 1000001 1000002 rfl

end Deployment
end Bento.Bentod
