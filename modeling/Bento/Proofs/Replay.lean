import Bento.Proofs.FenceHistory
import Mathlib.Data.Fintype.Basic

/-! Deliveries of one change. An outcome is recorded when the host has answered, so a
delivery that is admitted before that finds none. In the runs where a change is let
through only while no other delivery of it is under way, the host is asked again only
after every earlier call failed or was dropped, and all answers are the one outcome. -/

namespace Bento.Runner
open Library.Programs Library.Runs Function List

variable {store : FenceStore}

variable {ι : Type} [DecidableEq ι]

def Repeats (first last : Envelope) : Prop :=
  first.op.mutates = true ∧ last.op.mutates = true ∧ first.requestId = last.requestId

instance (first last : Envelope) : Decidable (Repeats first last) :=
  inferInstanceAs (Decidable (_ ∧ _ ∧ _))

theorem Repeats.symm {first last : Envelope} (repeats : Repeats first last) : Repeats last first :=
  ⟨repeats.2.1, repeats.1, repeats.2.2.symm⟩

def underWay (task : Option (Program RunnerCall.Answer (Except HostError Outcome))) : Bool :=
  match task.bind Program.waiting with
  | some (.start _) | some (.answered _) | some (.finish _ _) => true
  | _ => false

def waitsForAdmission (task : Option (Program RunnerCall.Answer (Except HostError Outcome))) : Bool :=
  match task.bind Program.waiting with
  | some (.admission _) => true
  | _ => false

def AdmittedAlone (envelopes : ι → Envelope) (pool : Requests ι) : PoolEvent ι Surroundings → Prop
  | .drop _ => True
  | .step i _ => waitsForAdmission (pool.thread i) → ∀ j, j ≠ i → Repeats (envelopes j) (envelopes i) →
      underWay (pool.thread j) = false

instance [Fintype ι] (envelopes : ι → Envelope) (pool : Requests ι) : DecidablePred (AdmittedAlone envelopes pool)
  | .drop _ => .isTrue trivial
  | .step i _ => inferInstanceAs (Decidable (waitsForAdmission (pool.thread i) → ∀ j, j ≠ i → _))

namespace Phase

def underWay : Phase → Bool
  | .admitted | .calling | .recording _ _ => true
  | _ => false

def begun : Phase → Option Bool
  | .waiting | .admitted | .settled (.ok (.refused _)) | .settled (.ok (.replayed _)) => some false
  | .calling | .recording _ _ | .settled (.ok (.done _)) => some true
  | .settled (.error _) => none

def Lost : Option Phase → Prop
  | none | some (.settled (.error _)) => True
  | _ => False

end Phase

section
variable (encode : Reply → Except HostError String) (envelopes : ι → Envelope) (initial : FenceStore)

/-- At most one delivery of a change is under way, and then no outcome is recorded; what
is recorded is what one delivery was answered. -/
structure Agreed (phases : ι → Option Phase) (store : FenceStore) : Prop where
  alone : ∀ i j first last, i ≠ j → Repeats (envelopes i) (envelopes j) → phases i = some first →
    phases j = some last → first.underWay → last.underWay = false
  fresh : ∀ i phase, (envelopes i).op.mutates = true → phases i = some phase → phase.underWay →
    store.requestOutcomes (envelopes i).requestId = none
  recording : ∀ i reply recorded, phases i = some (.recording reply recorded) →
    (envelopes i).op.mutates = true ∧ encode reply = .ok recorded
  done : ∀ i reply, (envelopes i).op.mutates = true → phases i = some (.settled (.ok (.done reply))) →
    ∃ recorded, encode reply = .ok recorded ∧ store.requestOutcomes (envelopes i).requestId = some recorded
  replayed : ∀ i recorded, phases i = some (.settled (.ok (.replayed recorded))) →
    (envelopes i).op.mutates = true ∧ store.requestOutcomes (envelopes i).requestId = some recorded
  once : ∀ i j first last, Repeats (envelopes i) (envelopes j) → phases i = some (.settled (.ok (.done first))) →
    phases j = some (.settled (.ok (.done last))) → i = j
  source : ∀ requestId recorded, store.requestOutcomes requestId = some recorded →
    initial.requestOutcomes requestId = some recorded ∨
      ∃ i reply, (envelopes i).op.mutates = true ∧ (envelopes i).requestId = requestId ∧
        phases i = some (.settled (.ok (.done reply))) ∧ encode reply = .ok recorded

structure Single (phases : ι → Option Phase) (pool : Requests ι) : Prop where
  tracks : InPhases encode envelopes phases pool
  agreed : Agreed encode envelopes initial phases pool.shared.store
  begun : ∀ i phase, phases i = some phase → ∀ started ∈ phase.begun,
    (i ∈ pool.shared.started.map Prod.fst ↔ started = true)
  again : pool.shared.started.Pairwise fun first last =>
    first.1 ≠ last.1 ∧ (Repeats (envelopes first.1) (envelopes last.1) → Phase.Lost (phases first.1))

variable {encode envelopes initial} {fence : Fence} {phases : ι → Option Phase} {pool next : Requests ι} {i : ι}

omit [DecidableEq ι] in
theorem lost_ne {phase : Phase} {j : ι} (found : phases i = some phase) (unsettled : ∀ result, phase ≠ .settled result)
    (lost : Phase.Lost (phases j)) :
    j ≠ i := by
  rintro rfl
  rw [found] at lost
  cases phase <;> first | exact lost | exact unsettled _ rfl

theorem Agreed.pass {after : FenceStore} (agreed : Agreed encode envelopes initial phases store)
    {phase : Phase} {moved : Option Phase} (found : phases i = some phase)
    (unsettled : ∀ result, phase ≠ .settled result) (outcomes : after.requestOutcomes = store.requestOutcomes)
    (lets : ∀ after, moved = some after → after.underWay → (envelopes i).op.mutates = true → phase.underWay ∨
      store.requestOutcomes (envelopes i).requestId = none ∧
        ∀ j other, j ≠ i → Repeats (envelopes j) (envelopes i) → phases j = some other → other.underWay = false)
    (records : ∀ reply recorded, moved = some (.recording reply recorded) →
      (envelopes i).op.mutates = true ∧ encode reply = .ok recorded)
    (reads : ∀ reply, moved = some (.settled (.ok (.done reply))) → (envelopes i).op.mutates = false)
    (replays : ∀ recorded, moved = some (.settled (.ok (.replayed recorded))) → (envelopes i).op.mutates = true ∧
      store.requestOutcomes (envelopes i).requestId = some recorded) :
    Agreed encode envelopes initial (Function.update phases i moved) after := by
  refine ⟨?_, ?_, ?_, ?_, ?_, ?_, ?_⟩
  · intro j k first last differ repeats firstStands lastStands firstWay
    obtain ⟨rfl, same⟩ | ⟨other, firstHeld⟩ := update_eq_some firstStands
    · obtain ⟨rfl, _⟩ | ⟨_, lastStands⟩ := update_eq_some lastStands
      · exact absurd rfl differ
      · cases lets first same firstWay repeats.1 with
        | inl way => exact agreed.alone j k phase last differ repeats found lastStands way
        | inr free => exact free.2 k last differ.symm repeats.symm lastStands
    · obtain ⟨rfl, same⟩ | ⟨_, lastStands⟩ := update_eq_some lastStands
      · cases lastWay : last.underWay with
        | false => rfl
        | true =>
          cases lets last same lastWay repeats.2.1 with
          | inl way =>
            have idle := agreed.alone j k first phase differ repeats firstHeld found firstWay
            rw [idle] at way
            cases way
          | inr free =>
            have idle := free.2 j first other repeats firstHeld
            rw [idle] at firstWay
            cases firstWay
      · exact agreed.alone j k first last differ repeats firstHeld lastStands firstWay
  · intro j after changes stands way
    rw [outcomes]
    obtain ⟨rfl, same⟩ | ⟨_, stands⟩ := update_eq_some stands
    · cases lets after same way changes with
      | inl before => exact agreed.fresh j phase changes found before
      | inr free => exact free.1
    · exact agreed.fresh j after changes stands way
  · intro j reply recorded stands
    obtain ⟨rfl, same⟩ | ⟨_, stands⟩ := update_eq_some stands
    · exact records reply recorded same
    · exact agreed.recording j reply recorded stands
  · intro j reply changes stands
    rw [outcomes]
    obtain ⟨rfl, same⟩ | ⟨_, stands⟩ := update_eq_some stands
    · rw [reads reply same] at changes
      cases changes
    · exact agreed.done j reply changes stands
  · intro j recorded stands
    rw [outcomes]
    obtain ⟨rfl, same⟩ | ⟨_, stands⟩ := update_eq_some stands
    · exact replays recorded same
    · exact agreed.replayed j recorded stands
  · intro j k first last repeats firstStands lastStands
    obtain ⟨rfl, same⟩ | ⟨_, firstStands⟩ := update_eq_some firstStands
    · have changes := repeats.1
      rw [reads first same] at changes
      cases changes
    · obtain ⟨rfl, same⟩ | ⟨_, lastStands⟩ := update_eq_some lastStands
      · have changes := repeats.2.1
        rw [reads last same] at changes
        cases changes
      · exact agreed.once j k first last repeats firstStands lastStands
  · intro requestId recorded stored
    rw [outcomes] at stored
    cases agreed.source requestId recorded stored with
    | inl before => exact .inl before
    | inr made =>
      obtain ⟨j, reply, changes, same, stands, encoded⟩ := made
      refine .inr ⟨j, reply, changes, same, ?_, encoded⟩
      have other : j ≠ i := by
        rintro rfl
        rw [found] at stands
        exact unsettled _ (Option.some.inj stands)
      rw [update_of_ne other]
      exact stands

theorem Agreed.records (agreed : Agreed encode envelopes initial phases store)
    {reply : Reply} {recorded : String} (found : phases i = some (.recording reply recorded)) :
    Agreed encode envelopes initial (Function.update phases i (some (.settled (.ok (.done reply)))))
      (store.recordOutcome (envelopes i).requestId recorded) := by
  obtain ⟨changes, encoded⟩ := agreed.recording i reply recorded found
  have unrecorded := agreed.fresh i _ changes found rfl
  have written : (store.recordOutcome (envelopes i).requestId recorded).requestOutcomes (envelopes i).requestId =
      some recorded := by simp [FenceStore.recordOutcome]
  have elsewhere : ∀ requestId, requestId ≠ (envelopes i).requestId →
      (store.recordOutcome (envelopes i).requestId recorded).requestOutcomes requestId =
        store.requestOutcomes requestId := by
    intro requestId other
    simp [FenceStore.recordOutcome, other]
  -- A delivery under the same id that is under way or has an outcome contradicts the fresh one.
  have apart : ∀ j phase, j ≠ i → (envelopes j).op.mutates = true → phases j = some phase → phase.underWay →
      (envelopes j).requestId ≠ (envelopes i).requestId := by
    intro j phase other otherChanges stands way same
    have idle := agreed.alone j i phase _ other ⟨otherChanges, changes, same⟩ stands found way
    cases idle
  have unanswered : ∀ requestId kept, store.requestOutcomes requestId = some kept →
      requestId ≠ (envelopes i).requestId := by
    rintro requestId kept stored rfl
    rw [unrecorded] at stored
    cases stored
  refine ⟨?_, ?_, ?_, ?_, ?_, ?_, ?_⟩
  · intro j k first last differ repeats firstStands lastStands way
    obtain ⟨rfl, same⟩ | ⟨_, firstHeld⟩ := update_eq_some firstStands
    · cases same
      cases way
    · obtain ⟨rfl, same⟩ | ⟨_, lastHeld⟩ := update_eq_some lastStands
      · cases same
        rfl
      · exact agreed.alone j k first last differ repeats firstHeld lastHeld way
  · intro j phase otherChanges stands way
    obtain ⟨rfl, same⟩ | ⟨other, held⟩ := update_eq_some stands
    · cases same
      cases way
    · rw [elsewhere _ (apart j phase other otherChanges held way)]
      exact agreed.fresh j phase otherChanges held way
  · intro j other kept stands
    obtain ⟨rfl, same⟩ | ⟨_, held⟩ := update_eq_some stands
    · cases same
    · exact agreed.recording j other kept held
  · intro j answer otherChanges stands
    obtain ⟨rfl, same⟩ | ⟨_, held⟩ := update_eq_some stands
    · cases same
      exact ⟨recorded, encoded, written⟩
    · obtain ⟨kept, answered, stored⟩ := agreed.done j answer otherChanges held
      exact ⟨kept, answered, by rw [elsewhere _ (unanswered _ _ stored), stored]⟩
  · intro j kept stands
    obtain ⟨rfl, same⟩ | ⟨_, held⟩ := update_eq_some stands
    · cases same
    · obtain ⟨otherChanges, stored⟩ := agreed.replayed j kept held
      exact ⟨otherChanges, by rw [elsewhere _ (unanswered _ _ stored), stored]⟩
  · intro j k first last repeats firstStands lastStands
    obtain ⟨rfl, _⟩ | ⟨_, firstHeld⟩ := update_eq_some firstStands
    · obtain ⟨rfl, _⟩ | ⟨_, lastHeld⟩ := update_eq_some lastStands
      · rfl
      · obtain ⟨kept, _, stored⟩ := agreed.done k last repeats.2.1 lastHeld
        exact absurd repeats.2.2.symm (unanswered _ _ stored)
    · obtain ⟨rfl, _⟩ | ⟨_, lastHeld⟩ := update_eq_some lastStands
      · obtain ⟨kept, _, stored⟩ := agreed.done j first repeats.1 firstHeld
        exact absurd repeats.2.2 (unanswered _ _ stored)
      · exact agreed.once j k first last repeats firstHeld lastHeld
  · intro requestId kept stored
    by_cases same : requestId = (envelopes i).requestId
    · subst same
      rw [written] at stored
      cases stored
      exact .inr ⟨i, reply, changes, rfl, update_self .., encoded⟩
    · rw [elsewhere _ same] at stored
      cases agreed.source requestId kept stored with
      | inl before => exact .inl before
      | inr made =>
        obtain ⟨j, answer, otherChanges, id, held, answered⟩ := made
        refine .inr ⟨j, answer, otherChanges, id, ?_, answered⟩
        have other : j ≠ i := by
          rintro rfl
          rw [found] at held
          cases held
        rw [update_of_ne other]
        exact held

omit [DecidableEq ι] in
theorem Single.lost_before (single : Single encode envelopes initial phases pool)
    (found : phases i = some .admitted) {call : ι × Operation} (member : call ∈ pool.shared.started)
    (repeats : Repeats (envelopes call.1) (envelopes i)) : Phase.Lost (phases call.1) := by
  have listed : call.1 ∈ pool.shared.started.map Prod.fst := mem_map_of_mem member
  have unrecorded := single.agreed.fresh i .admitted repeats.2.1 found rfl
  have other : call.1 ≠ i := by
    intro same
    rw [same] at listed
    exact absurd ((single.begun i .admitted found false rfl).mp listed) (by decide)
  have begun : ∀ phase, phases call.1 = some phase → phase.begun ≠ some false := by
    intro phase stands none
    exact absurd ((single.begun call.1 phase stands false none).mp listed) (by decide)
  have apart : ∀ phase, phases call.1 = some phase → phase.underWay = false := by
    intro phase stands
    exact single.agreed.alone i call.1 .admitted phase other.symm repeats.symm found stands rfl
  cases stands : phases call.1 with
  | none => trivial
  | some phase =>
    cases phase with
    | waiting | admitted => exact absurd rfl (begun _ stands)
    | calling => exact absurd (apart _ stands) (by decide)
    | recording => exact absurd (apart _ stands) (by simp [Phase.underWay])
    | settled result =>
      cases result with
      | error => trivial
      | ok outcome =>
        cases outcome with
        | done reply =>
          obtain ⟨recorded, _, stored⟩ := single.agreed.done call.1 reply repeats.1 stands
          rw [repeats.2.2, unrecorded] at stored
          cases stored
        | replayed | refused => exact absurd rfl (begun _ stands)

theorem Single.pass (single : Single encode envelopes initial phases pool) {phase : Phase}
    {moved : Option Phase} (found : phases i = some phase) (unsettled : ∀ result, phase ≠ .settled result)
    (tracks : InPhases encode envelopes (Function.update phases i moved) next)
    (started : next.shared.started = pool.shared.started)
    (begins : ∀ after, moved = some after → ∀ begun ∈ after.begun, phase.begun = some begun)
    (agreed : Agreed encode envelopes initial (Function.update phases i moved) next.shared.store) :
    Single encode envelopes initial (Function.update phases i moved) next := by
  refine ⟨tracks, agreed, ?_, ?_⟩
  · intro j after stands begun member
    rw [started]
    obtain ⟨rfl, same⟩ | ⟨_, held⟩ := update_eq_some stands
    · exact single.begun j phase found begun (begins after same begun member)
    · exact single.begun j after held begun member
  · rw [started]
    refine single.again.imp fun {first last} known => ⟨known.1, fun repeats => ?_⟩
    rw [update_of_ne (lost_ne found unsettled (known.2 repeats))]
    exact known.2 repeats

theorem Single.starts (single : Single encode envelopes initial phases pool) (found : phases i = some .admitted)
    (tracks : InPhases encode envelopes (Function.update phases i (some .calling)) next)
    (shared : next.shared = { pool.shared with started := pool.shared.started ++ [(i, (envelopes i).op)] }) :
    Single encode envelopes initial (Function.update phases i (some .calling)) next := by
  refine ⟨tracks, ?_, ?_, ?_⟩
  · rw [shared]
    exact single.agreed.pass found nofun rfl (fun _ _ _ _ => .inl rfl) nofun nofun nofun
  · intro j phase stands begun member
    rw [shared, map_append, mem_append]
    obtain ⟨rfl, same⟩ | ⟨other, held⟩ := update_eq_some stands
    · cases same
      cases member
      simp
    · rw [← single.begun j phase held begun member]
      simp [other]
  · have absent : ∀ call ∈ pool.shared.started, call.1 ≠ i := by
      intro call member same
      have listed : call.1 ∈ pool.shared.started.map Prod.fst := mem_map_of_mem member
      rw [same] at listed
      exact absurd ((single.begun i .admitted found false rfl).mp listed) (by decide)
    rw [shared]
    refine List.pairwise_append.mpr ⟨?_, pairwise_singleton _ _, ?_⟩
    · refine single.again.imp_of_mem fun {first last} member _ known => ⟨known.1, fun repeats => ?_⟩
      rw [update_of_ne (absent first member)]
      exact known.2 repeats
    · intro call before last member
      cases List.mem_singleton.mp member
      refine ⟨absent call before, fun repeats => ?_⟩
      rw [update_of_ne (absent call before)]
      exact single.lost_before found before repeats

theorem Single.admits (single : Single encode envelopes initial phases pool) {around : Surroundings}
    {admission : Except FenceError Admission} (found : phases i = some .waiting)
    (admitted : AdmittedAlone envelopes pool (.step i around))
    (tracks : InPhases encode envelopes (Function.update phases i (some (.ofAdmission admission))) next)
    (shared : next.shared = { pool.shared with store })
    (admits : fence.Admits around.now (envelopes i) (envelopes i).op.mutates pool.shared.store admission store) :
    Single encode envelopes initial (Function.update phases i (some (.ofAdmission admission))) next := by
  have waits : waitsForAdmission (pool.thread i) := by
    rw [single.tracks i, found]
    rfl
  have apart : ∀ j other, j ≠ i → Repeats (envelopes j) (envelopes i) → phases j = some other →
      other.underWay = false := by
    intro j other differ repeats held
    have idle := admitted waits j differ repeats
    rw [single.tracks j, held] at idle
    cases other with
    | admitted => cases idle
    | calling => cases idle
    | recording => cases idle
    | waiting => rfl
    | settled => rfl
  refine single.pass found nofun tracks (by rw [shared]) ?_ ?_
  · intro phase same begun member
    cases same
    cases admission with
    | error => cases member
    | ok admission => cases admission <;> exact member
  · rw [shared]
    have outcomes := admits.outcomes
    refine single.agreed.pass found nofun outcomes ?_ ?_ ?_ ?_
    · intro phase same way changes
      cases same
      refine .inr ⟨?_, apart⟩
      cases admits with
      | failed => cases way
      | refused => cases way
      | replayed => cases way
      | halfway => cases way
      | read reads =>
        rw [reads] at changes
        cases changes
      | changed _ admissible => exact admissible.unrecorded
    · intro reply recorded same
      cases admits <;> cases same
    · intro reply same
      cases admits <;> cases same
    · intro recorded same
      cases admits with
      | replayed changes stored =>
        cases same
        exact ⟨changes, stored⟩
      | failed => cases same
      | refused => cases same
      | read => cases same
      | halfway => cases same
      | changed => cases same

theorem Single.step {event : PoolEvent ι Surroundings} (single : Single encode envelopes initial phases pool)
    (admitted : AdmittedAlone envelopes pool event) (moved : fence.requestStep pool event = some next) :
    ∃ phases, Single encode envelopes initial phases next := by
  obtain ⟨i, around, phase, nextPhase, rfl, found, serves, tracks⟩ | ⟨i, phase, rfl, found, unsettled, same, tracks⟩ :=
    Fence.requestStep_cases single.tracks moved
  · refine ⟨Function.update phases i (some nextPhase), ?_⟩
    generalize after : next.shared = shared at serves
    cases serves with
    | admits admits => exact single.admits found admitted tracks after admits
    | starts => exact single.starts found tracks after
    | breaks begun =>
      have unsettled : ∀ result, phase ≠ .settled result := by
        obtain rfl | ⟨reply, recorded, rfl⟩ := begun
        · exact nofun
        · exact nofun
      refine single.pass found unsettled tracks (by rw [after]) ?_ ?_
      · intro _ same begun member
        cases same
        cases member
      · rw [after]
        exact single.agreed.pass found unsettled rfl (fun _ same way => by cases same; cases way) nofun nofun nofun
    | reads reads =>
      refine single.pass found nofun tracks (by rw [after]) ?_ ?_
      · intro _ same begun member
        cases same
        exact member
      · rw [after]
        exact single.agreed.pass found nofun rfl (fun _ _ _ _ => .inl rfl) nofun (fun _ _ => reads) nofun
    | answers changes encoded =>
      refine single.pass found nofun tracks (by rw [after]) ?_ ?_
      · intro _ same begun member
        cases same
        exact member
      · rw [after]
        refine single.agreed.pass found nofun rfl (fun _ _ _ _ => .inl rfl) ?_ nofun nofun
        intro reply recorded same
        cases same
        exact ⟨changes, encoded⟩
    | records =>
      refine single.pass found nofun tracks (by rw [after]) ?_ ?_
      · intro _ same begun member
        cases same
        exact member
      · rw [after]
        exact single.agreed.records found
  · refine ⟨_, single.pass found unsettled tracks (by rw [same]) nofun ?_⟩
    rw [same]
    exact single.agreed.pass found unsettled rfl nofun nofun nofun nofun

omit [DecidableEq ι] in
theorem single_start : Single encode envelopes initial (fun _ => some .waiting)
    (deliveries encode envelopes initial) := by
  refine ⟨deliveries_inPhases initial, ⟨?_, ?_, nofun, nofun, nofun, nofun, fun _ _ => .inl⟩, ?_, List.Pairwise.nil⟩
  · intro i j first last _ _ stands _ way
    cases stands
    cases way
  · intro i phase _ stands way
    cases stands
    cases way
  · intro i phase stands begun member
    cases stands
    cases member
    exact ⟨nofun, nofun⟩

end

def Answered (pool : Requests ι) (i : ι) (outcome : Outcome) : Prop :=
  pool.thread i = some (.pure (.ok outcome))

def Failed (pool : Requests ι) (i : ι) : Prop :=
  pool.thread i = none ∨ ∃ error, pool.thread i = some (.pure (.error error))

def SameOutcome (encode : Reply → Except HostError String) : Outcome → Outcome → Prop
  | .done first, .done last => first = last
  | .done reply, .replayed recorded | .replayed recorded, .done reply => encode reply = .ok recorded
  | .replayed first, .replayed last => first = last
  | .refused _, _ | _, .refused _ => True

structure PerformedOnce (encode : Reply → Except HostError String) (envelopes : ι → Envelope) (initial : FenceStore)
    (pool : Requests ι) : Prop where
  again : pool.shared.started.Pairwise fun first last =>
    first.1 ≠ last.1 ∧ (Repeats (envelopes first.1) (envelopes last.1) → Failed pool first.1)
  fresh : ∀ i, (envelopes i).op.mutates = true → underWay (pool.thread i) →
    pool.shared.store.requestOutcomes (envelopes i).requestId = none
  same : ∀ i j, Repeats (envelopes i) (envelopes j) → ∀ first last, Answered pool i first → Answered pool j last →
    SameOutcome encode first last
  source : ∀ i recorded, Answered pool i (.replayed recorded) →
    initial.requestOutcomes (envelopes i).requestId = some recorded ∨
      ∃ j reply, Repeats (envelopes i) (envelopes j) ∧ j ∈ pool.shared.started.map Prod.fst ∧
        Answered pool j (.done reply) ∧ encode reply = .ok recorded

section
variable {encode : Reply → Except HostError String} {envelopes : ι → Envelope} {initial : FenceStore}
  {phases : ι → Option Phase} {pool : Requests ι}

omit [DecidableEq ι] in
theorem InPhases.answered (tracks : InPhases encode envelopes phases pool) {i : ι} {outcome : Outcome}
    (answered : Answered pool i outcome) : phases i = some (.settled (.ok outcome)) := by
  have task := tracks i
  rw [answered] at task
  obtain ⟨phase, found, same⟩ := Option.map_eq_some_iff.mp task.symm
  rw [found, serveRest_settled same.symm]

omit [DecidableEq ι] in
theorem InPhases.failed (tracks : InPhases encode envelopes phases pool) {i : ι} (lost : Phase.Lost (phases i)) :
    Failed pool i := by
  have task := tracks i
  cases found : phases i with
  | none =>
    rw [found] at task
    exact .inl task
  | some phase =>
    rw [found] at task lost
    cases phase with
    | settled result =>
      cases result with
      | error error => exact .inr ⟨error, task⟩
      | ok => exact lost.elim
    | waiting | admitted | calling | recording => exact lost.elim

omit [DecidableEq ι] in
theorem Single.same (single : Single encode envelopes initial phases pool) {i j : ι}
    (repeats : Repeats (envelopes i) (envelopes j)) {first last : Outcome} (firstAnswered : Answered pool i first)
    (lastAnswered : Answered pool j last) : SameOutcome encode first last := by
  have firstHeld := single.tracks.answered firstAnswered
  have lastHeld := single.tracks.answered lastAnswered
  cases first with
  | refused => cases last <;> trivial
  | done reply =>
    obtain ⟨recorded, encoded, stored⟩ := single.agreed.done i reply repeats.1 firstHeld
    cases last with
    | refused => trivial
    | done other =>
      obtain rfl := single.agreed.once i j reply other repeats firstHeld lastHeld
      rw [firstHeld] at lastHeld
      cases lastHeld
      rfl
    | replayed other =>
      have kept := (single.agreed.replayed j other lastHeld).2
      rw [← repeats.2.2, stored] at kept
      cases kept
      exact encoded
  | replayed recorded =>
    have stored := (single.agreed.replayed i recorded firstHeld).2
    cases last with
    | refused => trivial
    | done reply =>
      obtain ⟨kept, encoded, found⟩ := single.agreed.done j reply repeats.2.1 lastHeld
      rw [← repeats.2.2, stored] at found
      cases found
      exact encoded
    | replayed other =>
      have kept := (single.agreed.replayed j other lastHeld).2
      rw [← repeats.2.2, stored] at kept
      cases kept
      rfl

end

/-- In every run where no change is admitted while another delivery of it is under way,
the host performs it once. -/
theorem deliveries_performed_once (fence : Fence) (encode : Reply → Except HostError String)
    (envelopes : ι → Envelope) (store : FenceStore) (events : List (PoolEvent ι Surroundings)) (pool : Requests ι)
    (ran : exec fence.requestStep (deliveries encode envelopes store) events = some pool)
    (obeyed : Obeys fence.requestStep (AdmittedAlone envelopes) (deliveries encode envelopes store) events) :
    PerformedOnce encode envelopes store pool := by
  have kept : ∀ pool event next, AdmittedAlone envelopes pool event → fence.requestStep pool event = some next →
      (∃ phases, Single encode envelopes store phases pool) → ∃ phases, Single encode envelopes store phases next := by
    intro pool event next admitted moved known
    obtain ⟨phases, single⟩ := known
    exact single.step admitted moved
  obtain ⟨phases, single⟩ := invariant kept ran obeyed ⟨_, single_start⟩
  refine ⟨?_, ?_, fun i j repeats first last => single.same repeats, ?_⟩
  · exact single.again.imp fun {first last} known => ⟨known.1, fun repeats => single.tracks.failed (known.2 repeats)⟩
  · intro i changes way
    have task := single.tracks i
    cases found : phases i with
    | none =>
      rw [task, found] at way
      cases way
    | some phase =>
      refine single.agreed.fresh i phase changes found ?_
      rw [task, found] at way
      cases phase with
      | admitted => rfl
      | calling => rfl
      | recording => rfl
      | waiting => cases way
      | settled => cases way
  · intro i recorded answered
    obtain ⟨changes, stored⟩ := single.agreed.replayed i recorded (single.tracks.answered answered)
    cases single.agreed.source _ recorded stored with
    | inl before => exact .inl before
    | inr made =>
      obtain ⟨j, reply, otherChanges, same, held, encoded⟩ := made
      refine .inr ⟨j, reply, ⟨changes, otherChanges, same.symm⟩, ?_, ?_, encoded⟩
      · exact (single.begun j _ held true rfl).mpr rfl
      · rw [Answered, single.tracks j, held]
        rfl

theorem deliveries_performed_once_on_retry : ∃ pool, exec (Fence.requestStep ⟨"m1", 60⟩)
        (deliveries plainEncode (fun _ : Bool => plainChange "r1" 1 ⟨"i1", 1, "a"⟩) .empty)
        [.step false plainSurroundings, .step false plainSurroundings, .step false plainSurroundings,
         .step false plainSurroundings, .step true plainSurroundings] = some pool ∧
      pool.shared.started.map Prod.fst = [false] ∧ underWay (pool.thread true) = false ∧
      PerformedOnce plainEncode (fun _ : Bool => plainChange "r1" 1 ⟨"i1", 1, "a"⟩) .empty pool := by
  obtain ⟨pool, ran, seen⟩ := Option.map_eq_some_iff.mp (by decide :
    (exec (Fence.requestStep ⟨"m1", 60⟩)
        (deliveries plainEncode (fun _ : Bool => plainChange "r1" 1 ⟨"i1", 1, "a"⟩) .empty)
        [.step false plainSurroundings, .step false plainSurroundings, .step false plainSurroundings,
         .step false plainSurroundings, .step true plainSurroundings]).map
      (fun pool => (pool.shared.started.map Prod.fst, underWay (pool.thread true))) = some ([false], false))
  refine ⟨pool, ran, (Prod.mk.inj seen).1, (Prod.mk.inj seen).2, deliveries_performed_once _ _ _ _ _ pool ran ?_⟩
  decide

def busySurroundings : Surroundings :=
  { plainSurroundings with host := { plainHost with start := fun _ => .error "busy" } }

/-- A change whose host call failed has no outcome, so its retry asks the host again; and
a read asks the host every time. -/
theorem deliveries_performed_again : (¬ ∀ events pool, exec (Fence.requestStep ⟨"m1", 60⟩)
        (deliveries plainEncode (fun _ : Bool => plainChange "r1" 1 ⟨"i1", 1, "a"⟩) .empty) events = some pool →
      pool.shared.started.length ≤ 1) ∧ (¬ ∀ events pool, exec (Fence.requestStep ⟨"m1", 60⟩)
        (deliveries plainEncode (fun _ : Bool => plainEnvelope "r1" none .health) .empty) events = some pool →
      pool.shared.started.length ≤ 1) := by
  constructor
  · intro every
    obtain ⟨pool, ran, twice⟩ := Option.map_eq_some_iff.mp (by decide :
      (exec (Fence.requestStep ⟨"m1", 60⟩)
          (deliveries plainEncode (fun _ : Bool => plainChange "r1" 1 ⟨"i1", 1, "a"⟩) .empty)
          [.step false plainSurroundings, .step false plainSurroundings, .step false busySurroundings,
           .step true plainSurroundings, .step true plainSurroundings]).map
        (fun pool => pool.shared.started.length) = some 2)
    exact absurd (every _ pool ran) (by rw [twice]; decide)
  · intro every
    obtain ⟨pool, ran, twice⟩ := Option.map_eq_some_iff.mp (by decide :
      (exec (Fence.requestStep ⟨"m1", 60⟩)
          (deliveries plainEncode (fun _ : Bool => plainEnvelope "r1" none .health) .empty)
          [.step false plainSurroundings, .step false plainSurroundings, .step false plainSurroundings,
           .step true plainSurroundings, .step true plainSurroundings]).map
        (fun pool => pool.shared.started.length) = some 2)
    exact absurd (every _ pool ran) (by rw [twice]; decide)

end Bento.Runner
