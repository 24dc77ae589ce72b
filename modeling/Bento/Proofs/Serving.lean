import Bento.Proofs.Admission
import Bento.Runner.Concurrent

/-! What serving one request can do, call by call, in the manner of an admission:
phases name where in `serveOne` a request stands, and `Serves` says once what its next
call leads to. -/

namespace Bento.Runner
open Library.Programs

inductive Phase where
  | waiting
  | admitted
  | calling
  | recording (reply : Reply) (recorded : String)
  | settled (result : Except HostError Outcome)

variable {ι : Type} (fence : Fence) (encode : Reply → Except HostError String) (envelope : Envelope)

def afterReply (reply : Reply) : ServeM Outcome := do
  if envelope.op.mutates then
    let recorded ← ExceptT.mk (.pure (encode reply))
    finish envelope.requestId recorded
  return .done reply

def serveRest : Phase → ServeM Outcome
  | .waiting => serveOne encode envelope
  | .admitted => do
    let reply ← hostCall envelope.op
    afterReply encode envelope reply
  | .calling => do
    let reply ← ExceptT.mk (.request (.answered envelope.op) .pure)
    afterReply encode envelope reply
  | .recording reply recorded => do
    finish envelope.requestId recorded
    return .done reply
  | .settled result => ExceptT.mk (.pure result)

def Phase.ofAdmission : Except FenceError Admission → Phase
  | .error error => .settled (.error error.toString)
  | .ok (.refused refusal) => .settled (.ok (.refused refusal))
  | .ok (.alreadyDone recorded) => .settled (.ok (.replayed recorded))
  | .ok .allowed => .admitted

inductive Serves (i : ι) (around : Surroundings) (state : RunnerState ι) : Phase → Phase → RunnerState ι → Prop
  | admits {admission : Except FenceError Admission} {store : FenceStore}
      (admits : fence.Admits around.now envelope envelope.op.mutates state.store admission store) :
      Serves i around state .waiting (.ofAdmission admission) { state with store }
  | starts : Serves i around state .admitted .calling { state with started := state.started ++ [(i, envelope.op)] }
  | breaks {phase : Phase} (begun : phase = .calling ∨ ∃ reply recorded, phase = .recording reply recorded)
      (error : HostError) : Serves i around state phase (.settled (.error error)) state
  | reads {reply : Reply} (reads : envelope.op.mutates = false) :
      Serves i around state .calling (.settled (.ok (.done reply))) state
  | answers {reply : Reply} {recorded : String} (changes : envelope.op.mutates = true)
      (encoded : encode reply = .ok recorded) : Serves i around state .calling (.recording reply recorded) state
  | records {reply : Reply} {recorded : String} : Serves i around state (.recording reply recorded)
      (.settled (.ok (.done reply))) { state with store := state.store.recordOutcome envelope.requestId recorded }

variable {fence encode envelope}

theorem finish_execute (faults : Faults) (requestId recorded : String) (store : FenceStore) :
    Program.execute (serveStore faults) (Fence.finish requestId recorded) store =
      serveStore faults (.recordOutcome requestId recorded) store := rfl

theorem afterReply_serves {i : ι} {around : Surroundings} {state : RunnerState ι} (reply : Reply) :
    ∃ next, afterReply encode envelope reply = serveRest encode envelope next ∧
      Serves fence encode envelope i around state .calling next state := by
  unfold afterReply
  cases changes : envelope.op.mutates with
  | false => exact ⟨.settled (.ok (.done reply)), rfl, .reads changes⟩
  | true =>
    cases encoded : encode reply with
    | error error => exact ⟨.settled (.error error), rfl, .breaks (.inl rfl) error⟩
    | ok recorded => exact ⟨.recording reply recorded, rfl, .answers changes encoded⟩

theorem serveRest_serves {i : ι} {around : Surroundings} {state after : RunnerState ι} {phase : Phase}
    {program : ServeM Outcome}
    (moved : Program.resume (fence.serve i around) (serveRest encode envelope phase) state = some (program, after)) :
    ∃ next, program = serveRest encode envelope next ∧
      Serves fence encode envelope i around state phase next after := by
  cases phase with
  | waiting =>
    have admits := fence.admitAs_admits around.now envelope envelope.op.mutates around.faults state.store
    cases moved
    refine ⟨.ofAdmission _, ?_, .admits admits⟩
    simp only [Fence.serve, Fence.admitRequest]
    generalize (Program.execute (serveStore around.faults) (fence.admitAs around.now envelope envelope.op.mutates)
      state.store).1 = admission
    cases admission with
    | error => rfl
    | ok admission => cases admission <;> rfl
  | admitted =>
    cases moved
    exact ⟨.calling, rfl, .starts⟩
  | calling =>
    cases moved
    simp only [Fence.serve]
    cases around.host.perform envelope.op with
    | error error => exact ⟨.settled (.error error), rfl, .breaks (.inl rfl) error⟩
    | ok reply => exact afterReply_serves reply
  | recording reply recorded =>
    cases moved
    simp only [Fence.serve]
    obtain ⟨error, served⟩ | served :=
      serveStore_cases around.faults (.recordOutcome envelope.requestId recorded) state.store
    · rw [finish_execute, served]
      exact ⟨.settled (.error error.toString), rfl, .breaks (.inr ⟨reply, recorded, rfl⟩) _⟩
    · rw [finish_execute, served]
      exact ⟨.settled (.ok (.done reply)), rfl, .records⟩
  | settled => cases moved

theorem serveRest_settled {phase : Phase} {result : Except HostError Outcome}
    (done : ExceptT.mk (.pure result) = serveRest encode envelope phase) : phase = .settled result := by
  cases phase with
  | waiting => cases done
  | admitted => cases done
  | calling => cases done
  | recording => cases done
  | settled => cases done; rfl

section
variable [DecidableEq ι] {envelopes : ι → Envelope} {phases : ι → Option Phase} {pool next : Requests ι}

abbrev InPhases (encode : Reply → Except HostError String) (envelopes : ι → Envelope) (phases : ι → Option Phase)
    (pool : Requests ι) : Prop :=
  pool.Tracks (fun i => serveRest encode (envelopes i)) phases

theorem Fence.requestStep_cases {event : PoolEvent ι Surroundings} (tracks : InPhases encode envelopes phases pool)
    (moved : fence.requestStep pool event = some next) :
    (∃ i around phase nextPhase, event = .step i around ∧ phases i = some phase ∧
      Serves fence encode (envelopes i) i around pool.shared phase nextPhase next.shared ∧
      InPhases encode envelopes (Function.update phases i (some nextPhase)) next) ∨
    (∃ i phase, event = .drop i ∧ phases i = some phase ∧ (∀ result, phase ≠ .settled result) ∧
      next.shared = pool.shared ∧ InPhases encode envelopes (Function.update phases i none) next) := by
  obtain ⟨i, around, phase, program, shared, rfl, found, resumed, rfl⟩ |
    ⟨i, phase, call, left, rfl, found, waits, rfl⟩ :=
    tracks.step_cases moved
  · obtain ⟨nextPhase, rfl, serves⟩ := serveRest_serves resumed
    exact .inl ⟨i, around, phase, nextPhase, rfl, found, serves, tracks.set i shared (some nextPhase)⟩
  · refine .inr ⟨i, phase, rfl, found, ?_, rfl, tracks.set i pool.shared none⟩
    intro result same
    subst same
    cases waits

omit [DecidableEq ι] in
theorem deliveries_inPhases (store : FenceStore) :
    InPhases encode envelopes (fun _ => some .waiting) (deliveries encode envelopes store) :=
  fun _ => rfl

end

end Bento.Runner
