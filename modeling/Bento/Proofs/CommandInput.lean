import Bento.Bentod.CliRunner
import Bento.Library.Runs
import Mathlib.Data.List.Basic

/-! How much of a client's input waits for the interpreter of the command line. The pipe has
a bound, but the queue behind it has none, and neither has what comes before the request, so
a client that goes on sending is never held up. -/

namespace Bento.Bentod
open Library.Runs Sshfront List

/-- The first pump has handed on what it took, and may take more. -/
structure CliInput.Idle (input : CliInput) : Prop where
  written : input.pump.writing = []
  sent : input.pump.sending = none
  room : input.pump.pipe.length < pipeSize

/-- The second pump makes room for whatever the first one has still to write, and nothing of
it reaches the interpreter. -/
theorem CliInput.writes_out (input : CliInput) (sent : input.pump.sending = none)
    (room : input.pump.pipe.length < pipeSize) :
    ∃ events next, exec CliSession.step (.running input) events = some (.running next) ∧ next.Idle ∧
      next.pending = input.pending ∧ next.pump.inbox = input.pump.inbox ∧ next.held = input.held := by
  induction left : input.pump.writing.length using Nat.strongRecOn generalizing input with
  | ind size ih =>
    obtain ⟨pending, ⟨inbox, writing, sending, pipe, windows, moved⟩, queue, reader, read⟩ := input
    dsimp only at sent room left
    subst sent left
    cases writing with
    | nil => exact ⟨[], _, rfl, ⟨rfl, rfl, room⟩, rfl, rfl, rfl⟩
    | cons byte writing =>
      have space : pipeSize - pipe.length ≠ 0 := by omega
      obtain ⟨rest, same⟩ : ∃ rest, pipeSize - pipe.length = rest + 1 := Nat.exists_eq_succ_of_ne_zero space
      let after := pipe ++ byte :: writing.take rest
      have long : 1 ≤ after.length ∧ after.length ≤ pipeSize := by
        simp only [after, length_append, length_cons, length_take]
        omega
      let next : CliInput := ⟨pending, ⟨inbox, writing.drop rest, none, after.drop 1, windows, moved ++ after.take 1⟩,
        queue ++ [after.take 1], reader, read⟩
      have wrote : CliSession.step
        (.running ⟨pending, ⟨inbox, byte :: writing, none, pipe, windows, moved⟩, queue, reader, read⟩) .pump =
          some (.running ⟨pending, ⟨inbox, writing.drop rest, none, after, windows, moved⟩, queue, reader, read⟩) := by
        simp [CliSession.step, CliInput.turn, Pump.turn, same, after]
      have forwarded : CliSession.step
        (.running ⟨pending, ⟨inbox, writing.drop rest, none, after, windows, moved⟩, queue, reader, read⟩)
          (.forward 1) = some (.running next) := by
        simp [CliSession.step, CliInput.forward, Pump.step, Path.chunk, readSize, long.1, next]
      obtain ⟨events, final, ran, idle, kept, unread, held⟩ := ih (writing.drop rest).length
        (by simp only [length_drop, length_cons]; omega) next rfl (by simp only [next, length_drop]; omega) rfl
      refine ⟨.pump :: .forward 1 :: events, final, ?_, idle, kept, unread, held.trans ?_⟩
      · exact exec_cons.mpr ⟨_, wrote, exec_cons.mpr ⟨_, forwarded, ran⟩⟩
      · simp only [CliInput.held, next, after, flatten_append, flatten_singleton, length_append, length_cons,
          length_take, length_drop]
        omega

theorem CliInput.takes_pending (input : CliInput) (idle : input.Idle) :
    ∃ events next, exec CliSession.step (.running input) events = some (.running next) ∧ next.Idle ∧
      next.pending = [] ∧ next.pump.inbox = input.pump.inbox ∧ next.held = input.held := by
  induction queued : input.pending generalizing input with
  | nil => exact ⟨[], input, rfl, idle, queued, rfl, rfl⟩
  | cons bytes pending ih =>
    have took : CliSession.step (.running input) .pump =
        some (.running { input with pending, pump := { input.pump with writing := bytes } }) := by
      simp [CliSession.step, CliInput.turn, idle.written, idle.sent, queued]
    obtain ⟨first, next, ran, rest, kept, unread, held⟩ :=
      writes_out { input with pending, pump := { input.pump with writing := bytes } } idle.sent idle.room
    obtain ⟨events, final, later, ready, empty, inbox, total⟩ := ih next rest kept
    refine ⟨.pump :: (first ++ events), final, ?_, ready, empty, inbox.trans unread, total.trans (held.trans ?_)⟩
    · exact exec_cons.mpr ⟨_, took, exec_append.mpr ⟨_, ran, later⟩⟩
    · simp only [CliInput.held, queued, idle.written, flatten_cons, length_append, length_nil]
      omega

theorem CliInput.queue_grows (count : Nat) (input : CliInput) (idle : input.Idle) (none : input.pending = [])
    (unread : input.pump.inbox = List.replicate count (.data [0])) :
    ∃ events final, exec CliSession.step (.running input) events = some final ∧ final.held = input.held + count := by
  induction count generalizing input with
  | zero => exact ⟨[], _, rfl, rfl⟩
  | succ count ih =>
    have took : CliSession.step (.running input) .pump =
        some (.running { input with
          pump := { input.pump with inbox := List.replicate count (.data [0]), writing := [0] } }) := by
      simp [CliSession.step, CliInput.turn, Pump.turn, Pump.take, idle.written, idle.sent, none,
        unread, List.replicate_succ]
    obtain ⟨first, next, ran, rest, kept, inbox, held⟩ := writes_out
      { input with pump := { input.pump with inbox := List.replicate count (.data [0]), writing := [0] } } idle.sent
        idle.room
    obtain ⟨events, final, later, total⟩ := ih next rest (kept.trans none) inbox
    refine ⟨.pump :: (first ++ events), final, exec_cons.mpr ⟨_, took, exec_append.mpr ⟨_, ran, later⟩⟩, ?_⟩
    rw [total, held]
    simp only [CliInput.held, idle.written, length_cons, length_nil]
    omega

theorem CliInput.new_grows (count : Nat) (opened : Opened) :
    ∃ events final, exec CliSession.step (.running (.new { opened with rest := (List.replicate count [0]).map .data }))
      events = some final ∧
      count ≤ final.held := by
  obtain ⟨first, next, ran, idle, none, unread, -⟩ :=
    takes_pending (.new { opened with rest := (List.replicate count [0]).map .data }) ⟨rfl, rfl, Nat.zero_lt_succ _⟩
  obtain ⟨events, final, later, held⟩ := queue_grows count next idle none (unread.trans map_replicate)
  exact ⟨first ++ events, final, exec_append.mpr ⟨_, ran, later⟩, held ▸ Nat.le_add_left _ _⟩

theorem pending_grows (data : List Bytes) (pty : Option Window) (pendingData : List Bytes) (rest : List ClientMsg) :
    exec CliSession.step (.opening pty pendingData (data.map .data ++ rest)) (List.replicate data.length .message) =
      some (.opening pty (pendingData ++ data) rest) := by
  induction data generalizing pendingData with
  | nil => rw [append_nil]; rfl
  | cons bytes data ih =>
    have later := ih (pendingData ++ [bytes])
    rw [append_assoc] at later
    exact later

/-- Whatever a session took so far, neither what waits behind its request nor what waits
before it has a bound. -/
theorem cli_input_unbounded (opened : Opened) (request : ClientMsg) :
    (¬ ∃ bound, ∀ (data : List Bytes) (events : List CliEvent) (final : CliSession),
      exec CliSession.step (.running (.new { opened with rest := data.map .data })) events = some final →
        final.held ≤ bound) ∧
    ¬ ∃ bound, ∀ (data : List Bytes) (events : List CliEvent) (final : CliSession),
      exec CliSession.step (.opening opened.pty opened.pendingData (data.map .data ++ [request])) events = some final →
        final.held ≤ bound := by
  constructor
  · rintro ⟨bound, bounded⟩
    obtain ⟨events, final, ran, held⟩ := CliInput.new_grows (bound + 1) opened
    have most := bounded (List.replicate (bound + 1) [0]) events final ran
    omega
  · rintro ⟨bound, bounded⟩
    have most := bounded (List.replicate (bound + 1) [0]) _ _ (pending_grows _ opened.pty opened.pendingData [request])
    rw [CliSession.held, flatten_append, length_append, flatten_replicate_singleton, length_replicate] at most
    omega

/-- A client asks for a shell and sends single bytes, and the interpreter reads nothing. -/
theorem shell_input_piles_up : ¬ ∃ bound, ∀ (messages : List ClientMsg) (events : List CliEvent) (final : CliSession),
    exec CliSession.step (.opening none [] messages) events = some final → final.held ≤ bound := by
  rintro ⟨bound, bounded⟩
  obtain ⟨events, final, ran, held⟩ := CliInput.new_grows (bound + 1) ⟨[], none, [], []⟩
  have most := bounded (.requestShell :: (List.replicate (bound + 1) [0]).map .data) (.message :: events) final
    (exec_cons.mpr ⟨_, rfl, ran⟩)
  omega

end Bento.Bentod
