import Bento.Library.Runs
import Bento.Sshfront.Session
import Mathlib.Algebra.Ring.Nat

/-! The input of an SSH session. One pump moves data and window changes in the order in which
they came, so a queue of window changes that nobody takes holds up the data behind it. -/

namespace Bento.Sshfront
open Library.Runs List Pump

namespace ClientMsg

def payload : ClientMsg → Bytes
  | .data bytes => bytes
  | _ => []

def isWindow : ClientMsg → Bool
  | .windowChange _ => true
  | _ => false

def isEnd : ClientMsg → Bool
  | .eof | .close => true
  | _ => false

def input (messages : List ClientMsg) : Bytes := (messages.takeWhile (!·.isEnd)).flatMap payload

def windowCount (messages : List ClientMsg) : Nat := (messages.takeWhile (!·.isEnd)).countP isWindow

section
variable {message : ClientMsg} {rest : List ClientMsg}

theorem input_cons (more : message.isEnd = false) : input (message :: rest) = message.payload ++ input rest := by
  unfold input
  rw [takeWhile_cons_of_pos (by simp [more]), flatMap_cons]

theorem windowCount_cons (more : message.isEnd = false) :
    windowCount (message :: rest) = windowCount rest + if message.isWindow then 1 else 0 := by
  unfold windowCount
  rw [takeWhile_cons_of_pos (by simp [more]), countP_cons]

end

theorem input_pending (pending : List Bytes) (rest : List ClientMsg) :
    input (pending.map .data ++ rest) = pending.flatten ++ input rest := by
  induction pending with
  | nil => rfl
  | cons bytes pending ih =>
    rw [map_cons, cons_append, input_cons rfl, ih, flatten_cons, append_assoc]
    rfl

theorem windowCount_pending (pending : List Bytes) (rest : List ClientMsg) :
    windowCount (pending.map .data ++ rest) = windowCount rest := by
  induction pending with
  | nil => rfl
  | cons bytes pending ih =>
    rw [map_cons, cons_append, windowCount_cons rfl, ih]
    rfl

end ClientMsg

open ClientMsg

theorem processChannel_input {pty : Option Window} {pending : List Bytes} {messages : List ClientMsg} {opened : Opened}
    (asked : processChannel pty pending messages = some opened) :
    input opened.pump.inbox = pending.flatten ++ input messages := by
  induction messages generalizing pty pending with
  | nil => cases asked
  | cons message rest ih =>
    cases message with
    | requestPty | windowChange | other =>
      rw [input_cons rfl]
      exact ih asked
    | requestShell | exec =>
      cases asked
      rw [input_cons rfl]
      exact input_pending pending rest
    | data =>
      rw [ih asked, input_cons rfl, flatten_append, flatten_singleton, append_assoc]
      rfl
    | eof | close => cases asked

namespace Pump

structure Done (state : Pump) : Prop where
  inbox : state.inbox = []
  writing : state.writing = []
  sending : state.sending = none

def Stuck (path : Path) (state : Pump) : Prop :=
  ¬ state.Done ∧ ∀ events final, exec (step path) state events = some final → PumpEvent.pump ∉ events

/-- All the input, and all the window changes where nobody takes them, are somewhere. -/
structure Holds (path : Path) (total : Bytes) (windows : Nat) (state : Pump) : Prop where
  bytes : state.read ++ (state.pipe ++ (state.writing ++ input state.inbox)) = total
  pipe : state.pipe.length ≤ pipeSize
  queue : state.windows.length ≤ windowQueueSize
  one : state.writing = [] ∨ state.sending = none
  changes : path.takesWindows = false →
    state.windows.length + (if state.sending.isSome then 1 else 0) + windowCount state.inbox = windows

section
variable {path : Path} {total : Bytes} {windows : Nat} {state next : Pump}

theorem Holds.skipped {inbox : List ClientMsg} (holds : Holds path total windows state) (wrote : state.writing = [])
    (same : input inbox = input state.inbox) (many : windowCount inbox = windowCount state.inbox) :
    Holds path total windows { state with inbox } := by
  refine ⟨?_, holds.pipe, holds.queue, .inl wrote, ?_⟩
  · rw [← holds.bytes, ← same]
  · rw [many]
    exact holds.changes

theorem holds_take (holds : Holds path total windows state) (wrote : state.writing = []) (sent : state.sending = none)
    (moved : state.take = some next) : Holds path total windows next := by
  have bytes := holds.bytes
  have changes := holds.changes
  rw [wrote, nil_append] at bytes
  rw [sent] at changes
  unfold take at moved
  split at moved
  next => cases moved
  next data inbox unread =>
    cases moved
    rw [unread] at bytes changes
    exact ⟨bytes, holds.pipe, holds.queue, .inr sent, by rw [sent]; exact changes⟩
  next window inbox unread =>
    cases moved
    rw [unread] at bytes changes
    refine ⟨?_, holds.pipe, holds.queue, .inl wrote, fun taken => ?_⟩
    · dsimp only
      rw [wrote]
      exact bytes
    · have counted := changes taken
      rw [windowCount_cons rfl] at counted
      simpa [isWindow, Nat.add_assoc, Nat.add_comm 1] using counted
  all_goals
    next unread =>
      cases moved
      apply holds.skipped wrote
      · simp [input, unread, isEnd, payload]
      · simp [windowCount, unread, isEnd, isWindow]

theorem holds_turn (holds : Holds path total windows state) (moved : state.turn = some next) :
    Holds path total windows next := by
  unfold turn at moved
  split at moved
  next wrote sent => exact holds_take holds wrote sent moved
  next window wrote sent =>
    split at moved
    next room =>
      cases moved
      refine ⟨holds.bytes, holds.pipe, ?_, .inr rfl, fun taken => ?_⟩
      · rw [length_append]
        exact room
      · have counted := holds.changes taken
        rw [sent] at counted
        rw [length_append]
        exact counted
    next => cases moved
  next unfinished =>
    dsimp only at moved
    split at moved
    next => cases moved
    next room =>
      cases moved
      have waits : state.sending = none := by
        rcases holds.one with wrote | sent
        · cases sending : state.sending with
          | none => rfl
          | some window => exact (unfinished window wrote sending).elim
        · exact sent
      refine ⟨?_, ?_, holds.queue, .inr waits, holds.changes⟩
      · rw [← holds.bytes, append_assoc state.pipe, ← append_assoc (List.take _ _), take_append_drop]
      · have fits := holds.pipe
        rw [length_append, length_take]
        omega

theorem holds_step {event : PumpEvent} (holds : Holds path total windows state)
    (moved : state.step path event = some next) :
    Holds path total windows next := by
  cases event with
  | pump => exact holds_turn holds moved
  | read =>
    dsimp only [step] at moved
    split at moved
    next =>
      cases moved
      refine ⟨?_, ?_, holds.queue, holds.one, holds.changes⟩
      · rw [← holds.bytes, append_assoc, ← append_assoc (List.take _ _), take_append_drop]
      · rw [length_drop]
        exact Nat.le_trans (Nat.sub_le _ _) holds.pipe
    next => cases moved
  | window =>
    dsimp only [step] at moved
    split at moved
    next first rest taken queued =>
      cases moved
      have fits := holds.queue
      rw [queued] at fits
      exact ⟨holds.bytes, holds.pipe, Nat.le_of_succ_le fits, holds.one, fun idle => nomatch idle.symm.trans taken⟩
    next => cases moved

end

def weigh : ClientMsg → Nat
  | .data bytes => 1 + 2 * bytes.length
  | .windowChange _ => 4
  | _ => 1

def measure (state : Pump) : Nat :=
  (state.inbox.map weigh).sum + 2 * state.writing.length + (if state.sending.isSome then 2 else 0) +
    state.pipe.length + state.windows.length

section
variable {path : Path} {state next : Pump}

theorem measure_take (wrote : state.writing = []) (sent : state.sending = none) (moved : state.take = some next) :
    measure next < measure state := by
  unfold take at moved
  split at moved
  next => cases moved
  all_goals
    next unread =>
      cases moved
      simp [measure, unread, wrote, sent, weigh]
      try omega

theorem measure_turn (moved : state.turn = some next) : measure next < measure state := by
  unfold turn at moved
  split at moved
  next wrote sent => exact measure_take wrote sent moved
  next window wrote sent =>
    split at moved
    next room =>
      cases moved
      simp [measure, sent]
      omega
    next => cases moved
  next done unfinished =>
    dsimp only at moved
    split at moved
    next => cases moved
    next room =>
      cases moved
      have some : 0 < state.writing.length := by
        apply List.length_pos_iff.mpr
        intro wrote
        cases sending : state.sending with
        | none => exact done wrote sending
        | some window => exact unfinished window wrote sending
      simp [measure]
      omega

theorem measure_step (event : PumpEvent) (moved : state.step path event = some next) :
    measure next < measure state := by
  cases event with
  | pump => exact measure_turn moved
  | read =>
    dsimp only [step] at moved
    split at moved
    next bounds =>
      cases moved
      simp [measure]
      omega
    next => cases moved
  | window =>
    dsimp only [step] at moved
    split at moved
    next first rest taken queued =>
      cases moved
      simp [measure, queued]
    next => cases moved

end

section
variable {path : Path} {total : Bytes} {windows : Nat} {state : Pump}

theorem step_reads (filled : 0 < state.pipe.length) :
    state.step path (.read 1) =
      some { state with pipe := state.pipe.drop 1, read := state.read ++ state.pipe.take 1 } :=
  if_pos ⟨Nat.one_pos, filled, (by cases path <;> simp [Path.chunk])⟩

theorem turn_takes (wrote : state.writing = []) (sent : state.sending = none) (more : state.inbox ≠ []) :
    ∃ next, state.turn = some next := by
  simp only [turn, wrote, sent, take]
  split
  next none => exact (more none).elim
  all_goals exact ⟨_, rfl⟩

theorem turn_sends {window : Window} (wrote : state.writing = []) (sent : state.sending = some window)
    (room : state.windows.length < windowQueueSize) : ∃ next, state.turn = some next := by
  simp [turn, wrote, sent, room]

theorem turn_writes (unfinished : state.writing ≠ []) (room : state.pipe.length < pipeSize) :
    ∃ next, state.turn = some next := by
  obtain ⟨byte, bytes, writing⟩ := exists_cons_of_ne_nil unfinished
  have space : pipeSize - state.pipe.length ≠ 0 := Nat.sub_ne_zero_of_lt room
  simp [turn, writing, space]

theorem moves (holds : Holds path total windows state) (fits : path.takesWindows = true ∨ windows ≤ windowQueueSize)
    (left : ¬ state.Done) :
    ∃ events final, exec (step path) state events = some final ∧ PumpEvent.pump ∈ events := by
  have now (moves : ∃ next, state.turn = some next) :
      ∃ events final, exec (step path) state events = some final ∧ PumpEvent.pump ∈ events := by
    obtain ⟨next, moved⟩ := moves
    exact ⟨[.pump], next, exec_cons.mpr ⟨next, moved, rfl⟩, mem_cons_self⟩
  have later {event : PumpEvent} {middle : Pump} (first : state.step path event = some middle)
    (moves : ∃ next, middle.turn = some next) :
      ∃ events final, exec (step path) state events = some final ∧ PumpEvent.pump ∈ events := by
    obtain ⟨next, moved⟩ := moves
    exact ⟨[event, .pump], next, exec_cons.mpr ⟨middle, first, exec_cons.mpr ⟨next, moved, rfl⟩⟩,
      mem_cons_of_mem _ mem_cons_self⟩
  by_cases wrote : state.writing = []
  · cases sent : state.sending with
    | none =>
      apply now
      apply turn_takes wrote sent
      exact fun taken => left ⟨taken, wrote, sent⟩
    | some window =>
      by_cases room : state.windows.length < windowQueueSize
      · exact now (turn_sends wrote sent room)
      · cases taken : path.takesWindows with
        | false =>
          -- Nobody has taken a window change, so the one that waits was counted with the queue.
          have counted := holds.changes taken
          have few := fits.resolve_left (by simp [taken])
          simp only [sent, Option.isSome_some, if_true] at counted
          omega
        | true =>
          have filled : 0 < state.windows.length := Nat.lt_of_lt_of_le (by decide) (Nat.le_of_not_lt room)
          obtain ⟨first, rest, queued⟩ := List.exists_cons_of_length_pos filled
          have full := holds.queue
          rw [queued] at full
          have takes : state.step path .window = some { state with windows := rest } := by simp [step, taken, queued]
          apply later takes
          exact turn_sends wrote sent full
  · by_cases room : state.pipe.length < pipeSize
    · exact now (turn_writes wrote room)
    · have filled : 0 < state.pipe.length := Nat.lt_of_lt_of_le (by decide) (Nat.le_of_not_lt room)
      apply later (step_reads filled)
      refine turn_writes ?_ ?_
      · exact wrote
      · have full := holds.pipe
        dsimp only
        rw [length_drop]
        omega

theorem not_stuck (holds : Holds path total windows state)
    (fits : path.takesWindows = true ∨ windows ≤ windowQueueSize) :
    ¬ state.Stuck path := by
  rintro ⟨left, blocked⟩
  obtain ⟨events, final, ran, moved⟩ := moves holds fits left
  exact blocked events final ran moved

theorem stuck_of_rest (rest : ∀ event, state.step path event = none) (left : ¬ state.Done) : state.Stuck path := by
  refine ⟨left, fun events final ran => ?_⟩
  cases events with
  | nil => exact not_mem_nil
  | cons event =>
    obtain ⟨next, moved, -⟩ := exec_cons.mp ran
    cases (rest event).symm.trans moved

theorem rest_empty (rest : ∀ event, state.step path event = none) : state.pipe = [] := by
  apply Classical.byContradiction
  intro filled
  cases (rest (.read 1)).symm.trans (step_reads (List.length_pos_iff.mpr filled))

end

end Pump

section
variable {authenticated : Authenticated} {messages : List ClientMsg} {opened : Opened} {path : Path}
  {events : List PumpEvent} {state : Pump}

theorem holds_pump (asked : processChannel none [] messages = some opened) :
    opened.pump.Holds path (input messages) (windowCount opened.rest) := by
  refine ⟨processChannel_input asked, Nat.zero_le _, Nat.zero_le _, .inl rfl, fun _ => ?_⟩
  rw [← windowCount_pending opened.pendingData opened.rest]
  exact Nat.zero_add _

theorem holds_run (asked : processChannel none [] messages = some opened)
    (ran : exec (Pump.step path) opened.pump events = some state) :
    state.Holds path (input messages) (windowCount opened.rest) :=
  stable (fun _ _ _ moved holds => holds_step holds moved) ran (holds_pump asked)

end

/-- The pump holds up nothing, and the path reads the client's input, if someone takes the
window changes or they all fit into the queue. -/
theorem input_complete (authenticated : Authenticated) (messages : List ClientMsg) (opened : Opened)
    (asked : processChannel none [] messages = some opened) :
    (∀ events state, exec (Pump.step (dispatch authenticated opened.pty)) opened.pump events = some state →
      ¬ state.Stuck (dispatch authenticated opened.pty) ∧
      ((∀ event, state.step (dispatch authenticated opened.pty) event = none) → state.read = input messages)) ↔
    (dispatch authenticated opened.pty).takesWindows = true ∨ windowCount opened.rest ≤ windowQueueSize := by
  generalize dispatch authenticated opened.pty = path
  constructor
  · intro flows
    obtain ⟨events, state, ran, rest⟩ := exists_rest (fun _ event _ => @Pump.measure_step path _ _ event) opened.pump
    have holds := holds_run asked ran
    have finished : state.Done := by
      apply Classical.byContradiction
      exact fun left => (flows events state ran).1 (stuck_of_rest rest left)
    cases taken : path.takesWindows with
    | true => exact .inl rfl
    | false =>
      right
      have counted := holds.changes taken
      rw [finished.sending, finished.inbox] at counted
      rw [← counted]
      exact holds.queue
  · intro fits events state ran
    have holds := holds_run asked ran
    have free := not_stuck holds fits
    refine ⟨free, fun rest => ?_⟩
    have finished : state.Done := by
      apply Classical.byContradiction
      exact fun left => free (stuck_of_rest rest left)
    have whole := holds.bytes
    rw [rest_empty rest, finished.writing, finished.inbox] at whole
    rw [← whole]
    exact (append_nil _).symm

theorem input_complete_terminal :
    ∃ opened, processChannel none [] [.requestPty ⟨80, 24, 0, 0⟩, .data [104], .requestShell,
      .windowChange ⟨132, 43, 0, 0⟩, .data [105]] = some opened ∧
      ∀ events state, exec (Pump.step (dispatch (.user true) opened.pty)) opened.pump events = some state →
        ¬ state.Stuck (dispatch (.user true) opened.pty) ∧
        ((∀ event, state.step (dispatch (.user true) opened.pty) event = none) → state.read = [104, 105]) := by
  refine ⟨_, rfl, ?_⟩
  apply (input_complete (.user true) [.requestPty ⟨80, 24, 0, 0⟩, .data [104], .requestShell,
    .windowChange ⟨132, 43, 0, 0⟩, .data [105]] _ rfl).mpr
  exact .inl rfl

/-- The command line keeps the queue and never looks at it. -/
theorem window_changes_stop_input :
    ∃ opened state, processChannel none []
      (.requestShell :: (List.replicate 17 (.windowChange ⟨80, 24, 0, 0⟩) ++ [.data [104]])) = some opened ∧
      exec (Pump.step (dispatch (.user false) opened.pty)) opened.pump (List.replicate 33 .pump) = some state ∧
      state.Stuck (dispatch (.user false) opened.pty) := by
  refine ⟨_, _, rfl, rfl, stuck_of_rest ?_ ?_⟩
  · intro event
    cases event with
    | pump => rfl
    | read =>
      apply if_neg
      rintro ⟨some, few, -⟩
      exact absurd few (Nat.not_le_of_lt some)
    | window => rfl
  · intro finished
    cases finished.sending

end Bento.Sshfront
