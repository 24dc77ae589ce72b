import Bento.Library.Results
import Bento.Library.Runs
import Bento.Sshfront.Session
import Mathlib.Data.List.TakeWhile

/-! The output of a command that was joined to a session. The loop ends with the message that
has the exit status, and what the guest sends after it is not read. -/

namespace Bento.Sshfront
open Library.Runs List

namespace ChannelMsg

def output : ChannelMsg → Bytes
  | .data bytes => bytes
  | _ => []

def errors : ChannelMsg → Bytes
  | .extendedData ext bytes => if ext = 1 then bytes else []
  | _ => []

def exit : ChannelMsg → Option UInt32
  | .exitStatus status => some status
  | .exitSignal => some 1
  | _ => none

def heard (messages : List ChannelMsg) : List ChannelMsg := messages.takeWhile (·.exit = none)

def late (messages : List ChannelMsg) : List ChannelMsg := messages.dropWhile (·.exit = none)

def delivered (messages : List ChannelMsg) : UInt32 := (messages.findSome? exit).getD 0

end ChannelMsg

open ChannelMsg

namespace Join

structure Complete (messages : List ChannelMsg) (state : Join) : Prop where
  stdout : state.stdout = messages.flatMap output
  stderr : state.stderr = messages.flatMap errors
  code : state.code = delivered messages

def Quiet (messages : List ChannelMsg) : Prop := (late messages).flatMap output = [] ∧
    (late messages).flatMap errors = []

structure Relayed (messages : List ChannelMsg) (state : Join) : Prop where
  running : state.exited = false → ∃ read, messages ++ [.close] = read ++ state.inbox ∧ state.inbox ≠ [] ∧
    (∀ message ∈ read, message.exit = none) ∧ state.stdout = read.flatMap output ∧
      state.stderr = read.flatMap errors ∧ state.code = 0
  ended : state.exited = true → state.stdout = (heard messages).flatMap output ∧
    state.stderr = (heard messages).flatMap errors ∧
    state.code = delivered messages

section
variable {messages : List ChannelMsg}

variable {read rest : List ChannelMsg} {message : ChannelMsg} {state : Join}

theorem split_close (same : messages ++ [.close] = read ++ message :: rest) :
    rest = [] ∧ message = .close ∧ read = messages ∨ ∃ left, rest = left ++ [.close] ∧
      messages = read ++ message :: left := by
  rcases eq_nil_or_concat rest with rfl | ⟨left, last, rfl⟩
  · obtain ⟨before, final⟩ := append_inj' same rfl
    exact .inl ⟨rfl, (List.singleton_inj.mp final).symm, before.symm⟩
  · rw [concat_eq_append, ← cons_append, ← append_assoc] at same
    obtain ⟨before, final⟩ := append_inj' same rfl
    rw [concat_eq_append, List.singleton_inj.mp final]
    exact .inr ⟨left, rfl, before⟩

theorem heard_append {left : List ChannelMsg} (silent : ∀ earlier ∈ read, earlier.exit = none)
    (exits : message.exit ≠ none) : heard (read ++ message :: left) = read := by
  unfold heard
  rw [takeWhile_append_of_pos (by simpa using silent), takeWhile_cons_of_neg (by simpa using exits), append_nil]

theorem heard_silent (silent : ∀ message ∈ messages, message.exit = none) : heard messages = messages :=
  List.takeWhile_eq_self_iff.mpr (by simpa using silent)

theorem delivered_append {left : List ChannelMsg} {code : UInt32} (silent : ∀ earlier ∈ read, earlier.exit = none)
    (exits : message.exit = some code) : delivered (read ++ message :: left) = code := by
  unfold delivered
  rw [List.findSome?_append, List.findSome?_eq_none_iff.mpr silent, Option.none_or, List.findSome?_cons, exits]
  rfl

theorem delivered_silent (silent : ∀ message ∈ messages, message.exit = none) : delivered messages = 0 := by
  unfold delivered
  rw [List.findSome?_eq_none_iff.mpr silent]
  rfl

theorem relayed_exit (once : .close ∉ messages)
    (same : messages ++ [.close] = read ++ message :: rest) (silent : ∀ earlier ∈ read, earlier.exit = none)
    (stdout : state.stdout = read.flatMap output) (stderr : state.stderr = read.flatMap errors)
    (ends : message.exit = some state.code ∨ message = .close ∧ state.code = 0) (exited : state.exited = true) :
    Relayed messages state := by
  refine ⟨fun running => ?_, fun _ => ?_⟩
  · rw [exited] at running
    cases running
  rcases split_close same with ⟨rfl, rfl, rfl⟩ | ⟨left, rfl, rfl⟩
  · rcases ends with exits | ⟨-, code⟩
    · cases exits
    · rw [heard_silent silent, delivered_silent silent]
      exact ⟨stdout, stderr, code⟩
  · rcases ends with exits | ⟨rfl, -⟩
    · rw [heard_append silent (by simp [exits]), delivered_append silent exits]
      exact ⟨stdout, stderr, rfl⟩
    · exact absurd (mem_append_right _ mem_cons_self) once

theorem relayed_on (same : messages ++ [.close] = read ++ message :: rest)
    (silent : ∀ earlier ∈ read, earlier.exit = none) (more : message.exit = none) (goes : message ≠ .close)
    (inbox : state.inbox = rest) (stdout : state.stdout = read.flatMap output ++ message.output)
    (stderr : state.stderr = read.flatMap errors ++ message.errors) (code : state.code = 0)
    (exited : state.exited = false) : Relayed messages state := by
  refine ⟨fun _ => ⟨read ++ [message], ?_, ?_, ?_, ?_, ?_, code⟩, fun ended => ?_⟩
  · rw [inbox, append_assoc]
    exact same
  · rw [inbox]
    rintro rfl
    rcases split_close same with ⟨-, closes, -⟩ | ⟨left, impossible, -⟩
    · exact goes closes
    · simp at impossible
  · intro earlier listed
    cases List.mem_append.mp listed with
    | inl before => exact silent earlier before
    | inr last =>
      rw [List.mem_singleton.mp last]
      exact more
  · rw [stdout, flatMap_append, flatMap_singleton]
  · rw [stderr, flatMap_append, flatMap_singleton]
  · rw [exited] at ended
    cases ended

def Accepted : JoinEvent → Prop
  | .read _ accepted => accepted = true
  | .window _ | .message => True

theorem relayed_receive (once : .close ∉ messages) (relayed : Relayed messages state) (running : state.exited = false) :
    Relayed messages ({ state with inbox := state.inbox.tail }.receive state.inbox.head?) := by
  obtain ⟨read, same, more, silent, stdout, stderr, code⟩ := relayed.running running
  cases unread : state.inbox with
  | nil => exact absurd unread more
  | cons message =>
    rw [unread] at same
    dsimp only [List.head?_cons, tail_cons]
    cases message with
    | data bytes =>
      refine relayed_on same silent rfl nofun rfl ?_ ?_ code running
      · exact congrArg (· ++ bytes) stdout
      · exact stderr.trans (append_nil _).symm
    | extendedData ext bytes =>
      unfold receive
      dsimp only
      split
      next first =>
        refine relayed_on same silent rfl nofun rfl (stdout.trans (append_nil _).symm) ?_ code running
        rw [errors, if_pos first]
        exact congrArg (· ++ bytes) stderr
      next another =>
        refine relayed_on same silent rfl nofun rfl (stdout.trans (append_nil _).symm) ?_ code running
        rw [errors, if_neg another, append_nil]
        exact stderr
    | exitStatus | exitSignal => exact relayed_exit once same silent stdout stderr (.inl rfl) rfl
    | close => exact relayed_exit once same silent stdout stderr (.inr ⟨rfl, code⟩) rfl
    | eof | success | failure | other =>
      exact relayed_on same silent rfl nofun rfl (stdout.trans (append_nil _).symm)
        (stderr.trans (append_nil _).symm) code running

theorem relayed_step {next : Join} {event : JoinEvent} (once : .close ∉ messages) (accepted : Accepted event)
    (moved : state.step event = some next) (relayed : Relayed messages state) : Relayed messages next := by
  unfold step at moved
  split at moved
  next => cases moved
  next goesOn =>
    have running : state.exited = false := by simpa using goesOn
    -- The other branches touch neither the inbox nor the output.
    have idle (stdinOpen windowsOpen : Bool) (sent : List GuestCall) :
        Relayed messages { state with stdinOpen, windowsOpen, sent } := ⟨relayed.running, relayed.ended⟩
    cases event with
    | read result taken =>
      have taken : taken = true := accepted
      subst taken
      dsimp only at moved
      split at moved
      next => cases moved
      split at moved
      next =>
        cases moved
        exact idle _ _ _
      next =>
        cases moved
        exact idle _ _ _
      next =>
        rw [if_pos rfl] at moved
        cases moved
        exact idle _ _ _
    | window =>
      dsimp only at moved
      split at moved
      next => cases moved
      split at moved
      next =>
        cases moved
        exact idle _ _ _
      next =>
        cases moved
        exact idle _ _ _
    | message =>
      cases moved
      exact relayed_receive once relayed running

theorem goes_on (relayed : Relayed messages state) (running : state.exited = false) :
    ∃ next, state.step .message = some next ∧ (next.exited = true ∨ next.inbox.length < state.inbox.length) := by
  obtain ⟨-, -, more, -⟩ := relayed.running running
  refine ⟨_, by rw [step, if_neg (by simp [running])], ?_⟩
  obtain ⟨message, rest, unread⟩ := exists_cons_of_ne_nil more
  have shorter : rest.length < state.inbox.length := by simp [unread]
  rw [unread] at shorter ⊢
  dsimp only [List.head?_cons, tail_cons]
  cases message with
  | exitStatus | exitSignal | close => exact .inl rfl
  | extendedData =>
    unfold receive
    dsimp only
    split <;> exact .inr shorter
  | data | eof | success | failure | other => exact .inr shorter

theorem complete_iff (relayed : Relayed messages state) (exited : state.exited = true) :
    Complete messages state ↔ Quiet messages := by
  obtain ⟨stdout, stderr, code⟩ := relayed.ended exited
  have parts (of : ChannelMsg → Bytes) :
      messages.flatMap of = (heard messages).flatMap of ++ (late messages).flatMap of := by
    rw [← flatMap_append, heard, late, takeWhile_append_dropWhile]
  constructor
  · intro complete
    have output := stdout.symm.trans (complete.stdout.trans (parts output))
    have errors := stderr.symm.trans (complete.stderr.trans (parts errors))
    exact ⟨List.self_eq_append_right.mp output, List.self_eq_append_right.mp errors⟩
  · rintro ⟨noOutput, noErrors⟩
    refine ⟨?_, ?_, code⟩
    · rw [stdout, parts output, noOutput, append_nil]
    · rw [stderr, parts errors, noErrors, append_nil]

end

/-- Once the command was accepted the loop reads on until it ends, and then the client has all
the output and the code of the command, when no output came after the exit. -/
theorem output_complete (pty : Option Window) (inbox messages : List ChannelMsg)
    (events : List JoinEvent) (start final : Join) (opened : join pty inbox = .ok start)
    (delivers : start.inbox = messages ++ [.close]) (once : .close ∉ messages)
    (ran : exec step start events = some final) (accepted : ∀ event ∈ events, Accepted event) :
    (final.exited = false → ∃ next, final.step .message = some next ∧
      (next.exited = true ∨ next.inbox.length < final.inbox.length)) ∧
    (final.exited = true → (Complete messages final ↔ Quiet messages)) := by
  have begun : Relayed messages start := by
    unfold join at opened
    obtain ⟨_, -, rest⟩ := Library.Results.bind_ok.mp opened
    obtain ⟨unread, -, same⟩ := Library.Results.bind_ok.mp rest
    cases same
    have delivers : unread = messages ++ [.close] := delivers
    exact ⟨fun _ => ⟨[], delivers.symm, by simp [delivers], nofun, rfl, rfl, rfl⟩, nofun⟩
  have relayed : Relayed messages final :=
    invariant (fun _ _ _ allowed moved => relayed_step once allowed moved) ran (obeys_of_events accepted start) begun
  exact ⟨goes_on relayed, complete_iff relayed⟩

theorem output_complete_in_order : ∃ start final, join none [.success, .data [104], .exitStatus 3, .close] = .ok start ∧
    exec step start [.message, .message] = some final ∧ Complete [.data [104], .exitStatus 3] final := by
  have ran := (output_complete none [.success, .data [104], .exitStatus 3, .close] [.data [104], .exitStatus 3]
    [.message, .message] _ _
    rfl rfl (by decide) rfl (by simp [Accepted])).2 rfl
  exact ⟨_, _, rfl, rfl, ran.mpr ⟨rfl, rfl⟩⟩

/-- Output that comes after the exit status is not written. -/
theorem late_output_lost : ∃ start final, join none [.success, .exitStatus 0, .data [104], .close] = .ok start ∧
    exec step start [.message] = some final ∧ final.exited = true ∧ ¬ Complete [.exitStatus 0, .data [104]] final :=
  ⟨_, _, rfl, rfl, rfl, fun complete => nomatch complete.stdout⟩

end Join

end Bento.Sshfront
