import Bento.Sshfront.Session
import Mathlib.Data.List.Basic

/-! The bytes that a terminal gets. A line feed without a carriage return before it gets one,
however the output is cut into writes, and no byte is lost when the channel is slow. -/

namespace Bento.Sshfront
open List

def translate : Option UInt8 → Bytes → Bytes
  | _, [] => []
  | before, byte :: rest => (if byte = 10 ∧ before ≠ some 13 then [13, byte] else [byte]) ++ translate (some byte) rest

def lastOf (before : Option UInt8) (bytes : Bytes) : Option UInt8 := bytes.getLast?.or before

@[simp] theorem lastOf_concat (before : Option UInt8) (bytes : Bytes) (byte : UInt8) :
    lastOf before (bytes ++ [byte]) = some byte := by
  simp [lastOf]

theorem translate_concat (before : Option UInt8) (bytes : Bytes) (byte : UInt8) : translate before (bytes ++ [byte]) =
      translate before bytes ++ (if byte = 10 ∧ lastOf before bytes ≠ some 13 then [13, byte] else [byte]) := by
  induction bytes generalizing before with
  | nil =>
    rw [nil_append, translate, translate, translate, lastOf, append_nil, nil_append, List.getLast?_nil, Option.none_or]
  | cons first rest ih =>
    have last : lastOf before (first :: rest) = lastOf (some first) rest := by
      cases rest with
      | nil => rfl
      | cons => simp [lastOf, List.getLast?_cons]
    rw [cons_append, translate, ih, translate, last, append_assoc]

namespace CrlfWriter
variable {writer after : CrlfWriter} {taken : Bytes}

def left (writer : CrlfWriter) : Bytes := writer.pending.drop writer.offset

structure Holds (taken : Bytes) (writer : CrlfWriter) : Prop where
  sent : writer.inner ++ writer.left = translate none taken
  afterCr : writer.afterCr = decide (lastOf none taken = some 13)

theorem new_holds : new.Holds [] := ⟨rfl, rfl⟩

theorem Holds.drained (holds : writer.Holds taken) (answers : List (Poll (Except IoError Nat))) :
    (writer.pollDrain answers).2.Holds taken ∧
      ((writer.pollDrain answers).1 = .ready (.ok ()) → (writer.pollDrain answers).2.left = []) ∧
      ((writer.pollDrain answers).2.pending = [] → (writer.pollDrain answers).2.offset = 0) := by
  have more {writer : CrlfWriter} (inside : writer.offset < writer.pending.length) :
      writer.pending = [] → writer.offset = 0 := by
    intro empty
    rw [empty] at inside
    cases inside
  fun_induction writer.pollDrain answers with
  | case1 writer inside | case2 writer inside | case3 writer inside | case4 writer inside =>
    exact ⟨holds, nofun, more inside⟩
  | case5 writer _ written answers ih =>
    apply ih
    refine ⟨?_, holds.afterCr⟩
    rw [← holds.sent, left, left, append_assoc, ← drop_drop, take_append_drop]
  | case6 writer answers outside =>
    refine ⟨⟨?_, holds.afterCr⟩, fun _ => rfl, fun _ => rfl⟩
    rw [← holds.sent, left, left, drop_eq_nil_of_le (Nat.le_of_not_lt outside), drop_nil]

theorem Holds.pushed (holds : writer.Holds taken) (start : writer.offset = 0) (byte : UInt8) :
    (writer.push byte).Holds (taken ++ [byte]) ∧ (writer.push byte).offset = 0 := by
  refine ⟨⟨?_, ?_⟩, start⟩
  · have sent := holds.sent
    rw [left, start, drop_zero] at sent
    rw [translate_concat, ← sent, left, push, start, drop_zero, holds.afterCr]
    by_cases feed : byte = 10 ∧ lastOf none taken ≠ some 13
    · simp [feed]
    · rw [if_neg feed, if_neg (by simpa using feed), append_nil, append_assoc]
  · simp [push]

theorem Holds.pushed_all (holds : writer.Holds taken) (start : writer.offset = 0) (buf : Bytes) :
    (buf.foldl push writer).Holds (taken ++ buf) := by
  induction buf generalizing writer taken with
  | nil => simpa using holds
  | cons byte buf ih =>
    obtain ⟨next, again⟩ := holds.pushed start byte
    simpa using ih next again

end CrlfWriter

def Poll.failed {α : Type} : Poll (Except IoError α) → Bool
  | .ready (.error _) => true
  | _ => false

def Poll.reported (buf : Bytes) : Poll (Except IoError Nat) → Bytes
  | .ready (.ok count) => buf.take count
  | _ => []

inductive CrlfCall where
  | write (buf : Bytes) (first last : List (Poll (Except IoError Nat)))
  | flush (answers : List (Poll (Except IoError Nat))) (answer : Poll (Except IoError Unit))
  | shutdown (answers : List (Poll (Except IoError Nat))) (answer : Poll (Except IoError Unit))

structure CrlfRun where
  writer : CrlfWriter
  reported : Bytes
  failed : Bool

namespace CrlfRun

def new : CrlfRun := ⟨.new, [], false⟩

def step (run : CrlfRun) : CrlfCall → CrlfRun
  | .write buf first last =>
    let (result, writer) := run.writer.pollWrite buf first last
    ⟨writer, run.reported ++ result.reported buf, run.failed || result.failed⟩
  | .flush answers answer =>
    let (result, writer) := run.writer.pollFlush answers answer
    { run with writer, failed := run.failed || result.failed }
  | .shutdown answers answer =>
    let (result, writer) := run.writer.pollShutdown answers answer
    { run with writer, failed := run.failed || result.failed }

end CrlfRun

namespace CrlfWriter
variable {writer : CrlfWriter} {taken : Bytes}

theorem Holds.written (holds : writer.Holds taken) (buf : Bytes) (first last : List (Poll (Except IoError Nat)))
    (fine : (writer.pollWrite buf first last).1.failed = false) :
    (writer.pollWrite buf first last).2.Holds (taken ++ (writer.pollWrite buf first last).1.reported buf) := by
  obtain ⟨kept, -, start⟩ := holds.drained first
  revert fine
  unfold pollWrite
  split
  next => nofun
  next result after _ drain =>
    rw [drain] at kept start
    split
    next => exact fun _ => by simpa [Poll.reported] using kept
    next empty =>
      split
      next => exact fun _ => by simpa [Poll.reported] using kept
      next =>
        -- Nothing was left, so the new bytes stand at the front of the buffer.
        obtain ⟨done, -⟩ := (kept.pushed_all (start (by simpa using empty)) buf).drained last
        split
        next => nofun
        next stop =>
          rw [stop] at done
          exact fun _ => by simpa [Poll.reported] using done

theorem Holds.flushed (holds : writer.Holds taken) (answers : List (Poll (Except IoError Nat)))
    (answer : Poll (Except IoError Unit)) :
    (writer.pollFlush answers answer).2.Holds taken ∧
      ((writer.pollFlush answers answer).1 = .ready (.ok ()) → (writer.pollFlush answers answer).2.left = []) := by
  obtain ⟨kept, empties, -⟩ := holds.drained answers
  unfold pollFlush
  split
  next drain =>
    rw [drain] at kept empties
    exact ⟨kept, fun _ => empties rfl⟩
  next => exact ⟨kept, empties⟩

end CrlfWriter

theorem CrlfRun.step_holds {run : CrlfRun}
    (holds : run.failed = false → run.writer.Holds run.reported) (call : CrlfCall)
    (fine : (run.step call).failed = false) : (run.step call).writer.Holds (run.step call).reported := by
  cases call with
  | write buf first last =>
    obtain ⟨before, now⟩ := Bool.or_eq_false_iff.mp fine
    exact (holds before).written buf first last now
  | flush answers answer | shutdown answers answer =>
    exact ((holds (Bool.or_eq_false_iff.mp fine).1).flushed answers answer).1

theorem CrlfRun.run_holds {run : CrlfRun} (holds : run.failed = false → run.writer.Holds run.reported)
    (calls : List CrlfCall) (fine : (calls.foldl CrlfRun.step run).failed = false) :
    (calls.foldl CrlfRun.step run).writer.Holds (calls.foldl CrlfRun.step run).reported := by
  induction calls generalizing run with
  | nil => exact holds fine
  | cons call calls ih => exact ih (step_holds holds call) fine

/-- As long as no call has failed, what the channel has accepted and what the writer still
holds are the translation of everything that was reported as written, and a flush that
completes leaves nothing behind. A channel that accepts no byte at all makes the call fail. -/
theorem newlines_translated (calls : List CrlfCall) (fine : (calls.foldl CrlfRun.step .new).failed = false) :
    (calls.foldl CrlfRun.step .new).writer.inner ++ (calls.foldl CrlfRun.step .new).writer.left =
      translate none (calls.foldl CrlfRun.step .new).reported ∧
    ∀ answers answer, ((calls.foldl CrlfRun.step .new).writer.pollFlush answers answer).1 = .ready (.ok ()) →
      ((calls.foldl CrlfRun.step .new).writer.pollFlush answers answer).2.left = [] := by
  have holds := CrlfRun.run_holds (fun _ => CrlfWriter.new_holds) calls fine
  exact ⟨holds.sent, fun answers answer => (holds.flushed answers answer).2⟩

theorem newlines_translated_split : ∃ run : CrlfRun,
    run = [CrlfCall.write [97, 10, 13] [] [.ready (.ok 1), .pending],
      .write [10] [.ready (.ok 9)] []].foldl CrlfRun.step .new ∧
    run.reported = [97, 10, 13, 10] ∧ run.writer.inner ++ run.writer.left = [97, 13, 10, 13, 10] := by
  refine ⟨_, rfl, by decide, (newlines_translated _ (by decide)).1.trans (by decide)⟩

end Bento.Sshfront
