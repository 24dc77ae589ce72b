import Bento.Store.Lease
import Bento.Proofs.StoredTimes

/-! The lease over whole runs. Epochs separate the holders whatever the clocks read.
Whether a lease still runs is asked in two ways: an acquisition parses the stored
expiry, a renewal compares texts, and the two part where the texts clash. -/

namespace Bento.Store
open Library.Rfc3339 Library.Decimal Library.Runs

inductive LeaseRow.Written : LeaseRow → Prop
  | free (epoch : Int) : Written ⟨none, epoch, none⟩
  | held {holder : String} {epoch expires : Int} {text : Text} (written : format expires = some text) :
      Written ⟨some holder, epoch, some text⟩

structure LeaseRow.Succeeds (before after : LeaseRow) : Prop where
  epoch : before.epoch ≤ after.epoch
  holder : before.epoch = after.epoch → ∀ holder, after.holderId = some holder → before.holderId = some holder

theorem LeaseRow.Succeeds.refl (row : LeaseRow) : row.Succeeds row :=
  ⟨Int.le_refl _, fun _ _ held => held⟩

theorem LeaseRow.Succeeds.trans {before middle after : LeaseRow} (first : before.Succeeds middle)
    (last : middle.Succeeds after) : before.Succeeds after := by
  have rising := first.epoch
  have later := last.epoch
  refine ⟨by omega, fun same holder held => ?_⟩
  exact first.holder (by omega) holder (last.holder (by omega) holder held)

section
variable {now : Int} {holderId : String} {ttl : Nat} {row after : LeaseRow} {lease : Lease}

def takeLease (now : Int) (holderId : String) (ttl : Nat) (row : LeaseRow) : Except Error (Lease × LeaseRow) := do
  let text ← formatTime (now + ttl)
  if maxInteger < row.epoch + 1 then
    throw .sqlite
  return (⟨holderId, row.epoch + 1, now + ttl⟩, ⟨some holderId, row.epoch + 1, some text⟩)

theorem acquireLease_free (epoch : Int) :
    acquireLease now holderId ttl ⟨none, epoch, none⟩ = takeLease now holderId ttl ⟨none, epoch, none⟩ := rfl

theorem acquireLease_held {holder : String} {epoch expires : Int} {text : Text}
    (written : format expires = some text) : acquireLease now holderId ttl ⟨some holder, epoch, some text⟩ =
      if holder ≠ holderId ∧ now < expires then .error (.leaseHeld holder expires)
      else takeLease now holderId ttl ⟨some holder, epoch, some text⟩ := by
  have parsed : parseTime text = .ok expires := by rw [parseTime, parse_format written]
  simp only [acquireLease, parsed, bind, Except.bind]
  split
  · rfl
  · rfl

theorem takeLease_ok (taken : takeLease now holderId ttl row = .ok (lease, after)) :
    ∃ text, format (now + ttl) = some text ∧ row.epoch + 1 ≤ maxInteger ∧
      lease = ⟨holderId, row.epoch + 1, now + ttl⟩ ∧ after = ⟨some holderId, row.epoch + 1, some text⟩ := by
  simp only [takeLease, bind, Except.bind] at taken
  split at taken
  next => cases taken
  next text written =>
    split at taken
    next => cases taken
    next small =>
      cases taken
      exact ⟨text, formatTime_ok.mp written, Int.not_lt.mp small, rfl, rfl⟩

theorem acquireLease_ok (valid : row.Written) (taken : acquireLease now holderId ttl row = .ok (lease, after)) :
    ∃ text, format (now + ttl) = some text ∧ row.epoch + 1 ≤ maxInteger ∧
      lease = ⟨holderId, row.epoch + 1, now + ttl⟩ ∧ after = ⟨some holderId, row.epoch + 1, some text⟩ := by
  cases valid with
  | free epoch => exact takeLease_ok (acquireLease_free epoch ▸ taken)
  | held written =>
    rw [acquireLease_held written] at taken
    split at taken
    next => cases taken
    next => exact takeLease_ok taken

theorem renewLease_ok (renewed : renewLease now holderId ttl row = .ok (lease, after)) :
    ∃ text, format (now + ttl) = some text ∧ row.holderId = some holderId ∧
      after = { row with expiresAt := some text } := by
  simp only [renewLease, bind, Except.bind] at renewed
  split at renewed
  next => cases renewed
  next text written =>
    split at renewed
    next => cases renewed
    next current _ =>
      split at renewed
      next held =>
        cases renewed
        exact ⟨text, formatTime_ok.mp written, held.1, rfl⟩
      next => cases renewed

theorem releaseLease_cases (holderId : String) (row : LeaseRow) :
    releaseLease holderId row = row ∨ releaseLease holderId row = ⟨none, row.epoch, none⟩ := by
  unfold releaseLease
  split
  · exact .inr rfl
  · exact .inl rfl

end

variable {row : LeaseRow} {now epoch expires : Int} {ttl : Nat} {holder : String} {text : Text}

theorem LeaseCall.perform_cases (valid : row.Written) (call : LeaseCall) : call.perform row = (none, row) ∨
    (∃ now holder ttl text, call = .acquire now holder ttl ∧ format (now + ttl) = some text ∧
      call.perform row = (some ⟨holder, row.epoch + 1, now + ttl⟩, ⟨some holder, row.epoch + 1, some text⟩)) ∨
    (∃ holder expires text, format expires = some text ∧
      row.holderId = some holder ∧ call.perform row = (none, ⟨some holder, row.epoch, some text⟩)) ∨
    call.perform row = (none, ⟨none, row.epoch, none⟩) := by
  cases call with
  | acquire now holderId ttl =>
    simp only [perform]
    cases taken : acquireLease now holderId ttl row with
    | error => exact .inl rfl
    | ok =>
      obtain ⟨text, written, _, lease, after⟩ := acquireLease_ok valid taken
      exact .inr (.inl ⟨now, holderId, ttl, text, rfl, written, by simp [lease, after]⟩)
  | renew now holderId ttl =>
    simp only [perform]
    cases renewed : renewLease now holderId ttl row with
    | error => exact .inl rfl
    | ok =>
      obtain ⟨text, written, held, after⟩ := renewLease_ok renewed
      exact .inr (.inr (.inl ⟨holderId, now + ttl, text, written, held, by simp [after, held]⟩))
  | release holderId =>
    cases releaseLease_cases holderId row with
    | inl same => exact .inl (congrArg (Prod.mk none) same)
    | inr freed => exact .inr (.inr (.inr (congrArg (Prod.mk none) freed)))

theorem perform_written (valid : row.Written) (call : LeaseCall) : (call.perform row).2.Written := by
  obtain same | ⟨_, _, _, _, _, written, same⟩ | ⟨_, _, _, written, _, same⟩ | same := call.perform_cases valid
  · exact same ▸ valid
  · exact same ▸ .held written
  · exact same ▸ .held written
  · exact same ▸ .free _

theorem perform_succeeds (valid : row.Written) (call : LeaseCall) : row.Succeeds (call.perform row).2 := by
  obtain same | ⟨_, _, _, _, _, _, same⟩ | ⟨holder, _, _, _, held, same⟩ | same := call.perform_cases valid
  · exact same ▸ .refl row
  · have rises : row.epoch < row.epoch + 1 := by omega
    rw [same]
    exact ⟨Int.le_of_lt rises, fun tie => absurd tie (Int.ne_of_lt rises)⟩
  · rw [same]
    exact ⟨Int.le_refl _, fun _ other known => known ▸ held⟩
  · rw [same]
    exact ⟨Int.le_refl _, nofun⟩

theorem perform_acquired (valid : row.Written) (call : LeaseCall) :
    ∀ lease ∈ (call.perform row).1, row.epoch < lease.epoch ∧ lease.epoch = (call.perform row).2.epoch := by
  intro lease member
  obtain same | ⟨_, _, _, _, _, _, same⟩ | ⟨_, _, _, _, _, same⟩ | same := call.perform_cases valid
  · rw [same] at member
    cases member
  · rw [same] at member ⊢
    cases member
    exact ⟨Int.lt_succ row.epoch, rfl⟩
  · rw [same] at member
    cases member
  · rw [same] at member
    cases member

theorem leaseRun_follows (calls : List LeaseCall) : Follows (fun row (call : LeaseCall) =>
    ((⟨call, (call.perform row).1, (call.perform row).2⟩ : LeaseStep), (call.perform row).2)) calls
      fun before after => before.Written → after.Written ∧ before.Succeeds after where
  refl row written := ⟨written, .refl row⟩
  trans first last written := by
    obtain ⟨middle, succeeds⟩ := first written
    exact ⟨(last middle).1, succeeds.trans (last middle).2⟩
  moves row call _ written := ⟨perform_written written call, perform_succeeds written call⟩

theorem leaseRun_written (valid : row.Written) (calls : List LeaseCall) :
    ∀ step ∈ leaseRun row calls, step.after.Written := by
  intro step member
  obtain ⟨before, follows, call, _, rfl⟩ := (leaseRun_follows calls).member member
  exact perform_written (follows valid).1 call

theorem leaseRun_chain (valid : row.Written) (calls : List LeaseCall) :
    (leaseRun row calls).Pairwise fun first last => first.after.Succeeds last.after ∧
      ∀ earlier ∈ first.acquired, ∀ later ∈ last.acquired, earlier.epoch < later.epoch := by
  refine ((leaseRun_follows calls).pairwise row).imp ?_
  rintro _ _ ⟨before, call, middle, late, start, rfl, follows, rfl⟩
  obtain ⟨written, succeeds⟩ := follows (perform_written (start valid).1 call)
  refine ⟨succeeds.trans (perform_succeeds written late), fun earlier taken later acquired => ?_⟩
  rw [(perform_acquired (start valid).1 call earlier taken).2]
  exact Int.lt_of_le_of_lt succeeds.epoch (perform_acquired written late later acquired).1

def LeaseRow.SameHolder (first last : LeaseRow) : Prop :=
  first.epoch = last.epoch → ∀ holder other, first.holderId = some holder → last.holderId = some other → holder = other

theorem LeaseRow.Succeeds.sameHolder {before after : LeaseRow} (succeeds : before.Succeeds after) :
    before.SameHolder after :=
  fun same _ other firstHeld lastHeld =>
    Option.some.inj (firstHeld.symm.trans (succeeds.holder same other lastHeld))

theorem LeaseRow.SameHolder.symm {first last : LeaseRow} (known : first.SameHolder last) : last.SameHolder first :=
  fun same holder other firstHeld lastHeld => (known same.symm other holder lastHeld firstHeld).symm

def LeaseRow.expiry (row : LeaseRow) : Option Int := row.expiresAt.bind parse

def Refused (result : Except Error (Lease × LeaseRow)) : Prop :=
  ∃ holder expiresAt, result = .error (.leaseHeld holder expiresAt)

def LeaseRow.Consistent (row : LeaseRow) (holder : String) (expires now : Int) (ttl : Nat) : Prop :=
  ((∃ lease after, renewLease now holder ttl row = .ok (lease, after)) ↔ now < expires) ∧
    ∀ other, other ≠ holder → (Refused (acquireLease now other ttl row) ↔ now < expires)

theorem takeLease_not_refused {holderId : String} : ¬ Refused (takeLease now holderId ttl row) := by
  rintro ⟨holder, expires, same⟩
  cases written : format (now + ttl) with
  | none =>
    simp only [takeLease, formatTime, written, bind, Except.bind] at same
    cases same
  | some =>
    simp only [takeLease, formatTime, written, bind, Except.bind] at same
    split at same
    · cases same
    · cases same

theorem acquireLease_refused {other : String} (written : format expires = some text) (differ : other ≠ holder) :
    Refused (acquireLease now other ttl ⟨some holder, epoch, some text⟩) ↔ now < expires := by
  rw [acquireLease_held written]
  by_cases running : now < expires
  · rw [if_pos ⟨differ.symm, running⟩]
    exact ⟨fun _ => running, fun _ => ⟨holder, expires, rfl⟩⟩
  · rw [if_neg fun both => running both.2]
    exact ⟨fun refused => absurd refused takeLease_not_refused, fun runs => absurd runs running⟩

theorem renewLease_iff (written : format expires = some text) :
    (∃ lease after, renewLease now holder ttl ⟨some holder, epoch, some text⟩ = .ok (lease, after)) ↔
      Passes now (now + ttl) expires := by
  unfold Passes
  cases later : format (now + ttl) with
  | none =>
    have unwritable := format_eq_none.mp later
    simp [renewLease, formatTime, later, unwritable, bind, Except.bind]
  | some =>
    have laterWritable := (format_eq_some.mp later).1
    cases current : format now with
    | none =>
      have unwritable := format_eq_none.mp current
      simp [renewLease, formatTime, later, current, unwritable, bind, Except.bind]
    | some clock =>
      have writable := (format_eq_some.mp current).1
      rw [← format_lt current written]
      by_cases runs : clock < text
      · simp [renewLease, formatTime, later, current, writable, laterWritable, runs, bind,
          Except.bind, pure, Except.pure]
      · simp [renewLease, formatTime, later, current, runs, bind, Except.bind, -List.not_lt]

theorem consistent_iff (written : format expires = some text) :
    LeaseRow.Consistent ⟨some holder, epoch, some text⟩ holder expires now ttl ↔
      Comparable now (now + ttl) expires := by
  rw [← passes_iff_comparable, ← renewLease_iff written]
  exact ⟨fun consistent => consistent.1, fun renews =>
    ⟨renews, fun other differ => acquireLease_refused written differ⟩⟩

theorem leases_contract (calls : List LeaseCall) : (leaseRun .free calls).Pairwise (fun first last =>
      ∀ earlier ∈ first.acquired, ∀ later ∈ last.acquired, earlier.epoch < later.epoch) ∧
    (∀ first ∈ leaseRun .free calls, ∀ last ∈ leaseRun .free calls, first.after.SameHolder last.after) ∧
    ∀ step ∈ leaseRun .free calls, ∀ holder, step.after.holderId = some holder →
      ∃ expires, step.after.expiry = some expires ∧
        ∀ now ttl, step.after.Consistent holder expires now ttl ↔ Comparable now (now + ttl) expires := by
  have valid : LeaseRow.free.Written := .free 0
  have chain := leaseRun_chain valid calls
  refine ⟨?_, ?_, ?_⟩
  · exact chain.imp fun known => known.2
  · have same : (leaseRun .free calls).Pairwise fun first last => first.after.SameHolder last.after :=
      chain.imp fun known => known.1.sameHolder
    exact same.forall_of_forall_of_flip (fun step _ => (LeaseRow.Succeeds.refl step.after).sameHolder)
      (same.imp fun known => known.symm)
  · intro step member holder held
    have written := leaseRun_written valid calls step member
    generalize step.after = row at written held
    cases written with
    | free => cases held
    | @held holder epoch expires text written =>
      cases held
      exact ⟨expires, parse_format written, fun now ttl => consistent_iff written⟩

/-- A lease that runs until half a second past :30 cannot be renewed at :30, when another
process is still refused. -/
theorem leases_clash : ((leaseRun .free [.acquire 500000000 "a" 30000000000]).map fun step => step.after) =
      [⟨some "a", 1, some "1970-01-01T00:00:30.5Z".toList⟩] ∧
    ¬ LeaseRow.Consistent ⟨some "a", 1, some "1970-01-01T00:00:30.5Z".toList⟩ "a" 30500000000 30000000000 30000000000 ∧
    acquireLease 30000000000 "b" 30000000000 ⟨some "a", 1, some "1970-01-01T00:00:30.5Z".toList⟩ =
      .error (.leaseHeld "a" 30500000000) := by
  refine ⟨by decide, ?_, by decide⟩
  rintro ⟨renews, _⟩
  obtain ⟨lease, after, renewed⟩ := renews.mpr (by decide)
  have lost : renewLease 30000000000 "a" 30000000000 ⟨some "a", 1, some "1970-01-01T00:00:30.5Z".toList⟩ =
      .error .leaseLost := by decide
  rw [lost] at renewed
  cases renewed

end Bento.Store
