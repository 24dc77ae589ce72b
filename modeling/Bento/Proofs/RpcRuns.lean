import Bento.Library.Runs
import Bento.Proofs.XdrCodec
import Mathlib.Data.List.Chain

/-! The connection to libvirt over whole runs of calls. As long as no call is dropped between
the first byte of its request and the last byte of its reply, and the daemon's packets are
not longer than the client takes, every call returns what the daemon answered to it. -/

namespace Bento.Hypervisor
open Library.Decimal Library.Wire Library.Runs List Option Packet

variable {payload : Bytes} {procedure : UInt32} {reply : Packet}

namespace Packet
variable {packet : Packet}

theorem fits_of_decode {other : Packet} (small : packet.length < 2 ^ 32)
    (decoded : (decodePacket packet.bytes).toOption = some other) :
    packet.length ≤ maxPacketLength := by
  by_contra long
  have counted := (framed small).counted
  have least : headerLength ≤ packet.length := Nat.le_add_right _ _
  unfold decodePacket at decoded
  rw [if_neg (by rw [length_bytes]; omega), if_neg (by simpa using counted),
    if_pos (by rw [counted, length_bytes]; exact Nat.not_le.mp long)] at decoded
  cases decoded

end Packet

theorem processReply_ne_io {fromUtf8 : Bytes → Except Text Text} {packet : Packet} {serial : Int32} {text : Text} :
    processReply fromUtf8 packet serial procedure ≠ .error (.io text) := by
  intro same
  simp only [processReply] at same
  repeat' split at same
  case h_2 error failed =>
    have plain : Reader.Orderly (do
        let code ← Reader.i32
        let _ ← Reader.i32
        let message := (← Reader.optionalString fromUtf8).getD []
        let _ ← Reader.i32
        return (⟨code, message⟩ : LibvirtError)) :=
      .bind .i32 fun _ => .bind .i32 fun _ => .bind (.optionalString) fun _ => .bind .i32 fun _ => .pure _
    obtain ⟨message, rfl⟩ := plain.decode failed
    cases same
  all_goals cases same

theorem processReply_ok {fromUtf8 : Bytes → Except Text Text} {packet : Packet} {serial : Int32} {bytes : Bytes}
    (accepted : processReply fromUtf8 packet serial procedure = .ok bytes) :
    packet.header.status = statusOk ∧ packet.payload = bytes := by
  simp only [processReply] at accepted
  repeat' split at accepted
  case isFalse.isFalse.isFalse.isTrue okay => exact ⟨okay, Except.ok.inj accepted⟩
  all_goals cases accepted

section
variable (fromUtf8 : Bytes → Except Text Text)

def Outcome.Answered (log : List (Packet × Packet)) (outcome : Outcome) : Prop :=
  ∃ request ∈ outcome.request, ∃ reply, (request, reply) ∈ log.drop outcome.since ∧
    outcome.result = some (processReply fromUtf8 reply request.header.serial request.header.procedure)

def Outcome.Failed (log : List (Packet × Packet)) (outcome : Outcome) : Prop :=
  (∃ error, outcome.result = some (.error error)) ∧ ¬ outcome.Answered fromUtf8 log

/-- What a call returns is what the daemon sent for it, and after a call that was dropped or
failed at most one more fails. -/
structure Rpc.InStep (rpc : Rpc) : Prop where
  own : ∀ outcome ∈ rpc.history, ∀ bytes, outcome.result = some (.ok bytes) →
    ∃ request ∈ outcome.request, ∃ reply, (request, reply) ∈ rpc.log.drop outcome.since ∧
      reply.header.status = statusOk ∧ reply.payload = bytes
  recovers : ∀ before first second third after, rpc.history = before ++ first :: second :: third :: after →
    first.result = none ∨ first.Failed fromUtf8 rpc.log → second.Failed fromUtf8 rpc.log →
      ¬ third.Failed fromUtf8 rpc.log

end

def Active.OnWire (call : Active) : Prop :=
  call.stage = .call ∧
    match call.phase with
    | .sending left => left.length < headerLength + call.payload.length
    | .length _ | .body _ _ => True
    | _ => False

def Stage.Accepts (status : UInt32) (payload : Bytes) : Stage → Prop
  | .authList => status = statusOk ∧ ((Hypervisor.authList payload).bind needsPolkit).isOk = true
  | .authPolkit => status = statusOk ∧ (Hypervisor.authPolkit payload).isOk = true
  | .connectOpen => status = statusOk
  | .call => True

/-- Requests fit their length field, packets of the daemon are not too long, the daemon lets the
client in and hangs up only between calls, and no call is dropped on the wire. -/
def Rpc.Permitted (rpc : Rpc) : RpcEvent → Prop
  | .issue _ payload => headerLength + payload.length < 2 ^ 32
  | .connected result => result.isOk = true
  | .cancel => ∀ call ∈ rpc.active, ¬ call.OnWire
  | .answer _ status payload =>
    headerLength + payload.length ≤ maxPacketLength ∧ ∀ call ∈ rpc.active, call.stage.Accepts status payload
  | .notify _ message => message.length ≤ maxPacketLength
  | .hangUp _ => rpc.active = none
  | _ => True

inductive Messages : Bytes → Prop
  | nil : Messages []
  | cons {message : Packet} {rest : Bytes} (kind : message.header.packetType = packetMessage)
      (fits : message.length ≤ maxPacketLength) (more : Messages rest) : Messages (message.bytes ++ rest)

theorem Messages.concat {bytes : Bytes} {message : Packet} (messages : Messages bytes)
    (kind : message.header.packetType = packetMessage) (fits : message.length ≤ maxPacketLength) :
    Messages (bytes ++ message.bytes) := by
  induction messages with
  | nil => simpa using Messages.cons kind fits .nil
  | cons first small more ih =>
    rw [append_assoc]
    exact .cons first small ih

structure Transport.Quiet (transport : Transport) : Prop where
  sent : transport.toDaemon = []
  unread : Messages transport.toClient

structure Active.Replied (flags : UInt32) (log : List (Packet × Packet)) (call : Active) (reply : Packet) : Prop where
  fits : reply.length ≤ maxPacketLength
  logged : (call.request flags, reply) ∈ log.drop call.since
  echoes : reply.header = { (call.request flags).header with packetType := packetReply, status := reply.header.status }
  accepted : call.stage.Accepts reply.header.status reply.payload

/-- The request is out, and what is read or still to be read are messages and at most the one
reply. -/
structure Active.Awaits (flags : UInt32) (log : List (Packet × Packet)) (call : Active)
    (transport : Transport) (got : Bytes) : Prop where
  up : transport.hungUp = false
  coming : (transport.toDaemon = (call.request flags).bytes ∧ Messages (got ++ transport.toClient)) ∨
    (transport.toDaemon = [] ∧ ∃ reply before after, call.Replied flags log reply ∧ Messages before ∧ Messages after ∧
      got ++ transport.toClient = before ++ (reply.bytes ++ after))

def Active.Holds (flags : UInt32) (log : List (Packet × Packet)) (call : Active) (transport : Transport) : Prop :=
  match call.phase with
  | .sending left =>
    left ≠ [] ∧ transport.toDaemon ++ left = (call.request flags).bytes ∧ Messages transport.toClient ∧
      (transport.hungUp = true → call.stage = .call ∧ transport.toDaemon = [])
  | .length got => got.length < 4 ∧ call.Awaits flags log transport got
  | .body total got =>
    4 ≤ got.length ∧ got.length < total ∧ total = (ofWord got).toNat ∧ call.Awaits flags log transport got
  | .dropping _ => call.stage = .call ∧ transport.Quiet ∧ transport.hungUp = true
  | .locking | .connecting => False

def Rpc.Alone (rpc : Rpc) (stage : Stage) : Prop := if stage = .call then rpc.opening = none else rpc.current = none

inductive Rpc.Tidy (rpc : Rpc) : Prop
  | idle (rest : rpc.active = none) (closed : rpc.opening = none) (quiet : ∀ transport ∈ rpc.current, transport.Quiet)
  | locking (call : Active) (now : rpc.active = some call) (phase : call.phase = .locking) (closed : rpc.opening = none)
      (quiet : ∀ transport ∈ rpc.current, transport.Quiet)
  | connecting (call : Active) (now : rpc.active = some call) (phase : call.phase = .connecting)
      (closed : rpc.opening = none)
      (missing : rpc.current = none)
  | busy (call : Active) (transport : Transport) (now : rpc.active = some call)
      (socket : rpc.transport call.stage.socket = some transport) (holds : call.Holds rpc.flags rpc.log transport)
      (alone : rpc.Alone call.stage)

section
variable {fromUtf8 : Bytes → Except Text Text} {flags : UInt32} {log more : List (Packet × Packet)} {rpc next : Rpc}

section
variable (socket : Socket) (transport : Transport)

@[simp] theorem Rpc.transport_setTransport : (rpc.setTransport socket transport).transport socket = some transport := by
  cases socket <;> rfl

@[simp] theorem Rpc.setTransport_flags : (rpc.setTransport socket transport).flags = rpc.flags := by
  cases socket <;> rfl

@[simp] theorem Rpc.setTransport_active : (rpc.setTransport socket transport).active = rpc.active := by
  cases socket <;> rfl

@[simp] theorem Rpc.setTransport_log : (rpc.setTransport socket transport).log = rpc.log := by cases socket <;> rfl

@[simp] theorem Rpc.setTransport_history : (rpc.setTransport socket transport).history = rpc.history := by
  cases socket <;> rfl

end

variable {stage : Stage} {transport : Transport} {socket : Socket} {call : Active} {outcome : Outcome}
  {message : Packet}

theorem Rpc.Alone.set (alone : rpc.Alone stage) : (rpc.setTransport stage.socket transport).Alone stage := by
  cases stage <;> exact alone

theorem Rpc.up_set {old : Transport} (found : rpc.transport socket = some old)
    (same : transport.hungUp = old.hungUp) (up : ∀ other ∈ rpc.current, other.hungUp = false) :
    ∀ other ∈ (rpc.setTransport socket transport).current, other.hungUp = false := by
  intro other held
  cases socket with
  | opening => exact up other held
  | current =>
    cases Option.mem_some.mp held
    rw [same]
    exact up old found

theorem Active.request_length (sized : headerLength + call.payload.length < 2 ^ 32) :
    (call.request flags).length < 2 ^ 32 := by
  unfold request Packet.length
  cases call.stage with
  | call => exact sized
  | authList | authPolkit | connectOpen => simp [headerLength, openPayload]

theorem Rpc.start_eq (found : rpc.transport stage.socket = some transport)
    (sized : headerLength + call.payload.length < 2 ^ 32) :
    rpc.start call stage = some { rpc.setTransport stage.socket { transport with serial := transport.serial + 1 } with
      active := some { call with
        stage := stage
        serial := transport.serial + 1
        phase := .sending ({ call with stage := stage, serial := transport.serial + 1 : Active }.request
          rpc.flags).bytes } } := by
  unfold start
  rw [found, map_some]
  have fits := @Active.request_length rpc.flags { call with stage := stage, serial := transport.serial + 1 } sized
  simp only [setTransport_flags, encodePacket]
  rw [if_neg (by omega), if_neg (by omega)]

structure Recorded (fromUtf8 : Bytes → Except Text Text) (log : List (Packet × Packet))
    (history : List Outcome) : Prop where
  own : ∀ outcome ∈ history, ∀ bytes, outcome.result = some (.ok bytes) →
    ∃ request ∈ outcome.request, ∃ reply, (request, reply) ∈ log.drop outcome.since ∧
      reply.header.status = statusOk ∧ reply.payload = bytes
  apart : history.IsChain fun first last => ¬ (first.Failed fromUtf8 log ∧ last.Failed fromUtf8 log)

theorem mem_drop_append {entry : Packet × Packet} {since : Nat} (logged : entry ∈ log.drop since) :
    entry ∈ (log ++ more).drop since := by
  rw [drop_append]
  exact mem_append_left _ logged

theorem Outcome.Answered.append (answered : outcome.Answered fromUtf8 log) :
    outcome.Answered fromUtf8 (log ++ more) := by
  obtain ⟨request, own, reply, logged, same⟩ := answered
  exact ⟨request, own, reply, mem_drop_append logged, same⟩

theorem Outcome.Failed.before (failed : outcome.Failed fromUtf8 (log ++ more)) : outcome.Failed fromUtf8 log :=
  ⟨failed.1, fun answered => failed.2 answered.append⟩

theorem Recorded.append {history : List Outcome} (recorded : Recorded fromUtf8 log history) :
    Recorded fromUtf8 (log ++ more) history where
  own outcome listed bytes same := by
    obtain ⟨request, own, reply, logged, fine⟩ := recorded.own outcome listed bytes same
    exact ⟨request, own, reply, mem_drop_append logged, fine⟩
  apart := recorded.apart.imp fun _ _ apart ⟨first, last⟩ => apart ⟨first.before, last.before⟩

theorem Recorded.concat {history : List Outcome} (recorded : Recorded fromUtf8 log history)
    (ended : outcome.result = none ∨ outcome.Answered fromUtf8 log ∨
      (∃ error, outcome.result = some (.error error)) ∧ ∀ last ∈ history.getLast?, ¬ last.Failed fromUtf8 log) :
    Recorded fromUtf8 log (history ++ [outcome]) where
  own other listed bytes same := by
    rcases List.mem_append.mp listed with earlier | now
    · exact recorded.own other earlier bytes same
    · cases List.mem_singleton.mp now
      rcases ended with dropped | ⟨request, own, reply, logged, answered⟩ | ⟨⟨error, failed⟩, -⟩
      · rw [dropped] at same
        cases same
      · rw [answered] at same
        exact ⟨request, own, reply, logged, processReply_ok (Option.some.inj same)⟩
      · rw [failed] at same
        cases same
  apart := by
    refine recorded.apart.append (.singleton _) fun last listed first same => ?_
    cases Option.mem_some.mp same
    rintro ⟨failed, ⟨error, again⟩, unanswered⟩
    rcases ended with dropped | answered | ⟨-, fine⟩
    · rw [dropped] at again
      cases again
    · exact unanswered answered
    · exact fine last listed failed

theorem Recorded.inStep (recorded : Recorded fromUtf8 rpc.log rpc.history) : rpc.InStep fromUtf8 where
  own := recorded.own
  recovers before first second third after same _ failed again := by
    have apart := recorded.apart
    rw [same] at apart
    have tail := (List.isChain_append.mp apart).2.1
    simp only [isChain_cons_cons] at tail
    exact tail.2.1 ⟨failed, again⟩

structure Rpc.Sound (fromUtf8 : Bytes → Except Text Text) (rpc : Rpc) : Prop where
  tidy : rpc.Tidy
  sized : ∀ call ∈ rpc.active, headerLength + call.payload.length < 2 ^ 32 ∧ call.since ≤ rpc.log.length
  recorded : Recorded fromUtf8 rpc.log rpc.history
  fresh : ∀ last ∈ rpc.history.getLast?, last.Failed fromUtf8 rpc.log →
    (∀ transport ∈ rpc.current, transport.hungUp = false) ∧ (rpc.active = none → rpc.current = none)

theorem Rpc.Sound.keep (sound : rpc.Sound fromUtf8) (more : List (Packet × Packet)) (tidy : next.Tidy)
    (history : next.history = rpc.history) (grown : next.log = rpc.log ++ more)
    (sized : ∀ call ∈ next.active, headerLength + call.payload.length < 2 ^ 32 ∧ call.since ≤ next.log.length)
    (fresh : (∀ transport ∈ rpc.current, transport.hungUp = false) → (rpc.active = none → rpc.current = none) →
      (∀ transport ∈ next.current, transport.hungUp = false) ∧ (next.active = none → next.current = none)) :
    next.Sound fromUtf8 where
  tidy := tidy
  sized := sized
  recorded := by
    rw [history, grown]
    exact sound.recorded.append
  fresh last listed failed := by
    rw [history] at listed
    rw [grown] at failed
    obtain ⟨up, missing⟩ := sound.fresh last listed failed.before
    exact fresh up missing

theorem Rpc.Sound.over (sound : rpc.Sound fromUtf8) {result : Option (Except ApiError Bytes)} {ended : Rpc}
    (history : ended.history = rpc.history) (same : ended.log = rpc.log)
    (quiet : ∀ transport ∈ ended.current, transport.Quiet)
    (ends : result = none ∨ (∃ reply, call.stage = .call ∧ (call.request ended.flags, reply) ∈ rpc.log.drop call.since ∧
        result = some (processReply fromUtf8 reply call.serial (call.request ended.flags).header.procedure)) ∨
      (∃ error, result = some (.error error)) ∧ ended.current = none ∧
        ∃ transport ∈ rpc.current, transport.hungUp = true) :
    (ended.finish call result).Sound fromUtf8 := by
  have fits : (⟨call.since, if call.stage = .call then some (call.request ended.flags) else none, result⟩ :
    Outcome).result = none ∨
      (⟨call.since, if call.stage = .call then some (call.request ended.flags) else none, result⟩ : Outcome).Answered
        fromUtf8 rpc.log ∨
      ((∃ error, result = some (.error error)) ∧ ∀ last ∈ rpc.history.getLast?, ¬ last.Failed fromUtf8 rpc.log) := by
    rcases ends with dropped | ⟨reply, own, logged, answered⟩ | ⟨failed, -, transport, held, down⟩
    · exact .inl dropped
    · exact .inr (.inl ⟨call.request ended.flags, by simp [own], reply, logged, answered⟩)
    · refine .inr (.inr ⟨failed, fun last listed before => ?_⟩)
      have up := (sound.fresh last listed before).1 transport held
      rw [up] at down
      cases down
  refine ⟨.idle rfl rfl quiet, nofun, ?_, ?_⟩
  · change Recorded fromUtf8 ended.log (ended.history ++ [_])
    rw [history, same]
    exact sound.recorded.concat fits
  · intro last listed failed
    change last ∈ (ended.history ++ [_]).getLast? at listed
    rw [List.getLast?_concat] at listed
    cases Option.mem_some.mp listed
    change Outcome.Failed fromUtf8 ended.log _ at failed
    rw [same] at failed
    rcases ends with dropped | ⟨reply, own, logged, answered⟩ | ⟨-, missing, -⟩
    · obtain ⟨⟨error, again⟩, -⟩ := failed
      cases dropped.symm.trans again
    · exact absurd ⟨call.request ended.flags, by simp [own], reply, logged, answered⟩ failed.2
    · change (∀ transport ∈ ended.current, _) ∧ (_ → ended.current = none)
      rw [missing]
      exact ⟨nofun, fun _ => rfl⟩

theorem Rpc.Sound.started (sound : rpc.Sound fromUtf8) {before : Rpc} (moved : before.start call stage = some next)
    (history : before.history = rpc.history) (log : before.log = rpc.log)
    (sized : headerLength + call.payload.length < 2 ^ 32 ∧ call.since ≤ rpc.log.length)
    (found : before.transport stage.socket = some transport) (quiet : transport.Quiet)
    (up : transport.hungUp = true → stage = .call) (alone : before.Alone stage)
    (fresh : (∀ transport ∈ rpc.current, transport.hungUp = false) →
    ∀ transport ∈ before.current, transport.hungUp = false) :
    next.Sound fromUtf8 := by
  rw [start_eq found sized.1] at moved
  cases moved
  refine sound.keep [] (.busy _ { transport with serial := transport.serial + 1 } rfl ?_ ?_ ?_) ?_ ?_ ?_ ?_
  · exact transport_setTransport _ _
  · refine ⟨fun empty => ?_, ?_, quiet.unread, fun down => ⟨up down, quiet.sent⟩⟩
    · have long := congrArg List.length empty
      simp [Packet.length, headerLength] at long
    · simp [quiet.sent, Active.request]
  · exact alone.set
  · simpa using history
  · simpa using log
  · rintro _ ⟨⟩
    simpa [log] using sized
  · intro below missing
    refine ⟨up_set found rfl (fresh below), fun idle => ?_⟩
    cases idle

section
variable {call : Active} {transport : Transport} {got : Bytes}

theorem Active.Awaits.read (awaits : call.Awaits flags log transport got) (count : Nat) :
    call.Awaits flags log { transport with toClient := transport.toClient.drop count }
      (got ++ transport.toClient.take count) where
  up := awaits.up
  coming := by
    rw [append_assoc, take_append_drop]
    exact awaits.coming

theorem Active.Replied.at (replied : call.Replied flags log reply) (phase : Phase) :
    ({ call with phase := phase } : Active).Replied flags log reply :=
  ⟨replied.fits, replied.logged, replied.echoes, replied.accepted⟩

theorem Active.Awaits.at (awaits : call.Awaits flags log transport got) (phase : Phase) :
    ({ call with phase := phase } : Active).Awaits flags log transport got where
  up := awaits.up
  coming := awaits.coming.imp_right fun ⟨sent, reply, before, after, replied, rest⟩ =>
    ⟨sent, reply, before, after, replied.at phase, rest⟩

theorem Active.Awaits.first (awaits : call.Awaits flags log transport got) (present : got ≠ []) :
    ∃ first rest, got ++ transport.toClient = first.bytes ++ rest ∧ first.length ≤ maxPacketLength ∧
      ((first.header.packetType = packetMessage ∧ call.Awaits flags log { transport with toClient := rest } []) ∨
        (call.Replied flags log first ∧ transport.toDaemon = [] ∧ Messages rest)) := by
  replace present : got ++ transport.toClient ≠ [] := fun empty => present (List.append_eq_nil_iff.mp empty).1
  rcases awaits.coming with ⟨sent, messages⟩ | ⟨sent, reply, before, after, replied, messages, later, split⟩
  · generalize got ++ transport.toClient = stream at messages present
    cases messages with
    | nil => exact absurd rfl present
    | cons kind fits more => exact ⟨_, _, rfl, fits, .inl ⟨kind, awaits.up, .inl ⟨sent, more⟩⟩⟩
  · cases messages with
    | nil => exact ⟨reply, after, split, replied.fits, .inr ⟨replied, sent, later⟩⟩
    | @cons message rest kind fits more =>
      refine ⟨message, rest ++ (reply.bytes ++ after), by rw [split, append_assoc], fits, .inl ⟨kind, awaits.up, ?_⟩⟩
      exact .inr ⟨sent, reply, rest, after, replied, more, later, rfl⟩

theorem Active.Replied.process (replied : call.Replied flags log reply) (accepted : reply.header.status = statusOk) :
    processReply fromUtf8 reply call.serial (call.request flags).header.procedure = .ok reply.payload := by
  have echoes := replied.echoes
  unfold processReply
  rw [echoes]
  simp [accepted, Active.request, packetReply]

end

theorem Rpc.Sound.issue (sound : rpc.Sound fromUtf8)
    (permitted : headerLength + payload.length < 2 ^ 32)
    (moved : rpc.step fromUtf8 (.issue procedure payload) = some next) :
    next.Sound fromUtf8 := by
  simp only [step] at moved
  split at moved
  · cases moved
  · rename_i free
    have rest : rpc.active = none := by simpa using free
    cases moved
    refine sound.keep [] ?_ rfl (append_nil _).symm ?_ ?_
    · cases sound.tidy with
      | idle _ closed quiet => exact .locking _ rfl rfl closed quiet
      | locking _ now | connecting _ now | busy _ _ now => cases rest.symm.trans now
    · rintro _ ⟨⟩
      exact ⟨permitted, Nat.le_refl _⟩
    · intro up missing
      exact ⟨up, nofun⟩

theorem Rpc.quiet_unless_onWire (holds : call.Holds flags log transport) (off : ¬ call.OnWire)
    (own : call.stage = .call) : transport.Quiet := by
  unfold Active.Holds at holds
  unfold Active.OnWire at off
  cases phase : call.phase with
  | sending =>
    simp only [phase, own, true_and, Nat.not_lt] at holds off
    obtain ⟨-, whole, unread, -⟩ := holds
    have lengths := congrArg List.length whole
    simp only [length_append, length_bytes, Packet.length, Active.request, own] at lengths
    exact ⟨List.length_eq_zero_iff.mp (by omega), unread⟩
  | length got | body total got => simp [phase, own] at off
  | dropping =>
    simp only [phase] at holds
    exact holds.2.1
  | locking | connecting => simp only [phase] at holds

theorem Rpc.Sound.cancel (sound : rpc.Sound fromUtf8) (permitted : ∀ call ∈ rpc.active, ¬ call.OnWire)
    (moved : rpc.step fromUtf8 .cancel = some next) : next.Sound fromUtf8 := by
  simp only [step, bind_eq_some_iff] at moved
  obtain ⟨call, now, moved⟩ := moved
  cases moved
  refine sound.over rfl rfl ?_ (.inl rfl)
  cases sound.tidy with
  | idle rest => cases rest.symm.trans now
  | locking _ _ _ _ quiet => exact quiet
  | connecting _ _ _ _ missing =>
    rw [missing]
    exact nofun
  | busy other transport same socket holds alone =>
    cases Option.some.inj (now.symm.trans same)
    have quietly := quiet_unless_onWire holds (permitted call now)
    intro other held
    by_cases own : call.stage = .call
    · rw [own] at socket
      cases Option.some.inj (socket.symm.trans held)
      exact quietly own
    · unfold Alone at alone
      rw [if_neg own] at alone
      cases alone.symm.trans held

theorem Rpc.Sound.locked (sound : rpc.Sound fromUtf8) (moved : rpc.step fromUtf8 .locked = some next) :
    next.Sound fromUtf8 := by
  simp only [step, bind_eq_some_iff] at moved
  obtain ⟨call, now, moved⟩ := moved
  have sized := sound.sized call now
  cases sound.tidy with
  | idle rest => cases rest.symm.trans now
  | locking other same phase closed quiet =>
    cases Option.some.inj (now.symm.trans same)
    simp only [advance, phase] at moved
    cases held : rpc.current with
    | some transport =>
      simp only [held, isSome_some, if_true] at moved
      exact sound.started moved rfl rfl sized held (quiet transport held) (fun _ => rfl) closed id
    | none =>
      simp only [held, isSome_none, Bool.false_eq_true, if_false] at moved
      cases moved
      refine sound.keep [] (.connecting _ rfl rfl closed rfl) rfl (append_nil _).symm ?_ fun _ _ => ⟨nofun, nofun⟩
      rintro _ ⟨⟩
      exact sized
  | connecting other same phase =>
    cases Option.some.inj (now.symm.trans same)
    simp [advance, phase] at moved
  | busy other transport same socket holds =>
    cases Option.some.inj (now.symm.trans same)
    unfold Active.Holds at holds
    cases phase : call.phase with
    | dropping =>
      simp only [phase] at holds
      simp only [advance, phase] at moved
      cases moved
      obtain ⟨own, quiet, down⟩ := holds
      rw [own] at socket
      exact sound.over rfl rfl nofun (.inr (.inr ⟨⟨_, rfl⟩, rfl, transport, socket, down⟩))
    | locking | connecting => simp only [phase] at holds
    | sending | length | body => simp [advance, phase] at moved

theorem Rpc.Sound.connected (sound : rpc.Sound fromUtf8) {result : Except Text Unit} (permitted : result.isOk = true)
    (moved : rpc.step fromUtf8 (.connected result) = some next) : next.Sound fromUtf8 := by
  simp only [step, bind_eq_some_iff] at moved
  obtain ⟨call, now, moved⟩ := moved
  have sized := sound.sized call now
  cases result with
  | error => cases permitted
  | ok =>
    cases phase : call.phase with
    | connecting =>
      simp only [advance, phase] at moved
      cases sound.tidy with
      | idle rest => cases rest.symm.trans now
      | locking other same locks =>
        cases Option.some.inj (now.symm.trans same)
        cases phase.symm.trans locks
      | connecting other same _ closed missing =>
        exact sound.started moved rfl rfl sized rfl ⟨rfl, .nil⟩ nofun missing id
      | busy other transport same socket holds =>
        cases Option.some.inj (now.symm.trans same)
        simp only [Active.Holds, phase] at holds
    | locking | sending | length | body | dropping => simp [advance, phase] at moved

theorem Rpc.Sound.wrote (sound : rpc.Sound fromUtf8) {count : Nat}
    (moved : rpc.step fromUtf8 (.wrote count) = some next) : next.Sound fromUtf8 := by
  simp only [step, bind_eq_some_iff] at moved
  obtain ⟨call, now, moved⟩ := moved
  have sized := sound.sized call now
  cases sound.tidy with
  | idle rest => cases rest.symm.trans now
  | locking other same phase | connecting other same phase =>
    cases Option.some.inj (now.symm.trans same)
    simp [advance, phase] at moved
  | busy other transport same socket holds alone =>
    cases Option.some.inj (now.symm.trans same)
    cases phase : call.phase with
    | sending left =>
      simp only [Active.Holds, phase] at holds
      obtain ⟨more, whole, unread, down⟩ := holds
      simp only [advance, socket, phase] at moved
      split at moved
      · cases moved
      · rename_i fine
        have up : transport.hungUp = false := by
          cases hung : transport.hungUp with
          | false => rfl
          | true => exact absurd (.inl hung) fine
        have split : transport.toDaemon ++ left.take count ++ left.drop count = (call.request rpc.flags).bytes := by
          rw [append_assoc, take_append_drop, whole]
        cases moved
        refine sound.keep [] (.busy _ _ rfl (transport_setTransport _ _) ?_ alone.set) ?_ ?_ ?_ ?_
        · by_cases last : left.drop count = []
          · rw [last, append_nil] at split
            simp only [Active.Holds, last, if_true]
            exact ⟨Nat.zero_lt_succ 3, up, .inl ⟨by rw [setTransport_flags]; exact split, unread⟩⟩
          · simp only [Active.Holds, last, if_false]
            refine ⟨last, by rw [setTransport_flags]; exact split, unread, fun hung => ?_⟩
            cases up.symm.trans hung
        · simp
        · simp
        · rintro _ ⟨⟩
          simpa using sized
        · exact fun up _ => ⟨up_set socket rfl up, nofun⟩
    | locking | connecting | length | body | dropping => simp [advance, socket, phase] at moved

section
variable {call : Active}

theorem Rpc.complete_io (own : call.stage = .call) (text : Text) :
    rpc.complete call (.error (.io text)) = some { rpc with active := some { call with phase := .dropping text } } := by
  cases call
  cases own
  rfl

theorem Rpc.complete_call (own : call.stage = .call) {result : Except ApiError Bytes}
    (other : ∀ text, result ≠ .error (.io text)) :
    rpc.complete call result = some (rpc.finish call (some result)) := by
  cases call
  cases own
  unfold complete
  split
  · exact absurd rfl (other _)
  · rfl
  all_goals contradiction

theorem Rpc.complete_authList (own : call.stage = .authList) {polkit : Bool}
    (listed : (authList payload).bind needsPolkit = .ok polkit) :
    rpc.complete call (.ok payload) = rpc.start call (if polkit then .authPolkit else .connectOpen) := by
  cases call
  cases own
  simp only [complete, listed]

theorem Rpc.complete_authPolkit (own : call.stage = .authPolkit) (done : authPolkit payload = .ok ()) :
    rpc.complete call (.ok payload) = rpc.start call .connectOpen := by
  cases call
  cases own
  simp only [complete, done]

theorem Rpc.complete_connectOpen (own : call.stage = .connectOpen) (payload : Bytes) :
    rpc.complete call (.ok payload) = { rpc with current := rpc.opening, opening := none }.start call .call := by
  cases call
  cases own
  rfl

end

theorem Rpc.Sound.failed (sound : rpc.Sound fromUtf8) {text : Text}
    (moved : rpc.step fromUtf8 (.failed text) = some next) : next.Sound fromUtf8 := by
  simp only [step, bind_eq_some_iff] at moved
  obtain ⟨call, now, moved⟩ := moved
  have sized := sound.sized call now
  cases sound.tidy with
  | idle rest => cases rest.symm.trans now
  | locking other same phase | connecting other same phase =>
    cases Option.some.inj (now.symm.trans same)
    simp [advance, phase] at moved
  | busy other transport same socket holds alone =>
    cases Option.some.inj (now.symm.trans same)
    cases phase : call.phase with
    | sending =>
      simp only [Active.Holds, phase] at holds
      obtain ⟨-, -, unread, down⟩ := holds
      simp only [advance, socket, phase] at moved
      split at moved
      · rename_i hung
        obtain ⟨own, sent⟩ := down hung
        rw [complete_io own] at moved
        cases moved
        refine sound.keep [] (.busy _ transport rfl socket ⟨own, ⟨sent, unread⟩, hung⟩ alone) rfl
          (append_nil _).symm ?_ ?_
        · rintro _ ⟨⟩
          exact sized
        · exact fun up _ => ⟨up, nofun⟩
      · cases moved
    | length =>
      simp only [Active.Holds, phase] at holds
      simp [advance, socket, phase, holds.2.up] at moved
    | body =>
      simp only [Active.Holds, phase] at holds
      simp [advance, socket, phase, holds.2.2.2.up] at moved
    | locking | connecting | dropping => simp [advance, socket, phase] at moved

theorem Rpc.Sound.completed (sound : rpc.Sound fromUtf8) {rest : Bytes}
    (sized : headerLength + call.payload.length < 2 ^ 32 ∧ call.since ≤ rpc.log.length)
    (socket : rpc.transport call.stage.socket = some transport) (alone : rpc.Alone call.stage)
    (replied : call.Replied rpc.flags rpc.log reply) (up : transport.hungUp = false) (sent : transport.toDaemon = [])
    (unread : Messages rest) (moved :
      (rpc.setTransport call.stage.socket { transport with toClient := rest }).complete call
      (processReply fromUtf8 reply call.serial (call.request rpc.flags).header.procedure) = some next) :
    next.Sound fromUtf8 := by
  have accepted := replied.accepted
  have quiet : ({ transport with toClient := rest } : Transport).Quiet := ⟨sent, unread⟩
  have down {stage : Stage} (hung : transport.hungUp = true) : stage = .call := by cases up.symm.trans hung
  -- During the handshake the next request goes out on the same socket.
  have follows (stage : Stage) (same : stage.socket = call.stage.socket) (alone : rpc.Alone stage)
      (moved : (rpc.setTransport call.stage.socket { transport with toClient := rest }).start call stage = some next) :
      next.Sound fromUtf8 := by
    rw [← same] at moved socket
    exact sound.started moved (by simp) (by simp) sized (transport_setTransport _ _) quiet down
      alone.set (up_set socket rfl)
  cases stage : call.stage with
  | call =>
    rw [complete_call stage fun _ => processReply_ne_io] at moved
    cases moved
    refine sound.over (by simp) (by simp) ?_ (.inr (.inl ⟨reply, stage, ?_, ?_⟩))
    · rw [stage]
      rintro other ⟨⟩
      exact quiet
    · rw [setTransport_flags]
      exact replied.logged
    · rw [setTransport_flags]
  | authList =>
    rw [stage] at accepted
    rw [replied.process accepted.1] at moved
    obtain ⟨polkit, listed⟩ : ∃ polkit, (authList reply.payload).bind needsPolkit = .ok polkit := by
      have okay := accepted.2
      cases listed : (authList reply.payload).bind needsPolkit with
      | error =>
        rw [listed] at okay
        cases okay
      | ok polkit => exact ⟨polkit, rfl⟩
    rw [complete_authList stage listed] at moved
    rw [stage] at alone
    cases polkit with
    | false => exact follows .connectOpen (by rw [stage]; rfl) alone moved
    | true => exact follows .authPolkit (by rw [stage]; rfl) alone moved
  | authPolkit =>
    rw [stage] at accepted
    rw [replied.process accepted.1] at moved
    have done : authPolkit reply.payload = .ok () := by
      have okay := accepted.2
      cases done : authPolkit reply.payload with
      | error =>
        rw [done] at okay
        cases okay
      | ok => rfl
    rw [complete_authPolkit stage done] at moved
    rw [stage] at alone
    exact follows .connectOpen (by rw [stage]; rfl) alone moved
  | connectOpen =>
    rw [stage] at accepted alone socket moved
    rw [replied.process accepted, complete_connectOpen stage] at moved
    refine sound.started moved rfl rfl sized rfl quiet down rfl ?_
    rintro - other ⟨⟩
    exact up

theorem Rpc.Sound.read (sound : rpc.Sound fromUtf8) {count : Nat}
    (moved : rpc.step fromUtf8 (.read count) = some next) : next.Sound fromUtf8 := by
  simp only [step, bind_eq_some_iff] at moved
  obtain ⟨call, now, moved⟩ := moved
  have sized := sound.sized call now
  cases sound.tidy with
  | idle rest => cases rest.symm.trans now
  | locking other same phase | connecting other same phase =>
    cases Option.some.inj (now.symm.trans same)
    simp [advance, phase, Phase.wants] at moved
  | busy other transport same socket holds alone =>
    cases Option.some.inj (now.symm.trans same)
    -- While the frame is not complete, what was read only changes hands.
    have reads {phase : Phase}
        (moved : some { rpc.setTransport call.stage.socket { transport with toClient := transport.toClient.drop count } with
          active := some { call with phase := phase } } = some next)
        (still : ({ call with phase := phase } : Active).Holds rpc.flags rpc.log
          { transport with toClient := transport.toClient.drop count }) : next.Sound fromUtf8 := by
      cases moved
      refine sound.keep [] (.busy _ _ rfl (transport_setTransport _ _) ?_ alone.set) ?_ ?_ ?_ ?_
      · simpa using still
      · simp
      · simp
      · rintro _ ⟨⟩
        simpa using sized
      · exact fun up _ => ⟨up_set socket rfl up, nofun⟩
    cases phase : call.phase with
    | length got =>
      simp only [Active.Holds, phase] at holds
      obtain ⟨short, awaits⟩ := holds
      simp only [advance, socket, phase, Phase.wants] at moved
      split at moved
      · cases moved
      · rename_i fine
        have reading := awaits.read count
        have grown := length_take_more got (by omega : count ≤ transport.toClient.length)
        have present : got ++ transport.toClient.take count ≠ [] := List.length_pos_iff.mp (by omega)
        obtain ⟨first, rest, split, fits, -⟩ := reading.first present
        have framed := Packet.framed (Nat.lt_of_le_of_lt fits (by decide) : first.length < 2 ^ 32)
        simp only [received] at moved
        split at moved
        · rename_i more
          exact reads moved ⟨more, reading.at _⟩
        · rename_i full
          have long : 4 ≤ (got ++ transport.toClient.take count).length := Nat.not_lt.mp full
          have counted := ofWord_got framed split long
          rw [length_bytes] at counted
          have least : headerLength ≤ first.length := Nat.le_add_right _ _
          rw [if_pos (by rw [counted]; exact ⟨least, fits⟩)] at moved
          refine reads moved ⟨long, ?_, rfl, reading.at _⟩
          rw [counted, grown]
          unfold headerLength at least
          omega
    | body total got =>
      simp only [Active.Holds, phase] at holds
      obtain ⟨long, short, whole, awaits⟩ := holds
      simp only [advance, socket, phase, Phase.wants] at moved
      split at moved
      · cases moved
      · rename_i fine
        have reading := awaits.read count
        have grown := length_take_more got (by omega : count ≤ transport.toClient.length)
        have present : got ++ transport.toClient.take count ≠ [] := List.length_pos_iff.mp (by omega)
        obtain ⟨first, rest, split, fits, next⟩ := reading.first present
        have framed := Packet.framed (Nat.lt_of_le_of_lt fits (by decide) : first.length < 2 ^ 32)
        have counted : (ofWord got).toNat = (ofWord (got ++ transport.toClient.take count)).toNat := by
          rw [ofWord_append long]
        simp only [received] at moved
        split at moved
        · rename_i more
          exact reads moved ⟨by omega, more, whole.trans counted, reading.at _⟩
        · rename_i full
          rw [ofWord_got framed split (by omega)] at counted
          obtain ⟨same, left⟩ : _ ∧ transport.toClient.drop count = rest := eq_frame split (by omega)
          rw [same, decode_bytes fits] at moved
          rcases next with ⟨kind, again⟩ | ⟨replied, sent, unread⟩
          · simp only [kind, if_true] at moved
            refine reads moved ⟨Nat.zero_lt_succ 3, ?_⟩
            rw [left]
            exact again.at _
          · have kind : first.header.packetType = packetReply := by rw [replied.echoes]
            have other : packetReply ≠ packetMessage := by decide
            simp only [kind, other, if_false, setTransport_flags] at moved
            refine sound.completed sized socket alone (replied.at _) awaits.up sent unread ?_
            rw [← left]
            exact moved
    | locking | connecting | sending | dropping => simp [advance, socket, phase, Phase.wants] at moved

theorem Rpc.Sound.hangUp (sound : rpc.Sound fromUtf8) (permitted : rpc.active = none)
    (moved : rpc.step fromUtf8 (.hangUp socket) = some next) : next.Sound fromUtf8 := by
  simp only [step, map_eq_some_iff] at moved
  obtain ⟨transport, found, rfl⟩ := moved
  cases sound.tidy with
  | locking _ now | connecting _ now | busy _ _ now => cases permitted.symm.trans now
  | idle rest closed quiet =>
    cases socket with
    | opening => cases closed.symm.trans found
    | current =>
      refine sound.keep [] (.idle rest closed ?_) rfl (append_nil _).symm ?_ fun _ missing => ?_
      · rintro _ ⟨⟩
        have before := quiet transport found
        exact ⟨before.sent, before.unread⟩
      · intro call now
        cases rest.symm.trans now
      · cases (missing rest).symm.trans found

theorem Rpc.Alone.only {other : Transport} (alone : rpc.Alone stage)
    (found : rpc.transport stage.socket = some transport) (held : rpc.transport socket = some other) :
    socket = stage.socket ∧ other = transport := by
  have same : socket = stage.socket := by
    cases stage <;> cases socket <;> first | rfl | cases some_ne_none _ (held.symm.trans alone)
  exact ⟨same, Option.some.inj (held.symm.trans (same ▸ found))⟩

theorem Active.Awaits.notify {got : Bytes} (awaits : call.Awaits flags log transport got)
    (kind : message.header.packetType = packetMessage) (fits : message.length ≤ maxPacketLength) :
    call.Awaits flags log { transport with toClient := transport.toClient ++ message.bytes } got where
  up := awaits.up
  coming := by
    rcases awaits.coming with ⟨sent, messages⟩ | ⟨sent, reply, before, after, replied, earlier, later, split⟩
    · refine .inl ⟨sent, ?_⟩
      rw [← append_assoc]
      exact messages.concat kind fits
    · refine .inr ⟨sent, reply, before, after ++ message.bytes, replied, earlier, later.concat kind fits, ?_⟩
      rw [← append_assoc, split, append_assoc, append_assoc]

theorem Active.Holds.notify (holds : call.Holds flags log transport)
    (kind : message.header.packetType = packetMessage) (fits : message.length ≤ maxPacketLength) :
    call.Holds flags log { transport with toClient := transport.toClient ++ message.bytes } := by
  unfold Active.Holds at holds ⊢
  cases phase : call.phase with
  | sending =>
    simp only [phase] at holds ⊢
    exact ⟨holds.1, holds.2.1, holds.2.2.1.concat kind fits, holds.2.2.2⟩
  | length =>
    simp only [phase] at holds ⊢
    exact ⟨holds.1, holds.2.notify kind fits⟩
  | body =>
    simp only [phase] at holds ⊢
    exact ⟨holds.1, holds.2.1, holds.2.2.1, holds.2.2.2.notify kind fits⟩
  | dropping =>
    simp only [phase] at holds ⊢
    exact ⟨holds.1, ⟨holds.2.1.sent, holds.2.1.unread.concat kind fits⟩, holds.2.2⟩
  | locking | connecting => simp only [phase] at holds

theorem Rpc.Sound.notify (sound : rpc.Sound fromUtf8) (permitted : message.length ≤ maxPacketLength)
    (moved : rpc.step fromUtf8 (.notify socket message) = some next) : next.Sound fromUtf8 := by
  simp only [step, bind_eq_some_iff] at moved
  obtain ⟨transport, found, moved⟩ := moved
  split at moved
  · cases moved
  · rename_i fine
    have kind : message.header.packetType = packetMessage := by
      by_contra other
      exact fine (.inr (.inl other))
    cases moved
    refine sound.keep [] ?_ (by simp) (by simp) (by simpa using sound.sized) fun up missing =>
      ⟨up_set found rfl up, fun rest => ?_⟩
    · -- Between calls the open socket is the only one, and it is quiet.
      have quiet {held : Transport} (before : held.Quiet) :
          ({ held with toClient := held.toClient ++ message.bytes } : Transport).Quiet :=
        ⟨before.sent, before.unread.concat kind permitted⟩
      cases sound.tidy with
      | idle rest closed quietly =>
        cases socket with
        | opening => cases closed.symm.trans found
        | current =>
          refine .idle rest closed ?_
          rintro _ ⟨⟩
          exact quiet (quietly transport found)
      | locking call now phase closed quietly =>
        cases socket with
        | opening => cases closed.symm.trans found
        | current =>
          refine .locking call now phase closed ?_
          rintro _ ⟨⟩
          exact quiet (quietly transport found)
      | connecting call now phase closed missing =>
        cases socket with
        | opening => cases closed.symm.trans found
        | current => cases missing.symm.trans found
      | busy call other now same holds alone =>
        obtain ⟨rfl, rfl⟩ := alone.only same found
        exact .busy call _ (by simpa using now) (transport_setTransport _ _)
          (by simpa using holds.notify kind permitted) alone.set
    · rw [setTransport_active] at rest
      have none := missing rest
      cases socket with
      | opening => exact none
      | current => cases none.symm.trans found

theorem Rpc.Tidy.requested (tidy : rpc.Tidy) {frame rest : Bytes}
    (sized : ∀ call ∈ rpc.active, headerLength + call.payload.length < 2 ^ 32)
    (found : rpc.transport socket = some transport) (taken : takeFrame transport.toDaemon = some (frame, rest)) :
    ∃ call, rpc.active = some call ∧ socket = call.stage.socket ∧ rpc.Alone call.stage ∧
      frame = (call.request rpc.flags).bytes ∧ rest = [] ∧
      ∀ log reply, call.Replied rpc.flags log reply →
        call.Holds rpc.flags log { transport with toDaemon := [], toClient := transport.toClient ++ reply.bytes } := by
  have asked (sent : transport.toDaemon = []) : False := by
    rw [sent] at taken
    cases taken
  have quietly (closed : rpc.opening = none) (quiet : ∀ transport ∈ rpc.current, transport.Quiet) : False := by
    cases socket with
    | opening => cases closed.symm.trans found
    | current => exact asked (quiet transport found).sent
  cases tidy with
  | idle _ closed quiet | locking _ _ _ closed quiet => exact (quietly closed quiet).elim
  | connecting _ _ _ closed missing =>
    cases socket with
    | opening => cases closed.symm.trans found
    | current => cases missing.symm.trans found
  | busy call other now same holds alone =>
    obtain ⟨rfl, rfl⟩ := alone.only same found
    have framed := Packet.framed (@Active.request_length rpc.flags call (sized call now))
    have answers {got : Bytes} (awaits : call.Awaits rpc.flags rpc.log transport got) :
        frame = (call.request rpc.flags).bytes ∧ rest = [] ∧ ∀ log reply, call.Replied rpc.flags log reply →
          call.Awaits rpc.flags log
            { transport with toDaemon := [], toClient := transport.toClient ++ reply.bytes } got := by
      rcases awaits.coming with ⟨sent, messages⟩ | ⟨sent, -⟩
      · have whole := takeFrame_append framed []
        rw [append_nil, ← sent, taken] at whole
        cases whole
        refine ⟨sent, rfl, fun log reply replied => ⟨awaits.up, .inr ⟨rfl, reply, _, [], replied, messages, .nil, ?_⟩⟩⟩
        rw [append_nil, append_assoc]
      · exact (asked sent).elim
    refine ⟨call, now, rfl, alone, ?_⟩
    unfold Active.Holds at holds ⊢
    cases phase : call.phase with
    | sending =>
      simp only [phase] at holds
      rw [takeFrame_part framed holds.2.1 holds.1] at taken
      cases taken
    | length =>
      simp only [phase] at holds
      obtain ⟨same, none, replies⟩ := answers holds.2
      exact ⟨same, none, fun log reply replied => ⟨holds.1, replies log reply replied⟩⟩
    | body =>
      simp only [phase] at holds
      obtain ⟨same, none, replies⟩ := answers holds.2.2.2
      exact ⟨same, none, fun log reply replied => ⟨holds.1, holds.2.1, holds.2.2.1, replies log reply replied⟩⟩
    | dropping =>
      simp only [phase] at holds
      exact (asked holds.2.1.sent).elim
    | locking | connecting => simp only [phase] at holds

theorem Rpc.Sound.answer (sound : rpc.Sound fromUtf8) {status : UInt32}
    (permitted : headerLength + payload.length ≤ maxPacketLength ∧
      ∀ call ∈ rpc.active, call.stage.Accepts status payload)
    (moved : rpc.step fromUtf8 (.answer socket status payload) = some next) : next.Sound fromUtf8 := by
  simp only [step, Rpc.answer, bind_eq_some_iff] at moved
  obtain ⟨transport, found, ⟨frame, rest⟩, taken, request, decoded, moved⟩ := moved
  obtain ⟨call, now, rfl, alone, rfl, rfl, holds⟩ :=
    sound.tidy.requested (fun call now => (sound.sized call now).1) found taken
  have sized := sound.sized call now
  have fits := fits_of_decode (@Active.request_length rpc.flags call sized.1) decoded
  rw [decode_bytes fits] at decoded
  cases decoded
  split at moved
  · cases moved
  · cases moved
    have replied : call.Replied rpc.flags
      (rpc.log ++ [(call.request rpc.flags, (call.request rpc.flags).reply status payload)])
        ((call.request rpc.flags).reply status payload) := by
      refine ⟨permitted.1, ?_, rfl, permitted.2 call now⟩
      rw [drop_append_of_le_length sized.2]
      exact mem_append_right _ (List.mem_singleton.mpr rfl)
    refine sound.keep [(call.request rpc.flags, (call.request rpc.flags).reply status payload)]
      (.busy call _ (by simpa using now) (transport_setTransport _ _) ?_ alone.set) (by simp) (by simp) ?_ ?_
    · simpa using holds _ _ replied
    · intro other held
      have same : rpc.active = some other := by simpa using held
      obtain ⟨small, since⟩ := sound.sized other same
      refine ⟨small, since.trans ?_⟩
      simp
    · intro up missing
      refine ⟨up_set found rfl up, fun rest => ?_⟩
      have idle : rpc.active = none := by simpa using rest
      cases now.symm.trans idle

theorem Rpc.Sound.step (sound : rpc.Sound fromUtf8) {event : RpcEvent} (permitted : rpc.Permitted event)
    (moved : rpc.step fromUtf8 event = some next) : next.Sound fromUtf8 := by
  cases event with
  | issue => exact sound.issue permitted moved
  | locked => exact sound.locked moved
  | connected => exact sound.connected permitted moved
  | wrote => exact sound.wrote moved
  | read => exact sound.read moved
  | failed => exact sound.failed moved
  | cancel => exact sound.cancel permitted moved
  | answer => exact sound.answer permitted moved
  | notify => exact sound.notify permitted moved
  | hangUp => exact sound.hangUp permitted moved

theorem Rpc.sound_opened (flags : UInt32) (serial : Int32) : (opened flags serial).Sound fromUtf8 where
  tidy := by
    refine .idle rfl rfl ?_
    rintro _ ⟨⟩
    exact ⟨rfl, .nil⟩
  sized _ held := by cases held
  recorded := ⟨fun _ listed => absurd listed not_mem_nil, .nil⟩
  fresh _ held := by cases held

end

instance (call : Active) : Decidable call.OnWire := by
  unfold Active.OnWire
  cases call.phase <;> infer_instance

instance (status : UInt32) (payload : Bytes) (stage : Stage) : Decidable (stage.Accepts status payload) := by
  cases stage <;> unfold Stage.Accepts <;> infer_instance

instance (rpc : Rpc) (event : RpcEvent) : Decidable (rpc.Permitted event) := by
  cases event <;> unfold Rpc.Permitted <;> infer_instance

theorem permitted_calls_stay_in_step (fromUtf8 : Bytes → Except Text Text) (flags : UInt32) (serial : Int32)
    (events : List RpcEvent) (final : Rpc)
    (ran : exec (Rpc.step fromUtf8) (Rpc.opened flags serial) events = some final)
    (permitted : Obeys (Rpc.step fromUtf8) Rpc.Permitted (Rpc.opened flags serial) events) : final.InStep fromUtf8 := by
  apply Recorded.inStep
  apply Rpc.Sound.recorded
  apply invariant ?_ ran permitted (Rpc.sound_opened flags serial)
  intro rpc event next allowed moved sound
  exact sound.step allowed moved

def asciiOnly (bytes : Bytes) : Except Text Text := .ok (bytes.map fun byte => Char.ofNat byte.toNat)

def answeredCall (payload : Bytes) : List RpcEvent := [.issue 7 [], .locked, .wrote 28, .answer .current 0 payload]

def Rpc.seen (rpc : Rpc) : List (Option (Except ApiError Bytes)) × List (Int32 × Bytes) :=
  (rpc.history.map Outcome.result, rpc.log.map fun entry => (entry.1.header.serial, entry.2.payload))

theorem permitted_calls_stay_in_step_dropped : ∃ final,
    exec (Rpc.step asciiOnly) (Rpc.opened 0 0) ([.issue 7 [], .cancel] ++ answeredCall [1] ++ [.read 4, .read 25]) =
      some final ∧
      final.seen = ([none, some (.ok [1])], [(1, [1])]) ∧ final.InStep asciiOnly := by
  have ends : (exec (Rpc.step asciiOnly) (Rpc.opened 0 0)
      ([.issue 7 [], .cancel] ++ answeredCall [1] ++ [.read 4, .read 25])).map Rpc.seen =
        some ([none, some (.ok [1])], [(1, [1])]) := by
    decide +kernel
  obtain ⟨final, ran, seen⟩ := Option.map_eq_some_iff.mp ends
  exact ⟨final, ran, seen, permitted_calls_stay_in_step asciiOnly 0 0 _ _ ran (by decide +kernel)⟩

instance (fromUtf8 : Bytes → Except Text Text) (log : List (Packet × Packet)) (outcome : Outcome) :
    Decidable (outcome.Answered fromUtf8 log) :=
  decidable_of_iff (∃ entry ∈ log.drop outcome.since, outcome.request = some entry.1 ∧
      outcome.result = some (processReply fromUtf8 entry.2 entry.1.header.serial entry.1.header.procedure)) (by
    constructor
    · rintro ⟨⟨request, reply⟩, logged, own, same⟩
      exact ⟨request, own, reply, logged, same⟩
    · rintro ⟨request, own, reply, logged, same⟩
      exact ⟨(request, reply), logged, own, same⟩)

def Rpc.verdicts (rpc : Rpc) : List (Option (Except ApiError Bytes) × Bool) :=
  rpc.history.map fun outcome => (outcome.result, decide (outcome.Answered asciiOnly rpc.log))

def mismatch (got expected : Int32) : ApiError :=
  .protocol ("reply does not match request: serial/procedure ".toList ++ integer got.toInt ++ "/7, expected ".toList ++
    integer expected.toInt ++ "/7".toList)

theorem not_inStep_of_verdicts {rpc : Rpc} {first second third : ApiError}
    (verdicts : rpc.verdicts =
      [(none, false), (some (.error first), false), (some (.error second), false), (some (.error third), false)]) :
    ¬ rpc.InStep asciiOnly := by
  intro inStep
  have failed {outcome : Outcome} {error : ApiError}
      (same : (outcome.result, decide (outcome.Answered asciiOnly rpc.log)) = (some (.error error), false)) :
      outcome.Failed asciiOnly rpc.log :=
    ⟨⟨error, congrArg Prod.fst same⟩, of_decide_eq_false (congrArg Prod.snd same)⟩
  simp only [Rpc.verdicts, map_eq_cons_iff, map_eq_nil_iff] at verdicts
  obtain ⟨dropped, _, calls, none, one, _, rfl, fails, two, _, rfl, again, three, _, rfl, still, rfl⟩ := verdicts
  exact inStep.recovers [] dropped one two [three] calls (.inl (congrArg Prod.fst none)) (failed fails) (failed again)

def forgedReply : Packet := ⟨⟨programNumber, protocolVersion, 7, packetReply, 2, statusOk⟩, []⟩

theorem not_inStep_of_forged {rpc : Rpc}
    (seen : rpc.seen = ([none, some (.ok [])], [(1, forgedReply.bytes), (2, [1])])) : ¬ rpc.InStep asciiOnly := by
  intro inStep
  obtain ⟨results, answers⟩ := Prod.mk.inj seen
  have returned : some (Except.ok []) ∈ rpc.history.map Outcome.result := by
    rw [results]
    exact mem_cons_of_mem _ mem_cons_self
  obtain ⟨outcome, listed, same⟩ := List.mem_map.mp returned
  obtain ⟨request, -, reply, logged, -, empty⟩ := inStep.own outcome listed [] same
  have sent := mem_map_of_mem (f := fun entry : Packet × Packet => (entry.1.header.serial, entry.2.payload))
    (mem_of_mem_drop logged)
  rw [answers] at sent
  have payload := mem_map_of_mem (f := Prod.snd) sent
  simp only [empty] at payload
  exact absurd payload (by decide)

/-- A call dropped before it reads its reply leaves it to the next one, and so on; dropped
in the reply, it lets the next call return what the daemon never answered to it. -/
theorem dropped_call_breaks_step : (∃ events final, exec (Rpc.step asciiOnly) (Rpc.opened 0 0) events = some final ∧
      final.verdicts = [(none, false), (some (.error (mismatch 1 2)), false), (some (.error (mismatch 2 3)), false),
        (some (.error (mismatch 3 4)), false)] ∧ ¬ final.InStep asciiOnly) ∧
    ∃ events final, exec (Rpc.step asciiOnly) (Rpc.opened 0 0) events = some final ∧
      final.seen = ([none, some (.ok [])], [(1, forgedReply.bytes), (2, [1])]) ∧ ¬ final.InStep asciiOnly := by
  constructor
  · have ends : (exec (Rpc.step asciiOnly) (Rpc.opened 0 0)
        ([.issue 7 [], .locked, .wrote 28, .cancel, .answer .current 0 [1]] ++
          answeredCall [2] ++ [.read 4, .read 25] ++ answeredCall [3] ++ [.read 4, .read 25] ++
          answeredCall [4] ++ [.read 4, .read 25])).map Rpc.verdicts =
        some [(none, false), (some (.error (mismatch 1 2)), false), (some (.error (mismatch 2 3)), false),
          (some (.error (mismatch 3 4)), false)] := by
      decide +kernel
    obtain ⟨final, ran, verdicts⟩ := Option.map_eq_some_iff.mp ends
    exact ⟨_, final, ran, verdicts, not_inStep_of_verdicts verdicts⟩
  · have ends : (exec (Rpc.step asciiOnly) (Rpc.opened 0 0)
        (answeredCall forgedReply.bytes ++ [.read 4, .read 24, .cancel] ++ answeredCall [1] ++ [.read 4, .read 24])).map
          Rpc.seen =
        some ([none, some (.ok [])], [(1, forgedReply.bytes), (2, [1])]) := by
      decide +kernel
    obtain ⟨final, ran, seen⟩ := Option.map_eq_some_iff.mp ends
    exact ⟨_, final, ran, seen, not_inStep_of_forged seen⟩

end Bento.Hypervisor
