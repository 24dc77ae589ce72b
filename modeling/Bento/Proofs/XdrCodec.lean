import Bento.Hypervisor.Rpc

/-! The wire form of libvirt's messages. Writing and reading are inverse for every list of
values, a packet has one spelling, and a reader never leaves its bytes. -/

namespace Bento.Hypervisor
open Library.Decimal Library.Wire List

namespace Packet
variable {packet : Packet}

@[simp] theorem length_bytes : packet.bytes.length = packet.length := by
  simp [bytes, length, headerLength]
  omega

theorem framed (fits : packet.length < 2 ^ 32) : Framed packet.bytes where
  long := by
    rw [length_bytes, length, headerLength]
    omega
  counted := by
    rw [length_bytes]
    simp only [bytes, append_assoc, ofWord_word]
    exact UInt32.toNat_ofNat_of_lt fits

theorem decode_bytes (fits : packet.length ≤ maxPacketLength) : decodePacket packet.bytes = .ok packet := by
  have small : packet.length < 2 ^ 32 := by unfold maxPacketLength at fits; omega
  have counted := (framed small).counted
  have long : headerLength ≤ packet.length := Nat.le_add_right _ _
  unfold decodePacket
  rw [if_neg (by rw [length_bytes]; omega), if_neg (by simpa using counted),
    if_neg (by rw [counted, length_bytes]; omega)]
  simp [bytes, append_assoc, headerLength]

end Packet

namespace Reader
variable {α β : Type} {fromUtf8 : Bytes → Except Text Text}

/-- A reading fails with the text of an error, or it goes on within the bytes. -/
def Advances (reader : Reader) : Except ApiError (α × Reader) → Prop
  | .error error => ∃ message, error = .protocol message
  | .ok (_, after) => after.bytes = reader.bytes ∧ reader.offset ≤ after.offset ∧
    (reader.offset ≤ reader.bytes.length → after.offset ≤ reader.bytes.length)

def Orderly (reading : Reading α) : Prop := ∀ reader, Advances reader (reading.run reader)

namespace Orderly

theorem bind {step : Reading α} {next : α → Reading β} (first : Orderly step) (rest : ∀ value, Orderly (next value)) :
    Orderly (step >>= next) := by
  intro reader
  have began := first reader
  rw [StateT.run_bind]
  generalize step.run reader = result at began ⊢
  cases result with
  | error => exact began
  | ok reached =>
    have went := rest reached.1 reached.2
    change Advances reader ((next reached.1).run reached.2)
    generalize (next reached.1).run reached.2 = result at went ⊢
    cases result with
    | error => exact went
    | ok =>
      unfold Advances at began went ⊢
      rw [began.1] at went
      exact ⟨went.1, Nat.le_trans began.2.1 went.2.1, fun inside => went.2.2 (began.2.2 inside)⟩

theorem pure (value : α) : Orderly (Pure.pure value) := fun _ => ⟨rfl, Nat.le_refl _, id⟩

theorem throw (message : Text) : Orderly (MonadExcept.throw (ApiError.protocol message) : Reading α) :=
  fun _ => ⟨message, rfl⟩

theorem ite {refused : Prop} [Decidable refused] {step other : Reading α} (first : Orderly step)
    (last : Orderly other) :
    Orderly (if refused then step else other) := by
  split
  · exact first
  · exact last

theorem take (len : Nat) : Orderly (Reader.take len) := by
  intro reader
  change Advances reader (StateT.run (if _ then _ else if _ then _ else _) reader)
  by_cases past : 2 ^ 64 ≤ reader.offset + len
  · rw [if_pos past]
    exact ⟨_, rfl⟩
  rw [if_neg past]
  by_cases short : reader.bytes.length < reader.offset + len
  · rw [if_pos short]
    exact ⟨_, rfl⟩
  · rw [if_neg short]
    exact ⟨rfl, Nat.le_add_right _ _, fun _ => Nat.not_lt.mp short⟩

theorem u32 : Orderly Reader.u32 := bind (take 4) fun _ => pure _

theorem i32 : Orderly Reader.i32 := bind (take 4) fun _ => pure _

theorem fixedOpaque (len : Nat) : Orderly (Reader.fixedOpaque len) :=
  bind (take _) fun _ => bind (take _) fun _ => pure _

theorem counted : Orderly Reader.counted := bind u32 fun _ => ite (throw _) (fixedOpaque _)

theorem string : Orderly (Reader.string fromUtf8) := by
  refine bind counted fun bytes => ?_
  cases fromUtf8 bytes with
  | ok => exact pure _
  | error => exact throw _

theorem optionalString : Orderly (Reader.optionalString fromUtf8) := by
  refine bind u32 fun discriminant => ?_
  apply ite (pure _)
  apply ite (bind string fun _ => pure _)
  exact throw _

theorem decode {reading : Reading α} (orderly : Orderly reading) {payload : Bytes} {error : ApiError}
    (failed : Reader.decode payload reading = .error error) : ∃ message, error = .protocol message := by
  have read := orderly ⟨payload, 0⟩
  change (reading.run ⟨payload, 0⟩).map Prod.fst = _ at failed
  generalize reading.run ⟨payload, 0⟩ = result at failed read
  cases result with
  | error =>
    cases failed
    exact read
  | ok => cases failed

end Orderly

/-- The reading takes the bytes, wherever they stand, and nothing after them. -/
def Takes (reading : Reading α) (bytes : Bytes) (value : α) : Prop :=
  ∀ front rest, (front ++ bytes ++ rest).length < 2 ^ 64 →
    reading.run ⟨front ++ bytes ++ rest, front.length⟩ = .ok (value, ⟨front ++ bytes ++ rest, (front ++ bytes).length⟩)

namespace Takes

theorem bind {step : Reading α} {next : α → Reading β} {first last : Bytes} {early : α} {late : β}
    (begins : Takes step first early) (ends : Takes (next early) last late) :
    Takes (step >>= next) (first ++ last) late := by
  intro front rest short
  have begun := begins front (last ++ rest)
  have ended := ends (front ++ first) rest
  simp only [append_assoc] at begun ended short ⊢
  rw [StateT.run_bind, begun short]
  exact ended short

theorem pure (value : α) : Takes (Pure.pure value) [] value := by
  intro front rest _
  rw [append_nil]
  rfl

theorem ends {step : Reading α} {next : α → Reading β} {bytes : Bytes} {early : α} {late : β}
    (begins : Takes step bytes early) (last : next early = Pure.pure late) : Takes (step >>= next) bytes late := by
  have took : Takes (step >>= next) (bytes ++ []) late := begins.bind (last ▸ pure late)
  rwa [append_nil] at took

theorem take (bytes : Bytes) : Takes (Reader.take bytes.length) bytes bytes := by
  intro front rest short
  simp only [length_append] at short
  change StateT.run (if 2 ^ 64 ≤ front.length + bytes.length then _ else
    if (front ++ bytes ++ rest).length < front.length + bytes.length then _ else _) _ = _
  rw [if_neg (by omega), if_neg (by simp)]
  change Except.ok (((front ++ bytes ++ rest).drop front.length).take bytes.length, _) = _
  rw [append_assoc, drop_left, take_left, length_append]

theorem ofWord_only (value : UInt32) : ofWord (word value) = value := by simpa using ofWord_word value []

theorem u32 (value : UInt32) : Takes Reader.u32 (word value) value :=
  (take (word value)).ends (congrArg Pure.pure (ofWord_only value))

theorem i32 (value : Int32) : Takes Reader.i32 (word value.toUInt32) value :=
  (take (word value.toUInt32)).ends (congrArg (Pure.pure ·.toInt32) (ofWord_only value.toUInt32))

theorem fixedOpaque (bytes : Bytes) :
    Takes (Reader.fixedOpaque bytes.length) (bytes ++ List.replicate (padding bytes.length) 0) bytes := by
  have filled := take (List.replicate (padding bytes.length) 0)
  rw [length_replicate] at filled
  exact bind (take bytes) (filled.ends rfl)

theorem string (decodes : ∀ text, fromUtf8 (utf8 text) = .ok text) {text : Text}
    (small : (utf8 text).length ≤ maxValueLength) :
    ∃ bytes, (∀ writer, Writer.string text writer = .ok (writer ++ bytes)) ∧
      Takes (Reader.string fromUtf8) bytes text := by
  have below : (utf8 text).length < 2 ^ 32 := Nat.lt_of_le_of_lt small (by decide)
  have length : (UInt32.ofNat (utf8 text).length).toNat = (utf8 text).length := UInt32.toNat_ofNat_of_lt below
  have counted : Takes Reader.counted (word (.ofNat (utf8 text).length) ++
      (utf8 text ++ List.replicate (padding (utf8 text).length) 0)) (utf8 text) := by
    refine bind (u32 _) ?_
    rw [length, if_neg (Nat.not_lt.mpr small)]
    exact fixedOpaque (utf8 text)
  refine ⟨_, fun writer => ?_, counted.ends (by rw [decodes])⟩
  unfold Writer.string
  rw [if_neg (Nat.not_le.mpr below)]
  simp only [Writer.fixedOpaque, Writer.u32, append_assoc]

end Takes

end Reader
open Reader

inductive Value where
  | u32 (value : UInt32)
  | i32 (value : Int32)
  | fixed (value : Bytes)
  | string (value : Text)
  | optional (value : Option Text)

namespace Value

def write : Value → Bytes → Except ApiError Bytes
  | .u32 value, writer => .ok (Writer.u32 value writer)
  | .i32 value, writer => .ok (Writer.i32 value writer)
  | .fixed value, writer => .ok (Writer.fixedOpaque value writer)
  | .string value, writer => Writer.string value writer
  | .optional value, writer => Writer.optionalString value writer

/-- The call of the reader for a value of this kind, and of this length where it is fixed. -/
def read (fromUtf8 : Bytes → Except Text Text) : Value → Reading Value
  | .u32 _ => return .u32 (← Reader.u32)
  | .i32 _ => return .i32 (← Reader.i32)
  | .fixed value => return .fixed (← Reader.fixedOpaque value.length)
  | .string _ => return .string (← Reader.string fromUtf8)
  | .optional _ => return .optional (← Reader.optionalString fromUtf8)

def size : Value → Nat
  | .u32 _ | .i32 _ | .optional none => 4
  | .fixed value => value.length
  | .string value | .optional (some value) => (utf8 value).length

end Value

section
variable {fromUtf8 : Bytes → Except Text Text}

theorem takes_written (decodes : ∀ text, fromUtf8 (utf8 text) = .ok text) {value : Value}
    (small : value.size ≤ maxValueLength) :
    ∃ bytes, (∀ writer, value.write writer = .ok (writer ++ bytes)) ∧ Takes (value.read fromUtf8) bytes value := by
  cases value with
  | u32 value => exact ⟨_, fun _ => rfl, (Takes.u32 value).ends rfl⟩
  | i32 value => exact ⟨_, fun _ => rfl, (Takes.i32 value).ends rfl⟩
  | fixed value => exact ⟨_, fun writer => congrArg Except.ok (append_assoc ..), (Takes.fixedOpaque value).ends rfl⟩
  | string =>
    obtain ⟨bytes, written, took⟩ := Takes.string decodes small
    exact ⟨bytes, written, took.ends rfl⟩
  | optional value =>
    cases value with
    | none =>
      have absent : Takes (Reader.optionalString fromUtf8) (word 0) none := (Takes.u32 0).ends rfl
      exact ⟨_, fun _ => rfl, absent.ends rfl⟩
    | some =>
      obtain ⟨bytes, written, took⟩ := Takes.string decodes small
      have present : Takes (Reader.optionalString fromUtf8) (word 1 ++ bytes) (some _) :=
        (Takes.u32 1).bind (took.ends rfl)
      exact ⟨_, fun writer => (written _).trans (congrArg Except.ok (append_assoc ..)), present.ends rfl⟩

def writeAll (values : List Value) (writer : Bytes) : Except ApiError Bytes :=
  values.foldlM (fun writer value => value.write writer) writer

def readAll (fromUtf8 : Bytes → Except Text Text) (values : List Value) :
    Reading (List Value) := values.mapM (Value.read fromUtf8)

theorem takes_all (decodes : ∀ text, fromUtf8 (utf8 text) = .ok text) {values : List Value}
    (small : ∀ value ∈ values, value.size ≤ maxValueLength) :
    ∃ bytes, (∀ writer, writeAll values writer = .ok (writer ++ bytes)) ∧
      Takes (readAll fromUtf8 values) bytes values := by
  induction values with
  | nil => exact ⟨[], fun writer => congrArg Except.ok (append_nil writer).symm, .pure []⟩
  | cons value values ih =>
    obtain ⟨small, others⟩ := List.forall_mem_cons.mp small
    obtain ⟨first, written, took⟩ := takes_written decodes small
    obtain ⟨last, wrote, taken⟩ := ih others
    refine ⟨first ++ last, fun writer => ?_, ?_⟩
    · rw [writeAll, foldlM_cons, written]
      exact (wrote _).trans (congrArg Except.ok (append_assoc ..))
    · rw [readAll, mapM_cons]
      exact took.bind (taken.ends rfl)

end

/-- `fromUtf8` decodes what a text is encoded as, and a vector has less than 2 ^ 64 bytes. -/
theorem codec_inverts (fromUtf8 : Bytes → Except Text Text) (decodes : ∀ text, fromUtf8 (utf8 text) = .ok text) :
    (∀ values : List Value, (∀ value ∈ values, value.size ≤ maxValueLength) → ∃ bytes, writeAll values [] = .ok bytes ∧
      (bytes.length < 2 ^ 64 → decode bytes (do let read ← readAll fromUtf8 values; finish; return read) =
        .ok values)) ∧
    (∀ packet : Packet, packet.length ≤ maxPacketLength →
      ∃ bytes, encodePacket packet = .ok bytes ∧ decodePacket bytes = .ok packet) ∧
    (∀ len, Orderly (Reader.fixedOpaque len)) ∧ Orderly Reader.u32 ∧ Orderly Reader.i32 ∧
      Orderly Reader.u64 ∧ Orderly counted ∧
    Orderly (Reader.string fromUtf8) ∧ Orderly (Reader.optionalString fromUtf8) ∧
      Orderly arrayLen ∧ Orderly finish := by
  refine ⟨fun values small => ?_, fun packet fits => ⟨packet.bytes, ?_, packet.decode_bytes fits⟩,
    .fixedOpaque, .u32, .i32, .bind (.take 8) fun _ => .pure _, .counted, .string, .optionalString,
    .bind .u32 fun len => .ite (.throw _) (.pure _), .bind (fun _ => ⟨rfl, Nat.le_refl _, id⟩) fun _ =>
      .ite (.pure _) (.throw _)⟩
  · obtain ⟨bytes, written, took⟩ := takes_all decodes small
    refine ⟨bytes, written [], fun short => ?_⟩
    have read := took [] []
    rw [append_nil, nil_append] at read
    have finished : finish.run ⟨bytes, bytes.length⟩ = .ok ((), ⟨bytes, bytes.length⟩) := by
      change StateT.run (if _ then _ else _) _ = _
      rw [if_pos rfl]
      rfl
    unfold decode
    rw [StateT.run'_eq, StateT.run_bind, List.length_nil.symm, read short]
    change Prod.fst <$> StateT.run (do finish; return values) _ = _
    rw [StateT.run_bind, finished]
    rfl
  · unfold encodePacket
    unfold maxPacketLength at fits
    rw [if_neg (by omega), if_neg (by omega)]

def decodeUtf8 (bytes : Bytes) : Except Text Text :=
  (bytes.toByteArray.utf8Decode?.map Array.toList).elim (.error []) .ok

theorem codec_inverts_open :
    ∃ bytes, encodePacket ⟨⟨programNumber, protocolVersion, procConnectOpen, packetCall, 1, statusOk⟩, [7]⟩ =
    .ok bytes ∧
    decodePacket bytes = .ok ⟨⟨programNumber, protocolVersion, procConnectOpen, packetCall, 1, statusOk⟩, [7]⟩ := by
  have decodes (text : Text) : decodeUtf8 (utf8 text) = .ok text := by
    have decoded : (utf8 text).toByteArray.utf8Decode? = some text.toArray := List.utf8Decode?_utf8Encode
    unfold decodeUtf8
    rw [decoded]
    rfl
  exact (codec_inverts decodeUtf8 decodes).2.1 _ (by decide)

/-- Every packet has one spelling: what is accepted is what would be sent for it. -/
theorem decodes_only_encoded (bytes : Bytes) (packet : Packet) :
    decodePacket bytes = .ok packet ↔ packet.length ≤ maxPacketLength ∧ packet.bytes = bytes := by
  constructor
  · intro decoded
    unfold decodePacket at decoded
    split at decoded
    · cases decoded
    split at decoded
    · cases decoded
    split at decoded
    · cases decoded
    rename_i long counted fits
    cases decoded
    rw [Decidable.not_not] at counted
    have same : headerLength + (bytes.drop headerLength).length = bytes.length := by
      rw [length_drop]
      omega
    simp only [Packet.bytes, Packet.length, same, ← counted, UInt32.ofNat_toNat, UInt32.toUInt32_toInt32, append_assoc]
    refine ⟨Nat.not_lt.mp fits, ?_⟩
    unfold headerLength at long
    -- The words are put back one by one, from the payload to the length.
    simp (disch := omega) only [headerLength, word_ofWord_drop]
    exact @word_ofWord_drop bytes 0 (by omega)
  · rintro ⟨fits, rfl⟩
    exact packet.decode_bytes fits

end Bento.Hypervisor
