import Bento.Library.Decimal
import Bento.Library.Wire

/-! The connection to libvirt. Requests and replies are packets on one socket that all calls
share, one call at a time. A call is a future: it advances from one await to the next, and
it may be dropped at any of them. -/

namespace Bento.Hypervisor
open Library.Decimal Library.Wire

def programNumber : UInt32 := 0x20008086
def protocolVersion : UInt32 := 1
def headerLength : Nat := 28
def maxPacketLength : Nat := 16 * 1024 * 1024

def packetCall : UInt32 := 0
def packetReply : UInt32 := 1
def packetMessage : UInt32 := 2
def statusOk : UInt32 := 0
def statusError : UInt32 := 1

def procConnectOpen : UInt32 := 1
def procAuthList : UInt32 := 66
def procAuthPolkit : UInt32 := 70

structure LibvirtError where
  code : Int32
  message : Text
deriving DecidableEq

inductive ApiError where
  | libvirt (error : LibvirtError)
  | io (text : Text)
  | protocol (message : Text)
deriving DecidableEq

def padding (len : Nat) : Nat := (4 - len % 4) % 4

def utf8 (text : Text) : Bytes := text.flatMap String.utf8EncodeChar

namespace Writer

def u32 (value : UInt32) (writer : Bytes) : Bytes := writer ++ word value

def i32 (value : Int32) (writer : Bytes) : Bytes := writer ++ word value.toUInt32

def fixedOpaque (value writer : Bytes) : Bytes := writer ++ value ++ List.replicate (padding value.length) 0

def string (value : Text) (writer : Bytes) : Except ApiError Bytes :=
  if 2 ^ 32 ≤ (utf8 value).length then .error (.protocol "XDR string is too large".toList)
  else .ok (fixedOpaque (utf8 value) (u32 (.ofNat (utf8 value).length) writer))

def optionalString (value : Option Text) (writer : Bytes) : Except ApiError Bytes :=
  match value with
  | some value => string value (u32 1 writer)
  | none => .ok (u32 0 writer)

end Writer

structure Reader where
  bytes : Bytes
  offset : Nat

namespace Reader

abbrev Reading := StateT Reader (Except ApiError)

def maxValueLength : Nat := 16 * 1024 * 1024

def take (len : Nat) : Reading Bytes := do
  let reader ← get
  if 2 ^ 64 ≤ reader.offset + len then throw (.protocol "XDR offset overflow".toList)
  else if reader.bytes.length < reader.offset + len then
    throw (.protocol ("truncated XDR value at byte ".toList ++ integer reader.offset ++
      ": need ".toList ++ integer len ++
      " bytes, have ".toList ++ integer (reader.bytes.length - reader.offset : Nat)))
  else do
    set { reader with offset := reader.offset + len }
    return (reader.bytes.drop reader.offset).take len

def u32 : Reading UInt32 := return ofWord (← take 4)

def i32 : Reading Int32 := return (ofWord (← take 4)).toInt32

def u64 : Reading UInt64 := return .ofNat ((← take 8).foldl (fun total byte => total * 256 + byte.toNat) 0)

def fixedOpaque (len : Nat) : Reading Bytes := do
  let value ← take len
  let _ ← take (padding len)
  return value

def counted : Reading Bytes := do
  let len ← u32
  if maxValueLength < len.toNat then
    throw (.protocol ("XDR value length ".toList ++ integer len.toNat ++ " exceeds ".toList ++ integer maxValueLength ++
      " bytes".toList))
  else do
    let value ← take len.toNat
    let _ ← take ((4 - len.toNat % 4) % 4)
    return value

/-- `fromUtf8` is the decoding of the standard library, which fails with a text. -/
def string (fromUtf8 : Bytes → Except Text Text) : Reading Text := do
  match fromUtf8 (← counted) with
  | .ok text => return text
  | .error reason => throw (.protocol ("XDR string is not UTF-8: ".toList ++ reason))

def optionalString (fromUtf8 : Bytes → Except Text Text) : Reading (Option Text) := do
  let discriminant ← u32
  if discriminant = 0 then return none
  else if discriminant = 1 then return some (← string fromUtf8)
  else throw (.protocol ("invalid XDR optional-value discriminant ".toList ++ integer discriminant.toNat))

def arrayLen : Reading Nat := do
  let len ← u32
  if maxValueLength / 4 < len.toNat then
    throw (.protocol ("XDR array length ".toList ++ integer len.toNat ++ " is too large".toList))
  else return len.toNat

def finish : Reading Unit := do
  let reader ← get
  if reader.offset = reader.bytes.length then return ()
  else throw (.protocol (integer (reader.bytes.length - reader.offset : Nat) ++
    " trailing bytes after XDR value".toList))

def decode {α : Type} (payload : Bytes) (reading : Reading α) : Except ApiError α := reading.run' ⟨payload, 0⟩

end Reader

structure Header where
  program : UInt32
  version : UInt32
  procedure : UInt32
  packetType : UInt32
  serial : Int32
  status : UInt32
deriving DecidableEq

structure Packet where
  header : Header
  payload : Bytes
deriving DecidableEq

def Packet.length (packet : Packet) : Nat := headerLength + packet.payload.length

def Packet.bytes (packet : Packet) : Bytes :=
  word (.ofNat packet.length) ++ word packet.header.program ++ word packet.header.version ++
    word packet.header.procedure ++
    word packet.header.packetType ++ word packet.header.serial.toUInt32 ++ word packet.header.status ++ packet.payload

def Packet.reply (request : Packet) (status : UInt32) (payload : Bytes) : Packet :=
  ⟨{ request.header with packetType := packetReply, status }, payload⟩

def encodePacket (packet : Packet) : Except ApiError Bytes :=
  if 2 ^ 64 ≤ packet.length then .error (.protocol "RPC packet length overflow".toList)
  else if 2 ^ 32 ≤ packet.length then .error (.protocol "RPC packet is too large".toList)
  else .ok packet.bytes

def decodePacket (bytes : Bytes) : Except ApiError Packet :=
  if bytes.length < headerLength then
    .error (.protocol ("truncated RPC packet: got ".toList ++ integer bytes.length ++ " bytes, need at least ".toList ++
      integer headerLength))
  else if (ofWord bytes).toNat ≠ bytes.length then
    .error (.protocol ("RPC packet length says ".toList ++ integer (ofWord bytes).toNat ++ " bytes, received ".toList ++
      integer bytes.length))
  else if maxPacketLength < (ofWord bytes).toNat then
    .error (.protocol ("RPC packet length ".toList ++ integer (ofWord bytes).toNat ++ " exceeds ".toList ++
      integer maxPacketLength))
  else
    .ok ⟨⟨ofWord (bytes.drop 4), ofWord (bytes.drop 8), ofWord (bytes.drop 12), ofWord (bytes.drop 16),
      (ofWord (bytes.drop 20)).toInt32, ofWord (bytes.drop 24)⟩, bytes.drop headerLength⟩

def decodeError (fromUtf8 : Bytes → Except Text Text) (payload : Bytes) : Except ApiError LibvirtError :=
  Reader.decode payload do
    let code ← Reader.i32
    let _ ← Reader.i32
    let message := (← Reader.optionalString fromUtf8).getD []
    let _ ← Reader.i32
    return ⟨code, message⟩

def hex (value : Nat) : Text := "0x".toList ++ Nat.toDigits 16 value

def processReply (fromUtf8 : Bytes → Except Text Text) (packet : Packet) (serial : Int32) (procedure : UInt32) :
    Except ApiError Bytes :=
  let header := packet.header
  if header.program ≠ programNumber ∨ header.version ≠ protocolVersion then
    .error (.protocol ("unexpected RPC program/version ".toList ++ hex header.program.toNat ++ ['/'] ++
      integer header.version.toNat))
  else if header.packetType ≠ packetReply then
    .error (.protocol ("unexpected RPC packet type ".toList ++ integer header.packetType.toNat))
  else if header.serial ≠ serial ∨ header.procedure ≠ procedure then
    .error (.protocol ("reply does not match request: serial/procedure ".toList ++
      integer header.serial.toInt ++ ['/'] ++
      integer header.procedure.toNat ++ ", expected ".toList ++ integer serial.toInt ++ ['/'] ++
        integer procedure.toNat))
  else if header.status = statusOk then .ok packet.payload
  else if header.status = statusError then
    match decodeError fromUtf8 packet.payload with
    | .ok error => .error (.libvirt error)
    | .error error => .error error
  else .error (.protocol ("unexpected RPC reply status ".toList ++ integer header.status.toNat))

def authList (payload : Bytes) : Except ApiError (List Int32) :=
  Reader.decode payload do
    let len ← Reader.arrayLen
    let auth ← (List.replicate len Reader.i32).mapM id
    Reader.finish
    return auth

/-- The first type that can be satisfied wins: none needs no exchange, polkit one more. -/
def needsPolkit (advertised : List Int32) : Except ApiError Bool :=
  match advertised.find? fun auth => auth = 0 ∨ auth = 2 with
  | some auth => .ok (auth = 2)
  | none =>
    if advertised = [] then .ok false
    else .error (.protocol ("libvirt socket requires an unsupported authentication type: [".toList ++
      [',', ' '].intercalate (advertised.map fun auth => integer auth.toInt) ++ [']']))

def authPolkit (payload : Bytes) : Except ApiError Unit :=
  Reader.decode payload do
    let complete ← Reader.i32
    Reader.finish
    if complete = 0 then throw (.protocol "libvirt refused the polkit authentication".toList) else return ()

def openPayload (flags : UInt32) : Bytes :=
  word 1 ++ word 14 ++ "qemu:///system".toList.map (fun char => UInt8.ofNat char.toNat) ++ [0, 0] ++ word flags

/-- A socket, and the serial of its last request. What was sent and not yet taken by the other
side is in between. -/
structure Transport where
  serial : Int32
  toDaemon : Bytes
  toClient : Bytes
  hungUp : Bool

inductive Stage where
  | authList
  | authPolkit
  | connectOpen
  | call
deriving DecidableEq

inductive Socket where
  | current
  | opening

def Stage.socket : Stage → Socket
  | .call => .current
  | _ => .opening

inductive Phase where
  | locking
  | connecting
  | sending (left : Bytes)
  | length (got : Bytes)
  | body (length : Nat) (got : Bytes)
  | dropping (text : Text)

/-- A call under way, which counts to the handshake before it sends its own request. `since`
is how much the daemon had answered when it began. -/
structure Active where
  procedure : UInt32
  payload : Bytes
  since : Nat
  stage : Stage
  serial : Int32
  phase : Phase

structure Outcome where
  since : Nat
  request : Option Packet
  result : Option (Except ApiError Bytes)

structure Rpc where
  flags : UInt32
  current : Option Transport
  opening : Option Transport
  active : Option Active
  log : List (Packet × Packet)
  history : List Outcome

def Active.request (flags : UInt32) (call : Active) : Packet :=
  let (procedure, payload) := match call.stage with
    | .authList => (procAuthList, [])
    | .authPolkit => (procAuthPolkit, [])
    | .connectOpen => (procConnectOpen, openPayload flags)
    | .call => (call.procedure, call.payload)
  ⟨⟨programNumber, protocolVersion, procedure, packetCall, call.serial, statusOk⟩, payload⟩

namespace Rpc

def transport (rpc : Rpc) : Socket → Option Transport
  | .current => rpc.current
  | .opening => rpc.opening

def setTransport (rpc : Rpc) (socket : Socket) (transport : Transport) : Rpc :=
  match socket with
  | .current => { rpc with current := some transport }
  | .opening => { rpc with opening := some transport }

def finish (rpc : Rpc) (call : Active) (result : Option (Except ApiError Bytes)) : Rpc :=
  { rpc with
    active := none
    opening := none
    history := rpc.history ++
      [⟨call.since, if call.stage = .call then some (call.request rpc.flags) else none, result⟩] }

def start (rpc : Rpc) (call : Active) (stage : Stage) : Option Rpc :=
  (rpc.transport stage.socket).map fun transport =>
    let call := { call with stage, serial := transport.serial + 1 }
    let rpc := rpc.setTransport stage.socket { transport with serial := transport.serial + 1 }
    match encodePacket (call.request rpc.flags) with
    | .error error => rpc.finish call (some (.error error))
    | .ok bytes => { rpc with active := some { call with phase := .sending bytes } }

def complete (rpc : Rpc) (call : Active) (result : Except ApiError Bytes) : Option Rpc :=
  match call.stage, result with
  | .call, .error (.io text) => some { rpc with active := some { call with phase := .dropping text } }
  | .call, result => some (rpc.finish call (some result))
  | _, .error error => some (rpc.finish call (some (.error error)))
  | .authList, .ok payload =>
    match (Hypervisor.authList payload).bind needsPolkit with
    | .error error => some (rpc.finish call (some (.error error)))
    | .ok polkit => rpc.start call (if polkit then .authPolkit else .connectOpen)
  | .authPolkit, .ok payload =>
    match Hypervisor.authPolkit payload with
    | .error error => some (rpc.finish call (some (.error error)))
    | .ok _ => rpc.start call .connectOpen
  | .connectOpen, .ok _ => { rpc with current := rpc.opening, opening := none }.start call .call

def received (fromUtf8 : Bytes → Except Text Text) (rpc : Rpc) (call : Active) : Option Rpc :=
  match call.phase with
  | .length got =>
    if got.length < 4 then some { rpc with active := some call }
    else if headerLength ≤ (ofWord got).toNat ∧ (ofWord got).toNat ≤ maxPacketLength then
      some { rpc with active := some { call with phase := .body (ofWord got).toNat got } }
    else rpc.complete call (.error (.protocol ("invalid RPC packet length ".toList ++ integer (ofWord got).toNat)))
  | .body length got =>
    if got.length < length then some { rpc with active := some call }
    else
      match decodePacket got with
      | .error error => rpc.complete call (.error error)
      | .ok packet =>
        if packet.header.packetType = packetMessage then
          some { rpc with active := some { call with phase := .length [] } }
        else rpc.complete call (processReply fromUtf8 packet call.serial (call.request rpc.flags).header.procedure)
  | _ => none

end Rpc

def Phase.wants : Phase → Option (Nat × (Bytes → Phase))
  | .length got => some (4 - got.length, fun more => .length (got ++ more))
  | .body total got => some (total - got.length, fun more => .body total (got ++ more))
  | _ => none

inductive RpcEvent where
  | issue (procedure : UInt32) (payload : Bytes)
  | locked
  | connected (result : Except Text Unit)
  | wrote (count : Nat)
  | read (count : Nat)
  | failed (text : Text)
  | cancel
  | answer (socket : Socket) (status : UInt32) (payload : Bytes)
  | notify (socket : Socket) (message : Packet)
  | hangUp (socket : Socket)

namespace Rpc

def answer (rpc : Rpc) (socket : Socket) (transport : Transport) (status : UInt32) (payload : Bytes) : Option Rpc :=
  (takeFrame transport.toDaemon).bind fun (frame, rest) =>
    (decodePacket frame).toOption.bind fun request =>
      if transport.hungUp ∨ 2 ^ 32 ≤ (request.reply status payload).length then none
      else
        let rpc := rpc.setTransport socket
          { transport with toDaemon := rest, toClient := transport.toClient ++ (request.reply status payload).bytes }
        some { rpc with log := rpc.log ++ [(request, request.reply status payload)] }

def advance (fromUtf8 : Bytes → Except Text Text) (rpc : Rpc) (call : Active) : RpcEvent → Option Rpc
  | .locked =>
    match call.phase with
    | .locking =>
      if rpc.current.isSome then rpc.start call .call
      else some { rpc with active := some { call with phase := .connecting } }
    | .dropping text => some ({ rpc with current := none }.finish call (some (.error (.io text))))
    | _ => none
  | .connected result =>
    match call.phase, result with
    | .connecting, .ok _ => { rpc with opening := some ⟨0, [], [], false⟩ }.start call .authList
    | .connecting, .error text => some (rpc.finish call (some (.error (.io text))))
    | _, _ => none
  | .wrote count =>
    match rpc.transport call.stage.socket, call.phase with
    | some transport, .sending left =>
      if transport.hungUp ∨ count = 0 ∨ left.length < count then none
      else
        let rpc := rpc.setTransport call.stage.socket
          { transport with toDaemon := transport.toDaemon ++ left.take count }
        let phase := if left.drop count = [] then .length [] else .sending (left.drop count)
        some { rpc with active := some { call with phase } }
    | _, _ => none
  | .read count =>
    match rpc.transport call.stage.socket, call.phase.wants with
    | some transport, some (wanted, having) =>
      if count = 0 ∨ wanted < count ∨ transport.toClient.length < count then none
      else
        (rpc.setTransport call.stage.socket { transport with toClient := transport.toClient.drop count }).received
          fromUtf8
          { call with phase := having (transport.toClient.take count) }
    | _, _ => none
  | .failed text =>
    match rpc.transport call.stage.socket, call.phase with
    | some transport, .sending _ => if transport.hungUp then rpc.complete call (.error (.io text)) else none
    | some transport, .length _ | some transport, .body _ _ =>
      if transport.hungUp ∧ transport.toClient = [] then rpc.complete call (.error (.io text)) else none
    | _, _ => none
  | .cancel => some (rpc.finish call none)
  | _ => none

def step (fromUtf8 : Bytes → Except Text Text) (rpc : Rpc) : RpcEvent → Option Rpc
  | .issue procedure payload =>
    if rpc.active.isSome then none
    else some { rpc with active := some ⟨procedure, payload, rpc.log.length, .authList, 0, .locking⟩ }
  | .answer socket status payload => (rpc.transport socket).bind fun transport =>
    rpc.answer socket transport status payload
  | .notify socket message =>
    (rpc.transport socket).bind fun transport =>
      if transport.hungUp ∨ message.header.packetType ≠ packetMessage ∨ 2 ^ 32 ≤ message.length then none
      else some (rpc.setTransport socket { transport with toClient := transport.toClient ++ message.bytes })
  | .hangUp socket =>
    (rpc.transport socket).map fun transport => rpc.setTransport socket { transport with hungUp := true }
  | event => rpc.active.bind fun call => rpc.advance fromUtf8 call event

def opened (flags : UInt32) (serial : Int32) : Rpc := ⟨flags, some ⟨serial, [], [], false⟩, none, none, [], []⟩

end Rpc

end Bento.Hypervisor
