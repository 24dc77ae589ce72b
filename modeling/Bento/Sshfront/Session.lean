import Mathlib.Logic.Basic

/-! One session channel of the SSH frontend. A pump takes the client's messages off the
channel, while the path that serves the session reads the input and, for a guest shell,
relays it. -/

namespace Bento.Sshfront

abbrev Bytes := List UInt8

structure Window where
  colWidth : UInt32
  rowHeight : UInt32
  pixWidth : UInt32
  pixHeight : UInt32
deriving DecidableEq

inductive ClientMsg where
  | requestPty (window : Window)
  | requestShell
  | exec (command : Bytes)
  | data (bytes : Bytes)
  | windowChange (window : Window)
  | eof
  | close
  | other
deriving DecidableEq

structure Opened where
  rawCommand : Bytes
  pty : Option Window
  pendingData : List Bytes
  rest : List ClientMsg

def processChannel (pty : Option Window) (pendingData : List Bytes) : List ClientMsg → Option Opened
  | [] | .eof :: _ | .close :: _ => none
  | .requestPty window :: rest => processChannel (some window) pendingData rest
  | .requestShell :: rest => some ⟨[], pty, pendingData, rest⟩
  | .exec command :: rest => some ⟨command, pty, pendingData, rest⟩
  | .data bytes :: rest => processChannel pty (pendingData ++ [bytes]) rest
  | .windowChange _ :: rest | .other :: rest => processChannel pty pendingData rest

inductive Authenticated where
  | user (accessible : Bool)
  | unlinked

inductive Path where
  | guest (pty : Option Window)
  | commandLine
  | linkOffer

def dispatch (authenticated : Authenticated) (pty : Option Window) : Path :=
  match authenticated with
  | .user true => .guest pty
  | .user false => .commandLine
  | .unlinked => .linkOffer

/-- Only a guest shell with a terminal takes window changes. The other paths keep the queue
until they end and never look at it. -/
def Path.takesWindows : Path → Bool
  | .guest pty => pty.isSome
  | .commandLine | .linkOffer => false

def Path.chunk : Path → Option Nat
  | .guest _ => some (32 * 1024)
  | .commandLine => none
  | .linkOffer => some 1

def pipeSize : Nat := 64 * 1024

def windowQueueSize : Nat := 16

structure Pump where
  inbox : List ClientMsg
  writing : Bytes
  sending : Option Window
  pipe : Bytes
  windows : List Window
  read : Bytes
deriving DecidableEq

def Opened.pump (opened : Opened) : Pump := ⟨opened.pendingData.map .data ++ opened.rest, [], none, [], [], []⟩

inductive PumpEvent where
  | pump
  | read (count : Nat)
  | window

namespace Pump

def take (state : Pump) : Option Pump :=
  match state.inbox with
  | [] => none
  | .data bytes :: inbox => some { state with inbox, writing := bytes }
  | .windowChange window :: inbox => some { state with inbox, sending := some window }
  | .eof :: _ | .close :: _ => some { state with inbox := [] }
  | .requestPty _ :: inbox | .requestShell :: inbox | .exec _ :: inbox | .other :: inbox => some { state with inbox }

/-- A write goes on as far as the pipe has room, and a send waits for a place in the queue. -/
def turn (state : Pump) : Option Pump :=
  match state.writing, state.sending with
  | [], none => state.take
  | [], some window =>
    if state.windows.length < windowQueueSize then
      some { state with windows := state.windows ++ [window], sending := none } else none
  | bytes, _ =>
    let room := pipeSize - state.pipe.length
    if room = 0 then none else some { state with pipe := state.pipe ++ bytes.take room, writing := bytes.drop room }

def step (path : Path) (state : Pump) : PumpEvent → Option Pump
  | .pump => state.turn
  | .read count =>
    if 0 < count ∧ count ≤ state.pipe.length ∧ ∀ chunk ∈ path.chunk, count ≤ chunk then
      some { state with pipe := state.pipe.drop count, read := state.read ++ state.pipe.take count }
    else none
  | .window =>
    match path.takesWindows, state.windows with
    | true, _ :: windows => some { state with windows }
    | _, _ => none

end Pump

inductive ChannelMsg where
  | data (bytes : Bytes)
  | extendedData (ext : UInt32) (bytes : Bytes)
  | exitStatus (status : UInt32)
  | exitSignal
  | eof
  | close
  | success
  | failure
  | other
deriving DecidableEq

inductive GuestCall where
  | data (bytes : Bytes)
  | eof
  | windowChange (window : Window)

def waitRequestReply : List ChannelMsg → Except Unit (List ChannelMsg)
  | [] => .error ()
  | .success :: rest => .ok rest
  | .failure :: _ | .close :: _ => .error ()
  | _ :: rest => waitRequestReply rest

/-- The loop that joins the two sides of a guest shell. `inbox` is what the guest's channel
has still to deliver; `stdout` and `stderr` are what was written to the client. -/
structure Join where
  inbox : List ChannelMsg
  stdinOpen : Bool
  windowsOpen : Bool
  code : UInt32
  stdout : Bytes
  stderr : Bytes
  sent : List GuestCall
  exited : Bool

def join (pty : Option Window) (inbox : List ChannelMsg) : Except Unit Join := do
  let inbox ← (if pty.isSome then waitRequestReply inbox else .ok inbox)
  let inbox ← waitRequestReply inbox
  return ⟨inbox, true, pty.isSome, 0, [], [], [], false⟩

inductive JoinEvent where
  | read (result : Option Bytes) (accepted : Bool)
  | window (window : Option Window)
  | message

namespace Join

def receive (state : Join) : Option ChannelMsg → Join
  | some (.data bytes) => { state with stdout := state.stdout ++ bytes }
  | some (.extendedData ext bytes) => if ext = 1 then { state with stderr := state.stderr ++ bytes } else state
  | some (.exitStatus status) => { state with code := status, exited := true }
  | some .exitSignal => { state with code := 1, exited := true }
  | some .close | none => { state with exited := true }
  | some .eof | some .success | some .failure | some .other => state

def step (state : Join) (event : JoinEvent) : Option Join :=
  if state.exited then none
  else
    match event with
    | .read result accepted =>
      if ¬ state.stdinOpen then none
      else
        match result with
        | none | some [] => some { state with stdinOpen := false, sent := state.sent ++ [.eof] }
        | some bytes =>
          if accepted then some { state with sent := state.sent ++ [.data bytes] }
          else some { state with code := 1, exited := true }
    | .window window =>
      if ¬ state.windowsOpen then none
      else
        match window with
        | some window => some { state with sent := state.sent ++ [.windowChange window] }
        | none => some { state with windowsOpen := false }
    | .message => some ({ state with inbox := state.inbox.tail }.receive state.inbox.head?)

end Join

inductive Poll (α : Type) where
  | ready (value : α)
  | pending

inductive IoError where
  | writeZero
  | channel

/-- A writer that turns bare newlines into CRLF. `inner` is what its channel has accepted. -/
structure CrlfWriter where
  inner : Bytes
  pending : Bytes
  offset : Nat
  afterCr : Bool

namespace CrlfWriter

def new : CrlfWriter := ⟨[], [], 0, false⟩

/-- The answers are those of the channel to one write after the other; past them it is not
ready. -/
def pollDrain (answers : List (Poll (Except IoError Nat))) (writer : CrlfWriter) :
    Poll (Except IoError Unit) × CrlfWriter :=
    if writer.offset < writer.pending.length then
      match answers with
      | [] | .pending :: _ => (.pending, writer)
      | .ready (.error error) :: _ => (.ready (.error error), writer)
      | .ready (.ok 0) :: _ => (.ready (.error .writeZero), writer)
      | .ready (.ok (written + 1)) :: answers =>
        pollDrain answers { writer with
          inner := writer.inner ++ (writer.pending.drop writer.offset).take (written + 1)
          offset := writer.offset + (written + 1) }
    else (.ready (.ok ()), { writer with pending := [], offset := 0 })

def push (writer : CrlfWriter) (byte : UInt8) : CrlfWriter :=
  { writer with
    pending := writer.pending ++ (if byte = 10 ∧ ¬ writer.afterCr then [13] else []) ++ [byte]
    afterCr := byte = 13 }

def pollWrite (buf : Bytes) (first last : List (Poll (Except IoError Nat))) (writer : CrlfWriter) :
    Poll (Except IoError Nat) × CrlfWriter :=
  match writer.pollDrain first with
  | (.ready (.error error), writer) => (.ready (.error error), writer)
  | (_, writer) =>
    if writer.pending ≠ [] then (.pending, writer)
    else if buf = [] then (.ready (.ok 0), writer)
    else
      match (buf.foldl push writer).pollDrain last with
      | (.ready (.error error), writer) => (.ready (.error error), writer)
      | (_, writer) => (.ready (.ok buf.length), writer)

def pollFlush (answers : List (Poll (Except IoError Nat))) (answer : Poll (Except IoError Unit)) (writer : CrlfWriter) :
    Poll (Except IoError Unit) × CrlfWriter :=
  match writer.pollDrain answers with
  | (.ready (.ok ()), writer) => (answer, writer)
  | other => other

def pollShutdown := pollFlush

end CrlfWriter

end Bento.Sshfront
