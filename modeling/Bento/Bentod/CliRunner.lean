import Bento.Sshfront.Session

/-! The input of a command line session. Behind the pipe of the session a second pump moves
what it reads into a queue without a bound, and the interpreter reads that queue from a
thread of its own. -/

namespace Bento.Bentod
open Sshfront

def readSize : Nat := 8192

structure ChannelReader where
  chunk : Bytes
  offset : Nat
deriving DecidableEq

namespace ChannelReader

def left (reader : ChannelReader) : Bytes := reader.chunk.drop reader.offset

def fill (reader : ChannelReader) : List Bytes → Option (ChannelReader × List Bytes)
  | [] => if reader.offset < reader.chunk.length then some (reader, []) else none
  | chunk :: queue =>
    if reader.offset < reader.chunk.length then some (reader, chunk :: queue) else fill ⟨chunk, 0⟩ queue

def read (reader : ChannelReader) (queue : List Bytes) (len : Nat) : Option (Bytes × ChannelReader × List Bytes) :=
  if len = 0 then some ([], reader, queue)
  else
    (reader.fill queue).map fun (reader, queue) =>
      let n := min len (reader.chunk.length - reader.offset)
      ((reader.chunk.drop reader.offset).take n, { reader with offset := reader.offset + n }, queue)

end ChannelReader

/-- A session that runs the interpreter. `pending` came before the request and waits in the
hands of the first pump, `queue` is between the second pump and the interpreter. -/
structure CliInput where
  pending : List Bytes
  pump : Pump
  queue : List Bytes
  reader : ChannelReader
  read : Bytes
deriving DecidableEq

def CliInput.new (opened : Opened) : CliInput :=
  ⟨opened.pendingData, ⟨opened.rest, [], none, [], [], []⟩, [], ⟨[], 0⟩, []⟩

inductive CliSession where
  | opening (pty : Option Window) (pendingData : List Bytes) (inbox : List ClientMsg)
  | running (input : CliInput)
  | ended
deriving DecidableEq

inductive CliEvent where
  | message
  | pump
  | forward (count : Nat)
  | read (len : Nat)
  | exit

namespace CliInput

def turn (input : CliInput) : Option CliInput :=
  match input.pump.writing, input.pump.sending, input.pending with
  | [], none, bytes :: pending => some { input with pending, pump := { input.pump with writing := bytes } }
  | _, _, _ => input.pump.turn.map fun pump => { input with pump }

def forward (input : CliInput) (count : Nat) : Option CliInput :=
  if count ≤ readSize then
    (input.pump.step .commandLine (.read count)).map fun pump =>
      { input with pump, queue := input.queue ++ [input.pump.pipe.take count] }
  else none

def interpret (input : CliInput) (len : Nat) : Option CliInput :=
  (input.reader.read input.queue len).map fun (bytes, reader, queue) =>
    { input with reader, queue, read := input.read ++ bytes }

def held (input : CliInput) : Nat :=
  input.pending.flatten.length + input.pump.writing.length + input.pump.pipe.length + input.queue.flatten.length +
    input.reader.left.length

end CliInput

namespace CliSession

def takeMessage (pty : Option Window) (pendingData : List Bytes) : List ClientMsg → Option CliSession
  | [] => none
  | .eof :: _ | .close :: _ => some .ended
  | .requestPty window :: rest => some (.opening (some window) pendingData rest)
  | .requestShell :: rest => some (.running (.new ⟨[], pty, pendingData, rest⟩))
  | .exec command :: rest => some (.running (.new ⟨command, pty, pendingData, rest⟩))
  | .data bytes :: rest => some (.opening pty (pendingData ++ [bytes]) rest)
  | .windowChange _ :: rest | .other :: rest => some (.opening pty pendingData rest)

def step : CliSession → CliEvent → Option CliSession
  | .opening pty pendingData inbox, .message => takeMessage pty pendingData inbox
  | .running input, .pump => input.turn.map .running
  | .running input, .forward count => (input.forward count).map .running
  | .running input, .read len => (input.interpret len).map .running
  | .running _, .exit => some .ended
  | _, _ => none

def held : CliSession → Nat
  | .opening _ pendingData _ => pendingData.flatten.length
  | .running input => input.held
  | .ended => 0

end CliSession

end Bento.Bentod
