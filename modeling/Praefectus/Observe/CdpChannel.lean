import Praefectus.Observe.Cdp
import Praefectus.Program.Histories
import Praefectus.Protocol.Reader

/-!
# The channel to a browser

A command is one text written to a websocket. Its reply is found among whatever else arrives:
a limited number of messages, with a limited amount of text, is read until one bears the
identifier of the command.
-/

namespace Praefectus.Cdp

open Prog Json

def maxCdpMessageBytes : Nat := 2 * 1024 * 1024

def maxCdpMessagesPerCommand : Nat := 128

def maxIoTimeoutMs : UInt64 := 2000

inductive CdpChannelError where
  | beforeSend
  | afterSend
  deriving DecidableEq

inductive Message where
  | text (text : String)
  | binary (data : List UInt8)
  | ping (data : List UInt8)
  | pong (data : List UInt8)
  | close
  | frame
  deriving DecidableEq

/-! ### JSON values of texts -/

section

/-- Of the members with one key, a map keeps the last value. -/
def keepLast : List (String × Json) → List (String × Json)
  | [] => []
  | member :: members =>
    if members.any (·.1 = member.1) then keepLast members else member :: keepLast members

mutual

def mapped : Json → Json
  | .arr items => .arr (mappedItems items)
  | .obj members => .obj (keepLast (mappedMembers members))
  | j => j

def mappedItems : List Json → List Json
  | [] => []
  | item :: items => mapped item :: mappedItems items

def mappedMembers : List (String × Json) → List (String × Json)
  | [] => []
  | (key, value) :: members => (key, mapped value) :: mappedMembers members

end

def fromStr (text : String) : Option Json := (Json.parse recursionLimit text.toList).map mapped

end

/-! ### The socket -/

inductive SocketOp where
  | nowMs
  | setReadTimeout (ms : UInt64)
  | setWriteTimeout (ms : UInt64)
  | send (text : String)
  | read

/-- A timeout or a text is accepted or not; a message is read, or none. -/
abbrev Socket : Interface where
  Op := SocketOp
  Ans
    | .nowMs => Int64
    | .setReadTimeout _ => Bool
    | .setWriteTimeout _ => Bool
    | .send _ => Bool
    | .read => Option Message

abbrev ChannelM := ExceptT CdpChannelError (Prog Socket)

def ask (op : SocketOp) : ChannelM (Socket.Ans op) :=
  monadLift (perform (I := Socket) op : Prog Socket (Socket.Ans op))

def setStreamDeadline (deadlineAtMs : Int64) : Prog Socket Bool := do
  let now ← perform (I := Socket) .nowMs
  let remaining := saturatingSub deadlineAtMs now
  if remaining ≤ 0 then pure false
  else
    let timeout := min remaining.toUInt64 maxIoTimeoutMs
    let accepted ← perform (I := Socket) (.setReadTimeout timeout)
    if accepted then perform (I := Socket) (.setWriteTimeout timeout) else pure false

/-! ### Commands -/

def cdpCommandResult (response : Json) (commandId : UInt64) :
    Except CdpChannelError (Option Json) :=
  match (response.get? "id").bind asU64 with
  | some id =>
    if id = commandId && (response.get? "error").isNone then
      match response.get? "result" with
      | some result => pure (some result)
      | none => throw .afterSend
    else throw .afterSend
  | none =>
    if ((response.get? "method").bind Json.asStr).any (· ≠ "") then pure none
    else throw .afterSend

/-- The loop over the messages, for so many rounds. -/
def receive (commandId : UInt64) (deadlineAtMs : Int64) : Nat → Nat → ChannelM Json
  | 0, _ => throw .afterSend
  | rounds + 1, receivedBytes => do
    let timely ← monadLift (setStreamDeadline deadlineAtMs)
    if timely then
      match ← ask .read with
      | some (.text text) =>
        let receivedBytes := receivedBytes + text.utf8ByteSize
        if receivedBytes ≤ maxCdpMessageBytes then
          match fromStr text with
          | some response =>
            match cdpCommandResult response commandId with
            | .ok (some result) => pure result
            | .ok none => receive commandId deadlineAtMs rounds receivedBytes
            | .error e => throw e
          | none => throw .afterSend
        else throw .afterSend
      | some (.ping _) | some (.pong _) => receive commandId deadlineAtMs rounds receivedBytes
      | _ => throw .afterSend
    else throw .afterSend

/-- The text of a command. -/
def requestOf (id : UInt64) (method : String) (parameters : Json) : String :=
  .ofList (Json.obj [("id", ofUInt64 id), ("method", .str method), ("params", parameters)]).print

def sendCommand (id : UInt64) (method : String) (parameters : Json) (deadlineAtMs : Int64) :
    ChannelM Json := do
  let timely ← monadLift (setStreamDeadline deadlineAtMs)
  if timely then
    let request := requestOf id method parameters
    if request.utf8ByteSize > maxCdpMessageBytes then throw .beforeSend
    else
      let written ← ask (.send request)
      if written then receive id deadlineAtMs maxCdpMessagesPerCommand 0 else throw .afterSend
  else throw .beforeSend

structure TungsteniteChannel where
  nextId : UInt64

/-- The identifier of the next command, if there is one. -/
def TungsteniteChannel.commandId (channel : TungsteniteChannel) : Option UInt64 :=
  if channel.nextId.toNat + 1 < UInt64.size then some (channel.nextId + 1) else none

/-- The channel after a command, and its result. -/
def TungsteniteChannel.command (channel : TungsteniteChannel) (method : String) (parameters : Json)
    (deadlineAtMs : Int64) : Prog Socket (TungsteniteChannel × Except CdpChannelError Json) :=
  match channel.commandId with
  | none => pure (channel, .error .beforeSend)
  | some id => do
    let result ← (sendCommand id method parameters deadlineAtMs).run
    pure ({ channel with nextId := id }, result)

end Praefectus.Cdp
