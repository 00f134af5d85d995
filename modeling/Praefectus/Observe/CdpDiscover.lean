import Praefectus.Native.LinuxInput
import Praefectus.Observe.CdpChannel
import Praefectus.Text.Fields

/-!
# Discovery of a browser's websocket

The debugging port is asked over HTTP for its targets. The answer is read byte by byte up to
the end of its headers, then as many bytes as they declare, and may be anything.
-/

namespace Praefectus.Cdp

open Json Prog

def maxHttpBytes : Nat := 1024 * 1024

/-- Why a discovery gives nothing: an error, or a panic of the program. -/
inductive Stop where
  | failed (error : CdpError)
  | panicked
  deriving DecidableEq

/-! ### The stream -/

inductive StreamOp where
  | connect (port : UInt16)
  | setReadTimeout
  | setWriteTimeout
  | write (text : String)
  | flush
  | readExact (length : Nat)

/-- Steps succeed or not; of what is read there are as many bytes as were asked for, or none. -/
abbrev HttpStream : Interface where
  Op := StreamOp
  Ans
    | .connect _ => Bool
    | .setReadTimeout => Bool
    | .setWriteTimeout => Bool
    | .write _ => Bool
    | .flush => Bool
    | .readExact length => Option { bytes : List UInt8 // bytes.length = length }

abbrev DiscoverM := ExceptT Stop (Prog HttpStream)

namespace Discover

def ask (op : StreamOp) : DiscoverM (HttpStream.Ans op) :=
  monadLift (perform (I := HttpStream) op : Prog HttpStream (HttpStream.Ans op))

def protocolError : Stop := .failed .protocol

def accept (accepted : Bool) : DiscoverM Unit :=
  if accepted then pure () else throw protocolError

def orFail {α : Type} : Except CdpError α → DiscoverM α
  | .ok value => pure value
  | .error e => throw (.failed e)

def orProtocol {α : Type} : Option α → DiscoverM α
  | some value => pure value
  | none => throw protocolError

/-! ### Sizes -/

/-- A difference that is not negative. -/
def subtract (a b : Nat) : DiscoverM Nat := if b ≤ a then pure (a - b) else throw .panicked

/-- A sum that a `u64` holds. -/
def add (a b : Nat) : DiscoverM Nat := if a + b < 2 ^ 64 then pure (a + b) else throw .panicked

/-- A slice from the start that is in range. -/
def sliceTo (bytes : List UInt8) (length : Nat) : DiscoverM (List UInt8) :=
  if length ≤ bytes.length then pure (bytes.take length) else throw .panicked

/-! ### Headers -/

def terminator : List UInt8 := [13, 10, 13, 10]

/-- The bytes up to the first empty line, one at a time. -/
def readHeaders (headers : List UInt8) : DiscoverM (List UInt8) := do
  if terminator <:+ headers then pure headers
  else if maxHttpBytes ≤ headers.length then throw protocolError
  else
    match ← ask (.readExact 1) with
    | none => throw protocolError
    | some byte => readHeaders (headers ++ byte.val)
termination_by maxHttpBytes - headers.length
decreasing_by
  have single := byte.property
  simp only [List.length_append, single]
  omega

def named (name : List Char) (key : String) : Bool := Linux.eqIgnoreAsciiCase (.ofList name) key

/-- One line, on top of the length that was declared before. -/
def readField (contentLength : Option Nat) (line : List Char) : Except CdpError (Option Nat) :=
  match splitOnce ':' line with
  | none => throw .protocol
  | some (name, value) =>
    if named name "transfer-encoding" && !named (value.trimBy isWhitespace) "identity" then
      throw .protocol
    else if named name "content-length" then
      if contentLength.isSome then throw .protocol
      else
        match parseUsize (value.trimBy isWhitespace) with
        | some length => pure (some length)
        | none => throw .protocol
    else pure contentLength

/-- The length the headers declare. -/
def contentLengthOf (headers : List Char) : Except CdpError (Option Nat) :=
  match splitCrlf headers with
  | status :: fields =>
    if .ofList status ∈ ["HTTP/1.1 200 OK", "HTTP/1.0 200 OK"] then fields.foldlM readField none
    else throw .protocol
  | [] => throw .protocol

/-! ### Targets -/

def fromSlice (body : List UInt8) : Option Json :=
  (decodeUtf8 body).bind fun text => fromStr (.ofList text)

def hasId (targetId : String) (target : Json) : Bool :=
  (target.get? "id").bind asStr = some targetId

def isPage (target : Json) : Bool :=
  (target.get? "type").bind asStr = some "page" || (target.get? "type").bind asStr = some "webview"

def findTarget (targetId : String) : Json → Except CdpError Json
  | .arr targets =>
    match targets.filter (hasId targetId) with
    | [] => throw .targetNotFound
    | target :: others =>
      if others ≠ [] ∨ isPage target = false then throw .protocol else pure target
  | _ => throw .protocol

def websocketUrl (port : UInt16) (targetId : String) : String :=
  "ws://127.0.0.1:" ++ toString port ++ "/devtools/page/" ++ targetId

def validateWebsocketUrl (port : UInt16) (targetId url : String) : Except CdpError String :=
  if url ≠ websocketUrl port targetId then throw .invalidConfig
  else pure (websocketUrl port targetId)

/-! ### Discovery -/

def request (port : UInt16) : String :=
  "GET /json/list HTTP/1.1\r\nHost: 127.0.0.1:" ++ toString port ++
    "\r\nConnection: close\r\nAccept: application/json\r\n\r\n"

/-- What is made of the body. -/
def selectUrl (port : UInt16) (targetId : String) (body : List UInt8) : Except CdpError String :=
  match fromSlice body with
  | none => throw .protocol
  | some targets => do
    let target ← findTarget targetId targets
    match (target.get? "webSocketDebuggerUrl").bind asStr with
    | none => throw .protocol
    | some url => validateWebsocketUrl port targetId url

def discoverWebsocketUrl (port : UInt16) (targetId : String) : DiscoverM String := do
  accept (← ask (.connect port))
  accept (← ask .setReadTimeout)
  accept (← ask .setWriteTimeout)
  accept (← ask (.write (request port)))
  accept (← ask .flush)
  let headers ← readHeaders []
  let headers ← sliceTo headers (← subtract headers.length 4)
  let text ← orProtocol (decodeUtf8 headers)
  let declared ← orFail (contentLengthOf text)
  let limit := maxHttpBytes - (← add headers.length 4)
  let contentLength ← orProtocol (declared.filter (· ≤ limit))
  let body ← orProtocol (← ask (.readExact contentLength))
  if body.val.length ≠ contentLength then throw protocolError
  else orFail (selectUrl port targetId body.val)

end Discover

end Praefectus.Cdp
