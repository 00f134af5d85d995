import Praefectus.Protocol.Serialize

/-!
# Accepted requests and their hash

The checks every request passes before anything else is done with it, and the hash
that names what it asks for.
-/

namespace Praefectus

/-- What the build fixes: the platform, and the digest of the hash library. -/
structure Build where
  macos : Bool
  sha256 : List UInt8 → List UInt8

/-- A digit below 16, in ASCII. -/
def hexDigit (n : Nat) : UInt8 := .ofNat (if n < 10 then n + 48 else n + 87)

def hexBytes (bytes : List UInt8) : List UInt8 :=
  bytes.flatMap fun b => [hexDigit (b.toNat / 16), hexDigit (b.toNat % 16)]

theorem utf8_hexDigit : ∀ n < 16, String.utf8EncodeChar (Nat.digitChar n) = [hexDigit n] := by
  decide

theorem utf8_hexDigits (bytes : List UInt8) :
    utf8 (bytes.flatMap fun b => [Nat.digitChar (b.toNat / 16), Nat.digitChar (b.toNat % 16)]) =
      hexBytes bytes := by
  rw [utf8, hexBytes, List.flatMap_assoc]
  apply List.flatMap_congr
  intro b _
  have small := b.toNat_lt
  have high := utf8_hexDigit (b.toNat / 16) (by omega)
  have low := utf8_hexDigit (b.toNat % 16) (by omega)
  simp [high, low]

theorem hexBytes_valid (bytes : List UInt8) : (ByteArray.mk ⟨hexBytes bytes⟩).IsValidUTF8 := by
  apply ByteArray.IsValidUTF8.intro
    (bytes.flatMap fun b => [Nat.digitChar (b.toNat / 16), Nat.digitChar (b.toNat % 16)])
  rw [List.utf8Encode, ← utf8, utf8_hexDigits]
  exact ByteArray.ext List.data_toByteArray.symm

/-- The digits are given byte by byte. -/
def hexEncode (bytes : List UInt8) : String := ⟨⟨⟨hexBytes bytes⟩⟩, hexBytes_valid bytes⟩

def hashBytes (build : Build) (bytes : List UInt8) : String := hexEncode (build.sha256 bytes)

def canonicalJsonBytes (j : Json) : List UInt8 := utf8 j.canonicalize.print

def hashSerializable (build : Build) (j : Json) : String := hashBytes build (canonicalJsonBytes j)

/-! ### Paths -/

namespace PathBuf

def separator : UInt8 := 47

def dot : UInt8 := 46

def isAbsolute (path : PathBuf) : Bool := path.bytes.head? = some separator

/-- The components of a path after the root. -/
def names (path : PathBuf) : List (List UInt8) :=
  (path.bytes.splitOn separator).filter fun name => name ≠ [] && name ≠ [dot]

def fileName (path : PathBuf) : Option (List UInt8) :=
  path.names.getLast?.filter (· ≠ [dot, dot])

/-- What follows the last dot of the file name, unless nothing precedes that dot. -/
def extension (path : PathBuf) : Option (List UInt8) := do
  let name ← path.fileName
  let after := (name.reverse.takeWhile (· ≠ dot)).reverse
  match name.reverse.dropWhile (· ≠ dot) with
  | _ :: _ :: _ => some after
  | _ => none

def parent (path : PathBuf) : Option PathBuf :=
  if path.names = [] then none
  else some ⟨(if path.isAbsolute then [separator] else []) ++
    [separator].intercalate path.names.dropLast⟩

end PathBuf

/-! ### Checks -/

def invalid (message : String) : Except ProtocolError Unit := throw (.invalidRequest message)

/-- `u8::is_ascii_alphanumeric`. -/
def isAsciiAlphanumeric (byte : UInt8) : Bool :=
  (48 ≤ byte && byte ≤ 57) || (65 ≤ byte && byte ≤ 90) || (97 ≤ byte && byte ≤ 122)

/-- Letters, digits, and any of `-`, `_` and `:`. -/
def validIdentifier (value : String) : Bool :=
  value ≠ "" && value.utf8ByteSize ≤ 256 &&
    value.asBytes.all fun byte => isAsciiAlphanumeric byte || byte = 45 || byte = 95 || byte = 58

/-- A digit, or a letter from `a` to `f`. -/
def isLowerHex (byte : UInt8) : Bool := (48 ≤ byte && byte ≤ 57) || (97 ≤ byte && byte ≤ 102)

/-- `u8::is_ascii_hexdigit`. -/
def isAsciiHexdigit (byte : UInt8) : Bool := isLowerHex byte || (65 ≤ byte && byte ≤ 70)

def isHash (value : String) : Bool :=
  value.utf8ByteSize = 64 && value.asBytes.all isAsciiHexdigit

def semanticHash (value : String) : Bool :=
  value.utf8ByteSize = 64 && value.asBytes.all isLowerHex

/-- `char::is_control`. -/
def isControl (c : Char) : Bool := c.toNat < 32 || (127 ≤ c.toNat && c.toNat < 160)

/-- `char::is_whitespace`. -/
def isWhitespace (c : Char) : Bool :=
  let n := c.toNat
  (9 ≤ n && n ≤ 13) || n = 32 || n = 0x85 || n = 0xA0 || n = 0x1680 || (0x2000 ≤ n && n ≤ 0x200A) ||
    n = 0x2028 || n = 0x2029 || n = 0x202F || n = 0x205F || n = 0x3000

def validProtocolSnapshotId (snapshotId : String) : Bool :=
  snapshotId ≠ "" && snapshotId.utf8ByteSize ≤ 256 &&
    snapshotId.characters.all fun c => !isControl c

def targetProvenanceIsValid : TargetRef → Bool
  | .coordinates _ _ displayId displayGeometryHash snapshotId snapshotContentHash =>
    snapshotId ≠ "" && snapshotId.utf8ByteSize ≤ 256 && displayId ≠ "" &&
      displayId.utf8ByteSize ≤ 256 && displayGeometryHash.utf8ByteSize = 64 &&
      snapshotContentHash.utf8ByteSize = 64
  | .element target =>
    semanticHash target.observationId && target.generation > 0 &&
      semanticHash target.provenanceHash && semanticHash target.elementId &&
      semanticHash target.fingerprintHash
  | .none => true

def maxSelectTextRange : Nat := 1048576

def secondaryActions : List String :=
  ["AXShowMenu", "AXShowDefaultUI", "AXShowAlternateUI", "AXIncrement", "AXDecrement",
    "AXConfirm", "AXCancel", "AXPick"]

def maxText : Nat := 16 * 1024

/-- A text that is present and no longer than the bound. -/
def filled (bound : Nat) (text : String) : Bool := text ≠ "" && text.utf8ByteSize ≤ bound

def delayIsValid (delayMs : Option UInt64) : Bool := delayMs.all (· ≤ 1000)

def validateAction (isDir : PathBuf → Bool) (action : Action) : Except ProtocolError Unit :=
  let valid : Bool := match action with
    | .invoke => true
    | .click _ count _ => 1 ≤ count && count ≤ 3
    | .typeText text _ _ delayMs => filled maxText text && delayIsValid delayMs
    | .press key count delayMs =>
      filled 64 key && (1 ≤ count && count ≤ 100) && delayIsValid delayMs
    | .paste text => filled maxText text
    | .hotkey keys => keys ≠ [] && keys.length ≤ 8 && keys.all (filled 64)
    | .scroll _ amount => 1 ≤ amount && amount ≤ 100
    | .move => true
    | .drag destination _ => (destination matches .coordinates ..)
    | .selectText start length => start.toNat + length.toNat ≤ maxSelectTextRange
    | .performSecondaryAction name => secondaryActions.contains name
    | .setValue value => value.utf8ByteSize ≤ maxText
    | .screenshot path =>
      path.isAbsolute && path.fileName.isSome && path.extension = some "png".asBytes &&
        path.parent.any isDir
    | .application _ name => filled 256 name
    | .window operation app title =>
      app.any (filled 256) && title.all (filled 1024) && (operation = .focus || title.isSome)
    | .«open» target app _ => filled maxText target && app.all (filled 256)
    | .clipboardWrite text => text.utf8ByteSize ≤ 1024 * 1024
  if valid then pure () else invalid "invalid action parameters"

def maxVerificationJsonBytes : Nat := 64 * 1024

def maxVerificationJsonDepth : Nat := 32

def maxVerificationJsonNodes : Nat := 4096

/-- The bytes that one node counts for, and the nodes below it in the order they are
taken from the stack. -/
def nodeCost : Json → Nat
  | .int n => (printInt n.value).length
  | .float value => value.text.length
  | .str s => s.utf8ByteSize
  | .obj members => (members.map fun member => member.1.utf8ByteSize).sum
  | _ => 0

def nodeChildren : Json → List Json
  | .arr items => items.reverse
  | .obj members => (members.map Prod.snd).reverse
  | _ => []

/-- The walk over the expected state: a stack of nodes with their depth, the number of
nodes still allowed, and the bytes counted so far. -/
def walkVerification : Nat → List (Json × Nat) → Nat → Bool
  | _, [], _ => true
  | 0, _ :: _, _ => false
  | remaining + 1, (value, depth) :: stack, bytes =>
    depth ≤ maxVerificationJsonDepth && bytes + nodeCost value ≤ maxVerificationJsonBytes &&
      walkVerification remaining ((nodeChildren value).map (·, depth + 1) ++ stack)
        (bytes + nodeCost value)

def validateVerification : VerificationPolicy → Except ProtocolError Unit
  | .targetState expected =>
    if walkVerification maxVerificationJsonNodes [(expected.json, 0)] 0 then pure ()
    else invalid "verification state is too large"
  | _ => pure ()

def Action.isAuxiliary : Action → Bool
  | .screenshot .. | .application .. | .window .. | .«open» .. | .clipboardWrite .. => true
  | _ => false

/-- A request to set a value carries the hash of that value, and no other request does. -/
def valueHashAgrees (build : Build) : Action → VerificationPolicy → Bool
  | .setValue value, .targetValueHash sha256 =>
    semanticHash sha256 && hashBytes build value.asBytes = sha256
  | .setValue _, _ => false
  | _, .targetValueHash _ => false
  | _, _ => true

def validateDragDestination : TargetRef → Except ProtocolError Unit
  | .coordinates x y displayId displayGeometryHash snapshotId snapshotContentHash => do
    if !targetProvenanceIsValid
        (.coordinates x y displayId displayGeometryHash snapshotId snapshotContentHash) then
      invalid "invalid drag destination provenance"
    if !validProtocolSnapshotId snapshotId then invalid "invalid drag destination snapshot ID"
  | destination => do
    if !targetProvenanceIsValid destination then invalid "invalid drag destination provenance"
    invalid "drag requires a fenced coordinate destination"

def TargetRef.snapshot : TargetRef → Option String
  | .coordinates _ _ _ _ snapshotId _ => some snapshotId
  | .element target => some target.observationId
  | .none => Option.none

def validateRequest (build : Build) (isDir : PathBuf → Bool) (request : ActionRequest) :
    Except ProtocolError Unit := do
  if request.protocolVersion ≠ protocolVersion || request.actionVersion ≠ protocolVersion ||
      request.targetVersion ≠ protocolVersion || request.verificationVersion ≠ protocolVersion ||
      request.interactionMode = .unknown then
    invalid "unsupported protocol version"
  if !validIdentifier request.operationId then invalid "invalid operation_id"
  if !validIdentifier request.subject then invalid "invalid subject"
  if !validIdentifier request.sessionId then invalid "invalid session_id"
  let auxiliary := request.action.isAuxiliary
  if request.target = .none && !auxiliary then invalid "action requires a target"
  if auxiliary && (request.target ≠ .none || !request.verification.isNone) then
    invalid "desktop action requires no target and no target verification"
  validateAction isDir request.action
  if (request.target matches .coordinates ..) &&
      !(request.action matches .click .. | .move | .drag ..) then
    invalid "coordinate targets support only click, move, and drag"
  if (request.action matches .drag ..) && !(request.target matches .coordinates ..) then
    invalid "drag requires a fenced coordinate target"
  if (request.action matches .selectText .. | .performSecondaryAction ..) &&
      !(request.target matches .element ..) then
    invalid "action requires a fenced semantic element target"
  validateVerification request.verification
  if !valueHashAgrees build request.action request.verification then
    invalid "invalid target value verification"
  if request.deadlineAtMs ≤ 0 || request.authority.signature.utf8ByteSize ≠ 128 ||
      !request.authority.signature.asBytes.all isAsciiHexdigit then
    invalid "invalid deadline or authority signature"
  if !targetProvenanceIsValid request.target then invalid "invalid target provenance"
  match request.action with
  | .drag destination _ => validateDragDestination destination
  | _ => pure ()
  if request.target.snapshot.any fun snapshotId => !validProtocolSnapshotId snapshotId then
    invalid "invalid snapshot ID"

/-! ### The action hash -/

/-- The values the hash covers, in order. -/
def hashedFields (request : ActionRequest) (action : Json) : Json := .arr [
  .ofUInt16 request.protocolVersion,
  .ofUInt16 request.actionVersion,
  .ofUInt16 request.targetVersion,
  .ofUInt16 request.verificationVersion,
  .str request.subject,
  .str request.sessionId,
  action,
  request.target.toJson,
  .str request.interactionMode.text,
  .ofInt64 request.deadlineAtMs,
  request.verification.toJson,
  .str request.safety.text]

def normalizedActionHash (build : Build) (request : ActionRequest) :
    Except ProtocolError String := do
  validateVerification request.verification
  match request.action.toJson with
  | some action => pure (hashSerializable build (hashedFields request action))
  | none => throw (.json "path contains invalid UTF-8 characters")

end Praefectus
