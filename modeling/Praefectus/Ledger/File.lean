import Praefectus.Program.Tree
import Praefectus.Text.Lines
import Praefectus.Protocol.Request

/-!
# The ledger file

The ledger is a file of JSON lines. The three operations on it are programs over
the file system: the repair of a torn tail, the reading of all records, and the
append of one. Each step of them may fail, may be cut short, or may be the last
thing the process does.
-/

namespace Praefectus

/-- Records written as one line of JSON text each, and read back from its bytes. -/
structure JsonLines (R : Type) where
  text : R → List Char
  read : List UInt8 → Option R
  read_text : ∀ r, read (utf8 (text r)) = some r
  visible : ∀ r, ∀ c ∈ text r, 32 ≤ c.toNat
  opens : ∀ r, (text r).head? = some '{'

inductive FileOp where
  | read
  | setLen (length : Nat)
  | syncAll
  | prepare
  | «exists»
  | «open»
  | write (bytes : List UInt8)
  | syncParent

abbrev FileOp.Result : FileOp → Type
  | .read => Option (List UInt8)
  | .«exists» => Bool
  | _ => Unit

/-- Every file operation may fail. -/
abbrev FileSystem : Interface := ⟨FileOp, fun op => Except ProtocolError op.Result⟩

abbrev FileM := ExceptT ProtocolError (Prog FileSystem)

def file (op : FileOp) : FileM op.Result :=
  ExceptT.mk (.ask op .ret : Prog FileSystem (Except ProtocolError op.Result))

variable {R : Type} (format : JsonLines R)

/-- `u8::is_ascii_whitespace`. -/
def isAsciiWhitespace (b : UInt8) : Bool := b = 32 || b = 9 || b = 10 || b = 12 || b = 13

/-- Drops the bytes after the last newline. A complete line that is not a record stops
the repair before it changes anything. -/
def repairJsonlTail (invalidRecordMessage : String) : FileM Unit := do
  match ← file .read with
  | none => pure ()
  | some bytes =>
    let durableLen := completeLength bytes
    if (lines (bytes.take durableLen)).all fun line =>
        line.all isAsciiWhitespace || (format.read line).isSome then
      if durableLen ≠ bytes.length then
        file (.setLen durableLen)
        file .syncAll
    else throw (.invalidRequest invalidRecordMessage)

/-- Removes the carriage return of a line that ended in a newline. -/
def stripReturn (line : List UInt8) : List UInt8 :=
  if line.getLast? = some carriageReturn then line.dropLast else line

/-- `BufRead::lines`. -/
def bufLines (bytes : List UInt8) : List (List UInt8) :=
  let ls := lines bytes
  if bytes.getLast? = some newline then ls.map stripReturn
  else ls.dropLast.map stripReturn ++ ls.getLast?.toList

/-- Blank lines are skipped, and a last line that is not a record is ignored. -/
def parseRecords : List (List UInt8) → Except ProtocolError (List R)
  | [] => pure []
  | line :: rest =>
    match decodeUtf8 line with
    | none => throw (.io "stream did not contain valid UTF-8")
    | some text =>
      if text.all isWhitespace then parseRecords rest
      else match format.read line with
        | some record => do pure (record :: (← parseRecords rest))
        | none => if rest = [] then pure [] else throw (.json "invalid ledger record")

def readRecords : FileM (List R) := do
  match ← file .read with
  | none => pure []
  | some bytes => ExceptT.mk (pure (parseRecords format (bufLines bytes)))

/-- The line is written and synced before the append is reported. -/
def appendRecord (record : R) : FileM Unit := do
  file .prepare
  let existed ← file .«exists»
  file .«open»
  file (.write (utf8 (format.text record)))
  file (.write [newline])
  file .syncAll
  if !existed then
    file .syncParent

/-! ### Files that lose what was not synced -/

/-- The bytes of a file, and how many of them survive a loss of power. -/
structure File where
  content : Option (List UInt8)
  durable : Nat

namespace File

def bytes (f : File) : List UInt8 := f.content.getD []

def truncate (f : File) (length : Nat) : File :=
  ⟨f.content.map (List.take length), min f.durable length⟩

def extend (f : File) (more : List UInt8) : File := ⟨some (f.bytes ++ more), f.durable⟩

def synced (f : File) : File := ⟨f.content, f.bytes.length⟩

/-- What an operation may have done to the file when it reports `ans`. A failed write
may have written any part of its bytes. -/
def Answer : Event FileSystem → File → File → Prop
  | ⟨.read, .ok content⟩, f, f' => f' = f ∧ content = f.content
  | ⟨.setLen length, .ok ()⟩, f, f' => f' = f.truncate length
  | ⟨.setLen length, .error _⟩, f, f' => f' = f ∨ f' = f.truncate length
  | ⟨.syncAll, .ok ()⟩, f, f' => f' = f.synced
  | ⟨.«exists», .ok found⟩, f, f' => f' = f ∧ found = f.content.isSome
  | ⟨.«exists», .error _⟩, _, _ => False
  | ⟨.«open», .ok ()⟩, f, f' => f' = f.extend []
  | ⟨.«open», .error _⟩, f, f' => f' = f ∨ f' = f.extend []
  | ⟨.write bytes, .ok ()⟩, f, f' => f' = f.extend bytes
  | ⟨.write bytes, .error _⟩, f, f' => ∃ part, part <+: bytes ∧ f' = f.extend part
  | _, f, f' => f' = f

/-- A process that stops during an operation leaves what the operation may have done. -/
def effects : Prog.Effects FileSystem File where
  answer := Answer
  abandon op f f' := ∃ ans, Answer ⟨op, ans⟩ f f'

/-- A loss of power keeps at least what was synced. -/
def Loses (f f' : File) : Prop :=
  ∃ length, f.durable ≤ length ∧ f' = ⟨f.content.map (List.take length), f.durable⟩

end File

end Praefectus
