import Praefectus.Program.Concurrent
import Praefectus.Program.Histories
import Praefectus.Protocol.Request
import Praefectus.Text.Lines

/-!
# Storing an observation

An observation is written to a new file beside its destination, synced, and renamed over it. When
something fails before the rename, the new file is removed again.
-/

namespace Praefectus.Persist

open Prog

structure FilePath where
  directory : String
  name : String
  deriving DecidableEq

/-- The end of a temporary file's name. -/
def temporaryEnd : List Char := ['.', 't', 'm', 'p']

def FilePath.IsTemporary (path : FilePath) : Prop := temporaryEnd <:+ path.name.toList

/-- What is to be stored, and where. The serialiser writes piece by piece, and may fail itself in
the end. No observation is stored under the name of a temporary file. -/
structure PersistCall where
  parent : Option String
  fileName : Option String
  pieces : List (List UInt8)
  fault : Option ProtocolError
  plain : ∀ name, fileName = some name → ¬ temporaryEnd <:+ name.toList

namespace PersistCall

variable (call : PersistCall)

def target : Option FilePath :=
  match call.parent, call.fileName with
  | some directory, some name => some ⟨directory, name⟩
  | _, _ => none

/-- The whole new content: the serialisation and a newline. -/
def content : List UInt8 := call.pieces.flatten ++ [newline]

end PersistCall

/-! ### The file system -/

inductive StoreOp where
  | requirePrivateStorage
  | ensureDirectory (directory : String)
  | processId
  | nextSequence
  | nonce (process : UInt32) (sequence : UInt64)
  | createNew (path : FilePath)
  | restrict (inode : Nat)
  | write (inode : Nat) (bytes : List UInt8)
  | syncAll (inode : Nat)
  | close (inode : Nat)
  | rename (source target : FilePath)
  | remove (path : FilePath)
  | syncParent (directory : String)
  deriving DecidableEq

/-- Questions about names are answered; everything else may fail. A new file is told by its
inode. -/
abbrev Store : Interface where
  Op := StoreOp
  Ans
    | .processId => UInt32
    | .nextSequence => UInt64
    | .nonce .. => UInt64
    | .close _ => Unit
    | .createNew _ => Except ProtocolError Nat
    | _ => Except ProtocolError Unit

abbrev PersistM := ExceptT ProtocolError (Prog Store)

def ask (op : StoreOp) : PersistM (Store.Ans op) := monadLift (perform (I := Store) op)

/-- An operation whose error is returned. -/
def orFail {α : Type} (answer : Except ProtocolError α) : PersistM α := ExceptT.mk (.ret answer)

@[simp] theorem orFail_ok {α β : Type} (a : α) (f : α → PersistM β) :
    (orFail (.ok a) >>= f) = f a := rfl

def invalidPath : ProtocolError := .invalidRequest "invalid observation path"

/-- Sixteen hexadecimal digits. -/
def hexNonce (nonce : UInt64) : String :=
  let digits := Nat.toDigits 16 nonce.toNat
  .ofList (List.replicate (16 - digits.length) '0' ++ digits)

def temporaryName (name : String) (process : UInt32) (sequence nonce : UInt64) : String :=
  name ++ "." ++ toString process.toNat ++ "." ++ toString sequence.toNat ++ "." ++
    hexNonce nonce ++ .ofList temporaryEnd

def uniqueTemporaryPath (directory : String) (fileName : Option String) : PersistM FilePath :=
  match fileName with
  | none => throw invalidPath
  | some name => do
    let process : UInt32 ← ask .processId
    let sequence : UInt64 ← ask .nextSequence
    let nonce : UInt64 ← ask (.nonce process sequence)
    pure ⟨directory, temporaryName name process sequence nonce⟩

/-- `serde_json::to_writer`: the pieces, one after the other. -/
def toWriter (inode : Nat) (pieces : List (List UInt8)) (fault : Option ProtocolError) :
    PersistM Unit :=
  match pieces with
  | [] =>
    match fault with
    | none => pure ()
    | some e => throw e
  | piece :: pieces => do
    orFail (← ask (.write inode piece))
    toWriter inode pieces fault

def writeObservation (call : PersistCall) (inode : Nat) : PersistM Unit := do
  orFail (← ask (.restrict inode))
  toWriter inode call.pieces call.fault
  orFail (← ask (.write inode [newline]))
  orFail (← ask (.syncAll inode))

/-- The file that was written takes the place of the destination, or is removed. -/
def replace (temporary target : FilePath) (written : Except ProtocolError Unit) : PersistM Unit := do
  let replaced : Except ProtocolError Unit ←
    match written with
    | .ok () => ask (.rename temporary target)
    | .error e => pure (.error e)
  match replaced with
  | .ok () => orFail (← ask (.syncParent target.directory))
  | .error e => do
    let _ ← ask (.remove temporary)
    throw e

def persistObservation (call : PersistCall) : PersistM Unit := do
  orFail (← ask .requirePrivateStorage)
  match call.parent with
  | none => throw invalidPath
  | some directory =>
    orFail (← ask (.ensureDirectory directory))
    let temporary ← uniqueTemporaryPath directory call.fileName
    let inode ← orFail (← ask (.createNew temporary))
    let written ← monadLift (writeObservation call inode).run
    let _ ← ask (.close inode)
    replace temporary ⟨directory, call.fileName.getD ""⟩ written

/-! ### The stages of a call -/

/-- How far a call is with the file it has made. -/
inductive Stage where
  | writing (done : List UInt8)
  | torn
  | whole
  | removed
  | left
  | placed
  | kept

inductive Phase where
  | start
  | held (temporary : FilePath) (inode : Nat) (stage : Stage)

def Phase.IsFinal : Phase → Prop
  | .start | .held _ _ .removed | .held _ _ .left | .held _ _ .placed | .held _ _ .kept => True
  | _ => False

/-- Where a call ends: a successful one has put its file in its place, for good. -/
def Phase.Ends (φ : Phase) : Except ProtocolError Unit → Prop
  | .ok () => ∃ temporary inode, φ = .held temporary inode .kept
  | .error _ => φ.IsFinal

theorem Phase.final_of_ends {φ : Phase} {result : Except ProtocolError Unit}
    (ended : φ.Ends result) : φ.IsFinal := by
  cases result with
  | ok =>
    obtain ⟨temporary, inode, rfl⟩ := ended
    trivial
  | error e => exact ended

/-- Questions before the file is made. -/
def IsEarly : StoreOp → Prop
  | .requirePrivateStorage | .ensureDirectory _ | .processId | .nextSequence | .nonce .. => True
  | _ => False

/-- One answered question of a call, and what becomes of its file by it. -/
inductive Step (call : PersistCall) : Phase → Event Store → Phase → Prop where
  | early {op : StoreOp} {ans : Store.Ans op} : IsEarly op → Step call .start ⟨op, ans⟩ .start
  | refused {temporary : FilePath} {e : ProtocolError} : temporary.IsTemporary →
      Step call .start ⟨.createNew temporary, .error e⟩ .start
  | made {temporary : FilePath} {inode : Nat} : temporary.IsTemporary →
      Step call .start ⟨.createNew temporary, .ok inode⟩ (.held temporary inode (.writing []))
  | restricted {temporary : FilePath} {inode : Nat} {done : List UInt8} :
      Step call (.held temporary inode (.writing done)) ⟨.restrict inode, .ok ()⟩
        (.held temporary inode (.writing done))
  | unrestricted {temporary : FilePath} {inode : Nat} {done : List UInt8} {e : ProtocolError} :
      Step call (.held temporary inode (.writing done)) ⟨.restrict inode, .error e⟩
        (.held temporary inode .torn)
  | wrote {temporary : FilePath} {inode : Nat} {done bytes : List UInt8} :
      Step call (.held temporary inode (.writing done)) ⟨.write inode bytes, .ok ()⟩
        (.held temporary inode (.writing (done ++ bytes)))
  | unwritten {temporary : FilePath} {inode : Nat} {done bytes : List UInt8} {e : ProtocolError} :
      Step call (.held temporary inode (.writing done)) ⟨.write inode bytes, .error e⟩
        (.held temporary inode .torn)
  | synced {temporary : FilePath} {inode : Nat} : call.fault = none →
      Step call (.held temporary inode (.writing call.content)) ⟨.syncAll inode, .ok ()⟩
        (.held temporary inode .whole)
  | unsynced {temporary : FilePath} {inode : Nat} {done : List UInt8} {e : ProtocolError} :
      Step call (.held temporary inode (.writing done)) ⟨.syncAll inode, .error e⟩
        (.held temporary inode .torn)
  | gaveUp {temporary : FilePath} {inode : Nat} {done : List UInt8} :
      Step call (.held temporary inode (.writing done)) ⟨.close inode, ()⟩
        (.held temporary inode .torn)
  | closed {temporary : FilePath} {inode : Nat} {stage : Stage} : stage = .whole ∨ stage = .torn →
      Step call (.held temporary inode stage) ⟨.close inode, ()⟩ (.held temporary inode stage)
  | renamed {temporary target : FilePath} {inode : Nat} : call.target = some target →
      Step call (.held temporary inode .whole) ⟨.rename temporary target, .ok ()⟩
        (.held temporary inode .placed)
  | unplaced {temporary target : FilePath} {inode : Nat} {e : ProtocolError} :
      call.target = some target →
      Step call (.held temporary inode .whole) ⟨.rename temporary target, .error e⟩
        (.held temporary inode .torn)
  | removed {temporary : FilePath} {inode : Nat} :
      Step call (.held temporary inode .torn) ⟨.remove temporary, .ok ()⟩
        (.held temporary inode .removed)
  | left {temporary : FilePath} {inode : Nat} {e : ProtocolError} :
      Step call (.held temporary inode .torn) ⟨.remove temporary, .error e⟩
        (.held temporary inode .left)
  | settled {temporary target : FilePath} {inode : Nat} : call.target = some target →
      Step call (.held temporary inode .placed) ⟨.syncParent target.directory, .ok ()⟩
        (.held temporary inode .kept)
  | unsettled {temporary : FilePath} {inode : Nat} {directory : String} {e : ProtocolError} :
      Step call (.held temporary inode .placed) ⟨.syncParent directory, .error e⟩
        (.held temporary inode .placed)

/-! ### A call goes through its stages -/

private theorem follows_ask {β : Type} {Δ : Phase → Event Store → Phase → Prop}
    {Q : Except ProtocolError β → Phase → Prop} {op : StoreOp}
    {f : Store.Ans op → PersistM β} {φ : Phase}
    (answered : ∀ ans, ∃ φ', Δ φ ⟨op, ans⟩ φ' ∧ (f ans).run.Follows Δ Q φ') :
    (ask op >>= f).run.Follows Δ Q φ := follows_try answered

theorem temporaryName_isTemporary (directory name : String) (process : UInt32)
    (sequence nonce : UInt64) :
    FilePath.IsTemporary ⟨directory, temporaryName name process sequence nonce⟩ := by
  unfold FilePath.IsTemporary temporaryName
  rw [String.toList_append, String.toList_ofList]
  exact List.suffix_append _ _

section

variable {call : PersistCall}

/-- A failed write: the file is torn, or the writer stopped where it was. -/
def Stage.Broken (stage : Stage) : Prop := stage = .torn ∨ ∃ done, stage = .writing done

/-- Where writing leads: through the bytes, or to a broken file. -/
theorem follows_toWriter {temporary : FilePath} {inode : Nat} (pieces : List (List UInt8))
    (fault : Option ProtocolError) (done : List UInt8) :
    (toWriter inode pieces fault).run.Follows (Step call)
      (fun result φ =>
        match result with
        | .ok () => fault = none ∧ φ = .held temporary inode (.writing (done ++ pieces.flatten))
        | .error _ => ∃ stage : Stage, stage.Broken ∧ φ = .held temporary inode stage)
      (.held temporary inode (.writing done)) := by
  induction pieces generalizing done with
  | nil =>
    unfold toWriter
    cases fault with
    | none => exact ⟨rfl, by rw [List.flatten_nil, List.append_nil]⟩
    | some e => exact ⟨_, .inr ⟨done, rfl⟩, rfl⟩
  | cons piece pieces ih =>
    unfold toWriter
    refine follows_ask fun ans => ?_
    cases ans with
    | ok =>
      refine ⟨_, .wrote, ?_⟩
      have rest := ih (done ++ piece)
      rw [List.append_assoc] at rest
      exact rest
    | error e =>
      refine ⟨_, .unwritten, ?_⟩
      exact ⟨.torn, .inl rfl, rfl⟩

/-- After everything is written, the file is whole: all of it, and synced. -/
theorem follows_writeObservation {temporary : FilePath} {inode : Nat} :
    (writeObservation call inode).run.Follows (Step call)
      (fun result φ =>
        match result with
        | .ok () => φ = .held temporary inode .whole
        | .error _ => ∃ stage : Stage, stage.Broken ∧ φ = .held temporary inode stage)
      (.held temporary inode (.writing [])) := by
  unfold writeObservation
  refine follows_ask fun ans => ?_
  cases ans with
  | error e =>
    refine ⟨_, .unrestricted, ?_⟩
    exact ⟨.torn, .inl rfl, rfl⟩
  | ok =>
    refine ⟨_, .restricted, ?_⟩
    rw [orFail_ok]
    refine follows_try (follows_mono (follows_toWriter call.pieces call.fault []) ?_)
    intro result φ told
    cases result with
    | error e => exact told
    | ok =>
      obtain ⟨faultless, rfl⟩ := told
      refine follows_ask fun ans => ?_
      cases ans with
      | error e =>
        refine ⟨_, .unwritten, ?_⟩
        exact ⟨.torn, .inl rfl, rfl⟩
      | ok =>
        refine ⟨_, .wrote, ?_⟩
        refine follows_ask fun ans => ?_
        cases ans with
        | error e =>
          refine ⟨_, .unsynced, ?_⟩
          exact ⟨.torn, .inl rfl, rfl⟩
        | ok =>
          refine ⟨_, .synced faultless, ?_⟩
          rfl

theorem follows_replace {temporary target : FilePath} {inode : Nat} {stage : Stage}
    {written : Except ProtocolError Unit} (placed : call.target = some target)
    (told : written = .ok () ∧ stage = .whole ∨ (∃ e, written = .error e) ∧ stage = .torn) :
    (replace temporary target written).run.Follows (Step call) (fun result φ => φ.Ends result)
      (.held temporary inode stage) := by
  have removing : ∀ e : ProtocolError, (do
      let _ ← ask (.remove temporary)
      throw e : PersistM Unit).run.Follows (Step call) (fun result φ => φ.Ends result)
        (.held temporary inode .torn) := by
    intro e
    refine follows_ask fun ans => ?_
    cases ans with
    | ok => exact ⟨_, .removed, trivial⟩
    | error e' => exact ⟨_, .left, trivial⟩
  rcases told with ⟨rfl, rfl⟩ | ⟨⟨e, rfl⟩, rfl⟩
  · refine follows_ask fun ans => ?_
    cases ans with
    | error e => exact ⟨_, .unplaced placed, removing e⟩
    | ok =>
      refine ⟨_, .renamed placed, ?_⟩
      refine follows_ask fun ans => ?_
      cases ans with
      | ok => exact ⟨_, .settled placed, follows_ret.mpr ⟨temporary, inode, rfl⟩⟩
      | error e => exact ⟨_, .unsettled, follows_ret.mpr trivial⟩
  · exact removing e

/-- Every call goes through its stages, and ends in a final one: in the last, if it succeeds. -/
theorem persistObservation_follows (call : PersistCall) :
    (persistObservation call).run.Follows (Step call) (fun result φ => φ.Ends result) .start := by
  unfold persistObservation
  refine follows_ask fun ans => ⟨_, .early trivial, ?_⟩
  cases ans with
  | error e => exact follows_ret.mpr trivial
  | ok =>
    cases parent : call.parent with
    | none => exact follows_ret.mpr trivial
    | some directory =>
      refine follows_ask fun ans => ⟨_, .early trivial, ?_⟩
      cases ans with
      | error e => exact follows_ret.mpr trivial
      | ok =>
        cases named : call.fileName with
        | none => exact follows_ret.mpr trivial
        | some name =>
          -- the process, the sequence and the nonce of the temporary name
          refine fun process => ⟨_, .early trivial, fun sequence => ⟨_, .early trivial,
            fun nonce => ⟨_, .early trivial, ?_⟩⟩⟩
          have temporary := temporaryName_isTemporary directory name process sequence nonce
          have placed : call.target = some ⟨directory, name⟩ := by
            unfold PersistCall.target
            rw [parent, named]
          refine follows_ask fun ans => ?_
          cases ans with
          | error e => exact ⟨_, .refused temporary, follows_ret.mpr trivial⟩
          | ok inode =>
            refine ⟨_, .made temporary, ?_⟩
            rw [orFail_ok]
            refine follows_try ?_
            rw [run_monadLift]
            refine follows_bind (follows_mono follows_writeObservation ?_)
            intro written φ told
            cases written with
            | ok =>
              cases told
              refine follows_ask fun ans => ⟨_, .closed (.inl rfl), ?_⟩
              exact follows_replace placed (.inl ⟨rfl, rfl⟩)
            | error e =>
              obtain ⟨stage, broken, rfl⟩ := told
              rcases broken with rfl | ⟨done, rfl⟩
              · refine follows_ask fun ans => ⟨_, .closed (.inr rfl), ?_⟩
                exact follows_replace placed (.inr ⟨⟨e, rfl⟩, rfl⟩)
              · refine follows_ask fun ans => ⟨_, .gaveUp, ?_⟩
                exact follows_replace placed (.inr ⟨⟨e, rfl⟩, rfl⟩)

end

end Praefectus.Persist
