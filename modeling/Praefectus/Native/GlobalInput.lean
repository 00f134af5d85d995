import Praefectus.Program.Settings
import Praefectus.Program.Answered
import Praefectus.Native.Executor

/-!
# The restriction of global input

Global input is restricted by the environment variables or by a file, whose path is derived from
the variables. On a disk that can be read, a restriction that was persisted stays where that path
leads to the same place, until it is cleared, or until the variables overrule it.
-/

namespace Praefectus.Native

open Prog

/-! ### The path -/

/-- A string of the system, which need not be text. -/
abbrev OsString := List UInt8

def intoString (value : OsString) : Option String := (decodeUtf8 value).map String.ofList

/-- A directory, and the names that are joined to it. Which file it leads to is up to the system. -/
structure StatePath where
  base : PathBuf
  names : List String
  deriving DecidableEq

def StatePath.join (path : StatePath) (name : String) : StatePath :=
  { path with names := path.names ++ [name] }

/-- What a process finds around it. The directory it falls back to is made once, with a random
name. -/
structure ProcessEnv where
  var : String → Option OsString
  fallbackTempDir : PathBuf

def observationRoot (os : TargetOs) (env : ProcessEnv) : StatePath :=
  match os with
  | .windows => ⟨((env.var "LOCALAPPDATA").map PathBuf.mk).getD env.fallbackTempDir, []⟩
  | _ =>
    match env.var "XDG_STATE_HOME" with
    | some directory => ⟨⟨directory⟩, []⟩
    | none =>
      match env.var "HOME" with
      | some home => StatePath.join ⟨⟨home⟩, []⟩ ".local/state"
      | none => ⟨env.fallbackTempDir, []⟩

def noYoloPath (os : TargetOs) (env : ProcessEnv) : StatePath :=
  ((observationRoot os env).join "praefectus").join "no-yolo"

/-! ### The file -/

inductive Entry where
  | file | directory | symlink | other
  deriving DecidableEq

inductive CreateError where
  | alreadyExists
  | failed (message : String)

/-- What is asked of the file of the restriction and of its directory. -/
inductive RestrictionOp where
  | lockPath (path : StatePath)
  | symlinkMetadata (path : StatePath)
  | parentMetadata (path : StatePath)
  | ensureParentDirectory (path : StatePath)
  | createNew (path : StatePath)
  | restrictFile (path : StatePath)
  | syncAll (path : StatePath)
  | openFile (path : StatePath)
  | syncParent (path : StatePath)
  | removeFile (path : StatePath)

abbrev Restriction : Interface where
  Op := RestrictionOp
  Ans
    | .symlinkMetadata _ | .parentMetadata _ => Except String Entry
    | .createNew _ => Except CreateError Unit
    | .lockPath _ | .ensureParentDirectory _ | .restrictFile _ | .syncParent _ =>
      Except ProtocolError Unit
    | .syncAll _ | .openFile _ | .removeFile _ => Except String Unit

abbrev RestrictionM := ExceptT ProtocolError (Prog Restriction)

structure GlobalInputAllowance where
  allowed : Bool
  noYolo : Bool
  persisted : Bool
  environment : Bool
  deriving DecidableEq

def globalInputEnvRestriction (env : ProcessEnv) : Option Bool :=
  match (env.var "PRAEFECTUS_ALLOW_GLOBAL_INPUT").bind intoString with
  | some "1" => some false
  | some "0" => some true
  | _ => match (env.var "PRAEFECTUS_NO_YOLO").bind intoString with
    | some "1" => some true
    | some "0" => some false
    | _ => none

def restrictionFileIsPresent (path : StatePath) : Prog Restriction Bool := do
  match ← perform (I := Restriction) (.symlinkMetadata path) with
  | .ok entry => return entry = .file
  | .error _ => return false

section

variable (os : TargetOs)

/-- The path is locked on Windows only. -/
def persistentNoYolo (env : ProcessEnv) : Prog Restriction Bool :=
  let path := noYoloPath os env
  match os with
  | .windows => do
    match ← perform (I := Restriction) (.lockPath path) with
    | .ok _ => restrictionFileIsPresent path
    | .error _ => return false
  | _ => restrictionFileIsPresent path

def globalInputAllowed (env : ProcessEnv) : Prog Restriction Bool :=
  match globalInputEnvRestriction env with
  | some restricted => return !restricted
  | none => do return !(← persistentNoYolo os env)

def globalInputAllowance (env : ProcessEnv) : Prog Restriction GlobalInputAllowance := do
  let environment := globalInputEnvRestriction env = some true
  let persisted ← persistentNoYolo os env
  let allowed ← globalInputAllowed os env
  return ⟨allowed, !allowed, persisted, environment⟩

/-- A question whose error is returned. -/
def tryAsk (op : RestrictionOp) (answers : Restriction.Ans op → Except ProtocolError Unit) :
    RestrictionM Unit :=
  ExceptT.mk (do return answers (← perform (I := Restriction) op))

def orIo (answer : Except String Unit) : Except ProtocolError Unit :=
  answer.mapError .io

def lockPath (path : StatePath) : RestrictionM Unit :=
  match os with
  | .windows => tryAsk (.lockPath path) id
  | _ => pure ()

def createRestriction (path : StatePath) : RestrictionM Unit := do
  match ← (monadLift (perform (I := Restriction) (.createNew path)) :
    RestrictionM (Except CreateError Unit)) with
  | .ok _ =>
    tryAsk (.restrictFile path) id
    tryAsk (.syncAll path) orIo
  | .error .alreadyExists =>
    let present ← (monadLift (restrictionFileIsPresent path) : RestrictionM Bool)
    if !present then throw (.io "Praefectus state directory is not private")
    else
      tryAsk (.openFile path) orIo
      tryAsk (.restrictFile path) id
  | .error (.failed message) => throw (.io message)

/-- The directory of the restriction, which is made where there is none. -/
def ensureParent (path : StatePath) : RestrictionM Unit := do
  match ← (monadLift (perform (I := Restriction) (.parentMetadata path)) :
    RestrictionM (Except String Entry)) with
  | .ok .directory => pure ()
  | _ => tryAsk (.ensureParentDirectory path) id

def persistNoYoloAt (path : StatePath) (restricted : Bool) : RestrictionM Unit := do
  if restricted then
    ensureParent path
    lockPath os path
    createRestriction path
    tryAsk (.syncParent path) id
  else
    let present ← (monadLift (restrictionFileIsPresent path) : RestrictionM Bool)
    when present do
      lockPath os path
      tryAsk (.removeFile path) orIo
      tryAsk (.syncParent path) id

def persistNoYolo (env : ProcessEnv) (restricted : Bool) : RestrictionM GlobalInputAllowance := do
  persistNoYoloAt os (noYoloPath os env) restricted
  (monadLift (globalInputAllowance os env) : RestrictionM GlobalInputAllowance)

end

/-! ### The disk -/

section

variable {Place : Type} [DecidableEq Place]

/-- What is at each place of a disk that can be read and locked, where each path leads to one. A
new file is created only where there is nothing, and nobody else writes there. -/
def restrictionDisk (locate : StatePath → Place) : Setting Restriction (Place → Option Entry) where
  admits
    | disk, ⟨.symlinkMetadata path, .ok found⟩ => disk (locate path) = some found
    | disk, ⟨.symlinkMetadata path, .error _⟩ => disk (locate path) = none
    | disk, ⟨.createNew path, .ok _⟩ => disk (locate path) = none
    | _, ⟨.lockPath _, .error _⟩ => False
    | _, _ => True
  after
    | disk, ⟨.createNew path, .ok _⟩ => Function.update disk (locate path) (some .file)
    | disk, ⟨.removeFile path, .ok _⟩ => Function.update disk (locate path) none
    | disk, _ => disk

end

/-- Global input is restricted by the file, or it is not. -/
def Kept (restricted : Bool) (entry : Option Entry) : Prop :=
  decide (entry = some .file) = restricted

/-- The entry that a change of the restriction leads to. -/
def settled (restricted : Bool) : Option Entry := if restricted then some .file else none

theorem kept_settled (restricted : Bool) : Kept restricted (settled restricted) := by
  cases restricted <;> rfl

section

variable {Place : Type} [DecidableEq Place] {locate : StatePath → Place} {α β : Type}
  {restricted : Bool} {disk : Place → Option Entry} {path : StatePath}

/-- A program that leaves the disk as it is. -/
def Quiet (locate : StatePath → Place) (p : Prog Restriction α) : Prop :=
  ∀ disk, (restrictionDisk locate).Leads (fun disk' _ => disk' = disk) p disk

/-- A change of the restriction has left the disk as it was, or has settled its place, and it
succeeds only where that is settled. -/
def Settles (restricted : Bool) (place : Place) (disk disk' : Place → Option Entry)
    (result : Except ProtocolError α) : Prop :=
  (disk' = disk ∨ disk' = Function.update disk place (settled restricted)) ∧
    (result.isOk = true → Kept restricted (disk' place))

/-! ### Rules -/

theorem quiet_ret (value : α) : Quiet locate (.ret value) := fun _ => rfl

theorem quiet_bind {p : Prog Restriction α} {f : α → Prog Restriction β} (first : Quiet locate p)
    (rest : ∀ a, Quiet locate (f a)) : Quiet locate (p >>= f) := by
  intro disk
  apply Setting.leads_bind (Setting.leads_mono (first disk) _)
  rintro _ a rfl
  exact rest a _

theorem quiet_lift {p : Prog Restriction α} (quiet : Quiet locate p) :
    Quiet locate (monadLift p : RestrictionM α).run := quiet_bind quiet fun _ => quiet_ret _

/-- What leaves the disk alone may come before a change. -/
theorem settles_after {x : RestrictionM α} {f : α → RestrictionM β} {place : Place}
    (quiet : Quiet locate x.run)
    (rest : ∀ a, (restrictionDisk locate).Leads (Settles restricted place disk) (f a).run disk) :
    (restrictionDisk locate).Leads (Settles restricted place disk) (x >>= f).run disk := by
  apply Setting.leads_try (Setting.leads_mono (quiet disk) _)
  rintro _ (e | a) rfl
  · exact ⟨.inl rfl, fun ok => absurd ok Bool.false_ne_true⟩
  · exact rest a

/-- It may come after a change as well. -/
theorem settles_then {x : RestrictionM α} {f : α → RestrictionM β} {place : Place}
    (first : (restrictionDisk locate).Leads (Settles restricted place disk) x.run disk)
    (quiet : ∀ a, Quiet locate (f a).run) :
    (restrictionDisk locate).Leads (Settles restricted place disk) (x >>= f).run disk := by
  apply Setting.leads_try (Setting.leads_mono first _)
  rintro disk' (e | a) ⟨reached, kept⟩
  · exact ⟨reached, fun ok => absurd ok Bool.false_ne_true⟩
  · apply Setting.leads_mono (quiet a disk')
    rintro _ _ rfl
    exact ⟨reached, fun _ => kept rfl⟩

theorem settles_throw {place : Place} (error : ProtocolError) :
    (restrictionDisk locate).Leads (Settles restricted place disk)
      (throw error : RestrictionM α).run disk :=
  ⟨.inl rfl, fun ok => absurd ok Bool.false_ne_true⟩

/-- Where it is settled, nothing more is needed. -/
theorem settles_kept {x : RestrictionM α} {place : Place} (kept : Kept restricted (disk place))
    (quiet : Quiet locate x.run) :
    (restrictionDisk locate).Leads (Settles restricted place disk) x.run disk := by
  apply Setting.leads_mono (quiet disk)
  rintro _ _ rfl
  exact ⟨.inl rfl, fun _ => kept⟩

/-! ### Reading -/

/-- The file is present if and only if it is a file. -/
theorem leads_present : (restrictionDisk locate).Leads
    (fun disk' present => disk' = disk ∧ Kept present (disk (locate path)))
    (restrictionFileIsPresent path) disk := by
  intro answer admitted
  cases answer with
  | error message =>
    have absent : disk (locate path) = none := admitted
    refine ⟨rfl, ?_⟩
    rw [absent]
    rfl
  | ok found =>
    have there : disk (locate path) = some found := admitted
    refine ⟨rfl, ?_⟩
    simp [there, Kept]

theorem leads_persistent (os : TargetOs) (env : ProcessEnv) : (restrictionDisk locate).Leads
    (fun disk' present => disk' = disk ∧ Kept present (disk (locate (noYoloPath os env))))
    (persistentNoYolo os env) disk := by
  cases os with
  | windows =>
    intro answer admitted
    cases answer with
    | error e => exact admitted.elim
    | ok _ => exact leads_present
  | _ => exact leads_present

/-- Global input is allowed as the variables say, and else where there is no file. -/
theorem leads_allowed (os : TargetOs) (env : ProcessEnv) : (restrictionDisk locate).Leads
    (fun disk' allowed => disk' = disk ∧
      ∀ restricted, Kept restricted (disk (locate (noYoloPath os env))) →
        globalInputEnvRestriction env ≠ some (!restricted) → allowed = !restricted)
    (globalInputAllowed os env) disk := by
  unfold globalInputAllowed
  cases globalInputEnvRestriction env with
  | some told =>
    refine ⟨rfl, fun restricted _ other => ?_⟩
    cases told <;> cases restricted <;> simp_all
  | none =>
    apply Setting.leads_bind (Setting.leads_mono (leads_persistent os env) _)
    rintro _ present ⟨rfl, kept⟩
    refine ⟨rfl, fun restricted kept' _ => ?_⟩
    exact congrArg not (kept.symm.trans kept')

theorem quiet_allowance (os : TargetOs) (env : ProcessEnv) :
    Quiet locate (globalInputAllowance os env) := by
  apply quiet_bind fun _ => Setting.leads_mono (leads_persistent os env) fun _ _ => And.left
  intro _
  apply quiet_bind fun _ => Setting.leads_mono (leads_allowed os env) fun _ _ => And.left
  exact fun _ => quiet_ret _

/-! ### Changing -/

theorem quiet_tryAsk {op : RestrictionOp} {answers : Restriction.Ans op → Except ProtocolError Unit}
    (quiet : ∀ disk answer, (restrictionDisk locate).after disk ⟨op, answer⟩ = disk) :
    Quiet locate (tryAsk op answers).run :=
  fun disk answer _ => quiet disk answer

theorem quiet_lockPath (os : TargetOs) : Quiet locate (lockPath os path).run := by
  cases os with
  | windows => exact quiet_tryAsk fun _ _ => rfl
  | _ => exact quiet_ret _

theorem quiet_try {x : RestrictionM α} {f : α → RestrictionM β} (first : Quiet locate x.run)
    (rest : ∀ a, Quiet locate (f a).run) : Quiet locate (x >>= f).run := by
  intro disk
  apply Setting.leads_try (Setting.leads_mono (first disk) _)
  rintro _ (e | a) rfl
  · rfl
  · exact rest a _

/-- What was found of the file, and the rest. -/
theorem settles_found {f : Bool → RestrictionM α}
    (rest : ∀ present, Kept present (disk (locate path)) →
      (restrictionDisk locate).Leads (Settles restricted (locate path) disk) (f present).run disk) :
    (restrictionDisk locate).Leads (Settles restricted (locate path) disk)
      ((monadLift (restrictionFileIsPresent path) : RestrictionM Bool) >>= f).run disk := by
  apply Setting.leads_try
  apply Setting.leads_bind (Setting.leads_mono leads_present _)
  rintro _ present ⟨rfl, kept⟩
  exact rest present kept

theorem settles_create : (restrictionDisk locate).Leads (Settles true (locate path) disk)
    (createRestriction path).run disk := by
  intro answer admitted
  rcases answer with (_ | message) | _
  · apply settles_found
    intro present kept
    cases present with
    | false => exact settles_throw _
    | true =>
      apply settles_kept kept
      exact quiet_try (quiet_tryAsk fun _ _ => rfl) fun _ => quiet_tryAsk fun _ _ => rfl
  · exact settles_throw _
  · -- The new file is a restriction already before it is private and written out.
    apply Setting.leads_mono
    · exact quiet_try (quiet_tryAsk fun _ _ => rfl) (fun _ => quiet_tryAsk fun _ _ => rfl)
        (Function.update disk (locate path) (some .file))
    · rintro _ _ rfl
      refine ⟨.inr rfl, fun _ => ?_⟩
      rw [Function.update_self]
      rfl

theorem quiet_ensureParent : Quiet locate (ensureParent path).run := by
  apply quiet_try (quiet_lift (p := perform (I := Restriction) (.parentMetadata path)) fun _ _ _ => rfl)
  intro parent
  split
  · exact quiet_ret _
  · exact quiet_tryAsk fun _ _ => rfl

theorem settles_remove : (restrictionDisk locate).Leads (Settles false (locate path) disk)
    (tryAsk (.removeFile path) orIo).run disk := by
  intro answer _
  cases answer with
  | error message => exact ⟨.inl rfl, fun ok => absurd ok Bool.false_ne_true⟩
  | ok _ =>
    refine ⟨.inr rfl, fun _ => ?_⟩
    change Kept false (Function.update disk (locate path) none (locate path))
    rw [Function.update_self]
    rfl

theorem settles_persistAt (os : TargetOs) :
    (restrictionDisk locate).Leads (Settles restricted (locate path) disk)
      (persistNoYoloAt os path restricted).run disk := by
  cases restricted with
  | true =>
    apply settles_after quiet_ensureParent
    intro _
    apply settles_after (quiet_lockPath os)
    intro _
    exact settles_then settles_create fun _ => quiet_tryAsk fun _ _ => rfl
  | false =>
    apply settles_found
    intro present kept
    cases present with
    | false => exact settles_kept kept (quiet_ret _)
    | true =>
      apply settles_after (quiet_lockPath os)
      intro _
      exact settles_then settles_remove fun _ => quiet_tryAsk fun _ _ => rfl

theorem settles_persist (os : TargetOs) (env : ProcessEnv) :
    (restrictionDisk locate).Leads (Settles restricted (locate (noYoloPath os env)) disk)
      (persistNoYolo os env restricted).run disk :=
  settles_then (settles_persistAt os) fun _ => quiet_lift (quiet_allowance os env)

/-! ### Sessions -/

end

inductive RestrictionCall where
  | persist (env : ProcessEnv) (restricted : Bool)
  | allowance (env : ProcessEnv)
  | allowed (env : ProcessEnv)

/-- The call asks for the opposite at the place. -/
def RestrictionCall.Undoes {Place : Type} (os : TargetOs) (locate : StatePath → Place) (place : Place)
    (restricted : Bool) : RestrictionCall → Prop
  | .persist env other => locate (noYoloPath os env) = place ∧ other ≠ restricted
  | _ => False

def RestrictionCall.run (os : TargetOs) : RestrictionCall → Prog Restriction Unit
  | .persist env restricted => do
    let _ ← (persistNoYolo os env restricted).run
    return ()
  | .allowance env => do
    let _ ← globalInputAllowance os env
    return ()
  | .allowed env => do
    let _ ← globalInputAllowed os env
    return ()

def runCalls (os : TargetOs) : List RestrictionCall → Prog Restriction Unit
  | [] => return ()
  | call :: calls => do
    call.run os
    runCalls os calls

/-- A change of the restriction, other calls after it, and the question whether global input is
allowed. What is around may differ each time. -/
def restrictionSession (os : TargetOs) (first last : ProcessEnv) (restricted : Bool)
    (calls : List RestrictionCall) :
    Prog Restriction (Except ProtocolError GlobalInputAllowance × Bool) := do
  let persisted ← (persistNoYolo os first restricted).run
  runCalls os calls
  let allowed ← globalInputAllowed os last
  return (persisted, allowed)

section

variable {Place : Type} [DecidableEq Place] {locate : StatePath → Place} {os : TargetOs}
  {restricted : Bool} {disk : Place → Option Entry} {place : Place} {calls : List RestrictionCall}

/-- A call that does not ask for the opposite there keeps what is settled. -/
theorem keeps_call {call : RestrictionCall} (calm : ¬ call.Undoes os locate place restricted)
    (kept : Kept restricted (disk place)) :
    (restrictionDisk locate).Leads (fun disk' _ => Kept restricted (disk' place)) (call.run os)
      disk := by
  cases call with
  | persist env other =>
    apply Setting.leads_bind (Setting.leads_mono (settles_persist os env) _)
    rintro disk' _ ⟨rfl | rfl, _⟩
    · exact kept
    · by_cases here : locate (noYoloPath os env) = place
      · obtain rfl : other = restricted := not_not.mp fun differs => calm ⟨here, differs⟩
        subst here
        change Kept other (Function.update disk _ (settled other) _)
        rw [Function.update_self]
        exact kept_settled other
      · change Kept restricted (Function.update disk _ (settled other) place)
        rw [Function.update_of_ne (Ne.symm here)]
        exact kept
  | allowance env =>
    apply Setting.leads_bind (Setting.leads_mono (quiet_allowance os env disk) _)
    rintro _ _ rfl
    exact kept
  | allowed env =>
    apply Setting.leads_bind (Setting.leads_mono (leads_allowed os env) _)
    rintro _ _ ⟨rfl, _⟩
    exact kept

theorem keeps_calls (calm : ∀ call ∈ calls, ¬ call.Undoes os locate place restricted)
    (kept : Kept restricted (disk place)) :
    (restrictionDisk locate).Leads (fun disk' _ => Kept restricted (disk' place)) (runCalls os calls)
      disk := by
  induction calls generalizing disk with
  | nil => exact kept
  | cons call calls ih =>
    obtain ⟨here, later⟩ := List.forall_mem_cons.mp calm
    apply Setting.leads_bind (Setting.leads_mono (keeps_call here kept) _)
    exact fun disk' _ kept' => ih later kept'

end

/-! ### A restriction that is there already -/

/-- A home whose state directory is where `XDG_STATE_HOME` says, if it is set. -/
def homeEnv (stateHome : Option OsString) : ProcessEnv where
  var name := if name = "HOME" then some "/home/u".asBytes
    else if name = "XDG_STATE_HOME" then stateHome else none
  fallbackTempDir := ⟨"/tmp/praefectus-0".asBytes⟩

def homePath : StatePath := noYoloPath .linux (homeEnv none)

/-- A disk with the file of the restriction in the home, and with nothing else. -/
def homeDisk (path : StatePath) : Option Entry := if path = homePath then some .file else none

def homeAnswer : (op : RestrictionOp) → Restriction.Ans op
  | .symlinkMetadata path =>
    match homeDisk path with
    | some entry => Except.ok entry
    | none => Except.error "No such file or directory"
  | .parentMetadata _ => Except.ok .directory
  | .createNew _ => Except.error .alreadyExists
  | .removeFile _ => Except.error "Permission denied"
  | .lockPath _ | .ensureParentDirectory _ | .restrictFile _ | .syncParent _ => Except.ok ()
  | .syncAll _ | .openFile _ => Except.ok ()

theorem admitted_home : ∀ trace : List (Event Restriction),
    (∀ e ∈ trace, e.ans = homeAnswer e.op) → (restrictionDisk id).Admitted homeDisk trace
  | [], _ => trivial
  | ⟨op, answer⟩ :: trace, told => by
    obtain ⟨here, later⟩ := List.forall_mem_cons.mp told
    obtain rfl : answer = homeAnswer op := here
    have rest := admitted_home trace later
    cases op with
    | symlinkMetadata path =>
      refine ⟨?_, rest⟩
      by_cases home : path = homePath <;> simp [restrictionDisk, homeAnswer, homeDisk, home]
    | _ => exact ⟨by simp [restrictionDisk, homeAnswer], rest⟩

/-- Restricted twice at home, and freed for another state directory in between. -/
def restrictTwice : Prog Restriction (Except ProtocolError GlobalInputAllowance × Bool) :=
  restrictionSession .linux (homeEnv none) (homeEnv none) true
    [.persist (homeEnv (some "/srv/state".asBytes)) false, .persist (homeEnv none) true]

theorem restrictTwice_run : ∃ trace, (restrictionDisk id).Admitted homeDisk trace ∧
    Steps restrictTwice trace (.ret (.ok ⟨false, true, true, false⟩, false)) := by
  have told (op : RestrictionOp) :
      (⟨op, homeAnswer op⟩ : Event Restriction).ans = homeAnswer op := rfl
  obtain ⟨trace, answered, run⟩ := @steps_answered Restriction _ homeAnswer
    (fun e => e.ans = homeAnswer e.op) told restrictTwice
  have result : restrictTwice.answered homeAnswer =
      (.ok ⟨false, true, true, false⟩, false) := by
    decide +kernel
  exact ⟨trace, admitted_home trace answered, result ▸ run⟩

/-! ### Every session -/

section

variable {Place : Type} [DecidableEq Place] {locate : StatePath → Place} {os : TargetOs}
  {restricted : Bool} {disk : Place → Option Entry} {calls : List RestrictionCall}
  {first last : ProcessEnv} {told : GlobalInputAllowance} {allowed : Bool}
  {trace : List (Event Restriction)}

/-- **A restriction stays**: once global input was restricted, or was freed, it stays so, where the
path leads to the same place, through all calls that do not ask for the opposite there, unless the
variables say the opposite. -/
theorem restriction_stays
    (run : Steps (restrictionSession os first last restricted calls) trace
      (.ret (.ok told, allowed)))
    (admitted : (restrictionDisk locate).Admitted disk trace)
    (calm : ∀ call ∈ calls, ¬ call.Undoes os locate (locate (noYoloPath os first)) restricted)
    (same : locate (noYoloPath os last) = locate (noYoloPath os first))
    (free : globalInputEnvRestriction last ≠ some (!restricted)) : allowed = !restricted := by
  have leads : (restrictionDisk locate).Leads
      (fun _ result => result.1.isOk = true → result.2 = !restricted)
      (restrictionSession os first last restricted calls) disk := by
    apply Setting.leads_bind (Setting.leads_mono (settles_persist os first) _)
    rintro disk' (error | told) ⟨_, kept⟩
    · -- Nothing is said of a change that failed.
      apply Setting.leads_bind (Setting.leads_mono (Setting.leads_always _ _) _)
      intro _ _ _
      apply Setting.leads_bind (Setting.leads_mono (Setting.leads_always _ _) _)
      exact fun _ _ _ ok => absurd ok Bool.false_ne_true
    · apply Setting.leads_bind (Setting.leads_mono (keeps_calls calm (kept rfl)) _)
      intro _ _ kept
      apply Setting.leads_bind (Setting.leads_mono (leads_allowed os last) _)
      exact fun _ _ known _ => known.2 restricted (same ▸ kept) free
  exact Setting.leads_run leads run admitted rfl

theorem restriction_stays_twice : ∃ trace allowed told,
    Steps restrictTwice trace (.ret (.ok told, allowed)) ∧ allowed = false := by
  obtain ⟨trace, admitted, run⟩ := restrictTwice_run
  refine ⟨trace, false, _, run, restriction_stays run admitted ?_ rfl (by decide)⟩
  intro call member undoes
  simp only [List.mem_cons, List.not_mem_nil, or_false] at member
  rcases member with rfl | rfl
  · exact absurd undoes.1 (by decide +kernel)
  · exact undoes.2 rfl

end

end Praefectus.Native
