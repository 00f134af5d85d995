import Praefectus.Observe.Persist

/-!
# The disk that observations are stored on

The disk remembers which inodes are synced and what each entry may still be after a power loss.
What a call does to it in each of its stages leaves the files of the other calls alone, and changes
a destination only by a rename.
-/

namespace Praefectus.Persist

open Prog

/-! ### The disk -/

/-- `settled` tells the inodes whose content outlasts a power loss, `survivors` what an entry may
be after one. -/
structure Disk where
  created : Nat
  content : Nat → List UInt8
  settled : Nat → Bool
  entries : FilePath → Option Nat
  survivors : FilePath → Option Nat → Prop

/-- What is on the disk before the first call. -/
structure PriorDisk where
  created : Nat
  content : Nat → List UInt8
  entries : FilePath → Option Nat
  known : ∀ path inode, entries path = some inode → inode < created

namespace Disk

variable (d : Disk)

def read (path : FilePath) : Option (List UInt8) := (d.entries path).map d.content

/-- An entry is changed. The change is not durable yet. -/
def enter (path : FilePath) (entry : Option Nat) : Disk where
  created := d.created
  content := d.content
  settled := d.settled
  entries := Function.update d.entries path entry
  survivors path' entry' := d.survivors path' entry' ∨ path' = path ∧ entry' = entry

/-- A new empty file. -/
def create (path : FilePath) : Disk :=
  { d.enter path (some d.created) with
    created := d.created + 1
    content := Function.update d.content d.created []
    settled := Function.update d.settled d.created false }

def extend (inode : Nat) (bytes : List UInt8) : Disk :=
  { d with
    content := Function.update d.content inode (d.content inode ++ bytes)
    settled := Function.update d.settled inode false }

def sync (inode : Nat) : Disk := { d with settled := Function.update d.settled inode true }

def rename (source target : FilePath) (inode : Nat) : Disk :=
  (d.enter target (some inode)).enter source none

def unlink (path : FilePath) : Disk := d.enter path none

/-- The entries of a directory are durable. -/
def syncDirectory (directory : String) : Disk :=
  { d with
    survivors := fun path entry =>
      if path.directory = directory then entry = d.entries path else d.survivors path entry }

/-- The answers of the file system. What fails has done nothing, except that some of the bytes may
have been written. -/
inductive Answer : Event Store → Disk → Prop where
  | created {path : FilePath} : d.entries path = none →
      Answer ⟨.createNew path, .ok d.created⟩ (d.create path)
  | wrote {inode : Nat} {bytes : List UInt8} :
      Answer ⟨.write inode bytes, .ok ()⟩ (d.extend inode bytes)
  | unwritten {inode : Nat} {bytes part : List UInt8} {e : ProtocolError} : part <+: bytes →
      Answer ⟨.write inode bytes, .error e⟩ (d.extend inode part)
  | synced {inode : Nat} : Answer ⟨.syncAll inode, .ok ()⟩ (d.sync inode)
  | unsynced {inode : Nat} {e : ProtocolError} : Answer ⟨.syncAll inode, .error e⟩ d
  | renamed {source target : FilePath} {inode : Nat} : d.entries source = some inode →
      Answer ⟨.rename source target, .ok ()⟩ (d.rename source target inode)
  | unplaced {source target : FilePath} {e : ProtocolError} :
      Answer ⟨.rename source target, .error e⟩ d
  | removed {path : FilePath} : Answer ⟨.remove path, .ok ()⟩ (d.unlink path)
  | left {path : FilePath} {e : ProtocolError} : Answer ⟨.remove path, .error e⟩ d
  | uncreated {path : FilePath} {e : ProtocolError} : Answer ⟨.createNew path, .error e⟩ d
  | settled {directory : String} :
      Answer ⟨.syncParent directory, .ok ()⟩ (d.syncDirectory directory)
  | unsettled {directory : String} {e : ProtocolError} : Answer ⟨.syncParent directory, .error e⟩ d
  | early {op : StoreOp} {ans : Store.Ans op} : IsEarly op → Answer ⟨op, ans⟩ d
  | restrict {inode : Nat} {ans : Except ProtocolError Unit} : Answer ⟨.restrict inode, ans⟩ d
  | close {inode : Nat} : Answer ⟨.close inode, ()⟩ d

/-- What a power loss leaves: synced contents, and each entry as one of its survivors. -/
structure PowerLoss (d' : Disk) : Prop where
  created : d'.created = d.created
  content : ∀ inode, d.settled inode = true → d'.content inode = d.content inode
  settled : ∀ inode, d'.settled inode = true
  entries : ∀ path, d.survivors path (d'.entries path)
  survivors : ∀ path entry, d'.survivors path entry ↔ entry = d'.entries path

end Disk

def PriorDisk.read (prior : PriorDisk) (path : FilePath) : Option (List UInt8) :=
  (prior.entries path).map prior.content

/-- Everything on it is durable. -/
def PriorDisk.disk (prior : PriorDisk) : Disk where
  created := prior.created
  content := prior.content
  settled _ := true
  entries := prior.entries
  survivors path entry := entry = prior.entries path

/-! ### What is sound about a disk -/

/-- Entries refer to files that exist, and a destination can only survive as something that `A`
allows and that is durable. -/
structure Disk.Sound (A : FilePath → Option (List UInt8) → Prop) (d : Disk) : Prop where
  known : ∀ path inode, d.survivors path (some inode) → inode < d.created
  present : ∀ path, d.survivors path (d.entries path)
  allowed : ∀ path entry, ¬ path.IsTemporary → d.survivors path entry → A path (entry.map d.content)
  durable : ∀ path inode, ¬ path.IsTemporary → d.survivors path (some inode) →
    d.settled inode = true

namespace Disk

variable {A : FilePath → Option (List UInt8) → Prop} {d : Disk}

/-- No other entry leads to the inode, nor may lead to it after a power loss. -/
def Sole (d : Disk) (temporary : FilePath) (inode : Nat) : Prop :=
  ∀ path, d.survivors path (some inode) → path = temporary

theorem sound_mono {A' : FilePath → Option (List UInt8) → Prop} (sound : d.Sound A)
    (weaker : ∀ path held, A path held → A' path held) : d.Sound A' :=
  { sound with
    allowed := fun path entry plain survives => weaker _ _ (sound.allowed path entry plain survives) }

theorem read_allowed (sound : d.Sound A) {path : FilePath} (plain : ¬ path.IsTemporary) :
    A path (d.read path) := sound.allowed path _ plain (sound.present path)

theorem sound_enter (sound : d.Sound A) {path : FilePath} {entry : Option Nat}
    (known : ∀ inode, entry = some inode → inode < d.created)
    (allowed : ¬ path.IsTemporary → A path (entry.map d.content) ∧
      ∀ inode, entry = some inode → d.settled inode = true) : (d.enter path entry).Sound A where
  known := by
    intro path' inode survives
    rcases survives with survives | ⟨_, same⟩
    · exact sound.known path' inode survives
    · exact known inode same.symm
  present := by
    intro path'
    by_cases same : path' = path
    · subst same
      exact .inr ⟨rfl, Function.update_self ..⟩
    · exact .inl (by
        rw [show (d.enter path entry).entries path' = d.entries path' from
          Function.update_of_ne same ..]
        exact sound.present path')
  allowed := by
    intro path' entry' plain survives
    rcases survives with survives | ⟨rfl, rfl⟩
    · exact sound.allowed path' entry' plain survives
    · exact (allowed plain).1
  durable := by
    intro path' inode plain survives
    rcases survives with survives | ⟨rfl, same⟩
    · exact sound.durable path' inode plain survives
    · exact (allowed plain).2 inode same.symm

/-- Files that no destination leads to may change. -/
theorem sound_contents (sound : d.Sound A) {created : Nat} {content : Nat → List UInt8}
    {settled : Nat → Bool} (more : d.created ≤ created)
    (same : ∀ path inode, ¬ path.IsTemporary → d.survivors path (some inode) →
      content inode = d.content inode ∧ (d.settled inode = true → settled inode = true)) :
    ({ d with created, content, settled } : Disk).Sound A where
  known path inode survives := Nat.lt_of_lt_of_le (sound.known path inode survives) more
  present := sound.present
  allowed := by
    intro path entry plain survives
    cases entry with
    | none => exact sound.allowed path none plain survives
    | some inode =>
      have kept := sound.allowed path (some inode) plain survives
      change A path (some (content inode))
      rw [(same path inode plain survives).1]
      exact kept
  durable path inode plain survives :=
    (same path inode plain survives).2 (sound.durable path inode plain survives)

theorem survivors_syncDirectory (present : ∀ path, d.survivors path (d.entries path))
    {directory : String} {path : FilePath} {entry : Option Nat}
    (survives : (d.syncDirectory directory).survivors path entry) : d.survivors path entry := by
  by_cases inside : path.directory = directory
  · have same : entry = d.entries path := by
      simpa only [syncDirectory, if_pos inside] using survives
    rw [same]
    exact present path
  · simpa only [syncDirectory, if_neg inside] using survives

theorem sound_syncDirectory (sound : d.Sound A) (directory : String) :
    (d.syncDirectory directory).Sound A where
  known path inode survives :=
    sound.known path inode (survivors_syncDirectory sound.present survives)
  present path := by
    by_cases inside : path.directory = directory
    · simp only [syncDirectory, if_pos inside]
    · simp only [syncDirectory, if_neg inside]
      exact sound.present path
  allowed path entry plain survives :=
    sound.allowed path entry plain (survivors_syncDirectory sound.present survives)
  durable path inode plain survives :=
    sound.durable path inode plain (survivors_syncDirectory sound.present survives)

/-- What a durable entry reads is all that it may survive as. -/
theorem sound_settled (sound : d.Sound A) {target : FilePath} {held : List UInt8}
    (read : d.read target = some held) :
    (d.syncDirectory target.directory).Sound fun path content =>
      path = target → content = some held where
  known := (sound_syncDirectory sound _).known
  present := (sound_syncDirectory sound _).present
  allowed := by
    rintro path entry _ survives rfl
    have same : entry = d.entries path := by
      simpa only [syncDirectory, if_pos] using survives
    rw [same]
    exact read
  durable := (sound_syncDirectory sound _).durable

theorem sound_powerLoss (sound : d.Sound A) {d' : Disk} (lost : d.PowerLoss d') : d'.Sound A where
  known path inode survives := by
    rw [lost.created]
    have same := (lost.survivors path _).mp survives
    exact sound.known path inode (same ▸ lost.entries path)
  present path := (lost.survivors path _).mpr rfl
  allowed path entry plain survives := by
    have before : d.survivors path entry := (lost.survivors path entry).mp survives ▸ lost.entries path
    have kept := sound.allowed path entry plain before
    cases entry with
    | none => exact kept
    | some inode =>
      rw [Option.map_some] at kept ⊢
      rw [lost.content inode (sound.durable path inode plain before)]
      exact kept
  durable path inode _ _ := lost.settled inode

/-! ### What a call holds -/

/-- The file of a call is there under its temporary name only. -/
def Linked (d : Disk) (temporary : FilePath) (inode : Nat) : Prop :=
  d.entries temporary = some inode ∧ d.Sole temporary inode

/-- The state of the file of a call, stage by stage. -/
def Holds (d : Disk) (call : PersistCall) (temporary : FilePath) (inode : Nat) : Stage → Prop
  | .writing done => d.Linked temporary inode ∧ d.content inode = done
  | .torn => d.Linked temporary inode
  | .whole =>
    d.Linked temporary inode ∧ d.content inode = call.content ∧ d.settled inode = true ∧
      call.fault = none
  | .removed => d.Sole temporary inode ∧ d.entries temporary ≠ some inode
  | .left | .placed | .kept => True

/-- Nothing has happened to the file. -/
structure Untouched (d d' : Disk) (temporary : FilePath) (inode : Nat) : Prop where
  entry : d'.entries temporary = some inode ↔ d.entries temporary = some inode
  content : d'.content inode = d.content inode
  settled : d'.settled inode = d.settled inode
  survivors : ∀ path, d'.survivors path (some inode) → d.survivors path (some inode)

theorem untouched_linked {d' : Disk} {temporary : FilePath} {inode : Nat}
    (untouched : d.Untouched d' temporary inode) (linked : d.Linked temporary inode) :
    d'.Linked temporary inode := by
  constructor
  · exact untouched.entry.mpr linked.1
  · exact fun path survives => linked.2 path (untouched.survivors path survives)

theorem untouched_holds {d' : Disk} {call : PersistCall} {temporary : FilePath} {inode : Nat}
    {stage : Stage} (untouched : d.Untouched d' temporary inode)
    (holds : d.Holds call temporary inode stage) : d'.Holds call temporary inode stage := by
  cases stage with
  | writing done =>
    constructor
    · exact untouched_linked untouched holds.1
    · rw [untouched.content]
      exact holds.2
  | torn => exact untouched_linked untouched holds
  | whole =>
    obtain ⟨linked, content, settled, faultless⟩ := holds
    unfold Holds
    rw [untouched.content, untouched.settled]
    exact ⟨untouched_linked untouched linked, content, settled, faultless⟩
  | removed =>
    constructor
    · exact fun path survives => holds.1 path (untouched.survivors path survives)
    · exact fun entry => holds.2 (untouched.entry.mp entry)
  | left => trivial
  | placed => trivial
  | kept => trivial

/-- Where a file that is not linked by a destination is held, no destination leads to it. -/
theorem linked_apart {temporary path : FilePath} {inode : Nat}
    (sole : d.Sole temporary inode) (named : temporary.IsTemporary) (plain : ¬ path.IsTemporary) :
    ¬ d.survivors path (some inode) := by
  intro survives
  rw [sole path survives] at plain
  exact plain named

/-- A change of another entry, to another file. -/
theorem untouched_enter {path temporary : FilePath} {entry : Option Nat} {inode : Nat}
    (other : entry ≠ some inode) (elsewhere : d.entries temporary = some inode → path ≠ temporary) :
    d.Untouched (d.enter path entry) temporary inode where
  entry := by
    by_cases same : temporary = path
    · subst same
      rw [show (d.enter temporary entry).entries temporary = entry from Function.update_self ..]
      constructor
      · exact fun entered => absurd entered other
      · exact fun linked => absurd rfl (elsewhere linked)
    · rw [show (d.enter path entry).entries temporary = d.entries temporary from
        Function.update_of_ne same ..]
  content := rfl
  settled := rfl
  survivors path' survives := by
    rcases survives with survives | ⟨_, same⟩
    · exact survives
    · exact absurd same.symm other

theorem untouched_trans {d' d'' : Disk} {temporary : FilePath} {inode : Nat}
    (first : d.Untouched d' temporary inode) (second : d'.Untouched d'' temporary inode) :
    d.Untouched d'' temporary inode where
  entry := second.entry.trans first.entry
  content := second.content.trans first.content
  settled := second.settled.trans first.settled
  survivors path survives := first.survivors path (second.survivors path survives)

/-- A change of another file. -/
theorem untouched_file {temporary : FilePath} {inode other : Nat} (bytes : List UInt8)
    (synced : Bool) (created : Nat) (apart : inode ≠ other) :
    d.Untouched
      { d with
        created
        content := Function.update d.content other bytes
        settled := Function.update d.settled other synced } temporary inode where
  entry := Iff.rfl
  content := Function.update_of_ne apart ..
  settled := Function.update_of_ne apart ..
  survivors _ survives := survives

end Disk

/-! ### What a call may do to the disk -/

theorem call_target_plain {call : PersistCall} {target : FilePath}
    (targeted : call.target = some target) : ¬ target.IsTemporary := by
  unfold PersistCall.target at targeted
  split at targeted
  · rename_i directory name parent named
    cases targeted
    exact call.plain name named
  · cases targeted

/-- What becomes of the disk by an answered question of a call, phase by phase. -/
inductive Effect (call : PersistCall) (d : Disk) : Phase → Event Store → Disk → Prop where
  | none {φ : Phase} {e : Event Store} : Effect call d φ e d
  | create {path : FilePath} : path.IsTemporary → d.entries path = .none →
      Effect call d .start ⟨.createNew path, .ok d.created⟩ (d.create path)
  | extend {temporary : FilePath} {inode : Nat} {done bytes part : List UInt8}
      {ans : Except ProtocolError Unit} :
      Effect call d (.held temporary inode (.writing done)) ⟨.write inode bytes, ans⟩
        (d.extend inode part)
  | sync {temporary : FilePath} {inode : Nat} {done : List UInt8} :
      Effect call d (.held temporary inode (.writing done)) ⟨.syncAll inode, .ok ()⟩ (d.sync inode)
  | rename {temporary target : FilePath} {inode entry : Nat} : call.target = some target →
      d.entries temporary = some entry →
      Effect call d (.held temporary inode .whole) ⟨.rename temporary target, .ok ()⟩
        (d.rename temporary target entry)
  | unlink {temporary : FilePath} {inode : Nat} :
      Effect call d (.held temporary inode .torn) ⟨.remove temporary, .ok ()⟩ (d.unlink temporary)
  | syncDirectory {φ : Phase} {directory : String} :
      Effect call d φ ⟨.syncParent directory, .ok ()⟩ (d.syncDirectory directory)

section

variable {call : PersistCall} {d d' : Disk}

theorem effect_of_answer {φ φ' : Phase} {op : StoreOp} {ans ans' : Store.Ans op}
    (stepped : Step call φ ⟨op, ans⟩ φ') (answered : d.Answer ⟨op, ans'⟩ d') :
    Effect call d φ ⟨op, ans'⟩ d' := by
  cases answered with
  | unsynced => exact .none
  | unplaced => exact .none
  | left => exact .none
  | uncreated => exact .none
  | unsettled => exact .none
  | early => exact .none
  | restrict => exact .none
  | close => exact .none
  | settled => exact .syncDirectory
  | created absent =>
    cases stepped with
    | early early => exact early.elim
    | refused named => exact .create named absent
    | made named => exact .create named absent
  | wrote =>
    cases stepped with
    | early early => exact early.elim
    | wrote => exact .extend
    | unwritten => exact .extend
  | unwritten =>
    cases stepped with
    | early early => exact early.elim
    | wrote => exact .extend
    | unwritten => exact .extend
  | synced =>
    cases stepped with
    | early early => exact early.elim
    | synced => exact .sync
    | unsynced => exact .sync
  | renamed linked =>
    cases stepped with
    | early early => exact early.elim
    | renamed target => exact .rename target linked
    | unplaced target => exact .rename target linked
  | removed =>
    cases stepped with
    | early early => exact early.elim
    | removed => exact .unlink
    | left => exact .unlink

/-- The state of a call and its file on the disk. -/
def Phase.On (d : Disk) (call : PersistCall) : Phase → Prop
  | .start => True
  | .held temporary inode stage =>
    inode < d.created ∧ temporary.IsTemporary ∧ d.Holds call temporary inode stage

/-- Effects leave a sound disk, when the destination may hold what is renamed onto it. -/
theorem sound_effect {A : FilePath → Option (List UInt8) → Prop} {φ : Phase} {e : Event Store}
    (sound : d.Sound A) (on : φ.On d call) (effect : Effect call d φ e d')
    (replaced : ∀ temporary target, e = ⟨.rename temporary target, .ok ()⟩ →
      call.target = some target → call.fault = none → A target (some call.content)) :
    d'.Sound A := by
  cases effect with
  | none => exact sound
  | @create path named absent =>
    have more : d.Sound A → ({ d with
        created := d.created + 1
        content := Function.update d.content d.created []
        settled := Function.update d.settled d.created false } : Disk).Sound A := by
      intro sound
      refine Disk.sound_contents sound (Nat.le_succ _) fun path' inode plain survives => ?_
      have older : inode ≠ d.created := Nat.ne_of_lt (sound.known path' inode survives)
      constructor
      · exact Function.update_of_ne older ..
      · intro settled
        rw [Function.update_of_ne older]
        exact settled
    refine Disk.sound_enter (more sound) ?_ fun plain => absurd named plain
    intro inode same
    cases same
    exact Nat.lt_succ_self _
  | @extend temporary held done =>
    refine Disk.sound_contents sound (Nat.le_refl _) fun path' inode plain survives => ?_
    have apart : inode ≠ held := by
      rintro rfl
      exact Disk.linked_apart on.2.2.1.2 on.2.1 plain survives
    constructor
    · exact Function.update_of_ne apart ..
    · intro settled
      rw [Function.update_of_ne apart]
      exact settled
  | @sync temporary held done =>
    refine Disk.sound_contents sound (Nat.le_refl _) fun path' inode plain survives => ?_
    refine ⟨rfl, fun settled => ?_⟩
    by_cases same : inode = held
    · subst same
      exact Function.update_self ..
    · rw [Function.update_of_ne same]
      exact settled
  | rename targeted linked =>
    obtain ⟨known, named, whole, content, settled, faultless⟩ := on
    obtain rfl := Option.some.inj (linked.symm.trans whole.1)
    refine Disk.sound_enter (Disk.sound_enter sound ?_ fun _ => ?_) nofun fun plain =>
      absurd named plain
    · intro inode same
      cases same
      exact known
    · constructor
      · rw [Option.map_some, content]
        exact replaced _ _ rfl targeted faultless
      · intro inode same
        cases same
        exact settled
  | unlink => exact Disk.sound_enter sound nofun fun plain => absurd on.2.1 plain
  | syncDirectory => exact Disk.sound_syncDirectory sound _

/-- A file that another call holds. -/
structure Apart (d : Disk) (φ : Phase) (temporary : FilePath) (inode : Nat) : Prop where
  known : inode < d.created
  named : temporary.IsTemporary
  distinct : ∀ temporary' inode' stage, φ = .held temporary' inode' stage → inode' ≠ inode

/-- Effects leave the files of the other calls alone. -/
theorem untouched_effect {φ : Phase} {e : Event Store} {temporary : FilePath} {inode : Nat}
    (sound : ∀ path, d.survivors path (d.entries path)) (on : φ.On d call)
    (apart : Apart d φ temporary inode) (effect : Effect call d φ e d') :
    d.Untouched d' temporary inode := by
  cases effect with
  | none => exact ⟨Iff.rfl, rfl, rfl, fun _ survives => survives⟩
  | @create path named absent =>
    have fresh : d.created ≠ inode := Nat.ne_of_gt apart.known
    have filed := @Disk.untouched_file d temporary inode d.created [] false (d.created + 1) fresh.symm
    refine Disk.untouched_trans filed (Disk.untouched_enter (fun same => ?_) fun linked same => ?_)
    · exact fresh (Option.some.inj same)
    · subst same
      cases absent.symm.trans linked
  | extend =>
    have other := apart.distinct _ _ _ rfl
    exact Disk.untouched_file _ _ _ other.symm
  | @sync temporary' inode' done =>
    have other := apart.distinct _ _ _ rfl
    have same := @Disk.untouched_file d temporary inode inode' (d.content inode') true d.created
      other.symm
    rw [Function.update_eq_self] at same
    exact same
  | @rename temporary' target inode' entry targeted linked =>
    have other := apart.distinct _ _ _ rfl
    obtain ⟨known, named, whole, _⟩ := on
    obtain rfl := Option.some.inj (linked.symm.trans whole.1)
    have plain : ¬ target.IsTemporary := call_target_plain targeted
    have first := @Disk.untouched_enter d target temporary (some entry) inode
      (fun same => other (Option.some.inj same)) fun _ same => plain (same ▸ apart.named)
    refine Disk.untouched_trans first (Disk.untouched_enter nofun fun linked' same => ?_)
    subst same
    have linked' := first.entry.mp linked'
    exact other (Option.some.inj (whole.1.symm.trans linked'))
  | @unlink temporary' inode' =>
    have other := apart.distinct _ _ _ rfl
    refine Disk.untouched_enter nofun fun linked same => ?_
    subst same
    exact other (Option.some.inj (on.2.2.1.symm.trans linked))
  | @syncDirectory φ directory =>
    refine ⟨Iff.rfl, rfl, rfl, fun path survives => ?_⟩
    exact Disk.survivors_syncDirectory sound survives

/-! ### One step of a call -/

theorem created_linked {path : FilePath} (known : ∀ path inode, d.survivors path (some inode) →
    inode < d.created) : (d.create path).Linked path d.created := by
  constructor
  · exact Function.update_self ..
  · intro path' survives
    rcases survives with survives | ⟨same, _⟩
    · exact absurd (known path' _ survives) (Nat.lt_irrefl _)
    · exact same

theorem extended_linked {temporary : FilePath} {inode : Nat} {bytes : List UInt8}
    (linked : d.Linked temporary inode) : (d.extend inode bytes).Linked temporary inode := linked

/-- The state of a call after a step is that of its file after the answer. -/
theorem on_step {φ φ' : Phase} {e : Event Store}
    (known : ∀ path inode, d.survivors path (some inode) → inode < d.created)
    (on : φ.On d call) (stepped : Step call φ e φ') (answered : d.Answer e d') :
    φ'.On d' call := by
  cases stepped with
  | early => trivial
  | refused => trivial
  | made named =>
    cases answered with
    | created absent =>
      refine ⟨Nat.lt_succ_self _, named, created_linked known, ?_⟩
      exact Function.update_self ..
    | early early => exact early.elim
  | restricted =>
    cases answered with
    | restrict => exact on
    | early early => exact early.elim
  | unrestricted =>
    cases answered with
    | restrict => exact ⟨on.1, on.2.1, on.2.2.1⟩
    | early early => exact early.elim
  | wrote =>
    cases answered with
    | early early => exact early.elim
    | wrote =>
      obtain ⟨known, named, linked, rfl⟩ := on
      refine ⟨known, named, extended_linked linked, ?_⟩
      exact Function.update_self ..
  | unwritten =>
    cases answered with
    | early early => exact early.elim
    | unwritten => exact ⟨on.1, on.2.1, extended_linked on.2.2.1⟩
  | synced faultless =>
    cases answered with
    | early early => exact early.elim
    | synced =>
      obtain ⟨known, named, linked, content⟩ := on
      refine ⟨known, named, linked, content, ?_, faultless⟩
      exact Function.update_self ..
  | unsynced =>
    cases answered with
    | early early => exact early.elim
    | unsynced => exact ⟨on.1, on.2.1, on.2.2.1⟩
  | gaveUp =>
    cases answered with
    | early early => exact early.elim
    | close => exact ⟨on.1, on.2.1, on.2.2.1⟩
  | closed =>
    cases answered with
    | early early => exact early.elim
    | close => exact on
  | renamed =>
    cases answered with
    | early early => exact early.elim
    | renamed => exact ⟨on.1, on.2.1, trivial⟩
  | unplaced =>
    cases answered with
    | early early => exact early.elim
    | unplaced => exact ⟨on.1, on.2.1, on.2.2.1⟩
  | removed =>
    cases answered with
    | early early => exact early.elim
    | removed =>
      obtain ⟨known, named, linked, sole⟩ := on
      refine ⟨known, named, ?_, ?_⟩
      · intro path survives
        rcases survives with survives | ⟨_, gone⟩
        · exact sole path survives
        · cases gone
      · intro entry
        rw [show (d.unlink _).entries _ = none from Function.update_self ..] at entry
        cases entry
  | left =>
    cases answered with
    | early early => exact early.elim
    | left => exact ⟨on.1, on.2.1, trivial⟩
  | settled =>
    cases answered with
    | early early => exact early.elim
    | settled => exact on
  | unsettled =>
    cases answered with
    | early early => exact early.elim
    | unsettled => exact on

/-- What a destination reads after the file was renamed onto it. -/
theorem read_rename {temporary target : FilePath} {inode : Nat} (named : temporary.IsTemporary)
    (plain : ¬ target.IsTemporary) :
    (d.rename temporary target inode).read target = some (d.content inode) := by
  have off : target ≠ temporary := fun same => plain (same ▸ named)
  have entry : (d.rename temporary target inode).entries target = some inode := by
    unfold Disk.rename Disk.enter
    simp only [Function.update_of_ne off, Function.update_self]
  unfold Disk.read
  rw [entry]
  rfl

/-- A destination changes only by a rename onto it, and to the content of the call. -/
theorem read_effect {A : FilePath → Option (List UInt8) → Prop} {φ : Phase} {e : Event Store}
    {path : FilePath} (sound : d.Sound A) (on : φ.On d call) (effect : Effect call d φ e d')
    (plain : ¬ path.IsTemporary) :
    d'.read path = d.read path ∨
      (∃ temporary, e = ⟨.rename temporary path, .ok ()⟩) ∧ call.target = some path ∧
        call.fault = none ∧ d'.read path = some call.content := by
  have unheld : ∀ {temporary : FilePath} {inode : Nat}, d.Sole temporary inode →
      temporary.IsTemporary → d.entries path ≠ some inode := by
    intro temporary inode sole named entry
    have present := sound.present path
    rw [entry] at present
    exact Disk.linked_apart sole named plain present
  cases effect with
  | none => exact .inl rfl
  | @create temporary named absent =>
    left
    have other : path ≠ temporary := fun same => plain (same ▸ named)
    have entry : (d.create temporary).entries path = d.entries path :=
      Function.update_of_ne other ..
    unfold Disk.read
    rw [entry]
    refine Option.map_congr fun inode held => ?_
    have present := sound.present path
    rw [held] at present
    have older : inode ≠ d.created := Nat.ne_of_lt (sound.known path inode present)
    exact Function.update_of_ne older ..
  | @extend temporary held done =>
    left
    have other := unheld on.2.2.1.2 on.2.1
    refine Option.map_congr fun inode entry => ?_
    have apart : inode ≠ held := by
      rintro rfl
      exact other entry
    exact Function.update_of_ne apart ..
  | sync => exact .inl rfl
  | @rename temporary target held entry targeted linked =>
    obtain ⟨known, named, whole, content, settled, faultless⟩ := on
    obtain rfl := Option.some.inj (linked.symm.trans whole.1)
    have off : path ≠ temporary := fun same => plain (same ▸ named)
    by_cases same : path = target
    · subst same
      refine .inr ⟨⟨temporary, rfl⟩, targeted, faultless, ?_⟩
      rw [read_rename named plain, content]
    · left
      unfold Disk.read
      rw [show (d.rename temporary target entry).entries path = d.entries path from by
        unfold Disk.rename Disk.enter
        simp only [Function.update_of_ne off, Function.update_of_ne same]]
      rfl
  | @unlink temporary held =>
    left
    have off : path ≠ temporary := fun same => plain (same ▸ on.2.1)
    unfold Disk.read
    rw [show (d.unlink temporary).entries path = d.entries path from Function.update_of_ne off ..]
    rfl
  | syncDirectory => exact .inl rfl

end

end Praefectus.Persist
