import Praefectus.Observe.PersistDisk
import Praefectus.Program.Play

/-!
# Calls that store observations side by side

However the calls are interleaved and wherever they stop, a destination holds its old content or
the complete content of one call, and no call writes to the file of another.
-/

namespace Praefectus.Persist

open Prog

variable {Id : Type}

/-- The disk, shared by the calls. A call that dies may have done what it asked for. -/
def storage (prior : PriorDisk) (Id : Type) : Shared Store Id where
  State := Disk
  init := prior.disk
  answer _ e d d' := d.Answer e d'
  abandon _ op d d' := ∃ ans, d.Answer ⟨op, ans⟩ d'
  outside d d' := d.PowerLoss d'

def writers : Threads Store PersistCall := programs fun call => (persistObservation call).run

def stages : Threads Store PersistCall := automata Step .start Phase.IsFinal

instance (op : StoreOp) : Nonempty (Store.Ans op) := by
  cases op with
  | processId => exact ⟨0⟩
  | nextSequence => exact ⟨0⟩
  | nonce => exact ⟨0⟩
  | createNew => exact ⟨.ok 0⟩
  | close => exact ⟨()⟩
  | _ => exact ⟨.ok ()⟩

/-! ### What the log tells -/

abbrev StoreLog (Id : Type) := List (Entry Store Id PersistCall)

/-- The question was answered so, or the call died with it pending. -/
def Tried (log : StoreLog Id) (id : Id) (e : Event Store) : Prop :=
  .did id e ∈ log ∨ .died id e.op ∈ log

/-- A call put all of its content at the path, by a rename. -/
def Replaced (log : StoreLog Id) (path : FilePath) (held : Option (List UInt8)) : Prop :=
  ∃ id call temporary, .started id call ∈ log ∧ call.target = some path ∧ call.fault = none ∧
    Tried log id ⟨.rename temporary path, .ok ()⟩ ∧ held = some call.content

/-- The old content, or the complete new content of a call. -/
def Allowed (prior : PriorDisk) (log : StoreLog Id) (path : FilePath)
    (held : Option (List UInt8)) : Prop := held = prior.read path ∨ Replaced log path held

/-- The call has made the file. -/
def Made (log : StoreLog Id) (id : Id) (temporary : FilePath) (inode : Nat) : Prop :=
  .did id ⟨.createNew temporary, .ok inode⟩ ∈ log

/-- What the log tells of the file of a call. -/
def Phase.Noted (log : StoreLog Id) (id : Id) : Phase → Prop
  | .start => True
  | .held temporary inode stage =>
    Made log id temporary inode ∧
      match stage with
      | .left => ∃ e, .did id ⟨.remove temporary, .error e⟩ ∈ log
      | _ => True

/-- No file was renamed onto the destination, nor may have been. -/
def Unreplaced (log : StoreLog Id) (target : FilePath) : Prop :=
  ∀ id temporary, ¬ Tried log id ⟨.rename temporary target, .ok ()⟩

/-- The call has renamed its file onto its destination, where something is true since then, as long
as no other call does so. -/
def InPlace (log : StoreLog Id) (id : Id) (call : PersistCall) (temporary : FilePath)
    (P : FilePath → Prop) : Prop :=
  ∃ target before after, call.target = some target ∧ call.fault = none ∧
    log = before ++ .did id ⟨.rename temporary target, .ok ()⟩ :: after ∧
    (Unreplaced after target → P target)

/-- What the destination of a call reads when its file is in place. -/
def Phase.Rests (log : StoreLog Id) (d : Disk) (id : Id) (call : PersistCall) : Phase → Prop
  | .held temporary _ .placed =>
    InPlace log id call temporary fun target => d.read target = some call.content
  | .held temporary _ .kept =>
    InPlace log id call temporary fun target =>
      d.Sound fun path held => path = target → held = some call.content
  | _ => True

section

variable {log log' : StoreLog Id} {id : Id}

theorem tried_mono (grown : log ⊆ log') {e : Event Store} (tried : Tried log id e) :
    Tried log' id e := by
  rcases tried with did | died
  · exact .inl (grown did)
  · exact .inr (grown died)

theorem allowed_mono (grown : log ⊆ log') {prior : PriorDisk} {path : FilePath}
    {held : Option (List UInt8)} (allowed : Allowed prior log path held) :
    Allowed prior log' path held := by
  rcases allowed with old | ⟨id, call, temporary, started, targeted, faultless, tried, complete⟩
  · exact .inl old
  · exact .inr ⟨id, call, temporary, grown started, targeted, faultless, tried_mono grown tried,
      complete⟩

theorem noted_mono (grown : log ⊆ log') {φ : Phase} (noted : φ.Noted log id) :
    φ.Noted log' id := by
  cases φ with
  | start => trivial
  | held temporary inode stage =>
    obtain ⟨made, last⟩ := noted
    refine ⟨grown made, ?_⟩
    cases stage with
    | left => exact last.imp fun e removed => grown removed
    | _ => trivial

/-- A step is noted when its event is logged. -/
theorem noted_step {call : PersistCall} {φ φ' : Phase} {e : Event Store} (noted : φ.Noted log id)
    (stepped : Step call φ e φ') : φ'.Noted (log ++ [.did id e]) id := by
  have logged : Entry.did id e ∈ log ++ [Entry.did id e] :=
    List.mem_append_right _ List.mem_cons_self
  have grown : log ⊆ log ++ [Entry.did id e] := List.subset_append_left _ _
  cases stepped with
  | early => trivial
  | refused => trivial
  | made => exact ⟨logged, trivial⟩
  | left => exact ⟨grown noted.1, _, logged⟩
  | closed => exact noted_mono grown noted
  | _ => exact ⟨grown noted.1, trivial⟩

theorem unreplaced_append {rest : StoreLog Id} {target : FilePath} :
    Unreplaced (log ++ rest) target ↔ Unreplaced log target ∧ Unreplaced rest target := by
  constructor
  · intro untried
    constructor
    · intro id temporary tried
      exact untried id temporary (tried_mono (List.subset_append_left _ _) tried)
    · intro id temporary tried
      exact untried id temporary (tried_mono (List.subset_append_right _ _) tried)
  · rintro ⟨first, second⟩ id temporary (did | died)
    · rcases List.mem_append.mp did with old | last
      · exact first id temporary (.inl old)
      · exact second id temporary (.inl last)
    · rcases List.mem_append.mp died with old | last
      · exact first id temporary (.inr old)
      · exact second id temporary (.inr last)

theorem inPlace_mono {call : PersistCall} {temporary : FilePath} {P Q : FilePath → Prop}
    {rest : StoreLog Id} (placed : InPlace log id call temporary P)
    (kept : ∀ target, call.target = some target → Unreplaced rest target → P target → Q target) :
    InPlace (log ++ rest) id call temporary Q := by
  obtain ⟨target, before, after, targeted, faultless, rfl, told⟩ := placed
  refine ⟨target, before, after ++ rest, targeted, faultless, by simp, ?_⟩
  intro untried
  obtain ⟨first, second⟩ := unreplaced_append.mp untried
  exact kept target targeted second (told first)

theorem renamed_of_inPlace {call : PersistCall} {temporary : FilePath} {P : FilePath → Prop}
    (placed : InPlace log id call temporary P) :
    ∃ target, .did id ⟨.rename temporary target, .ok ()⟩ ∈ log := by
  obtain ⟨target, before, after, _, _, rfl, _⟩ := placed
  exact ⟨target, List.mem_append_right _ List.mem_cons_self⟩

/-- Entries that leave the disk alone. -/
theorem rests_still {call : PersistCall} {φ : Phase} {d : Disk} {rest : StoreLog Id}
    (rests : φ.Rests log d id call) : φ.Rests (log ++ rest) d id call := by
  unfold Phase.Rests at rests ⊢
  split at rests
  · exact inPlace_mono rests fun _ _ _ same => same
  · exact inPlace_mono rests fun _ _ _ same => same
  · trivial

end

/-! ### The invariant -/

/-- The call holds the file, or is over. -/
def Holding (life : Life stages.State) (temporary : FilePath) (inode : Nat) : Prop :=
  life = .over ∨ ∃ call stage, life = .live (call, .held temporary inode stage)

theorem holding_update [DecidableEq Id] {thread : Id → Life stages.State} {id id' : Id}
    {life : Life stages.State} {temporary : FilePath} {inode : Nat} (other : id' ≠ id)
    (holding : Holding (thread id') temporary inode) :
    Holding (Function.update thread id life id') temporary inode := by
  rw [Function.update_of_ne other]
  exact holding

theorem holding_self [DecidableEq Id] {thread : Id → Life stages.State} {id : Id}
    {life : Life stages.State} {temporary : FilePath} {inode : Nat}
    (holding : Holding life temporary inode) :
    Holding (Function.update thread id life id) temporary inode := by
  rw [Function.update_self]
  exact holding

/-- What the log tells of the files that calls have made. -/
structure Makers (log : StoreLog Id) (created : Nat) (thread : Id → Life stages.State) : Prop where
  known : ∀ id temporary inode, Made log id temporary inode → inode < created
  named : ∀ id temporary inode, Made log id temporary inode → temporary.IsTemporary
  held : ∀ id temporary inode, Made log id temporary inode → Holding (thread id) temporary inode
  unique : ∀ id id' temporary temporary' inode, Made log id temporary inode →
    Made log id' temporary' inode → id = id'
  writers : ∀ id inode bytes ans, Tried log id ⟨.write inode bytes, ans⟩ →
    ∃ temporary, Made log id temporary inode

theorem made_concat {log : StoreLog Id} {entry : Entry Store Id PersistCall} {id : Id}
    {temporary : FilePath} {inode : Nat} (made : Made (log ++ [entry]) id temporary inode) :
    Made log id temporary inode ∨ entry = .did id ⟨.createNew temporary, .ok inode⟩ := by
  rcases List.mem_append.mp made with old | last
  · exact .inl old
  · exact .inr (List.mem_singleton.mp last).symm

/-- One more entry in the log. A file that is made is new, and only its maker writes to it. -/
theorem makers_concat {log : StoreLog Id} {created created' : Nat}
    {thread thread' : Id → Life stages.State} {entry : Entry Store Id PersistCall}
    (makers : Makers log created thread) (more : created ≤ created')
    (held : ∀ id temporary inode, Made log id temporary inode →
      Holding (thread' id) temporary inode)
    (made : ∀ id temporary inode, entry = .did id ⟨.createNew temporary, .ok inode⟩ →
      created ≤ inode ∧ inode < created' ∧ temporary.IsTemporary ∧
        Holding (thread' id) temporary inode)
    (wrote : ∀ id inode bytes ans, entry = .did id ⟨.write inode bytes, ans⟩ ∨
      entry = .died id (.write inode bytes) → ∃ temporary, Made log id temporary inode) :
    Makers (log ++ [entry]) created' thread' where
  known id temporary inode logged := by
    rcases made_concat logged with old | last
    · exact Nat.lt_of_lt_of_le (makers.known id temporary inode old) more
    · exact (made id temporary inode last).2.1
  named id temporary inode logged := by
    rcases made_concat logged with old | last
    · exact makers.named id temporary inode old
    · exact (made id temporary inode last).2.2.1
  held id temporary inode logged := by
    rcases made_concat logged with old | last
    · exact held id temporary inode old
    · exact (made id temporary inode last).2.2.2
  unique id id' temporary temporary' inode first second := by
    -- a file made now is none of the earlier ones
    rcases made_concat first with old | last <;> rcases made_concat second with old' | last'
    · exact makers.unique id id' temporary temporary' inode old old'
    · have older := makers.known id temporary inode old
      exact absurd (made id' temporary' inode last').1 (Nat.not_le_of_lt older)
    · have older := makers.known id' temporary' inode old'
      exact absurd (made id temporary inode last).1 (Nat.not_le_of_lt older)
    · rw [last] at last'
      injection last'
  writers id inode bytes ans tried := by
    have earlier : Tried log id ⟨.write inode bytes, ans⟩ ∨
        (entry = .did id ⟨.write inode bytes, ans⟩ ∨ entry = .died id (.write inode bytes)) := by
      rcases tried with did | died
      · rcases List.mem_append.mp did with old | last
        · exact .inl (.inl old)
        · exact .inr (.inl (List.mem_singleton.mp last).symm)
      · rcases List.mem_append.mp died with old | last
        · exact .inl (.inr old)
        · exact .inr (.inr (List.mem_singleton.mp last).symm)
    have made : ∃ temporary, Made log id temporary inode := by
      rcases earlier with tried | last
      · exact makers.writers id inode bytes ans tried
      · exact wrote id inode bytes ans last
    exact made.imp fun temporary old => List.mem_append_left _ old

/-- The invariant of the runs. -/
structure Stored (prior : PriorDisk) (log : StoreLog Id) (c : Config stages (storage prior Id)) :
    Prop where
  sound : Disk.Sound (Allowed prior log) c.shared
  on : ∀ id call φ, c.thread id = .live (call, φ) → Phase.On c.shared call φ
  noted : ∀ id call φ, c.thread id = .live (call, φ) →
    .started id call ∈ log ∧ Phase.Noted log id φ
  rests : ∀ id call φ, c.thread id = .live (call, φ) → Phase.Rests log c.shared id call φ
  makers : Makers log (Disk.created c.shared) c.thread

section

variable {prior : PriorDisk} {log log' : StoreLog Id} {c : Config stages (storage prior Id)}
  {id : Id} {call : PersistCall} {φ : Phase} {e : Event Store} {d' : Disk}

/-- The disk after a question of a call was answered, or the call died with it pending. -/
theorem sound_touched (stored : Stored prior log c) (live : c.thread id = .live (call, φ))
    (grown : log ⊆ log') (tried : Tried log' id e) (effect : Effect call c.shared φ e d') :
    d'.Sound (Allowed prior log') := by
  refine sound_effect (Disk.sound_mono stored.sound fun _ _ => allowed_mono grown)
    (stored.on id call φ live) effect ?_
  rintro temporary target rfl targeted faultless
  have started := grown (stored.noted id call φ live).1
  exact .inr ⟨id, call, temporary, started, targeted, faultless, tried, rfl⟩

/-- The other calls are where they were. -/
theorem on_touched (stored : Stored prior log c) (live : c.thread id = .live (call, φ))
    (effect : Effect call c.shared φ e d') (more : Disk.created c.shared ≤ d'.created) {id' : Id}
    {call' : PersistCall} {φ' : Phase} (other : id' ≠ id)
    (live' : c.thread id' = .live (call', φ')) : φ'.On d' call' := by
  cases φ' with
  | start => trivial
  | held temporary inode stage =>
    obtain ⟨known, named, holds⟩ := stored.on id' call' _ live'
    obtain ⟨_, made', _⟩ := stored.noted id' call' _ live'
    refine ⟨Nat.lt_of_lt_of_le known more, named, ?_⟩
    refine Disk.untouched_holds (untouched_effect stored.sound.present (stored.on id call φ live)
      ⟨known, named, ?_⟩ effect) holds
    rintro temporary' inode' stage' rfl rfl
    obtain ⟨_, made, _⟩ := stored.noted id call _ live
    exact other (stored.makers.unique id' id _ _ inode' made' made)

/-- What is in place stays there through the effects of the other calls. -/
theorem rests_touched {entry : Entry Store Id PersistCall} (stored : Stored prior log c)
    (live : c.thread id = .live (call, φ)) (effect : Effect call c.shared φ e d')
    (logged : entry = .did id e ∨ entry = .died id e.op) {id' : Id} {call' : PersistCall}
    {φ' : Phase} (rests : φ'.Rests log c.shared id' call') :
    φ'.Rests (log ++ [entry]) d' id' call' := by
  have on := stored.on id call φ live
  have tried : Tried [entry] id e := by
    rcases logged with rfl | rfl
    · exact .inl List.mem_cons_self
    · exact .inr List.mem_cons_self
  unfold Phase.Rests at rests ⊢
  split at rests
  · refine inPlace_mono rests fun target targeted untried same => ?_
    have plain := call_target_plain targeted
    rcases read_effect stored.sound on effect plain with still | ⟨⟨temporary, rfl⟩, _⟩
    · rw [still]
      exact same
    · exact absurd tried (untried id temporary)
  · refine inPlace_mono rests fun target _ untried sound => ?_
    refine sound_effect sound on effect ?_
    rintro temporary _ rfl _ _ rfl
    exact absurd tried (untried id temporary)
  · trivial

/-- A call puts its file in place, and then syncs the directory. -/
theorem rests_step {φ' : Phase} (stored : Stored prior log c)
    (live : c.thread id = .live (call, φ)) (stepped : Step call φ e φ')
    (answered : Disk.Answer c.shared e d') : φ'.Rests (log ++ [.did id e]) d' id call := by
  have on := stored.on id call φ live
  have rests := stored.rests id call φ live
  cases stepped with
  | @renamed temporary target inode targeted =>
    cases answered with
    | early early => exact early.elim
    | @renamed _ _ inode linked =>
      obtain ⟨known, named, whole, content, settled, faultless⟩ := on
      obtain rfl := Option.some.inj (linked.symm.trans whole.1)
      have read := @read_rename c.shared temporary target inode named (call_target_plain targeted)
      rw [content] at read
      exact ⟨target, log, [], targeted, faultless, rfl, fun _ => read⟩
  | settled targeted =>
    cases answered with
    | early early => exact early.elim
    | settled =>
      refine inPlace_mono rests fun target' targeted' _ read => ?_
      cases targeted.symm.trans targeted'
      exact Disk.sound_settled stored.sound read
  | unsettled =>
    cases answered with
    | early early => exact early.elim
    | unsettled => exact rests_still rests
  | closed stage =>
    rcases stage with rfl | rfl <;> trivial
  | _ => trivial

/-- A call that writes has made the file it writes to. -/
theorem write_made {φ' : Phase} {inode : Nat} {bytes : List UInt8}
    {ans : Except ProtocolError Unit} (noted : φ.Noted log id)
    (stepped : Step call φ ⟨.write inode bytes, ans⟩ φ') :
    ∃ temporary, Made log id temporary inode := by
  cases stepped with
  | early early => exact early.elim
  | wrote => exact ⟨_, noted.1⟩
  | unwritten => exact ⟨_, noted.1⟩

theorem step_held {φ' : Phase} {temporary : FilePath} {inode : Nat} {stage : Stage}
    (stepped : Step call (.held temporary inode stage) e φ') :
    ∃ stage', φ' = .held temporary inode stage' := by
  cases stepped <;> exact ⟨_, rfl⟩

theorem makers_answer [DecidableEq Id] {φ' : Phase} (stored : Stored prior log c)
    (live : c.thread id = .live (call, φ)) (stepped : Step call φ e φ')
    (answered : Disk.Answer c.shared e d') (more : Disk.created c.shared ≤ d'.created) :
    Makers (log ++ [.did id e]) d'.created
      (Function.update c.thread id (.live (call, φ'))) := by
  refine makers_concat stored.makers more ?_ ?_ ?_
  · intro id' temporary inode made
    have held := stored.makers.held id' temporary inode made
    by_cases same : id' = id
    · subst same
      rcases held with past | ⟨call', stage, live'⟩
      · cases live.symm.trans past
      · cases live.symm.trans live'
        obtain ⟨stage', rfl⟩ := step_held stepped
        exact holding_self (.inr ⟨call, stage', rfl⟩)
    · exact holding_update same held
  · intro id' temporary inode same
    cases same
    cases stepped with
    | early early => exact early.elim
    | made named =>
      cases answered with
      | early early => exact early.elim
      | created =>
        refine ⟨Nat.le_refl _, Nat.lt_succ_self _, named, ?_⟩
        exact holding_self (.inr ⟨call, .writing [], rfl⟩)
  · intro id' inode bytes ans same
    rcases same with same | same
    · cases same
      exact write_made (stored.noted id call φ live).2 stepped
    · cases same

theorem created_effect (effect : Effect call c.shared φ e d') :
    Disk.created c.shared ≤ d'.created := by
  cases effect with
  | create => exact Nat.le_succ _
  | _ => exact Nat.le_refl _

end

/-! ### The moves -/

section

variable [DecidableEq Id] {prior : PriorDisk} {log : StoreLog Id}
  {c : Config stages (storage prior Id)}

omit [DecidableEq Id] in
theorem stored_init : Stored prior [] (Config.init : Config stages (storage prior Id)) where
  sound := {
    known := by
      rintro path inode same
      exact prior.known path inode same.symm
    present := fun path => rfl
    allowed := by
      rintro path entry plain rfl
      exact .inl rfl
    durable := fun _ _ _ _ => rfl }
  on _ _ _ live := nomatch live
  noted _ _ _ live := nomatch live
  rests _ _ _ live := nomatch live
  makers := {
    known _ _ _ made := nomatch made
    named _ _ _ made := nomatch made
    held _ _ _ live := nomatch live
    unique _ _ _ _ _ made := nomatch made
    writers := by
      rintro id inode bytes ans (did | died)
      · cases did
      · cases died }

omit [DecidableEq Id] in
private theorem grows (log : StoreLog Id) (entry : Entry Store Id PersistCall) :
    log ⊆ log ++ [entry] := List.subset_append_left _ _

/-- A call that is alive after another one has moved was alive before. -/
theorem stored_start {id : Id} {call : PersistCall} (stored : Stored prior log c)
    (unborn : c.thread id = .unborn) :
    Stored prior (log ++ [.started id call])
      ⟨c.shared, Function.update c.thread id (.live (call, .start))⟩ where
  sound := Disk.sound_mono stored.sound fun _ _ => allowed_mono (grows log _)
  on id' call' φ' live := by
    rcases live_update live with ⟨rfl, same⟩ | ⟨_, live⟩
    · cases same
      trivial
    · exact stored.on id' call' φ' live
  noted id' call' φ' live := by
    rcases live_update live with ⟨rfl, same⟩ | ⟨_, live⟩
    · cases same
      exact ⟨List.mem_append_right _ List.mem_cons_self, trivial⟩
    · obtain ⟨started, noted⟩ := stored.noted id' call' φ' live
      exact ⟨grows log _ started, noted_mono (grows log _) noted⟩
  rests id' call' φ' live := by
    rcases live_update live with ⟨rfl, same⟩ | ⟨_, live⟩
    · cases same
      trivial
    · exact rests_still (stored.rests id' call' φ' live)
  makers := by
    refine makers_concat stored.makers (Nat.le_refl _) ?_ nofun nofun
    intro id' temporary inode made
    have held := stored.makers.held id' temporary inode made
    have other : id' ≠ id := by
      rintro rfl
      rw [unborn] at held
      rcases held with past | ⟨_, _, live⟩
      · cases past
      · cases live
    exact holding_update other held

theorem stored_answer {id : Id} {call : PersistCall} {φ φ' : Phase} {e : Event Store} {d' : Disk}
    (stored : Stored prior log c) (live : c.thread id = .live (call, φ))
    (stepped : Step call φ e φ') (answered : Disk.Answer c.shared e d') :
    Stored prior (log ++ [.did id e])
      ⟨d', Function.update c.thread id (.live (call, φ'))⟩ := by
  have effect : Effect call c.shared φ e d' := effect_of_answer stepped answered
  have more := created_effect effect
  have tried : Tried (log ++ [.did id e]) id e :=
    .inl (List.mem_append_right _ List.mem_cons_self)
  exact {
    sound := sound_touched stored live (grows log _) tried effect
    on := by
      intro id' call' ψ live'
      rcases live_update live' with ⟨rfl, same⟩ | ⟨other, live'⟩
      · cases same
        exact on_step stored.sound.known (stored.on id' call φ live) stepped answered
      · exact on_touched stored live effect more other live'
    noted := by
      intro id' call' ψ live'
      rcases live_update live' with ⟨rfl, same⟩ | ⟨other, live'⟩
      · cases same
        obtain ⟨started, noted⟩ := stored.noted id' call φ live
        exact ⟨grows log _ started, noted_step noted stepped⟩
      · obtain ⟨started, noted⟩ := stored.noted id' call' ψ live'
        exact ⟨grows log _ started, noted_mono (grows log _) noted⟩
    rests := by
      intro id' call' ψ live'
      rcases live_update live' with ⟨rfl, same⟩ | ⟨_, live'⟩
      · cases same
        exact rests_step stored live stepped answered
      · exact rests_touched stored live effect (.inl rfl) (stored.rests id' call' ψ live')
    makers := makers_answer stored live stepped answered more }

/-- A call that is over still counts as the maker of its file. -/
private theorem held_over {id : Id} (stored : Stored prior log c) (id' : Id)
    (temporary : FilePath) (inode : Nat) (made : Made log id' temporary inode) :
    Holding (Function.update c.thread id .over id') temporary inode := by
  by_cases same : id' = id
  · subst same
    exact holding_self (.inl rfl)
  · exact holding_update same (stored.makers.held id' temporary inode made)

theorem stored_die {id : Id} {call : PersistCall} {φ φ' : Phase} {op : StoreOp}
    {ans ans' : Store.Ans op} {d' : Disk} (stored : Stored prior log c)
    (live : c.thread id = .live (call, φ)) (asked : Step call φ ⟨op, ans⟩ φ')
    (answered : Disk.Answer c.shared ⟨op, ans'⟩ d') :
    Stored prior (log ++ [.died id op]) ⟨d', Function.update c.thread id .over⟩ := by
  have effect : Effect call c.shared φ ⟨op, ans'⟩ d' := effect_of_answer asked answered
  have more := created_effect effect
  have tried : Tried (log ++ [.died id op]) id ⟨op, ans'⟩ :=
    .inr (List.mem_append_right _ List.mem_cons_self)
  exact {
    sound := sound_touched stored live (grows log _) tried effect
    on := by
      intro id' call' ψ live'
      rcases live_update live' with ⟨rfl, same⟩ | ⟨other, live'⟩
      · cases same
      · exact on_touched stored live effect more other live'
    noted := by
      intro id' call' ψ live'
      rcases live_update live' with ⟨rfl, same⟩ | ⟨other, live'⟩
      · cases same
      · obtain ⟨started, noted⟩ := stored.noted id' call' ψ live'
        exact ⟨grows log _ started, noted_mono (grows log _) noted⟩
    rests := by
      intro id' call' ψ live'
      rcases live_update live' with ⟨rfl, same⟩ | ⟨_, live'⟩
      · cases same
      · exact rests_touched stored live effect (.inr rfl) (stored.rests id' call' ψ live')
    makers := by
      refine makers_concat stored.makers more (held_over stored) nofun ?_
      intro id' inode bytes ans'' same
      rcases same with same | same
      · cases same
      · cases same
        exact write_made (stored.noted id call φ live).2 asked }

theorem stored_finish {id : Id} (stored : Stored prior log c) :
    Stored prior (log ++ [.ended id]) ⟨c.shared, Function.update c.thread id .over⟩ where
  sound := Disk.sound_mono stored.sound fun _ _ => allowed_mono (grows log _)
  on id' call' φ' live := by
    rcases live_update live with ⟨rfl, same⟩ | ⟨_, live⟩
    · cases same
    · exact stored.on id' call' φ' live
  noted id' call' φ' live := by
    rcases live_update live with ⟨rfl, same⟩ | ⟨_, live⟩
    · cases same
    · obtain ⟨started, noted⟩ := stored.noted id' call' φ' live
      exact ⟨grows log _ started, noted_mono (grows log _) noted⟩
  rests id' call' φ' live := by
    rcases live_update live with ⟨rfl, same⟩ | ⟨_, live⟩
    · cases same
    · exact rests_still (stored.rests id' call' φ' live)
  makers := makers_concat stored.makers (Nat.le_refl _) (held_over stored) nofun nofun

omit [DecidableEq Id] in
theorem stored_outside {d' : Disk} (stored : Stored prior log c)
    (dead : ∀ id θ, c.thread id ≠ .live θ) (lost : Disk.PowerLoss c.shared d') :
    Stored prior (log ++ [.outside]) ⟨d', c.thread⟩ where
  sound := Disk.sound_mono (Disk.sound_powerLoss stored.sound lost)
    fun _ _ => allowed_mono (grows log _)
  on id call φ live := absurd live (dead id _)
  noted id call φ live := absurd live (dead id _)
  rests id call φ live := absurd live (dead id _)
  makers := by
    change Makers _ d'.created c.thread
    rw [lost.created]
    exact makers_concat stored.makers (Nat.le_refl _) stored.makers.held nofun nofun

theorem stored_move {entry : Entry Store Id PersistCall} {c' : Config stages (storage prior Id)}
    (stored : Stored prior log c) (move : Config.Move c entry c') :
    Stored prior (log ++ [entry]) c' := by
  cases move with
  | start unborn started =>
    cases started
    exact stored_start stored unborn
  | @answer id θ θ' e d' live stepped answered =>
    obtain ⟨call, φ⟩ := θ
    obtain ⟨_, φ'⟩ := θ'
    obtain ⟨rfl, stepped⟩ := stepped
    exact stored_answer stored live stepped answered
  | @die id θ op d' live asked abandoned =>
    obtain ⟨call, φ⟩ := θ
    obtain ⟨ans, φ', asked⟩ := asked
    obtain ⟨ans', answered⟩ := abandoned
    exact stored_die stored live asked answered
  | finish => exact stored_finish stored
  | outside dead lost => exact stored_outside stored dead lost

theorem stored_run (run : Config.Run log c) : Stored prior log c := by
  refine Reaches.invariant (fun log c => Stored prior log c) stored_init ?_ run
  exact fun _ _ _ _ _ stored move => stored_move stored move

/-! ### The runs of the programs -/

/-- The entry puts the complete content of a call at the path. -/
def Renames (log : StoreLog Id) (entry : Entry Store Id PersistCall) (path : FilePath)
    (held : Option (List UInt8)) : Prop :=
  ∃ id call temporary,
    (entry = .did id ⟨.rename temporary path, .ok ()⟩ ∨ entry = .died id (.rename temporary path)) ∧
    .started id call ∈ log ∧ call.target = some path ∧ call.fault = none ∧ held = some call.content

omit [DecidableEq Id] in
theorem renames_effect {id : Id} {call : PersistCall} {φ : Phase} {e : Event Store} {d' : Disk}
    {path : FilePath} {entry : Entry Store Id PersistCall} (stored : Stored prior log c)
    (live : c.thread id = .live (call, φ)) (effect : Effect call c.shared φ e d')
    (logged : entry = .did id e ∨ entry = .died id e.op) (plain : ¬ path.IsTemporary) :
    d'.read path = Disk.read c.shared path ∨ Renames log entry path (d'.read path) := by
  have told := read_effect stored.sound (stored.on id call φ live) effect plain
  rcases told with same | ⟨⟨temporary, rfl⟩, targeted, faultless, complete⟩
  · exact .inl same
  · have started := (stored.noted id call φ live).1
    exact .inr ⟨id, call, temporary, logged, started, targeted, faultless, complete⟩

/-- Nothing but a rename, or a power loss, changes a destination. -/
theorem renames_move {entry : Entry Store Id PersistCall}
    {c' : Config stages (storage prior Id)} {path : FilePath} (stored : Stored prior log c)
    (move : Config.Move c entry c') (inside : entry ≠ .outside) (plain : ¬ path.IsTemporary) :
    Disk.read c'.shared path = Disk.read c.shared path ∨
      Renames log entry path (Disk.read c'.shared path) := by
  cases move with
  | start => exact .inl rfl
  | finish => exact .inl rfl
  | outside => exact absurd rfl inside
  | @answer id θ θ' e d' live stepped answered =>
    obtain ⟨call, φ⟩ := θ
    obtain ⟨_, φ'⟩ := θ'
    obtain ⟨rfl, stepped⟩ := stepped
    exact renames_effect stored live (effect_of_answer stepped answered) (.inl rfl) plain
  | @die id θ op d' live asked abandoned =>
    obtain ⟨call, φ⟩ := θ
    obtain ⟨ans, φ', asked⟩ := asked
    obtain ⟨ans', answered⟩ := abandoned
    exact renames_effect stored live (effect_of_answer asked answered) (.inr rfl) plain

omit [DecidableEq Id] in
/-- A call that ends without a rename leaves no file, unless it failed to remove it. -/
theorem final_unlinked {id : Id} {call : PersistCall} {φ : Phase} {temporary : FilePath}
    {inode : Nat} (stored : Stored prior log c) (live : c.thread id = .live (call, φ))
    (final : φ.IsFinal)
    (unplaced : ∀ temporary target, .did id ⟨.rename temporary target, .ok ()⟩ ∉ log)
    (removed : ∀ temporary e, .did id ⟨.remove temporary, .error e⟩ ∉ log)
    (made : Made log id temporary inode) (path : FilePath) :
    Disk.entries c.shared path ≠ some inode := by
  rcases stored.makers.held id temporary inode made with past | ⟨call', stage, live'⟩
  · cases live.symm.trans past
  · cases live.symm.trans live'
    obtain ⟨_, _, last⟩ := stored.noted id call _ live
    obtain ⟨_, _, holds⟩ := stored.on id call _ live
    cases stage with
    | removed =>
      intro entry
      obtain ⟨sole, gone⟩ := holds
      have present := stored.sound.present path
      rw [entry] at present
      obtain rfl := sole path present
      exact gone entry
    | left =>
      obtain ⟨e, left⟩ := last
      exact absurd left (removed temporary e)
    | placed =>
      obtain ⟨target, renamed⟩ := renamed_of_inPlace (stored.rests id call _ live)
      exact absurd renamed (unplaced temporary target)
    | kept =>
      obtain ⟨target, renamed⟩ := renamed_of_inPlace (stored.rests id call _ live)
      exact absurd renamed (unplaced temporary target)
    | writing => exact final.elim
    | torn => exact final.elim
    | whole => exact final.elim

/-- The call has renamed its complete file onto its destination. Until another file may have been
renamed there, that reads the content of the call, and would do so after a power loss. -/
def Settled (log : StoreLog Id) (d : Disk) (id : Id) (call : PersistCall) : Prop :=
  ∃ target temporary before after, call.target = some target ∧ call.fault = none ∧
    log = before ++ .did id ⟨.rename temporary target, .ok ()⟩ :: after ∧
    (Unreplaced after target →
      d.read target = some call.content ∧
        ∀ d' : Disk, d.PowerLoss d' → d'.read target = some call.content)

omit [DecidableEq Id] in
theorem ended_settled {id : Id} {call : PersistCall} {φ : Phase} (stored : Stored prior log c)
    (live : c.thread id = .live (call, φ)) (ended : φ.Ends (.ok ())) :
    Settled log c.shared id call := by
  obtain ⟨temporary, inode, rfl⟩ := ended
  obtain ⟨target, before, after, targeted, faultless, same, told⟩ := stored.rests id call _ live
  refine ⟨target, temporary, before, after, targeted, faultless, same, fun untried => ?_⟩
  have sound := told untried
  have plain := call_target_plain targeted
  constructor
  · exact Disk.read_allowed sound plain rfl
  · intro d' lost
    exact Disk.read_allowed (Disk.sound_powerLoss sound lost) plain rfl

/-- However calls that store observations are interleaved, and wherever each of them fails or
stops, also by a power loss: a destination holds its old content or the complete content of a
call that renamed its file onto it; it keeps the old content while there is no rename, and changes
by a rename only; a call that returns without one has removed its file, if it could; each call
writes to files of its own only; and a successful call has put its content in place for good. -/
theorem observations_replaced (prior : PriorDisk) {c : Config writers (storage prior Id)}
    (run : Config.Run log c) :
    (∀ path, ¬ path.IsTemporary → Allowed prior log path (Disk.read c.shared path)) ∧
    (∀ path, ¬ path.IsTemporary →
      (∀ id temporary, ¬ Tried log id ⟨.rename temporary path, .ok ()⟩) →
      Disk.read c.shared path = prior.read path) ∧
    (∀ entry c', Config.Move c entry c' → entry ≠ .outside → ∀ path, ¬ path.IsTemporary →
      Disk.read c'.shared path = Disk.read c.shared path ∨
        Renames log entry path (Disk.read c'.shared path)) ∧
    (∀ id call result, c.thread id = .live (call, .ret result) →
      (∀ temporary target, .did id ⟨.rename temporary target, .ok ()⟩ ∉ log) →
      (∀ temporary e, .did id ⟨.remove temporary, .error e⟩ ∉ log) →
      ∀ temporary inode, Made log id temporary inode →
        ∀ path, Disk.entries c.shared path ≠ some inode) ∧
    (∀ id inode bytes ans, Tried log id ⟨.write inode bytes, ans⟩ →
      ∃ temporary, Made log id temporary inode ∧ temporary.IsTemporary ∧
        ∀ id' temporary', Made log id' temporary' inode → id' = id) ∧
    (∀ id call, c.thread id = .live (call, .ret (.ok ())) → Settled log c.shared id call) := by
  have final (result : Except ProtocolError Unit) (φ : Phase) (ended : φ.Ends result) :
      φ.IsFinal := φ.final_of_ends ended
  have sim := programs_follow_to final persistObservation_follows
  obtain ⟨d, staged, related⟩ := simulate sim run
  have stored : Stored prior log d := stored_run staged
  have allowed : ∀ path, ¬ path.IsTemporary →
      Allowed prior log path (Disk.read c.shared path) := by
    intro path plain
    rw [← related.shared]
    exact Disk.read_allowed stored.sound plain
  have ended : ∀ id call result, c.thread id = .live (call, .ret result) →
      ∃ φ : Phase, d.thread id = .live (call, φ) ∧ φ.Ends result := by
    intro id call result live
    -- the program has returned, so the automaton is where such a call ends
    have both := related.threads id
    rw [live] at both
    generalize stage : d.thread id = life at both
    cases both with
    | @live _ q both =>
      obtain ⟨call', φ⟩ := q
      obtain ⟨rfl, final⟩ := both
      exact ⟨φ, rfl, final⟩
  refine ⟨allowed, ?_, ?_, ?_, ?_, ?_⟩
  · -- Without a rename onto the path its old content is still there.
    intro path plain untried
    rcases allowed path plain with old | ⟨id, _, temporary, _, _, _, tried, _⟩
    · exact old
    · exact absurd tried (untried id temporary)
  · intro entry c' move inside path plain
    obtain ⟨d', move', related'⟩ := simulate_move sim related move
    rw [← related.shared, ← related'.shared]
    exact renames_move stored move' inside plain
  · intro id call result live unplaced removed temporary inode made path
    obtain ⟨φ, live', final⟩ := ended id call result live
    rw [← related.shared]
    exact final_unlinked stored live' (Phase.final_of_ends final) unplaced removed made path
  · -- A file that is written was made by the call that writes it.
    intro id inode bytes ans tried
    obtain ⟨temporary, made⟩ := stored.makers.writers id inode bytes ans tried
    refine ⟨temporary, made, stored.makers.named id temporary inode made, ?_⟩
    intro id' temporary' made'
    exact stored.makers.unique id' id temporary' temporary inode made' made
  · intro id call live
    obtain ⟨φ, live', final⟩ := ended id call _ live
    rw [← related.shared]
    exact ended_settled stored live' final

end

/-! ### A call beside one that dies -/

def samplePath : FilePath := ⟨"observations", "a.json"⟩

/-- A file is stored already. -/
def samplePrior : PriorDisk where
  created := 1
  content _ := [123, 125, 10]
  entries path := if path = samplePath then some 0 else none
  known := by
    intro path inode entry
    split at entry
    · cases entry
      exact Nat.zero_lt_one
    · cases entry

theorem sample_plain : ¬ temporaryEnd <:+ "a.json".toList := by decide

/-- A call that stores the pieces in the same file. -/
def sampleCall (pieces : List (List UInt8)) : PersistCall where
  parent := some "observations"
  fileName := some "a.json"
  pieces := pieces
  fault := none
  plain := by
    rintro _ ⟨rfl⟩
    exact sample_plain

def sampleTemporary (sequence : UInt64) : FilePath :=
  ⟨"observations", temporaryName "a.json" 7 sequence (sequence + 5)⟩

/-- A call up to its first write. -/
def sampleOpened (sequence : UInt64) (inode : Nat) (piece : List UInt8) : List (Event Store) :=
  [⟨.requirePrivateStorage, .ok ()⟩, ⟨.ensureDirectory "observations", .ok ()⟩,
    ⟨.processId, (7 : UInt32)⟩, ⟨.nextSequence, sequence⟩, ⟨.nonce 7 sequence, sequence + 5⟩,
    ⟨.createNew (sampleTemporary sequence), .ok inode⟩, ⟨.restrict inode, .ok ()⟩,
    ⟨.write inode piece, .ok ()⟩]

/-- The rest of a call of two pieces. -/
def sampleClosed (sequence : UInt64) (inode : Nat) (piece : List UInt8) : List (Event Store) :=
  [⟨.write inode piece, .ok ()⟩, ⟨.write inode [newline], .ok ()⟩, ⟨.syncAll inode, .ok ()⟩,
    ⟨.close inode, ()⟩, ⟨.rename (sampleTemporary sequence) samplePath, .ok ()⟩,
    ⟨.syncParent "observations", .ok ()⟩]

/-- What is left of a call after its first write. -/
def sampleRest (sequence : UInt64) (inode : Nat) (pieces : List (List UInt8)) :
    Prog Store (Except ProtocolError Unit) :=
  ((do
    let written ← monadLift (do
      toWriter inode pieces none
      orFail (← ask (.write inode [newline]))
      orFail (← ask (.syncAll inode)) : PersistM Unit).run
    let _ ← ask (.close inode)
    replace (sampleTemporary sequence) samplePath written : PersistM Unit)).run

theorem sample_opens (sequence : UInt64) (inode : Nat) (piece : List UInt8)
    (pieces : List (List UInt8)) :
    Steps (persistObservation (sampleCall (piece :: pieces))).run (sampleOpened sequence inode piece)
      (sampleRest sequence inode pieces) := by
  unfold sampleOpened
  iterate 8 apply Steps.step
  exact .refl _

theorem sample_closes (sequence : UInt64) (inode : Nat) (piece : List UInt8) :
    Steps (sampleRest sequence inode [piece]) (sampleClosed sequence inode piece)
      (.ret (.ok ())) := by
  unfold sampleClosed
  iterate 6 apply Steps.step
  exact .refl _

theorem sample_apart : sampleTemporary 1 ≠ sampleTemporary 0 := by decide +kernel

theorem sample_fresh (sequence : UInt64) : sampleTemporary sequence ≠ samplePath := by
  intro same
  have named : (sampleTemporary sequence).IsTemporary := temporaryName_isTemporary ..
  rw [same] at named
  exact sample_plain named

section

variable {d : Disk} {id : Nat} {sequence : UInt64} {inode : Nat} {piece : List UInt8}

theorem sample_opened (absent : d.entries (sampleTemporary sequence) = none) :
    Reaches ((storage samplePrior Nat).Served id) d (sampleOpened sequence d.created piece)
      ((d.create (sampleTemporary sequence)).extend d.created piece) := by
  unfold sampleOpened
  iterate 5 refine .cons (.early trivial) ?_
  exact .cons (.created absent) (.cons .restrict (.cons .wrote .nil))

theorem sample_closed (linked : d.entries (sampleTemporary sequence) = some inode) :
    Reaches ((storage samplePrior Nat).Served id) d (sampleClosed sequence inode piece)
      (((((d.extend inode piece).extend inode [newline]).sync inode).rename
        (sampleTemporary sequence) samplePath inode).syncDirectory "observations") := by
  unfold sampleClosed
  exact .cons .wrote (.cons .wrote (.cons .synced (.cons .close (.cons (.renamed linked)
    (.cons .settled .nil)))))

end

section

variable {log : StoreLog Nat} {c : Config writers (storage samplePrior Nat)} {id : Nat}
  {sequence : UInt64}

/-- A call runs up to its first write. -/
theorem sample_begins (run : Config.Run log c) (piece : List UInt8) (pieces : List (List UInt8))
    (unborn : c.thread id = .unborn)
    (absent : Disk.entries c.shared (sampleTemporary sequence) = none) :
    Config.Run
      (log ++ .started id (sampleCall (piece :: pieces)) ::
        (sampleOpened sequence (Disk.created c.shared) piece).map (.did id))
      (⟨(Disk.create c.shared (sampleTemporary sequence)).extend (Disk.created c.shared) piece,
        Function.update c.thread id (.live (sampleCall (piece :: pieces),
          sampleRest sequence (Disk.created c.shared) pieces))⟩ :
        Config writers (storage samplePrior Nat)) := by
  have started : Config.Move c (.started id (sampleCall (piece :: pieces)))
      (⟨c.shared, Function.update c.thread id (.live (sampleCall (piece :: pieces),
        (persistObservation (sampleCall (piece :: pieces))).run))⟩ :
        Config writers (storage samplePrior Nat)) := .start unborn rfl
  have rest := @steps_reaches _ _ _ Nat _ (storage samplePrior Nat) _ id
    (sampleCall (piece :: pieces)) _ _ _ (sample_opens sequence _ piece pieces)
    ⟨c.shared, Function.update c.thread id (.live (sampleCall (piece :: pieces), _))⟩ _
    (Function.update_self ..) (sample_opened absent)
  have latest : Function.update (Function.update c.thread id (.live (sampleCall (piece :: pieces),
      (persistObservation (sampleCall (piece :: pieces))).run))) id
        (.live (sampleCall (piece :: pieces), sampleRest sequence (Disk.created c.shared) pieces)) =
      Function.update c.thread id (.live (sampleCall (piece :: pieces),
        sampleRest sequence (Disk.created c.shared) pieces)) := Function.update_idem ..
  refine run.trans (.cons started ?_)
  rw [← latest]
  exact rest

/-- The rest of it. -/
theorem sample_ends (run : Config.Run log c) {call : PersistCall} {inode : Nat} {piece : List UInt8}
    (live : c.thread id = .live (call, sampleRest sequence inode [piece]))
    (linked : Disk.entries c.shared (sampleTemporary sequence) = some inode) :
    ∃ d, Config.Run (log ++ (sampleClosed sequence inode piece).map (.did id))
      (⟨d, Function.update c.thread id (.live (call, .ret (.ok ())))⟩ :
        Config writers (storage samplePrior Nat)) := by
  have rest := @steps_reaches _ _ _ Nat _ (storage samplePrior Nat) _ id call _ _ _
    (sample_closes sequence inode piece) c _ live (sample_closed linked)
  exact ⟨_, run.trans rest⟩

end

/-- One call is at its first write when another begins, and that one dies writing. -/
def sampleBegun : StoreLog Nat :=
  [] ++ .started 0 (sampleCall [[91], [93]]) :: (sampleOpened 0 1 [91]).map (.did 0) ++
    .started 1 (sampleCall [[110], [117]]) :: (sampleOpened 1 2 [110]).map (.did 1) ++
    [.died 1 (.write 2 [117])]

theorem sample_begun : ∃ c : Config writers (storage samplePrior Nat),
    Config.Run sampleBegun c ∧
      Disk.entries c.shared (sampleTemporary 0) = some 1 ∧
      c.thread 0 = .live (sampleCall [[91], [93]], sampleRest 0 1 [[93]]) := by
  have none (sequence : UInt64) : (if sampleTemporary sequence = samplePath then some 0 else none) =
      none := if_neg (sample_fresh sequence)
  have first := @sample_begins _ Config.init 0 0 .nil [91] [[93]] rfl (none 0)
  have absent : Function.update samplePrior.entries (sampleTemporary 0) (some 1)
      (sampleTemporary 1) = Option.none := by
    rw [Function.update_of_ne sample_apart]
    exact none 1
  have second := @sample_begins _ _ 1 1 first [110] [[117]] rfl absent
  have died := second.snoc (@Config.Move.die Store Nat PersistCall writers (storage samplePrior Nat)
    _ _ 1 (sampleCall [[110], [117]], sampleRest 1 2 [[117]]) (.write 2 [117]) _ rfl ⟨_, rfl⟩
    ⟨.ok (), .wrote⟩)
  refine ⟨_, died, ?_, rfl⟩
  change Function.update (Function.update samplePrior.entries (sampleTemporary 0) (some 1))
    (sampleTemporary 1) (some 2) (sampleTemporary 0) = some 1
  rw [Function.update_of_ne sample_apart.symm, Function.update_self]

/-- The entry is a rename, or a death at one. -/
def isRename : Entry Store Nat PersistCall → Bool
  | .did _ ⟨.rename .., _⟩ | .died _ (.rename ..) => true
  | _ => false

theorem unreplaced_of_filter {log : StoreLog Nat} (none : log.filter isRename = [])
    (target : FilePath) : Unreplaced log target := by
  have absent := List.filter_eq_nil_iff.mp none
  rintro id temporary (did | died)
  · exact absent _ did rfl
  · exact absent _ died rfl

/-- While the second call dies, the old content is read; the first one then returns with its own in
place, also after a power loss. -/
theorem observations_replaced_beside : ∃ c d : Config writers (storage samplePrior Nat),
    Config.Run sampleBegun c ∧ Disk.read c.shared samplePath = some [123, 125, 10] ∧
    Config.Run (sampleBegun ++ (sampleClosed 0 1 [93]).map (.did 0)) d ∧
    d.thread 0 = .live (sampleCall [[91], [93]], .ret (.ok ())) ∧
    Disk.read d.shared samplePath = some [91, 93, 10] ∧
    ∀ d' : Disk, Disk.PowerLoss d.shared d' → d'.read samplePath = some [91, 93, 10] := by
  obtain ⟨c, begun, linked, live⟩ := sample_begun
  obtain ⟨d, ended⟩ := sample_ends begun live linked
  refine ⟨c, ⟨d, _⟩, begun, ?_, ended, rfl, ?_⟩
  · obtain ⟨_, kept, _⟩ := observations_replaced samplePrior begun
    rw [kept samplePath sample_plain]
    · rfl
    · exact unreplaced_of_filter rfl samplePath
  · obtain ⟨_, _, _, _, _, settled⟩ := observations_replaced samplePrior ended
    obtain ⟨target, temporary, before, after, targeted, _, same, told⟩ :=
      settled 0 _ rfl
    cases targeted
    apply told
    -- the log has one rename only
    have one := congrArg (List.filter isRename) same
    have alone : List.filter isRename (sampleBegun ++ (sampleClosed 0 1 [93]).map (.did 0)) =
        [.did 0 ⟨.rename (sampleTemporary 0) samplePath, .ok ()⟩] := rfl
    rw [alone, List.filter_append, List.filter_cons_of_pos rfl] at one
    apply unreplaced_of_filter
    rcases List.append_eq_singleton_iff.mp one.symm with ⟨_, rest⟩ | ⟨_, rest⟩
    · exact (List.cons.inj rest).2
    · cases rest

end Praefectus.Persist
