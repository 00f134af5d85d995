import Praefectus.Observe.CdpObserve
import Praefectus.Program.Play
import Praefectus.Program.Refusals
import Praefectus.Text.Sha256

/-!
# The latest observation

Calls that observe a page run side by side on one executor. Each takes a number and publishes
later, so what is published last need not bear the highest number.
-/

namespace Praefectus.Cdp.CdpExecutor

open Prog

/-! ### The stages of a call -/

inductive Stage where
  | reading
  | numbered (taken : UInt64)
  | published (stored : StoredObservation)

/-- What is asked of the browser, the clock, the token and the process. -/
def IsRead : BrowserOp → Prop
  | .isCancelled | .nowMs | .verifyProcess | .command .. => True
  | _ => False

/-- Neither takes a number nor publishes. -/
def IsLook : BrowserOp → Prop
  | .nextGeneration | .publish _ => False
  | _ => True

inductive Step : Stage → Event Browser → Stage → Prop where
  | look {s : Stage} {op : BrowserOp} {ans : Browser.Ans op} : IsLook op →
      (∀ stored, s ≠ .published stored) → Step s ⟨op, ans⟩ s
  | number {taken : UInt64} : Step .reading ⟨.nextGeneration, taken⟩ (.numbered taken)
  | publish {taken : UInt64} {stored : StoredObservation} :
      stored.observation.generation = taken + 1 →
      Step (.numbered taken) ⟨.publish stored, some ()⟩ (.published stored)
  | unpublished {taken : UInt64} {stored : StoredObservation} :
      Step (.numbered taken) ⟨.publish stored, none⟩ (.numbered taken)

/-- A call that returns an observation has published it; one that fails has published nothing. -/
def Stage.Returns (s : Stage) : Except CdpError SemanticObservation → Prop
  | .ok observation => ∃ stored, s = .published stored ∧ stored.observation = observation
  | .error _ => ∀ stored, s ≠ .published stored

section

theorem only_readPage (build : Build) (config : CdpConfig) (deadlineAtMs : Int64) :
    (readPage build config deadlineAtMs).run.Only IsRead := by
  have asked (method : String) (parameters : Json) :
      (command deadlineAtMs method parameters).run.Only IsRead :=
    only_command _ _ _ trivial trivial trivial
  unfold readPage
  refine only_try (only_boundary _ trivial trivial) fun _ => ?_
  refine only_try (only_query trivial) fun verified => ?_
  refine only_try (only_orFail _) fun _ => only_try (asked _ _) fun target => ?_
  refine only_try (only_orError _ _) fun targetInfo => ?_
  split
  · trivial
  refine only_try (asked _ _) fun frameTree => only_try (only_frameOf _) fun frame => ?_
  refine only_try (asked _ _) fun executionContext => ?_
  refine only_try (only_orError _ _) fun executionContextId => ?_
  refine only_try (asked _ _) fun layout => only_try (only_orError _ _) fun viewport => ?_
  refine only_try (asked _ _) fun domSnapshot => ?_
  refine only_try (only_orError _ _) fun roots => only_try (asked _ _) fun tree => ?_
  refine only_try (asked _ _) fun finalFrameTree => ?_
  refine only_try (only_orError _ _) fun finalFrame => only_try (only_orError _ _) fun finalId => ?_
  split
  · trivial
  refine only_try (only_orError _ _) fun finalLoader => ?_
  split
  · trivial
  exact only_try (only_boundary _ trivial trivial) fun _ => trivial

theorem look_of_read (op : BrowserOp) (read : IsRead op) : IsLook op := by
  cases op <;> first | exact read | trivial

variable (build : Build) (config : CdpConfig) (deadlineAtMs : Int64)

theorem follows_publishPage (rounds : Nat) (page : Page) (observedAtMs : Int64) (taken : UInt64) :
    (publishPage build config deadlineAtMs rounds page observedAtMs (taken + 1)).run.Follows Step
      (fun result s => s.Returns result) (.numbered taken) := by
  unfold publishPage
  refine follows_try ?_
  unfold parsed
  split
  next result _ =>
    cases result with
    | error e => exact nofun
    | ok found =>
      -- the observation is published only if it is valid
      refine follows_try ?_
      cases (SemanticObservation.validate _ observedAtMs) with
      | error e => exact nofun
      | ok =>
        refine follows_try fun answer => ?_
        cases answer with
        | none => exact ⟨_, .unpublished, nofun⟩
        | some => exact ⟨_, .publish rfl, _, rfl, rfl⟩
  next => exact fun answer => ⟨_, .look trivial nofun, nofun⟩

theorem follows_store (rounds : Nat) (page : Page) :
    (store build config deadlineAtMs rounds page).run.Follows Step
      (fun result s => s.Returns result) .reading := by
  unfold store
  refine follows_try fun observedAtMs => ⟨_, .look trivial nofun, ?_⟩
  refine follows_try fun taken => ⟨_, .number, ?_⟩
  exact follows_publishPage build config deadlineAtMs rounds page observedAtMs taken

theorem follows_semanticObservation (rounds : Nat) :
    (semanticObservation build config deadlineAtMs rounds).run.Follows Step
      (fun result s => s.Returns result) .reading := by
  unfold semanticObservation
  refine follows_try (follows_mono (only_follows_at (fun _ _ look => .look look nofun)
    (only_mono (only_readPage build config deadlineAtMs) look_of_read)) ?_)
  rintro result _ rfl
  cases result with
  | error e => exact nofun
  | ok page => exact follows_store build config deadlineAtMs rounds page

end

theorem nonempty_answer (op : BrowserOp) : Nonempty (Browser.Ans op) := by
  cases op with
  | isCancelled => exact ⟨false⟩
  | nowMs => exact ⟨0⟩
  | verifyProcess => exact ⟨.ok ()⟩
  | command => exact ⟨none⟩
  | nextGeneration => exact ⟨0⟩
  | publish => exact ⟨none⟩
  | latest => exact ⟨none⟩
  | spin => exact ⟨()⟩

/-! ### The executor -/

structure ExecutorState where
  counter : UInt64
  latest : Option StoredObservation

namespace ExecutorState

/-- Taking a number, publishing and reading are steps of the executor. The browser, the clock and
the token may answer anything. -/
inductive Answer (s : ExecutorState) : Event Browser → ExecutorState → Prop where
  | isCancelled {ans : Bool} : Answer s ⟨.isCancelled, ans⟩ s
  | nowMs {ans : Int64} : Answer s ⟨.nowMs, ans⟩ s
  | verifyProcess {ans : Except CdpError Unit} : Answer s ⟨.verifyProcess, ans⟩ s
  | command {method : String} {parameters : Json} {deadlineAtMs : Int64}
      {ans : Option (Except CdpChannelError Json)} :
      Answer s ⟨.command method parameters deadlineAtMs, ans⟩ s
  | nextGeneration : Answer s ⟨.nextGeneration, s.counter⟩ { s with counter := s.counter + 1 }
  | publish {stored : StoredObservation} :
      Answer s ⟨.publish stored, some ()⟩ { s with latest := some stored }
  | unpublished {stored : StoredObservation} : Answer s ⟨.publish stored, none⟩ s
  | latest : Answer s ⟨.latest, some s.latest⟩ s
  | unread : Answer s ⟨.latest, none⟩ s

end ExecutorState

/-- A call that stops in the middle of a question has done nothing by it. -/
def executor (Id : Type) : Shared Browser Id where
  State := ExecutorState
  init := ⟨0, none⟩
  answer _ e s s' := s.Answer e s'
  abandon _ _ s s' := s' = s
  outside s s' := s' = s

structure ObservationCall where
  deadlineAtMs : Int64
  rounds : Nat

abbrev observers (build : Build) (config : CdpConfig) : Threads Browser ObservationCall :=
  programs fun call => (semanticObservation build config call.deadlineAtMs call.rounds).run

/-! ### What the log tells -/

variable {Id : Type}

abbrev BrowserLog (Id : Type) := List (Entry Browser Id ObservationCall)

/-- The call took a number. -/
abbrev took (id : Id) (taken : UInt64) : Entry Browser Id ObservationCall :=
  .did id ⟨.nextGeneration, taken⟩

/-- The call wrote the latest observation. -/
abbrev wrote (id : Id) (stored : StoredObservation) : Entry Browser Id ObservationCall :=
  .did id ⟨.publish stored, some ()⟩

/-- A call that took its number later has written already. -/
def Overtaken (log : BrowserLog Id) (id : Id) : Prop :=
  ∃ taken id' taken' stored, [took id taken, took id' taken', wrote id' stored].Sublist log

/-- No call writes when it has been overtaken. -/
def InOrder (log : BrowserLog Id) : Prop :=
  ∀ before id stored after, log = before ++ wrote id stored :: after → ¬ Overtaken before id

/-- The call has taken a number, and has neither written nor come to its end. -/
structure Pending (log : BrowserLog Id) (id : Id) : Prop where
  numbered : ∃ taken, took id taken ∈ log
  unwritten : ∀ stored, wrote id stored ∉ log
  unfinished : ¬ Config.Finished log id

/-- Whenever a call writes, no call is pending that took its number earlier. -/
def InTurn (log : BrowserLog Id) : Prop :=
  ∀ before id stored after, log = before ++ wrote id stored :: after →
    ∀ id' taken' taken, [took id' taken', took id taken].Sublist before → ¬ Pending before id'

/-- The counter has not come round. -/
def Unwrapped (log : BrowserLog Id) : Prop := ∀ id taken, took id taken ∈ log → taken + 1 ≠ 0

variable {build : Build} {config : CdpConfig} [DecidableEq Id]

/-- The call returned the observation. -/
def Returned (build : Build) (config : CdpConfig) (log : BrowserLog Id) (id : Id)
    (observation : SemanticObservation) : Prop :=
  ∃ before after call, ∃ c : Config (observers build config) (executor Id),
    log = before ++ .ended id :: after ∧ Config.Run before c ∧
      c.thread id = .live (call, .ret (.ok observation))

/-- The latest observation was returned, and bears the highest number of those that were. -/
def Newest (build : Build) (config : CdpConfig) (log : BrowserLog Id)
    (latest : Option StoredObservation) : Prop :=
  (∀ id observation, Returned build config log id observation →
    ∃ stored, latest = some stored ∧ observation.generation ≤ stored.observation.generation) ∧
  ∀ stored, latest = some stored → ∃ id, Returned build config log id stored.observation

/-- The number of the latest observation does not decrease. -/
def Rises (before after : Option StoredObservation) : Prop :=
  ∀ stored, before = some stored →
    ∃ stored', after = some stored' ∧
      stored.observation.generation ≤ stored'.observation.generation

/-! ### The invariant -/

/-- What the log tells of a call in its stage. -/
def Stage.Noted (log : BrowserLog Id) (id : Id) : Stage → Prop
  | .reading => ∀ stored, wrote id stored ∉ log
  | .numbered taken => took id taken ∈ log ∧ ∀ stored, wrote id stored ∉ log
  | .published stored => ∀ stored', wrote id stored' ∈ log ↔ stored' = stored

/-- Where a call is, and what the log tells of it. -/
def NotedLife (build : Build) (config : CdpConfig) (log : BrowserLog Id) (id : Id) :
    Life (observers build config).State → Prop
  | .unborn => ∀ stored, wrote id stored ∉ log
  | .live θ => ∃ s : Stage, θ.2.Follows Step (fun result s => s.Returns result) s ∧ s.Noted log id
  | .over => ∀ stored, wrote id stored ∈ log → Returned build config log id stored.observation

/-- What was numbered, what was written, and what is the latest of it. -/
structure Numbers (log : BrowserLog Id) (s : ExecutorState) : Prop where
  counted : ∀ id taken, took id taken ∈ log → taken < s.counter
  ascending : ∀ id id' taken taken', [took id taken, took id' taken'].Sublist log → taken < taken'
  numbered : ∀ id stored, wrote id stored ∈ log → ∃ taken,
    [took id taken, wrote id stored].Sublist log ∧ stored.observation.generation = taken + 1
  empty : s.latest = none → ∀ id stored, wrote id stored ∉ log
  latest : ∀ stored, s.latest = some stored → (∃ id, wrote id stored ∈ log) ∧
    ∀ id' stored', wrote id' stored' ∈ log →
      stored'.observation.generation ≤ stored.observation.generation

section

omit [DecidableEq Id]

variable {log : BrowserLog Id} {s : ExecutorState} {entry : Entry Browser Id ObservationCall}

theorem next_nonzero {taken : UInt64} (unwrapped : taken + 1 ≠ 0) :
    (taken + 1).toNat = taken.toNat + 1 := by
  have bound := taken.toNat_lt
  have room : taken.toNat + 1 ≠ 2 ^ 64 := by
    intro full
    refine unwrapped (UInt64.toNat_inj.mp ?_)
    change (taken.toNat + 1) % 2 ^ 64 = 0
    rw [full, Nat.mod_self]
  exact Nat.mod_eq_of_lt (Nat.lt_of_le_of_ne bound room)

theorem mem_concat {x : Entry Browser Id ObservationCall} :
    x ∈ log ++ [entry] ↔ x ∈ log ∨ x = entry := by
  rw [List.mem_append, List.mem_singleton]

/-- An entry that neither takes a number nor writes. -/
theorem numbers_quiet (numbers : Numbers log s) (unnumbered : ∀ id taken, entry ≠ took id taken)
    (unwritten : ∀ id stored, entry ≠ wrote id stored) : Numbers (log ++ [entry]) s where
  counted id taken member := by
    rcases mem_concat.mp member with member | same
    · exact numbers.counted id taken member
    · exact absurd same.symm (unnumbered id taken)
  ascending id id' taken taken' ordered := by
    rcases pair_concat.mp ordered with ordered | ⟨_, same⟩
    · exact numbers.ascending id id' taken taken' ordered
    · exact absurd same.symm (unnumbered id' taken')
  numbered id stored member := by
    rcases mem_concat.mp member with member | same
    · obtain ⟨taken, ordered, generation⟩ := numbers.numbered id stored member
      exact ⟨taken, ordered.trans (List.sublist_append_left _ _), generation⟩
    · exact absurd same.symm (unwritten id stored)
  empty none id stored member := by
    rcases mem_concat.mp member with member | same
    · exact numbers.empty none id stored member
    · exact unwritten id stored same.symm
  latest stored found := by
    obtain ⟨⟨id, member⟩, most⟩ := numbers.latest stored found
    refine ⟨⟨id, mem_concat.mpr (.inl member)⟩, fun id' stored' member' => ?_⟩
    rcases mem_concat.mp member' with member' | same
    · exact most id' stored' member'
    · exact absurd same.symm (unwritten id' stored')

/-- The number that is taken is above all earlier ones. -/
theorem numbers_took (numbers : Numbers log s) (id : Id) (unwrapped : s.counter + 1 ≠ 0) :
    Numbers (log ++ [took id s.counter]) { s with counter := s.counter + 1 } := by
  have above : s.counter < s.counter + 1 := by
    rw [UInt64.lt_iff_toNat_lt, next_nonzero unwrapped]
    exact Nat.lt_succ_self _
  constructor
  · intro id' taken member
    rcases mem_concat.mp member with member | same
    · exact UInt64.lt_trans (numbers.counted id' taken member) above
    · cases same
      exact above
  · intro id' id'' taken taken' ordered
    rcases pair_concat.mp ordered with ordered | ⟨member, same⟩
    · exact numbers.ascending id' id'' taken taken' ordered
    · cases same
      exact numbers.counted id' taken member
  · intro id' stored member
    rcases mem_concat.mp member with member | same
    · obtain ⟨taken, ordered, generation⟩ := numbers.numbered id' stored member
      exact ⟨taken, ordered.trans (List.sublist_append_left _ _), generation⟩
    · cases same
  · intro none id' stored member
    rcases mem_concat.mp member with member | same
    · exact numbers.empty none id' stored member
    · cases same
  · intro stored found
    obtain ⟨⟨id', member⟩, most⟩ := numbers.latest stored found
    refine ⟨⟨id', mem_concat.mpr (.inl member)⟩, fun id'' stored' member' => ?_⟩
    rcases mem_concat.mp member' with member' | same
    · exact most id'' stored' member'
    · cases same

/-- What a call that was not overtaken writes bears the highest number so far. -/
theorem wrote_most (numbers : Numbers log s) (unwrapped : Unwrapped log) {id : Id} {taken : UInt64}
    (member : took id taken ∈ log) (inTime : ¬ Overtaken log id) {id' : Id}
    {stored' : StoredObservation} (written : wrote id' stored' ∈ log) :
    stored'.observation.generation ≤ taken + 1 := by
  obtain ⟨taken', ordered, generation⟩ := numbers.numbered id' stored' written
  have member' : took id' taken' ∈ log := ordered.subset List.mem_cons_self
  rw [generation, UInt64.le_iff_toNat_le, next_nonzero (unwrapped id taken member),
    next_nonzero (unwrapped id' taken' member')]
  refine Nat.succ_le_succ ?_
  rcases sublist_compare member ordered with overtaken | same | earlier
  · exact absurd ⟨taken, id', taken', stored', overtaken⟩ inTime
  · cases same
    exact Nat.le_refl _
  · have less := numbers.ascending id' id taken' taken earlier
    exact Nat.le_of_lt (UInt64.lt_iff_toNat_lt.mp less)

theorem numbers_wrote (numbers : Numbers log s) (unwrapped : Unwrapped log) {id : Id}
    {taken : UInt64} {stored : StoredObservation} (member : took id taken ∈ log)
    (inTime : ¬ Overtaken log id) (generation : stored.observation.generation = taken + 1) :
    Numbers (log ++ [wrote id stored]) { s with latest := some stored } where
  counted id' taken' member' := by
    rcases mem_concat.mp member' with member' | same
    · exact numbers.counted id' taken' member'
    · cases same
  ascending id' id'' taken' taken'' ordered := by
    rcases pair_concat.mp ordered with ordered | ⟨_, same⟩
    · exact numbers.ascending id' id'' taken' taken'' ordered
    · cases same
  numbered id' stored' member' := by
    rcases mem_concat.mp member' with member' | same
    · obtain ⟨taken', ordered, generation'⟩ := numbers.numbered id' stored' member'
      exact ⟨taken', ordered.trans (List.sublist_append_left _ _), generation'⟩
    · cases same
      exact ⟨taken, pair_concat.mpr (.inr ⟨member, rfl⟩), generation⟩
  empty none := by cases none
  latest stored' found := by
    obtain rfl : stored = stored' := Option.some.inj found
    refine ⟨⟨id, mem_concat.mpr (.inr rfl)⟩, fun id' stored'' member' => ?_⟩
    rcases mem_concat.mp member' with member' | same
    · rw [generation]
      exact wrote_most numbers unwrapped member inTime member'
    · cases same
      exact UInt64.le_refl _

end

/-! ### The moves -/

section

variable {log : BrowserLog Id} {c : Config (observers build config) (executor Id)}

/-- The invariant of the runs. -/
structure Kept (log : BrowserLog Id) (c : Config (observers build config) (executor Id)) :
    Prop where
  numbers : Numbers log c.shared
  noted : ∀ id, NotedLife build config log id (c.thread id)

theorem returned_mono {log' : BrowserLog Id} {id : Id} {observation : SemanticObservation}
    (returned : Returned build config log id observation) (grown : log <+: log') :
    Returned build config log' id observation := by
  obtain ⟨before, after, call, c, rfl, run, live⟩ := returned
  obtain ⟨rest, rfl⟩ := grown
  exact ⟨before, after ++ rest, call, c, by rw [List.append_assoc, List.cons_append], run, live⟩

theorem returned_ended {id : Id} {call : ObservationCall} {observation : SemanticObservation}
    (run : Config.Run log c) (live : c.thread id = .live (call, .ret (.ok observation))) :
    Returned build config (log ++ [.ended id]) id observation := ⟨log, [], call, c, rfl, run, live⟩

/-- An entry that does not write for the call leaves what is noted of it. -/
theorem noted_other {entry : Entry Browser Id ObservationCall} {id : Id}
    {life : Life (observers build config).State} (noted : NotedLife build config log id life)
    (unwritten : ∀ stored, entry ≠ wrote id stored) :
    NotedLife build config (log ++ [entry]) id life := by
  have earlier : ∀ stored, wrote id stored ∈ log ++ [entry] → wrote id stored ∈ log := by
    intro stored member
    exact (mem_concat.mp member).resolve_right fun same => unwritten stored same.symm
  cases life with
  | unborn => exact fun stored member => noted stored (earlier stored member)
  | live θ =>
    obtain ⟨s, follows, noted⟩ := noted
    refine ⟨s, follows, ?_⟩
    cases s with
    | reading => exact fun stored member => noted stored (earlier stored member)
    | numbered taken =>
      refine ⟨mem_concat.mpr (.inl noted.1), ?_⟩
      exact fun stored member => noted.2 stored (earlier stored member)
    | published stored =>
      intro stored'
      rw [← noted stored']
      exact ⟨earlier stored', fun member => mem_concat.mpr (.inl member)⟩
  | _ =>
    intro stored member
    exact returned_mono (noted stored (earlier stored member)) (List.prefix_append _ _)

/-- The lives of all calls after an entry of one of them. -/
theorem noted_update {entry : Entry Browser Id ObservationCall} {id : Id}
    {life : Life (observers build config).State}
    (noted : ∀ id, NotedLife build config log id (c.thread id))
    (others : ∀ id' stored, id' ≠ id → entry ≠ wrote id' stored)
    (own : NotedLife build config (log ++ [entry]) id life) (id' : Id) :
    NotedLife build config (log ++ [entry]) id' (Function.update c.thread id life id') := by
  by_cases same : id' = id
  · subst same
    rw [Function.update_self]
    exact own
  · rw [Function.update_of_ne same]
    exact noted_other (noted id') fun stored => others id' stored same

theorem kept_init : Kept [] (Config.init : Config (observers build config) (executor Id)) where
  numbers := {
    counted := fun _ _ none => absurd none List.not_mem_nil
    ascending := fun _ _ _ _ none => nomatch none
    numbered := fun _ _ none => absurd none List.not_mem_nil
    empty := fun _ _ _ => List.not_mem_nil
    latest := nofun }
  noted _ _ := List.not_mem_nil

theorem kept_start {id : Id} {call : ObservationCall} (kept : Kept log c)
    (unborn : c.thread id = .unborn) :
    Kept (log ++ [.started id call]) (⟨c.shared, Function.update c.thread id
      (.live (call, (semanticObservation build config call.deadlineAtMs call.rounds).run))⟩ :
        Config (observers build config) (executor Id)) where
  numbers := numbers_quiet kept.numbers nofun nofun
  noted := by
    refine noted_update kept.noted nofun ?_
    refine ⟨.reading, follows_semanticObservation build config _ _, fun stored member => ?_⟩
    have none : NotedLife build config log id .unborn := unborn ▸ kept.noted id
    rcases mem_concat.mp member with member | same
    · exact none stored member
    · cases same

/-- A call that is alive when it dies has not published. -/
theorem kept_die {id : Id} {call : ObservationCall} {op : BrowserOp}
    {next : Browser.Ans op → Prog Browser (Except CdpError SemanticObservation)}
    (kept : Kept log c) (live : c.thread id = .live (call, .ask op next)) :
    Kept (log ++ [.died id op])
      (⟨c.shared, Function.update c.thread id .over⟩ :
        Config (observers build config) (executor Id)) where
  numbers := numbers_quiet kept.numbers nofun nofun
  noted := by
    refine noted_update kept.noted nofun fun stored member => ?_
    have noted := kept.noted id
    rw [live] at noted
    obtain ⟨s, follows, noted⟩ := noted
    have member : wrote id stored ∈ log := by
      rcases mem_concat.mp member with member | same
      · exact member
      · cases same
    cases s with
    | reading => exact absurd member (noted stored)
    | numbered taken => exact absurd member (noted.2 stored)
    | published stored' =>
      obtain ⟨ans⟩ := nonempty_answer op
      obtain ⟨s', stepped, _⟩ := follows ans
      cases stepped with
      | look _ unpublished => exact absurd rfl (unpublished stored')

theorem kept_finish {id : Id} {call : ObservationCall}
    {result : Except CdpError SemanticObservation} (run : Config.Run log c) (kept : Kept log c)
    (live : c.thread id = .live (call, .ret result)) :
    Kept (log ++ [.ended id])
      (⟨c.shared, Function.update c.thread id .over⟩ :
        Config (observers build config) (executor Id)) where
  numbers := numbers_quiet kept.numbers nofun nofun
  noted := by
    refine noted_update kept.noted nofun fun stored member => ?_
    have noted := kept.noted id
    rw [live] at noted
    obtain ⟨s, follows, noted⟩ := noted
    have member : wrote id stored ∈ log := by
      rcases mem_concat.mp member with member | same
      · exact member
      · cases same
    cases s with
    | reading => exact absurd member (noted stored)
    | numbered taken => exact absurd member (noted.2 stored)
    | published stored' =>
      obtain rfl := (noted stored).mp member
      cases result with
      | error e => exact absurd rfl (follows stored)
      | ok observation =>
        obtain ⟨stored', same, rfl⟩ := follows
        obtain rfl : stored = stored' := by injection same
        exact returned_ended run live

omit [DecidableEq Id] in
theorem unwrapped_earlier {log' : BrowserLog Id} (unwrapped : Unwrapped log') (grown : log <+: log') :
    Unwrapped log := fun id taken member => unwrapped id taken (grown.subset member)

/-- A question that is neither a number nor a publication. -/
theorem kept_look {id : Id} {call : ObservationCall} {s : Stage} {op : BrowserOp}
    {ans : Browser.Ans op} {p : Prog Browser (Except CdpError SemanticObservation)}
    (kept : Kept log c) (look : IsLook op) (noted : s.Noted log id)
    (follows : p.Follows Step (fun result s => s.Returns result) s) :
    Kept (log ++ [.did id ⟨op, ans⟩])
      (⟨c.shared, Function.update c.thread id (.live (call, p))⟩ :
        Config (observers build config) (executor Id)) := by
  have unnumbered : ∀ id' taken, Entry.did id ⟨op, ans⟩ ≠ took id' taken := by
    intro id' taken same
    cases same
    exact look
  have unwritten : ∀ id' stored, Entry.did id ⟨op, ans⟩ ≠ wrote id' stored := by
    intro id' stored same
    cases same
    exact look
  refine ⟨numbers_quiet kept.numbers unnumbered unwritten, ?_⟩
  refine noted_update kept.noted (fun id' stored _ => unwritten id' stored) ?_
  have now : NotedLife build config log id (.live (call, p)) := ⟨s, follows, noted⟩
  exact noted_other now (unwritten id)

theorem kept_answer {id : Id} {call : ObservationCall} {op : BrowserOp} {ans : Browser.Ans op}
    {next : Browser.Ans op → Prog Browser (Except CdpError SemanticObservation)}
    {s' : ExecutorState} (kept : Kept log c) (live : c.thread id = .live (call, .ask op next))
    (answered : ExecutorState.Answer c.shared ⟨op, ans⟩ s')
    (ordered : InOrder (log ++ [.did id ⟨op, ans⟩]))
    (unwrapped : Unwrapped (log ++ [.did id ⟨op, ans⟩])) :
    Kept (log ++ [.did id ⟨op, ans⟩])
      (⟨s', Function.update c.thread id (.live (call, next ans))⟩ :
        Config (observers build config) (executor Id)) := by
  have noted := kept.noted id
  rw [live] at noted
  obtain ⟨s, follows, noted⟩ := noted
  obtain ⟨s'', stepped, rest⟩ := follows ans
  cases stepped with
  | look look _ =>
    have still : s' = c.shared := by
      cases answered with
      | nextGeneration => exact look.elim
      | publish => exact look.elim
      | _ => rfl
    subst still
    exact kept_look kept look noted rest
  | number =>
    cases answered with
    | nextGeneration =>
      have room := unwrapped id _ (mem_concat.mpr (.inr rfl))
      refine ⟨numbers_took kept.numbers id room, noted_update kept.noted nofun ?_⟩
      refine ⟨_, rest, mem_concat.mpr (.inr rfl), fun stored member => ?_⟩
      rcases mem_concat.mp member with member | same
      · exact noted stored member
      · cases same
  | @publish taken stored generation =>
    cases answered with
    | publish =>
      -- the call was not overtaken, so nothing that was written is newer
      have inTime := ordered log id stored [] rfl
      have numbers := numbers_wrote kept.numbers
        (unwrapped_earlier unwrapped (List.prefix_append _ _)) noted.1 inTime generation
      refine ⟨numbers, noted_update kept.noted ?_ ?_⟩
      · intro id' stored' other same
        cases same
        exact other rfl
      · refine ⟨_, rest, fun stored' => ⟨fun member => ?_, fun same => ?_⟩⟩
        · rcases mem_concat.mp member with member | same
          · exact absurd member (noted.2 stored')
          · injection same with _ same
            injection same with same _
            injection same
        · rw [same]
          exact mem_concat.mpr (.inr rfl)
  | unpublished =>
    cases answered with
    | unpublished =>
      refine ⟨numbers_quiet kept.numbers nofun nofun, noted_update kept.noted nofun ?_⟩
      have now : NotedLife build config log id (.live (call, next none)) := ⟨_, rest, noted⟩
      exact noted_other now nofun

theorem kept_move {entry : Entry Browser Id ObservationCall}
    {c' : Config (observers build config) (executor Id)} (run : Config.Run log c)
    (kept : Kept log c) (move : Config.Move c entry c') (ordered : InOrder (log ++ [entry]))
    (unwrapped : Unwrapped (log ++ [entry])) : Kept (log ++ [entry]) c' := by
  cases move with
  | start unborn started =>
    cases started
    exact kept_start kept unborn
  | @answer id θ θ' e s' live stepped answered =>
    obtain ⟨call, p⟩ := θ
    obtain ⟨op, ans⟩ := e
    obtain ⟨next, rfl, rfl⟩ := stepped
    exact kept_answer kept live answered ordered unwrapped
  | @die id θ op s' live asked abandoned =>
    obtain ⟨call, p⟩ := θ
    obtain ⟨next, rfl⟩ := asked
    cases abandoned
    exact kept_die kept live
  | @finish id θ live finished =>
    obtain ⟨call, p⟩ := θ
    obtain ⟨result, rfl⟩ := finished
    exact kept_finish run kept live
  | outside dead struck =>
    cases struck
    exact ⟨numbers_quiet kept.numbers nofun nofun, fun id => noted_other (kept.noted id) nofun⟩

omit [DecidableEq Id] in
theorem inOrder_concat {entry : Entry Browser Id ObservationCall} (ordered : InOrder log)
    (inTime : ∀ id stored, entry = wrote id stored → ¬ Overtaken log id) :
    InOrder (log ++ [entry]) := by
  intro before id stored after whole
  rcases List.eq_nil_or_concat after with rfl | ⟨after, last, rfl⟩
  · obtain ⟨rfl, same⟩ := List.append_inj' whole rfl
    exact inTime id stored (List.singleton_inj.mp same)
  · rw [List.concat_eq_append, ← List.cons_append, ← List.append_assoc] at whole
    obtain ⟨rfl, _⟩ := List.append_inj' whole rfl
    exact ordered before id stored after rfl

omit [DecidableEq Id] in
theorem inTurn_earlier {log' : BrowserLog Id} (inTurn : InTurn log') (grown : log <+: log') :
    InTurn log := by
  obtain ⟨rest, rfl⟩ := grown
  rintro before id stored after rfl
  refine inTurn before id stored (after ++ rest) ?_
  rw [List.append_assoc, List.cons_append]

/-- A call that writes is alive, and has not written yet. -/
theorem writes_once {id : Id} {stored : StoredObservation}
    {c' : Config (observers build config) (executor Id)} (kept : Kept log c)
    (move : Config.Move c (wrote id stored) c') :
    (∀ stored', wrote id stored' ∉ log) ∧ ∃ θ, c.thread id = .live θ := by
  cases move with
  | @answer _ θ _ _ _ live stepped =>
    refine ⟨?_, θ, live⟩
    obtain ⟨call, p⟩ := θ
    obtain ⟨next, rfl, rfl⟩ := stepped
    have noted := kept.noted id
    rw [live] at noted
    obtain ⟨s, follows, noted⟩ := noted
    obtain ⟨_, stepped, _⟩ := follows (some ())
    cases stepped with
    | look look => exact look.elim
    | publish => exact noted.2

/-- No call is overtaken where every call writes in its turn: the call that overtook would have
written while the other was pending. -/
theorem inOrder_move {entry : Entry Browser Id ObservationCall}
    {c' : Config (observers build config) (executor Id)} (run : Config.Run log c)
    (kept : Kept log c) (move : Config.Move c entry c') (ordered : InOrder log)
    (inTurn : InTurn log) : InOrder (log ++ [entry]) := by
  apply inOrder_concat ordered
  rintro id stored rfl ⟨taken, id', taken', stored', overtaken⟩
  obtain ⟨unwritten, θ, live⟩ := writes_once kept move
  obtain ⟨before, after, rfl, numbered⟩ := triple_split overtaken
  have grown : before ⊆ before ++ wrote id' stored' :: after :=
    (List.prefix_append before _).subset
  refine inTurn before id' stored' after rfl id taken taken' numbered ⟨?_, ?_, ?_⟩
  · exact ⟨taken, numbered.subset List.mem_cons_self⟩
  · exact fun stored'' member => unwritten stored'' (grown member)
  · intro finished
    have ends := Config.over_of_finished run
      (finished.imp (grown ·) fun ⟨op, died⟩ => ⟨op, grown died⟩)
    rw [live] at ends
    contradiction

theorem kept_run (run : Config.Run log c) (inTurn : InTurn log) (unwrapped : Unwrapped log) :
    InOrder log ∧ Kept log c := by
  have kept := Reaches.invariant (fun log (c : Config (observers build config) (executor Id)) =>
    InTurn log → Unwrapped log → InOrder log ∧ Kept log c) (fun _ _ => ⟨?_, kept_init⟩) ?_ run
  · exact kept inTurn unwrapped
  · intro before id stored after none
    simp at none
  · intro log c entry c' run kept move inTurn unwrapped
    have grown : log <+: log ++ [entry] := List.prefix_append _ _
    have inTurn := inTurn_earlier inTurn grown
    obtain ⟨ordered, kept⟩ := kept inTurn (unwrapped_earlier unwrapped grown)
    have ordered := inOrder_move run kept move ordered inTurn
    exact ⟨ordered, kept_move run kept move ordered unwrapped⟩

/-- What a call returned it has written. -/
theorem returned_wrote {id : Id} {observation : SemanticObservation} (inTurn : InTurn log)
    (unwrapped : Unwrapped log) (returned : Returned build config log id observation) :
    ∃ stored, wrote id stored ∈ log ∧ stored.observation = observation := by
  obtain ⟨before, after, call, c', rfl, run, live⟩ := returned
  have grown : before <+: before ++ .ended id :: after := List.prefix_append _ _
  have kept := (kept_run run (inTurn_earlier inTurn grown) (unwrapped_earlier unwrapped grown)).2
  have noted := kept.noted id
  rw [live] at noted
  obtain ⟨s, ⟨stored, rfl, same⟩, noted⟩ := noted
  exact ⟨stored, grown.subset ((noted stored).mpr rfl), same⟩

/-- What is the latest only gives way to what bears a higher number. -/
theorem rises_move {entry : Entry Browser Id ObservationCall}
    {c' : Config (observers build config) (executor Id)} (kept : Kept log c)
    (kept' : Kept (log ++ [entry]) c') : Rises (ExecutorState.latest c.shared)
      (ExecutorState.latest c'.shared) := by
  intro stored found
  obtain ⟨⟨id, member⟩, _⟩ := kept.numbers.latest stored found
  have member := (mem_concat.mpr (.inl member) : wrote id stored ∈ log ++ [entry])
  cases found' : ExecutorState.latest c'.shared with
  | none => exact absurd member (kept'.numbers.empty found' id stored)
  | some stored' => exact ⟨stored', rfl, (kept'.numbers.latest stored' found').2 id stored member⟩

/-- While every call writes in its turn, and the counter has not come round: between the calls the
latest observation is the one with the highest number that was returned, and its number never
decreases. -/
theorem latest_newest (build : Build) (config : CdpConfig) {log : BrowserLog Id}
    {c : Config (observers build config) (executor Id)} (run : Config.Run log c)
    (inTurn : InTurn log) (unwrapped : Unwrapped log) :
    ((∀ id θ, c.thread id ≠ .live θ) →
      Newest build config log (ExecutorState.latest c.shared)) ∧
    ∀ entry c', Config.Move c entry c' → InTurn (log ++ [entry]) → Unwrapped (log ++ [entry]) →
      Rises (ExecutorState.latest c.shared) (ExecutorState.latest c'.shared) := by
  obtain ⟨ordered, kept⟩ := kept_run run inTurn unwrapped
  constructor
  · intro idle
    constructor
    · intro id observation returned
      obtain ⟨stored, member, rfl⟩ := returned_wrote inTurn unwrapped returned
      cases found : ExecutorState.latest c.shared with
      | none => exact absurd member (kept.numbers.empty found id stored)
      | some stored' => exact ⟨stored', rfl, (kept.numbers.latest stored' found).2 id stored member⟩
    · intro stored found
      obtain ⟨⟨id, member⟩, _⟩ := kept.numbers.latest stored found
      have noted := kept.noted id
      cases life : c.thread id with
      | unborn =>
        rw [life] at noted
        exact absurd member (noted stored)
      | live θ => exact absurd life (idle id θ)
      | _ =>
        rw [life] at noted
        exact ⟨id, noted stored member⟩
  · intro entry c' move inTurn' unwrapped'
    exact rises_move kept (kept_run (run.snoc move) inTurn' unwrapped').2

end

/-! ### A blank page -/

def blankConfig : CdpConfig := ⟨"page", 7, "process-1"⟩

def blankBuild : Build := ⟨false, Sha256.sha256⟩

def blankReply : String → Json
  | "Target.getTargetInfo" =>
    .obj [("targetInfo", .obj [("targetId", .str "page"), ("type", .str "page")])]
  | "Page.getFrameTree" =>
    .obj [("frameTree", .obj [("frame", .obj [("id", .str "frame"), ("loaderId", .str "loader")])])]
  | "Page.createIsolatedWorld" => .obj [("executionContextId", Json.ofUInt64 3)]
  | "Page.getLayoutMetrics" => .obj [("cssVisualViewport", .obj [])]
  | "DOMSnapshot.captureSnapshot" =>
    .obj [("documents", .arr [.obj [("frameId", .str "frame"),
      ("nodes", .obj [("backendNodeId", .arr [])])]])]
  | "Accessibility.getFullAXTree" => .obj [("nodes", .arr [])]
  | _ => .null

def blankAnswer : (op : BrowserOp) → Unit → Browser.Ans op × Unit
  | .isCancelled, s => (false, s)
  | .nowMs, s => (1000, s)
  | .verifyProcess, s => (.ok (), s)
  | .command method _ _, s => (some (.ok (blankReply method)), s)
  | .nextGeneration, s => (0, s)
  | .publish _, s => (some (), s)
  | .latest, s => (none, s)
  | .spin, s => ((), s)

def blankPage : Page where
  documentId := documentIdOf blankBuild blankConfig "frame" "loader"
  executionContextId := 3
  displayGeometryHash := hashSerializable blankBuild (.obj [])
  roots := []
  tree := .obj [("nodes", .arr [])]

def blankObservation (taken : UInt64) : SemanticObservation :=
  observationOf blankBuild blankConfig 5000 blankPage (taken + 1) 1000 []

def blankStored (taken : UInt64) : StoredObservation := ⟨blankObservation taken, 3, []⟩

def blankCall : ObservationCall := ⟨5000, 0⟩

/-- The program of a call that has taken a number. -/
def blankNumbered (taken : UInt64) : Prog Browser (Except CdpError SemanticObservation) :=
  (publishPage blankBuild blankConfig 5000 0 blankPage 1000 (taken + 1)).run

/-- The program of a call that has published. -/
def blankPublished (taken : UInt64) : Prog Browser (Except CdpError SemanticObservation) :=
  .ret (.ok (blankObservation taken))

theorem blank_read : (play blankAnswer 60 (readPage blankBuild blankConfig 5000).run ()).2.1 =
    .ret (.ok blankPage) := rfl

theorem blank_steps : ∃ trace, (∀ e ∈ trace, IsRead e.op) ∧
    Steps (semanticObservation blankBuild blankConfig 5000 0).run trace
      (.ask .nextGeneration blankNumbered) := by
  have reads := steps_play blankAnswer 60 (readPage blankBuild blankConfig 5000).run ()
  rw [blank_read] at reads
  have only := only_steps (only_readPage blankBuild blankConfig 5000) reads
  have clock : ∀ e ∈ [(⟨.nowMs, (1000 : Int64)⟩ : Event Browser)], IsRead e.op :=
    List.forall_mem_singleton.mpr trivial
  have stored : Steps (store blankBuild blankConfig 5000 0 blankPage).run
      [(⟨.nowMs, (1000 : Int64)⟩ : Event Browser)] (.ask .nextGeneration blankNumbered) :=
    @Steps.step Browser _ .nowMs _ _ _ (1000 : Int64) (.refl _)
  refine ⟨_, List.forall_mem_append.mpr ⟨only, clock⟩, ?_⟩
  unfold semanticObservation
  rw [run_bind]
  refine steps_trans (steps_bind_left _ reads) ?_
  rw [ret_bind]
  exact stored

/-- A valid observation is published. -/
theorem blank_publishes {taken : UInt64} (valid : (blankObservation taken).validate 1000 = .ok ()) :
    blankNumbered taken = .ask (.publish (blankStored taken)) fun ans =>
      (orError .protocol ans >>= fun _ => pure (blankObservation taken) : BrowserM _).run := by
  change (orFail (((blankObservation taken).validate 1000).mapError fun _ => CdpError.protocol) >>=
    fun _ => query (.publish (blankStored taken)) >>= fun ans =>
      orError .protocol ans >>= fun _ => pure (blankObservation taken) : BrowserM _).run = _
  rw [valid]
  rfl

section

variable {log : BrowserLog Nat} {c : Config (observers blankBuild blankConfig) (executor Nat)}
  {taken : UInt64}

/-- A call up to where it takes its number. -/
theorem blank_started (run : Config.Run log c) (id : Nat) (unborn : c.thread id = .unborn) :
    ∃ reads : BrowserLog Nat,
      (∀ e ∈ reads, ∃ event : Event Browser, IsRead event.op ∧ e = .did id event) ∧
      Config.Run (log ++ .started id blankCall :: reads)
        (⟨c.shared, Function.update c.thread id
          (.live (blankCall, .ask .nextGeneration blankNumbered))⟩ :
            Config (observers blankBuild blankConfig) (executor Nat)) := by
  obtain ⟨trace, reads, steps⟩ := blank_steps
  have started : Config.Move c (.started id blankCall) (⟨c.shared, Function.update c.thread id
      (.live (blankCall, (semanticObservation blankBuild blankConfig 5000 0).run))⟩ :
        Config (observers blankBuild blankConfig) (executor Nat)) := .start unborn rfl
  have still : ∀ e ∈ trace, (executor Nat).Served id c.shared e c.shared := by
    intro e member
    have read := reads e member
    obtain ⟨op, ans⟩ := e
    cases op with
    | isCancelled => exact .isCancelled
    | nowMs => exact .nowMs
    | verifyProcess => exact .verifyProcess
    | command => exact .command
    | _ => exact read.elim
  have rest := @steps_reaches _ _ _ Nat _ (executor Nat) _ id blankCall _ _ _ steps
    ⟨c.shared, Function.update c.thread id (.live (blankCall, _))⟩ c.shared
    (Function.update_self ..) (.still still)
  dsimp only at rest
  rw [Function.update_idem] at rest
  refine ⟨trace.map (.did id), ?_, run.trans ((Reaches.single started).trans rest)⟩
  intro e member
  obtain ⟨event, asked, rfl⟩ := List.mem_map.mp member
  exact ⟨event, reads event asked, rfl⟩

theorem blank_took (run : Config.Run log c) (id : Nat)
    (live : c.thread id = .live (blankCall, .ask .nextGeneration blankNumbered)) :
    Config.Run (log ++ [took id (ExecutorState.counter c.shared)])
      (⟨{ c.shared with counter := ExecutorState.counter c.shared + 1 }, Function.update c.thread id
        (.live (blankCall, blankNumbered (ExecutorState.counter c.shared)))⟩ :
          Config (observers blankBuild blankConfig) (executor Nat)) :=
  run.snoc (.answer live ⟨blankNumbered, rfl, rfl⟩ .nextGeneration)

theorem blank_writes (id : Nat) (valid : (blankObservation taken).validate 1000 = .ok ())
    (live : c.thread id = .live (blankCall, blankNumbered taken)) :
    Config.Move c (wrote id (blankStored taken))
      (⟨{ c.shared with latest := some (blankStored taken) }, Function.update c.thread id
        (.live (blankCall, blankPublished taken))⟩ :
          Config (observers blankBuild blankConfig) (executor Nat)) := by
  rw [blank_publishes valid] at live
  exact .answer live ⟨_, rfl, rfl⟩ .publish

theorem blank_ended (run : Config.Run log c) (id : Nat)
    (live : c.thread id = .live (blankCall, blankPublished taken)) :
    Config.Run (log ++ [.ended id]) (⟨c.shared, Function.update c.thread id .over⟩ :
      Config (observers blankBuild blankConfig) (executor Nat)) :=
  run.snoc (.finish live ⟨_, rfl⟩)

end

theorem blank_first : (blankObservation 0).validate 1000 = .ok () := by decide +kernel

theorem blank_second : (blankObservation 1).validate 1000 = .ok () := by decide +kernel

/-! ### Two calls -/

/-- Where nothing has been numbered or written. -/
def Untold (log : BrowserLog Nat) : Prop :=
  (∀ id taken, took id taken ∉ log) ∧ ∀ id stored, wrote id stored ∉ log

theorem untold_started {log reads : BrowserLog Nat} (untold : Untold log) (id : Nat)
    (asked : ∀ e ∈ reads, ∃ event : Event Browser, IsRead event.op ∧ e = .did id event) :
    Untold (log ++ .started id blankCall :: reads) := by
  constructor
  · intro id' taken member
    rcases List.mem_append.mp member with member | member
    · exact untold.1 id' taken member
    · rcases List.mem_cons.mp member with same | member
      · cases same
      · obtain ⟨_, read, same⟩ := asked _ member
        cases same
        exact read
  · intro id' stored member
    rcases List.mem_append.mp member with member | member
    · exact untold.2 id' stored member
    · rcases List.mem_cons.mp member with same | member
      · cases same
      · obtain ⟨_, read, same⟩ := asked _ member
        cases same
        exact read

theorem inTurn_unwritten {log : BrowserLog Nat} (unwritten : ∀ id stored, wrote id stored ∉ log) :
    InTurn log := by
  rintro before id stored after rfl
  exact absurd (List.mem_append_right _ List.mem_cons_self) (unwritten id stored)

theorem inTurn_concat {log : BrowserLog Nat} {entry : Entry Browser Nat ObservationCall}
    (inTurn : InTurn log) (first : ∀ id stored, entry = wrote id stored →
      ∀ id' taken' taken, [took id' taken', took id taken].Sublist log → ¬ Pending log id') :
    InTurn (log ++ [entry]) := by
  intro before id stored after whole
  rcases List.eq_nil_or_concat after with rfl | ⟨after, last, rfl⟩
  · obtain ⟨rfl, same⟩ := List.append_inj' whole rfl
    exact first id stored (List.singleton_inj.mp same)
  · rw [List.concat_eq_append, ← List.cons_append, ← List.append_assoc] at whole
    obtain ⟨rfl, _⟩ := List.append_inj' whole rfl
    exact inTurn before id stored after rfl

theorem inTurn_quiet {log : BrowserLog Nat} {entry : Entry Browser Nat ObservationCall}
    (inTurn : InTurn log) (unwritten : ∀ id stored, entry ≠ wrote id stored) :
    InTurn (log ++ [entry]) :=
  inTurn_concat inTurn fun id stored same => absurd same (unwritten id stored)

/-- After two calls took their numbers, these are the numbers in order. -/
theorem pair_numbered {log : BrowserLog Nat} (untold : Untold log) {id id' : Nat}
    {taken taken' : UInt64}
    (ordered : [took id' taken', took id taken].Sublist (log ++ [took 0 0] ++ [took 1 1])) :
    id' = 0 ∧ id = 1 := by
  have only {id : Nat} {taken : UInt64} (member : took id taken ∈ log ++ [took 0 0]) : id = 0 := by
    rcases mem_concat.mp member with member | same
    · exact absurd member (untold.1 id taken)
    · injection same
  rcases pair_concat.mp ordered with ordered | ⟨member, same⟩
  · rcases pair_concat.mp ordered with ordered | ⟨member, _⟩
    · exact absurd (ordered.subset List.mem_cons_self) (untold.1 id' taken')
    · exact absurd member (untold.1 id' taken')
  · injection same with same
    exact ⟨only member, same⟩

theorem pair_inTurn {log : BrowserLog Nat} (untold : Untold log) :
    InTurn (log ++ [took 0 0] ++ [took 1 1] ++ [wrote 0 (blankStored 0)] ++
      [wrote 1 (blankStored 1)]) := by
  have quiet : InTurn (log ++ [took 0 0] ++ [took 1 1]) := by
    refine inTurn_quiet (inTurn_quiet (inTurn_unwritten untold.2) ?_) ?_ <;> simp [took, wrote]
  have published : InTurn (log ++ [took 0 0] ++ [took 1 1] ++ [wrote 0 (blankStored 0)]) := by
    apply inTurn_concat quiet
    intro id stored same id' taken' taken ordered
    -- the first call has the first number
    obtain ⟨rfl, rfl⟩ := pair_numbered untold ordered
    cases same
  apply inTurn_concat published
  rintro id stored _ id' taken' taken ordered pending
  rcases pair_concat.mp ordered with ordered | ⟨_, same⟩
  · -- before the second call writes, the first one has
    obtain ⟨rfl, rfl⟩ := pair_numbered untold ordered
    exact pending.unwritten _ (mem_concat.mpr (.inr rfl))
  · cases same

theorem pair_unwrapped {log : BrowserLog Nat} (untold : Untold log) :
    Unwrapped (log ++ [took 0 0] ++ [took 1 1] ++ [wrote 0 (blankStored 0)] ++
      [wrote 1 (blankStored 1)] ++ [.ended 0] ++ [.ended 1]) := by
  intro id taken member
  simp only [mem_concat] at member
  rcases member with (((((member | same) | same) | same) | same) | same) | same
  · exact absurd member (untold.1 id taken)
  all_goals cases same
  · decide
  · decide

/-- Two calls side by side, which take their numbers one after the other and publish in the same
order: the number rises, and the second observation is the latest. -/
theorem latest_newest_pair : ∃ (log : BrowserLog Nat)
    (c c' : Config (observers blankBuild blankConfig) (executor Nat)), Config.Run log c ∧
      Config.Move c (wrote 1 (blankStored 1)) c' ∧
      Rises (ExecutorState.latest c.shared) (ExecutorState.latest c'.shared) ∧
      ∃ c'' : Config (observers blankBuild blankConfig) (executor Nat),
        Config.Run (log ++ [wrote 1 (blankStored 1)] ++ [.ended 0] ++ [.ended 1]) c'' ∧
        ExecutorState.latest c''.shared = some (blankStored 1) ∧
        Newest blankBuild blankConfig (log ++ [wrote 1 (blankStored 1)] ++ [.ended 0] ++ [.ended 1])
          (ExecutorState.latest c''.shared) := by
  obtain ⟨first, asked, started⟩ := @blank_started [] .init .nil 0 rfl
  obtain ⟨second, asked', started'⟩ := blank_started started 1 rfl
  have untold : Untold ([] ++ .started 0 blankCall :: first ++ .started 1 blankCall :: second) :=
    untold_started (untold_started ⟨fun _ _ => List.not_mem_nil, fun _ _ => List.not_mem_nil⟩ 0
      asked) 1 asked'
  generalize [] ++ .started 0 blankCall :: first ++ .started 1 blankCall :: second = log
    at untold started'
  have numbered := blank_took (blank_took started' 0 rfl) 1 rfl
  have published := numbered.snoc (blank_writes 0 blank_first rfl)
  have next := published.snoc (blank_writes 1 blank_second rfl)
  have ended := blank_ended (blank_ended next 0 rfl) 1 rfl
  have inTurn := pair_inTurn untold
  have unwrapped := pair_unwrapped untold
  have earlier := unwrapped_earlier unwrapped
    ((List.prefix_append _ _).trans (List.prefix_append _ _))
  refine ⟨_, _, _, published, blank_writes 1 blank_second rfl, ?_, _, ended, rfl, ?_⟩
  · exact (latest_newest blankBuild blankConfig published
      (inTurn_earlier inTurn (List.prefix_append _ _))
      (unwrapped_earlier earlier (List.prefix_append _ _))).2 _ _
        (blank_writes 1 blank_second rfl) inTurn earlier
  · refine (latest_newest blankBuild blankConfig ended ?_ unwrapped).1 ?_
    · refine inTurn_quiet (inTurn_quiet inTurn ?_) ?_ <;> simp [wrote]
    · intro id θ
      rcases id with _ | _ | id <;> nofun

/-- Two calls take their numbers in one order and publish in the other. The second call returned
the observation with the higher number, and the first one's is the latest. -/
theorem latest_overtaken : ¬ ∀ (log : BrowserLog Nat)
    (c : Config (observers blankBuild blankConfig) (executor Nat)), Config.Run log c →
      (∀ id θ, c.thread id ≠ .live θ) →
        Newest blankBuild blankConfig log (ExecutorState.latest c.shared) := by
  intro newest
  obtain ⟨first, _, started⟩ := @blank_started [] .init .nil 0 rfl
  obtain ⟨second, _, started'⟩ := blank_started started 1 rfl
  have numbered := blank_took (blank_took started' 0 rfl) 1 rfl
  have published := numbered.snoc (blank_writes 1 blank_second rfl)
  have ended := blank_ended published 1 rfl
  have late := blank_ended (ended.snoc (blank_writes 0 blank_first rfl)) 0 rfl
  obtain ⟨above, _⟩ := newest _ _ late (by
    intro id θ
    rcases id with _ | _ | id <;> nofun)
  have returned : Returned blankBuild blankConfig _ 1 (blankObservation 1) :=
    returned_ended published rfl
  obtain ⟨stored, same, less⟩ := above 1 _ (returned_mono returned
    ((List.prefix_append _ _).trans (List.prefix_append _ _)))
  obtain rfl := Option.some.inj same
  exact absurd less (by decide)

end Praefectus.Cdp.CdpExecutor
