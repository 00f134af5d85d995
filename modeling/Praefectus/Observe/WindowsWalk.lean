import Praefectus.Observe.Windows
import Praefectus.Program.Emissions
import Praefectus.Program.Play
import Praefectus.Text.Sha256

/-!
# The budget of a whole walk

Every path that is stored with a snapshot was charged before, so that what a successful
snapshot stores fits the budget.
-/

namespace Praefectus.Uia

open Prog RuntimePathBudget

variable {Element : Type}

/-! ### What is stored in a run -/

/-- The mappings that are stored. -/
def store : Emitter (UiaClient Element) Mapping where
  serves _ := True
  emit
    | ⟨.persist _ mapping, .ok _⟩ => [mapping]
    | _ => []

section

variable {α β ε : Type}

/-- A run that succeeds stores nothing, and ends with a value of which `R` holds. -/
def Keeps (R : α → Prop) (x : UiaM Element α) : Prop :=
  Yields store (fun stored a => stored = [] ∧ R a) x

variable {R : α → Prop} {S : β → Prop} {x : UiaM Element α} {f : α → UiaM Element β}

theorem keeps_pure {value : α} (holds : R value) : Keeps R (pure value : UiaM Element α) :=
  yields_pure ⟨rfl, holds⟩

theorem keeps_throw {e : ProtocolError} : Keeps R (throw e : UiaM Element α) := yields_throw

theorem keeps_after (before : Keeps R x) (after : ∀ a, R a → Keeps S (f a)) :
    Keeps S (x >>= f) := by
  refine yields_bind (yields_mono before ?_)
  rintro _ a ⟨rfl, holds⟩
  exact after a holds

/-- Of a program nothing is used. -/
theorem keeps_skip (quiet : Keeps (fun _ => True) x) (rest : ∀ a, Keeps S (f a)) :
    Keeps S (x >>= f) :=
  keeps_after quiet fun a _ => rest a

theorem keeps_ite {c : Prop} [Decidable c] {y : UiaM Element α} (positive : c → Keeps R x)
    (negative : ¬ c → Keeps R y) : Keeps R (if c then x else y) := by
  by_cases h : c
  · simpa only [h, if_true] using positive h
  · simpa only [h, if_false] using negative h

/-- Whatever is asked but to store a mapping. -/
theorem keeps_ask {op : UiaOp Element} (silent : ∀ ans, store.emit ⟨op, ans⟩ = []) :
    Keeps (fun _ => True) (ask op) :=
  yields_lift fun ans _ => ⟨silent ans, trivial⟩

variable {deadlineAtMs : Int64}

theorem keeps_boundary :
    Keeps (fun _ => True) (checkObservationBoundary deadlineAtMs : UiaM Element Unit) := by
  refine keeps_skip (keeps_ask fun _ => rfl) fun cancelled => ?_
  refine keeps_ite (fun _ => keeps_throw) fun _ => ?_
  refine keeps_skip (keeps_ask fun _ => rfl) fun now => ?_
  exact keeps_ite (fun _ => keeps_throw) fun _ => keeps_pure trivial

theorem keeps_answered {fallback : ProtocolError} {answer : Except ε α} :
    Keeps (fun _ => True) (answered deadlineAtMs fallback answer : UiaM Element α) := by
  cases answer with
  | ok value => exact keeps_pure trivial
  | error => exact keeps_skip keeps_boundary fun _ => keeps_throw

theorem keeps_mapErr {error : ProtocolError} {result : Except ε α} :
    Keeps (fun _ => True) (mapErr error result : UiaM Element α) := by
  cases result with
  | ok value => exact keeps_pure trivial
  | error => exact keeps_throw

theorem keeps_ofExcept {result : Except ProtocolError α} :
    Keeps (fun _ => True) (ofExcept result : UiaM Element α) := by
  cases result with
  | ok value => exact keeps_pure trivial
  | error => exact keeps_throw

theorem keeps_charged {result : Except ProtocolError Unit × RuntimePathBudget} :
    Keeps (fun budget => result = (.ok (), budget)) (charged result : UiaM Element RuntimePathBudget) := by
  obtain ⟨charge, budget⟩ := result
  cases charge with
  | ok => exact keeps_pure rfl
  | error => exact keeps_throw

end

/-! ### The entries of a walk -/

def integersIn (entries : List MappingEntry) : Nat :=
  (entries.map fun entry => integersOf entry.runtimePath).sum

def bytesIn (entries : List MappingEntry) : Nat :=
  (entries.map fun entry => encodedBytes (pathJson entry.runtimePath)).sum

/-- The entries were all charged, and the budget holds. -/
structure Within (walk : Walk Element) : Prop where
  integers : integersIn walk.entries ≤ walk.budget.integers
  bytes : bytesIn walk.entries ≤ walk.budget.bytes
  fewIntegers : walk.budget.integers ≤ maxRuntimePathIntegers
  fewBytes : walk.budget.bytes ≤ maxRuntimePathBytes

variable {walk walk' : Walk Element}

theorem within_same (within : Within walk) (budget : walk'.budget = walk.budget)
    (entries : walk'.entries = walk.entries) : Within walk' := by
  obtain ⟨integers, bytes, fewIntegers, fewBytes⟩ := within
  rw [← budget] at integers bytes fewIntegers fewBytes
  rw [← entries] at integers bytes
  exact ⟨integers, bytes, fewIntegers, fewBytes⟩

/-- The path of a child that waits is charged, but not stored. -/
theorem within_charge (within : Within walk) {path : List RuntimeId} {budget : RuntimePathBudget}
    (charge : walk.budget.charge path = (.ok (), budget)) (same : walk'.budget = budget)
    (entries : walk'.entries = walk.entries) : Within walk' := by
  obtain ⟨integers, bytes, _, _⟩ := within
  obtain ⟨count, length, fewIntegers, fewBytes⟩ := charge_ok charge
  rw [← same] at count length fewIntegers fewBytes
  rw [← entries] at integers bytes
  exact ⟨by omega, by omega, fewIntegers, fewBytes⟩

/-- The path of an entry is charged as it is stored. -/
theorem within_append (within : Within walk) {path : List RuntimeId} {runtimeId : RuntimeId}
    {budget : RuntimePathBudget}
    (charge : walk.budget.chargeAppended path runtimeId = (.ok (), budget)) {entry : MappingEntry}
    (stored : entry.runtimePath = path ++ [runtimeId]) (same : walk'.budget = budget)
    (entries : walk'.entries = walk.entries ++ [entry]) : Within walk' := by
  obtain ⟨integers, bytes, _, _⟩ := within
  rw [chargeAppended_eq, ← stored] at charge
  obtain ⟨count, length, fewIntegers, fewBytes⟩ := charge_ok charge
  rw [← same] at count length fewIntegers fewBytes
  have more : integersIn walk'.entries = integersIn walk.entries + integersOf entry.runtimePath := by
    rw [entries, integersIn, List.map_append, List.sum_append]
    rfl
  have longer : bytesIn walk'.entries =
      bytesIn walk.entries + encodedBytes (pathJson entry.runtimePath) := by
    rw [entries, bytesIn, List.map_append, List.sum_append]
    rfl
  exact ⟨by omega, by omega, fewIntegers, fewBytes⟩

theorem map_modify {α β : Type} {f : α → α} {g : α → β} (same : ∀ a, g (f a) = g a) (items : List α)
    (index : Nat) : (items.modify index f).map g = items.map g := by
  induction items generalizing index with
  | nil => cases index <;> rfl
  | cons item items ih =>
    cases index with
    | zero => exact congrArg (· :: items.map g) (same item)
    | succ index => exact congrArg (g item :: ·) (ih index)

theorem within_markAmbiguous (within : Within walk) (index : Nat) :
    Within (markAmbiguous walk index) := by
  have integers : integersIn (markAmbiguous walk index).entries = integersIn walk.entries := by
    refine congrArg List.sum (map_modify ?_ walk.entries index)
    exact fun _ => rfl
  have bytes : bytesIn (markAmbiguous walk index).entries = bytesIn walk.entries := by
    refine congrArg List.sum (map_modify ?_ walk.entries index)
    exact fun _ => rfl
  exact ⟨integers ▸ within.integers, bytes ▸ within.bytes, within.fewIntegers, within.fewBytes⟩

/-! ### Every step stays within the budget -/

section Steps

variable {deadlineAtMs : Int64} {build : Build} {record : SurfaceRecord} {observationId : String}

theorem keeps_enqueueFrom {parentId : Option String} {runtimePath : List RuntimeId}
    {siblings : List RuntimeId} {child : Element} (within : Within walk) :
    Keeps Within (enqueueFrom deadlineAtMs parentId runtimePath siblings walk child) := by
  -- each sibling that is taken leaves less room in the queue
  induction room : maxSemanticElements - walk.queue.length using Nat.strong_induction_on
    generalizing walk siblings child with
  | _ room ih =>
    rw [enqueueFrom]
    refine keeps_skip keeps_boundary fun _ => ?_
    refine keeps_skip (keeps_ask fun _ => rfl) fun _ => ?_
    refine keeps_skip keeps_answered fun runtimeId => ?_
    refine keeps_skip keeps_boundary fun _ => ?_
    split
    next accepted =>
      refine keeps_after keeps_charged fun budget charge => ?_
      refine keeps_skip (keeps_ask fun _ => rfl) fun _ => ?_
      refine keeps_skip keeps_answered fun next => ?_
      have charged : Within ({ walk with
          budget, queue := walk.queue ++ [⟨child, parentId, runtimePath⟩] } : Walk Element) :=
        within_charge within charge rfl rfl
      cases next with
      | none => exact keeps_pure charged
      | some next =>
        refine keeps_skip keeps_boundary fun _ => ih _ ?_ charged rfl
        have free : walk.queue.length < maxSemanticElements := by
          simpa using (Bool.and_eq_true_iff.mp accepted).1
        simp only [List.length_append, List.length_singleton]
        omega
    next => exact keeps_pure (within_same within rfl rfl)

theorem keeps_enqueueChildren {element : Element} {parentId : Option String}
    {runtimePath : List RuntimeId} (within : Within walk) :
    Keeps Within (enqueueChildren deadlineAtMs walk element parentId runtimePath) := by
  refine keeps_skip keeps_boundary fun _ => ?_
  refine keeps_ite (fun _ => keeps_pure (within_same within rfl rfl)) fun _ => ?_
  refine keeps_skip (keeps_ask fun _ => rfl) fun _ => ?_
  refine keeps_skip keeps_answered fun child => ?_
  cases child with
  | none => exact keeps_pure within
  | some child => exact keeps_skip keeps_boundary fun _ => keeps_enqueueFrom within

theorem keeps_register {next : PendingElement Element} {state : ElementState}
    (within : Within walk) :
    Keeps Within (register deadlineAtMs build observationId walk next state) := by
  refine keeps_skip (keeps_ask fun _ => rfl) fun _ => ?_
  refine keeps_skip keeps_boundary fun _ => ?_
  refine keeps_skip keeps_mapErr fun _ => ?_
  refine keeps_skip keeps_boundary fun _ => ?_
  refine keeps_skip keeps_mapErr fun _ => ?_
  refine keeps_after keeps_charged fun budget charge => ?_
  exact keeps_enqueueChildren (within_append within charge rfl rfl rfl)

theorem keeps_visit {next : PendingElement Element} (within : Within walk) :
    Keeps Within (visit deadlineAtMs build record observationId walk next) := by
  refine keeps_skip (keeps_ask fun _ => rfl) fun described => ?_
  cases described with
  | error =>
    refine keeps_skip keeps_boundary fun _ => ?_
    exact keeps_enqueueChildren (within_same within rfl rfl)
  | ok state =>
    refine keeps_skip keeps_boundary fun _ => ?_
    refine keeps_ite (fun _ => keeps_enqueueChildren within) fun _ => ?_
    split
    · exact keeps_enqueueChildren (within_markAmbiguous within _)
    · exact keeps_register within

theorem keeps_walkFrom {visitsLeft : Nat} (within : Within walk) :
    Keeps Within (walkFrom deadlineAtMs build record observationId visitsLeft walk) := by
  induction visitsLeft generalizing walk with
  | zero =>
    unfold walkFrom
    split
    · exact keeps_pure within
    · exact keeps_skip keeps_boundary fun _ => keeps_pure (within_same within rfl rfl)
    · contradiction
  | succ visitsLeft ih =>
    unfold walkFrom
    split
    · exact keeps_pure within
    · contradiction
    next next queue _ _ =>
      refine keeps_skip keeps_boundary fun _ => ?_
      refine keeps_ite (fun _ => keeps_pure (within_same within rfl rfl)) fun _ => ?_
      refine keeps_after (keeps_visit (within_same within rfl rfl)) fun walk within => ?_
      cases ‹_ + 1 = _ + 1›
      exact ih within

/-- A snapshot stores one mapping, whose paths fit the budget. -/
theorem yields_snapshotWindow : Yields store (fun stored observation => ∃ mapping,
    stored = [mapping] ∧ mapping.observationId = observation.observationId ∧
      bytesIn mapping.entries ≤ maxRuntimePathBytes ∧
      integersIn mapping.entries ≤ maxRuntimePathIntegers)
    (snapshotWindow deadlineAtMs build record : UiaM Element SemanticObservation) := by
  have skip {α β : Type} {Q : List Mapping → β → Prop} {x : UiaM Element α}
      {f : α → UiaM Element β} (quiet : Keeps (fun _ => True) x)
      (rest : ∀ a, Yields store Q (f a)) : Yields store Q (x >>= f) := by
    refine yields_bind (yields_mono quiet ?_)
    rintro _ a ⟨rfl, _⟩
    exact rest a
  refine skip keeps_boundary fun _ => ?_
  refine skip (keeps_ask fun _ => rfl) fun _ => ?_
  refine skip keeps_answered fun _ => ?_
  refine skip (keeps_ask fun _ => rfl) fun _ => ?_
  refine skip keeps_ofExcept fun _ => ?_
  refine skip keeps_boundary fun _ => ?_
  refine skip (keeps_ask fun _ => rfl) fun generation => ?_
  split
  · exact yields_throw
  refine skip (keeps_ask fun _ => rfl) fun observedAtMs => ?_
  refine skip (keeps_ask fun _ => rfl) fun _ => ?_
  refine skip keeps_answered fun root => ?_
  refine skip keeps_boundary fun _ => ?_
  refine skip (keeps_ask fun _ => rfl) fun _ => ?_
  refine skip keeps_answered fun _ => ?_
  refine skip keeps_boundary fun _ => ?_
  refine yields_bind (yields_mono keeps_charged ?_)
  rintro _ budget ⟨rfl, charge⟩
  obtain ⟨_, _, fewIntegers, fewBytes⟩ := charge_ok charge
  have start : Within (startWalk root budget) :=
    ⟨Nat.zero_le _, Nat.zero_le _, fewIntegers, fewBytes⟩
  refine yields_bind (yields_mono (keeps_walkFrom start) ?_)
  rintro _ walk ⟨rfl, within⟩
  refine skip keeps_boundary fun _ => ?_
  refine skip (keeps_ask fun _ => rfl) fun _ => ?_
  refine skip keeps_mapErr fun _ => ?_
  refine skip (keeps_ask fun _ => rfl) fun _ => ?_
  refine skip keeps_ofExcept fun _ => ?_
  refine skip (keeps_ite (fun _ => keeps_pure trivial) fun _ => keeps_throw) fun _ => ?_
  refine yields_bind (yields_lift fun answer _ => ?_)
  cases answer with
  | error => exact yields_throw
  | ok =>
    refine yields_bind (yields_pure (yields_pure ⟨_, rfl, rfl, ?_⟩))
    exact ⟨within.bytes.trans within.fewBytes, within.integers.trans within.fewIntegers⟩

end Steps

/-- The bytes are counted as they are written, an appended identifier is charged as it would be
with its path, and what is stored of a snapshot that succeeds fits the budget. -/
theorem path_budget_counts :
    (∀ path : List RuntimeId,
      runtimePathSerializedBytes path = capped (encodedBytes (pathJson path))) ∧
    (∀ (budget : RuntimePathBudget) (path : List RuntimeId) (runtimeId : RuntimeId),
      budget.chargeAppended path runtimeId = budget.charge (path ++ [runtimeId])) ∧
    ∀ (Element : Type) (deadlineAtMs : Int64) (build : Build) (record : SurfaceRecord)
      (trace : List (Event (UiaClient Element))) (observation : SemanticObservation),
      Steps (snapshotWindow deadlineAtMs build record).run trace (.ret (.ok observation)) →
      ∃ mapping, store.events trace = [mapping] ∧
        mapping.observationId = observation.observationId ∧
        bytesIn mapping.entries ≤ maxRuntimePathBytes ∧
        integersIn mapping.entries ≤ maxRuntimePathIntegers := by
  refine ⟨runtimePathSerializedBytes_eq, chargeAppended_eq, ?_⟩
  intro Element deadlineAtMs build record trace observation run
  exact yields_snapshotWindow trace observation (fun _ _ => trivial) run

/-! ### A window with a panel and two buttons -/

def dialogBuild : Build := ⟨false, Sha256.sha256⟩

def dialogHash (text : String) : String := hexEncode (Sha256.sha256 text.asBytes)

inductive DialogElement where
  | window | panel | accept | cancel
  deriving DecidableEq

def dialogRecord : SurfaceRecord where
  surfaceId := "surface"
  processId := 7
  processGeneration := "process-1"
  windowId := dialogHash "window"
  displayGeometryHash := dialogHash "geometry"
  window := 42

def dialogId : DialogElement → RuntimeId
  | .window => [42]
  | .panel => [42, -2147483648]
  | .accept => [42, 4, 1]
  | .cancel => [42, 4, 2]

def dialogState (element : DialogElement) : ElementState where
  runtimeId := dialogId element
  processId := 7
  processGeneration := "process-1"
  windowId := dialogHash "window"
  role := "window"
  name := none
  bounds := ⟨0, 0, 800, 600⟩
  visible := true
  enabled := true
  invokable := false
  editable := false
  horizontallyScrollable := false
  verticallyScrollable := false

def dialogAnswer : (op : UiaOp DialogElement) → Unit → (UiaClient DialogElement).Ans op × Unit
  | .isCancelled, s => (false, s)
  | .nowMs, s => (1000, s)
  | .newAutomation, s => (.ok (), s)
  | .validateSurfaceRecord, s => (.ok (), s)
  | .nextGeneration, s => (1, s)
  | .elementFromHandle _, s => (.ok .window, s)
  | .controlViewWalker, s => (.ok (), s)
  | .describe element, s => (.ok (dialogState element), s)
  | .getFirstChild .window, s => (.ok (some .panel), s)
  | .getFirstChild .panel, s => (.ok (some .accept), s)
  | .getFirstChild _, s => (.ok none, s)
  | .getNextSibling .accept, s => (.ok (some .cancel), s)
  | .getNextSibling _, s => (.ok none, s)
  | .runtimeValues element, s => (.ok (dialogId element), s)
  | .persist .., s => (.ok (), s)

def dialogSnapshot : UiaM DialogElement SemanticObservation :=
  snapshotWindow 5000 dialogBuild dialogRecord

def dialogTrace : List (Event (UiaClient DialogElement)) :=
  (play dialogAnswer 200 dialogSnapshot.run ()).1

/-- The paths of the window, of the panel in it, and of the buttons in that. -/
def dialogPaths : List (List RuntimeId) :=
  [[[42]], [[42], [42, -2147483648]], [[42], [42, -2147483648], [42, 4, 1]],
    [[42], [42, -2147483648], [42, 4, 2]]]

theorem dialog_succeeds :
    (play dialogAnswer 200 dialogSnapshot.run ()).2.1.returned?.any Except.isOk = true ∧
      (store.events dialogTrace).map (fun mapping => mapping.entries.map (·.runtimePath)) =
        [dialogPaths] := by
  decide +kernel

theorem path_budget_counts_dialog :
    runtimePathSerializedBytes [[42, -2147483648], []] = some 21 ∧
    RuntimePathBudget.default.chargeAppended [[42], [42, -2147483648]] [42, 4, 1] =
      RuntimePathBudget.default.charge [[42], [42, -2147483648], [42, 4, 1]] ∧
    ∃ observation mapping, Steps dialogSnapshot.run dialogTrace (.ret (.ok observation)) ∧
      store.events dialogTrace = [mapping] ∧
      mapping.observationId = observation.observationId ∧
      mapping.entries.map (·.runtimePath) = dialogPaths ∧
      bytesIn mapping.entries ≤ maxRuntimePathBytes ∧
      integersIn mapping.entries ≤ maxRuntimePathIntegers := by
  obtain ⟨observation, run⟩ := steps_succeeded dialog_succeeds.1
  obtain ⟨counts, appended, stored⟩ := path_budget_counts
  obtain ⟨mapping, single, named, bytes, integers⟩ :=
    stored DialogElement 5000 dialogBuild dialogRecord _ observation run
  have paths := dialog_succeeds.2
  rw [dialogTrace, single, List.map_singleton, List.cons.injEq] at paths
  have counted : runtimePathSerializedBytes [[42, -2147483648], []] = some 21 := by
    rw [counts]
    decide +kernel
  exact ⟨counted, appended _ _ _, observation, mapping, run, single, named, paths.1, bytes, integers⟩

end Praefectus.Uia
