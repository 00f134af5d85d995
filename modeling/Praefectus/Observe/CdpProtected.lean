import Praefectus.Observe.CdpAlike
import Praefectus.Observe.CdpElements
import Praefectus.Program.Answered
import Praefectus.Program.Twins
import Praefectus.Text.Sha256

/-!
# What a browser tells of protected elements

Two runs whose replies differ in the names of protected nodes, and in what is reported of the
values of protected elements, come to the same result.
-/

namespace Praefectus.Cdp.CdpExecutor

open Prog Json

/-! ### What the executor asks -/

section

variable {α β Φ : Type} {m : Pairing Browser Φ} {φ : Φ}

theorem twins_mapError {Q : Φ → α → β → Prop} {x : BrowserM α} {y : BrowserM β}
    (twins : Twins m Q φ x y) : Twins m Q φ (mapError x) (mapError y) := by
  refine twin_bind (twin_mono twins fun φ' result result' paired => twin_ret ?_)
  cases result with
  | ok a =>
    cases result' with
    | ok b => exact paired
    | error => exact paired.elim
  | error e =>
    cases result' with
    | ok => exact paired.elim
    | error e' => exact congrArg mapCdpProtocolError paired

/-- Both have a value, and go on with it, or neither has. -/
theorem twins_related {ε γ δ : Type} {Q : Φ → γ → δ → Prop} {R : α → β → Prop} {error : ε}
    {known : Option α} {known' : Option β} {f : α → ExceptT ε (Prog Browser) γ}
    {g : β → ExceptT ε (Prog Browser) δ} (both : Option.Rel R known known')
    (rest : ∀ value value', R value value' → Twins m Q φ (f value) (g value')) :
    Twins m Q φ (orError error known >>= f) (orError error known' >>= g) := by
  cases both with
  | none => exact twin_ret rfl
  | some related => exact rest _ _ related

theorem twins_known {ε γ δ : Type} {Q : Φ → γ → δ → Prop} {error : ε} {known : Option α}
    {f : α → ExceptT ε (Prog Browser) γ} {g : α → ExceptT ε (Prog Browser) δ}
    (rest : ∀ value, known = some value → Twins m Q φ (f value) (g value)) :
    Twins m Q φ (orError error known >>= f) (orError error known >>= g) := by
  cases known with
  | none => exact twin_ret rfl
  | some value => exact rest value rfl

variable {method : String} {parameters : Json} {deadlineAtMs : Int64} {R : Φ → Json → Json → Prop}

theorem twins_probeCommand
    (each : ∀ ans ans', m.alike φ (.command method parameters deadlineAtMs) ans ans' →
      SameReply (R (m.learn φ (.command method parameters deadlineAtMs) ans ans')) ans ans') :
    Twins m R φ (probeCommand method parameters deadlineAtMs)
      (probeCommand method parameters deadlineAtMs) := by
  refine twins_bind (twins_lift (Q := fun φ' => SameReply (R φ')) each) fun φ' ans ans' same => ?_
  cases same with
  | reply related => exact twin_ret related
  | failed => exact twin_ret rfl
  | poisoned => exact twin_ret rfl

theorem twins_command (token : m.Plain .isCancelled) (clock : m.Plain .nowMs)
    (each : ∀ ans ans', m.alike φ (.command method parameters deadlineAtMs) ans ans' →
      SameReply (R (m.learn φ (.command method parameters deadlineAtMs) ans ans')) ans ans') :
    Twins m R φ (command deadlineAtMs method parameters)
      (command deadlineAtMs method parameters) := by
  have bounded : (boundary deadlineAtMs).run.Only m.Plain := only_boundary _ token clock
  have told (φ' : Φ) (answer answer' : Except CdpError Json) (paired : Paired R φ' answer answer') :
      Twins m R φ' (boundary deadlineAtMs >>= fun _ => orFail answer)
        (boundary deadlineAtMs >>= fun _ => orFail answer') :=
    twins_after bounded fun _ => twin_ret paired
  unfold command
  refine twins_after bounded fun _ => ?_
  refine twins_bind (twins_lift (Q := fun φ' => SameReply (R φ')) each) fun φ' ans ans' same => ?_
  cases same with
  | reply related => exact told φ' (.ok _) (.ok _) related
  | failed => exact told φ' (.error _) (.error _) rfl
  | poisoned => exact twin_ret rfl

end

/-! ### Names -/

/-- Only the names of marked nodes differ. -/
def names : Pairing Browser Unit where
  alike _ op := match op with
    | .command method _ _ =>
      if method = "Accessibility.getFullAXTree" then SameReply SameTree else Eq
    | _ => Eq
  learn _ _ _ _ := ()

theorem names_plain_command {method : String} (other : method ≠ "Accessibility.getFullAXTree")
    (parameters : Json) (deadlineAtMs : Int64) :
    names.Plain (.command method parameters deadlineAtMs) := by
  intro φ ans ans' alike
  unfold names at alike
  simp only [if_neg other] at alike
  exact ⟨alike, rfl⟩

theorem names_plain_isCancelled : names.Plain .isCancelled := fun _ _ _ alike => ⟨alike, rfl⟩

theorem names_plain_nowMs : names.Plain .nowMs := fun _ _ _ alike => ⟨alike, rfl⟩

theorem names_plain_verifyProcess : names.Plain .verifyProcess := fun _ _ _ alike => ⟨alike, rfl⟩

/-- Pages with the same elements in their trees. -/
def SamePage (page page' : Page) : Prop :=
  page' = { page with tree := page'.tree } ∧ SameTree page.tree page'.tree

section

variable (build : Build) (config : CdpConfig) (deadlineAtMs : Int64)

theorem twins_readPage : Twins names (fun _ => SamePage) ()
    (readPage build config deadlineAtMs) (readPage build config deadlineAtMs) := by
  have asked {method : String} (other : method ≠ "Accessibility.getFullAXTree")
      (parameters : Json) : (command deadlineAtMs method parameters).run.Only names.Plain :=
    only_command _ _ _ names_plain_isCancelled names_plain_nowMs (names_plain_command other _ _)
  have bounded : (boundary deadlineAtMs).run.Only names.Plain :=
    only_boundary _ names_plain_isCancelled names_plain_nowMs
  unfold readPage
  refine twins_after bounded fun _ => ?_
  refine twins_after (only_query names_plain_verifyProcess) fun verified => ?_
  refine twins_after (only_orFail _) fun _ => twins_after (asked (by decide) _) fun target => ?_
  refine twins_after (only_orError _ _) fun targetInfo => ?_
  split
  · exact twins_throw
  refine twins_after (asked (by decide) _) fun frameTree => ?_
  refine twins_after (only_frameOf _) fun frame => ?_
  refine twins_after (asked (by decide) _) fun executionContext => ?_
  refine twins_after (only_orError _ _) fun executionContextId => ?_
  refine twins_after (asked (by decide) _) fun layout => ?_
  refine twins_after (only_orError _ _) fun viewport => ?_
  refine twins_after (asked (by decide) _) fun domSnapshot => ?_
  refine twins_after (only_orError _ _) fun roots => ?_
  -- only here the two runs are told different things
  refine twins_bind (twins_command (R := fun _ => SameTree) names_plain_isCancelled
    names_plain_nowMs fun _ _ alike => alike) fun _ tree tree' same => ?_
  refine twins_after (asked (by decide) _) fun finalFrameTree => ?_
  refine twins_after (only_orError _ _) fun finalFrame => ?_
  refine twins_after (only_orError _ _) fun finalId => ?_
  split
  · exact twins_throw
  refine twins_after (only_orError _ _) fun finalLoader => ?_
  split
  · exact twins_throw
  exact twins_after bounded fun _ => twins_pure ⟨rfl, same⟩

theorem store_same {page page' : Page} (same : SamePage page page') (rounds : Nat) :
    store build config deadlineAtMs rounds page = store build config deadlineAtMs rounds page' := by
  obtain ⟨rest, trees⟩ := same
  unfold store publishPage
  rw [rest]
  simp only [parseAxTree_same trees]
  rfl

theorem only_store {P : BrowserOp → Prop} (rounds : Nat) (page : Page) (clock : P .nowMs)
    (counter : P .nextGeneration) (published : ∀ stored, P (.publish stored)) (spin : P .spin) :
    (store build config deadlineAtMs rounds page).run.Only P := by
  unfold store publishPage
  refine only_try (only_query clock) fun observedAtMs => only_try (only_query counter) fun taken => ?_
  refine only_try ?_ fun found => ?_
  · unfold parsed
    split
    · exact only_orFail _
    · exact only_try (only_query spin) fun _ => trivial
  · refine only_try (only_orFail _) fun _ => only_try (only_query (published _)) fun stored => ?_
    exact only_try (only_orError _ _) fun _ => trivial

/-- An observation of the page does not depend on the names of marked nodes. -/
theorem semanticObservation_same (rounds : Nat) {trace trace' : List (Event Browser)}
    {result : Except CdpError SemanticObservation}
    (run : Steps (semanticObservation build config deadlineAtMs rounds).run trace (.ret result))
    (related : names.Related () trace trace') :
    Steps (semanticObservation build config deadlineAtMs rounds).run trace' (.ret result) := by
  refine twins_run ?_ run related
  refine twins_bind (twins_readPage build config deadlineAtMs) fun φ page page' same => ?_
  rw [← store_same build config deadlineAtMs same rounds]
  refine twins_agreed (only_store build config deadlineAtMs rounds page ?_ ?_ ?_ ?_)
  · exact fun _ _ _ alike => alike
  · exact fun _ _ _ alike => alike
  · exact fun _ _ _ _ alike => alike
  · exact fun _ _ _ alike => alike

end

/-! ### Reports on an element -/

/-- The element that is probed, and whether what was reported of its value differs. -/
structure Ghost where
  node : Option NodeIdentity
  differ : Prop

/-- The element a target stands for in the latest observation. -/
def found : TargetRef → Option (Option StoredObservation) → Option NodeIdentity
  | .element target, some (some stored) =>
    (stored.nodes.lookup target.elementId).map fun node => .fromStored node stored
  | _, _ => none

/-- The element was observed as protected, or is marked as such by now. -/
def Hidden (node : NodeIdentity) (tree : Json) : Prop :=
  node.isProtected = true ∨ ∀ semantics, liveAxSemantics tree node.backendNodeId = some semantics →
    semantics.isProtected = true

/-- An element that is marked by now but was not has another fingerprint than before. -/
def Noticed (build : Build) (node : NodeIdentity) (tree : Json) : Prop :=
  node.isProtected = true ∨ ∀ semantics, liveAxSemantics tree node.backendNodeId = some semantics →
    semantics.isProtected = true →
      axFingerprint build node.documentId node.backendNodeId semantics ≠ node.fingerprintHash

/-- The names of marked nodes differ, and what is reported of the values of hidden elements. -/
def reports (target : TargetRef) (met : NodeIdentity → Json → Prop) :
    Pairing Browser Ghost where
  alike φ op := match op with
    | .command method _ _ =>
      if method = "Accessibility.getPartialAXTree" then
        SameReply fun tree tree' => SameTree tree tree' ∧
          (φ.differ → ∀ node, φ.node = some node → Hidden node tree ∧ met node tree)
      else if method = "Runtime.callFunctionOn" then SameReply SameProbe
      else Eq
    | _ => Eq
  learn φ op := match op with
    | .latest => fun latest _ => { φ with node := φ.node.or (found target latest) }
    | .command method _ _ => fun ans ans' =>
      if method = "Runtime.callFunctionOn" then { φ with differ := ans ≠ ans' } else φ
    | _ => fun _ _ => φ

section

variable {target : TargetRef} {met : NodeIdentity → Json → Prop}

theorem reports_plain_command {method : String} (other : method ≠ "Accessibility.getPartialAXTree")
    (uncalled : method ≠ "Runtime.callFunctionOn") (parameters : Json) (deadlineAtMs : Int64) :
    (reports target met).Plain (.command method parameters deadlineAtMs) := by
  intro φ ans ans' alike
  unfold reports at alike ⊢
  simp only [if_neg other, if_neg uncalled] at alike ⊢
  exact ⟨alike, trivial⟩

theorem reports_plain_isCancelled : (reports target met).Plain .isCancelled :=
  fun _ _ _ alike => ⟨alike, rfl⟩

theorem reports_plain_nowMs : (reports target met).Plain .nowMs := fun _ _ _ alike => ⟨alike, rfl⟩

theorem reports_plain_verifyProcess : (reports target met).Plain .verifyProcess :=
  fun _ _ _ alike => ⟨alike, rfl⟩

theorem reports_agreed_latest : (reports target met).Agreed .latest := fun _ _ _ alike => alike

theorem agreed_of_plain {Φ : Type} {m : Pairing Browser Φ} {op : BrowserOp} (plain : m.Plain op) :
    m.Agreed op := fun φ ans ans' alike => (plain φ ans ans' alike).1

theorem only_mapError {P : BrowserOp → Prop} {α : Type} {x : BrowserM α} (only : x.run.Only P) :
    (mapError x).run.Only P := only_bind only fun _ => trivial

theorem only_probeCommand {P : BrowserOp → Prop} {method : String} {parameters : Json}
    {deadlineAtMs : Int64} (allowed : P (.command method parameters deadlineAtMs)) :
    (probeCommand method parameters deadlineAtMs).run.Only P :=
  only_try (only_query allowed) fun _ => only_try (only_orError _ _) fun _ => only_orFail _

theorem twins_storedNode (build : Build) (target : SemanticTargetRef) :
    Twins (reports (.element target) met) (fun φ node node' => node = node' ∧ φ = ⟨some node, False⟩)
      ⟨none, False⟩ (storedNode build target) (storedNode build target) := by
  unfold storedNode
  refine twins_after (only_query reports_plain_nowMs) fun now => ?_
  refine twins_bind (twins_lift (Q := fun φ latest latest' => latest = latest' ∧
    φ = ⟨found (.element target) latest, False⟩) fun latest _ alike => ⟨alike, rfl⟩) ?_
  rintro _ latest _ ⟨rfl, rfl⟩
  refine twins_known fun latest read => twins_known fun stored published => ?_
  refine twins_after (only_orFail _) fun _ => twins_known fun node listed => twins_pure ⟨rfl, ?_⟩
  subst read published
  exact congrArg (Ghost.mk · False) (congrArg (Option.map (NodeIdentity.fromStored · stored)) listed)

variable (build : Build) (config : CdpConfig) (probeFunction : Bool → String)

theorem only_currentDocumentId (deadlineAtMs : Int64) :
    (currentDocumentId build config deadlineAtMs).run.Only (reports target met).Plain := by
  unfold currentDocumentId
  refine only_try (only_probeCommand (reports_plain_command (by decide) (by decide) _ _)) fun _ => ?_
  refine only_try (only_orError _ _) fun frame => only_try (only_orError _ _) fun frameId => ?_
  exact only_try (only_orError _ _) fun loaderId => trivial

theorem only_resolveObject (backendNodeId executionContextId : UInt64) (deadlineAtMs : Int64) :
    (resolveObject backendNodeId executionContextId deadlineAtMs).run.Only
      (reports target met).Plain :=
  only_try (only_probeCommand (reports_plain_command (by decide) (by decide) _ _)) fun _ =>
    only_orError _ _

theorem only_verifyProcess : verifyProcess.run.Only (reports target met).Plain :=
  only_try (only_query reports_plain_verifyProcess) fun _ => only_orFail _

/-- What is reported of an element is redacted, or it was equal from the start. -/
theorem redactedProbe_same {value value' : Json} {isProtected : Bool}
    (agrees : AgreesBut (valueKeys.map Prod.fst) value value')
    (kept : value = value' ∨ isProtected = true) :
    redactedProbe value isProtected = redactedProbe value' isProtected := by
  rcases kept with rfl | rfl
  · rfl
  · rw [redactedProbe_protected, redactedProbe_protected, agrees]

/-- Both replies have a value, which differs under the three keys at most, or neither has. -/
theorem pointer_same {response response' : Json} (same : SameProbe response response') :
    Option.Rel (AgreesBut (valueKeys.map Prod.fst)) (pointer response ["result", "value"])
      (pointer response' ["result", "value"]) := by
  obtain ⟨_, results⟩ := same
  simp only [pointer, List.foldlM_cons, List.foldlM_nil, Option.bind_eq_bind]
  generalize response.get? "result" = result at results
  generalize response'.get? "result" = result' at results
  cases results with
  | none => exact .none
  | some inner =>
    rename_i result result'
    obtain ⟨_, values⟩ := inner
    simp only [Option.bind_some]
    generalize result.get? "value" = value at values
    generalize result'.get? "value" = value' at values
    cases values with
    | none => exact .none
    | some agrees => exact .some agrees

/-- The values differ only where the replies do. -/
theorem reported_same {response response' : Json} {differ : Prop}
    (same : SameProbe response response') (equal : response = response' ∨ differ) :
    Option.Rel (fun value value' => AgreesBut (valueKeys.map Prod.fst) value value' ∧
      (value = value' ∨ differ)) (pointer response ["result", "value"])
        (pointer response' ["result", "value"]) := by
  rcases equal with rfl | differ
  · cases pointer response ["result", "value"] with
    | none => exact .none
    | some value => exact .some ⟨rfl, .inl rfl⟩
  · have both := pointer_same same
    generalize pointer response ["result", "value"] = value at both
    generalize pointer response' ["result", "value"] = value' at both
    cases both with
    | none => exact .none
    | some agrees => exact .some ⟨agrees, .inr differ⟩

theorem twins_liveProbe (target : SemanticTargetRef) (deadlineAtMs : Int64) :
    Twins (reports (.element target) (Noticed build)) (fun _ probe probe' => probe = probe') ⟨none, False⟩
      (liveProbe build config probeFunction target deadlineAtMs)
      (liveProbe build config probeFunction target deadlineAtMs) := by
  unfold liveProbe
  refine twins_after only_verifyProcess fun _ => ?_
  refine twins_bind (twins_mapError (twins_storedNode build target)) ?_
  rintro _ node _ ⟨rfl, rfl⟩
  refine twins_after (only_currentDocumentId build config deadlineAtMs) fun documentId => ?_
  split
  · exact twins_throw
  next document =>
  refine twins_after (only_resolveObject _ _ deadlineAtMs) fun objectId => ?_
  -- the replies differ if and only if the ghost says so
  refine twins_bind (twins_probeCommand (R := fun φ response response' =>
    SameProbe response response' ∧ φ.node = some node ∧ (response = response' ∨ φ.differ)) ?_) ?_
  · refine fun ans ans' alike => SameReply.mono (R := SameProbe) alike ?_
    rintro response response' rfl rfl probes
    refine ⟨probes, rfl, (em (response = response')).imp_right fun differ same => differ ?_⟩
    exact Except.ok.inj (Option.some.inj same)
  rintro φ response response' ⟨probes, probed, equal⟩
  rw [← get?_agrees probes.1 (show "exceptionDetails" ∉ ["result"] by decide)]
  split
  · exact twins_throw
  refine twins_related (reported_same probes equal) fun value value' reported => ?_
  obtain ⟨agrees, equal⟩ := reported
  rw [← get?_agrees agrees (show "connected" ∉ valueKeys.map Prod.fst by decide)]
  split
  · exact twins_throw
  refine twins_after (only_probeCommand (reports_plain_command (by decide) (by decide) _ _))
    fun layout => twins_after (only_orError _ _) fun viewport => ?_
  refine twins_bind (twins_probeCommand (R := fun φ' tree tree' => φ' = φ ∧ SameTree tree tree' ∧
    (φ.differ → ∀ node, φ.node = some node → Hidden node tree ∧ Noticed build node tree)) ?_) ?_
  · exact fun ans ans' alike => SameReply.mono (R := fun tree tree' => SameTree tree tree' ∧
      (φ.differ → ∀ node, φ.node = some node → Hidden node tree ∧ Noticed build node tree)) alike
        fun _ _ _ _ told => ⟨rfl, told⟩
  rintro _ tree tree' ⟨rfl, trees, hidden⟩
  rw [← liveAxSemantics_same trees]
  refine twins_known fun semantics live => twins_after only_verifyProcess fun _ => ?_
  split
  · exact twins_throw
  next fenced =>
  refine twins_pure (congrArg (LiveProbe.mk · _ _) (redactedProbe_same agrees ?_))
  refine equal.imp_right fun differ => ?_
  obtain ⟨marked, noticed⟩ := hidden differ node probed
  have fingerprint : axFingerprint build node.documentId node.backendNodeId semantics =
      node.fingerprintHash := by
    rw [← not_ne_iff.mp document]
    exact not_ne_iff.mp fun changed => fenced (.inr changed)
  rcases marked with stored | marked
  · exact stored
  · exact noticed.resolve_right fun noticed =>
      noticed semantics live (marked semantics live) fingerprint

theorem twins_observeWithBoundary (target : TargetRef) (deadlineAtMs : Int64) :
    Twins (reports target (Noticed build)) (fun _ element element' => element = element')
      ⟨none, False⟩ (observeWithBoundary build config probeFunction target deadlineAtMs)
      (observeWithBoundary build config probeFunction target deadlineAtMs) := by
  have bounded : (mapError (boundary deadlineAtMs)).run.Only (reports target (Noticed build)).Plain :=
    only_mapError (only_boundary _ reports_plain_isCancelled reports_plain_nowMs)
  have agreed : (mapError (boundary deadlineAtMs)).run.Only (reports target (Noticed build)).Agreed :=
    only_mono bounded fun _ => agreed_of_plain
  unfold observeWithBoundary
  refine twins_after bounded fun _ => ?_
  cases target with
  | coordinates => exact twins_throw
  | none => exact twins_throw
  | element target =>
    refine twins_bind (twins_attempt (twins_liveProbe build config probeFunction target deadlineAtMs))
      fun φ probe probe' paired => ?_
    rw [← paired_eq paired]
    -- nothing after the probe is told differently
    refine twins_agreed (only_try agreed fun _ => only_try (only_orFail _) fun probe => ?_)
    refine only_try (only_query reports_agreed_latest) fun latest => ?_
    refine only_try (only_orError _ _) fun stored => only_try (only_orError _ _) fun _ => ?_
    refine only_try agreed fun _ => only_try (only_query ?_) fun _ => trivial
    exact agreed_of_plain reports_plain_nowMs

end

/-- An element that is marked by now was recorded as such, or is seen to have changed. -/
theorem hidden_reports_kept (build : Build) (config : CdpConfig) (deadlineAtMs : Int64) :
    (∀ (rounds : Nat) (trace trace' : List (Event Browser))
      (result : Except CdpError SemanticObservation), names.Related () trace trace' →
        Steps (semanticObservation build config deadlineAtMs rounds).run trace (.ret result) →
        Steps (semanticObservation build config deadlineAtMs rounds).run trace' (.ret result)) ∧
    ∀ (probeFunction : Bool → String) (target : TargetRef) (trace trace' : List (Event Browser))
      (result : Except ProtocolError ObservedElement),
        (reports target (Noticed build)).Related ⟨none, False⟩ trace trace' →
        Steps (observeWithBoundary build config probeFunction target deadlineAtMs).run trace
          (.ret result) →
        Steps (observeWithBoundary build config probeFunction target deadlineAtMs).run trace'
          (.ret result) := by
  constructor
  · intro rounds trace trace' result related run
    exact semanticObservation_same build config deadlineAtMs rounds run related
  · intro probeFunction target trace trace' result related run
    exact twins_run (twins_observeWithBoundary build config probeFunction target deadlineAtMs) run
      related

/-! ### A text box with a redacted name -/

def pageBuild : Build := ⟨false, Sha256.sha256⟩

def pageConfig : CdpConfig := ⟨"page", 7, "process-1"⟩

def boxNode (name : String) (isProtected : Bool) : Json := .obj [
  ("backendDOMNodeId", ofUInt64 9),
  ("ignored", .bool false),
  ("name", .obj [("value", .str name)]),
  ("nodeId", .str "1"),
  ("properties", .arr [.obj [("name", .str "protected"),
    ("value", .obj [("value", .bool isProtected)])]]),
  ("role", .obj [("value", .str "textbox")])]

def boxTree (name : String) (isProtected : Bool) : Json :=
  .obj [("nodes", .arr [boxNode name isProtected])]

def boxViewport : Json := .obj [("clientHeight", ofUInt64 600), ("clientWidth", ofUInt64 800)]

def boxDocumentId : String := documentIdOf pageBuild pageConfig "frame" "loader"

def boxObservationId : String := observationIdOf pageBuild pageConfig boxDocumentId 1 2000

/-- The name of the text box is the word that stands for what is redacted. -/
def boxSemantics (isProtected : Bool) : AxSemantics :=
  ⟨"textbox", some "[redacted]", isProtected, true, true, false, true⟩

def boxElement : SemanticElement where
  tag := "e0"
  elementId := elementIdOf pageBuild boxObservationId 9
  parentId := none
  fingerprintHash := axFingerprint pageBuild boxDocumentId 9 (boxSemantics true)
  role := "textbox"
  name := some "[redacted]"
  bounds := none
  actionability := axActionability (boxSemantics true)

def boxObservation : SemanticObservation where
  protocolVersion
  observationId := boxObservationId
  generation := 1
  provenance := provenanceOf pageConfig boxDocumentId (hashSerializable pageBuild boxViewport)
  observedAtMs := 2000
  expiresAtMs := 5000
  truncated := false
  elements := [boxElement]

/-- What is stored once the page was observed. -/
def boxStored (isProtected : Bool) : StoredObservation :=
  ⟨boxObservation, 3, [(boxElement.elementId, ⟨9, isProtected, boxElement⟩)]⟩

def boxIdentity (isProtected : Bool) : NodeIdentity where
  backendNodeId := 9
  executionContextId := 3
  documentId := boxDocumentId
  isProtected
  fingerprintHash := boxElement.fingerprintHash
  displayGeometryHash := hashSerializable pageBuild boxViewport

def boxTarget : SemanticTargetRef where
  observationId := boxObservationId
  generation := 1
  provenanceHash := boxObservation.provenanceHash pageBuild
  elementId := boxElement.elementId
  fingerprintHash := boxElement.fingerprintHash

def boxValue (valueHash : String) : Json :=
  .obj [("connected", .bool true), ("valueHash", .str valueHash)]

def boxReply : String → Json
  | "Target.getTargetInfo" =>
    .obj [("targetInfo", .obj [("targetId", .str "page"), ("type", .str "page")])]
  | "Page.getFrameTree" =>
    .obj [("frameTree", .obj [("frame", .obj [("id", .str "frame"), ("loaderId", .str "loader")])])]
  | "Page.createIsolatedWorld" => .obj [("executionContextId", ofUInt64 3)]
  | "Page.getLayoutMetrics" => .obj [("cssVisualViewport", boxViewport)]
  | "DOMSnapshot.captureSnapshot" =>
    .obj [("documents", .arr [.obj [("frameId", .str "frame"),
      ("nodes", .obj [("backendNodeId", .arr [ofUInt64 9])])]])]
  | "DOM.resolveNode" => .obj [("object", .obj [("objectId", .str "object-1")])]
  | "Accessibility.getPartialAXTree" => boxTree "[redacted]" true
  | _ => .null

/-- By now the text box is protected. -/
def boxTold (name valueHash method : String) : Json :=
  if method = "Accessibility.getFullAXTree" then boxTree name true
  else if method = "Runtime.callFunctionOn" then .obj [("result", .obj [("value", boxValue valueHash)])]
  else boxReply method

def boxAnswer (isProtected : Bool) (name valueHash : String) : (op : BrowserOp) → Browser.Ans op
  | .isCancelled => false
  | .nowMs => (2000 : Int64)
  | .verifyProcess => .ok ()
  | .command method _ _ => some (.ok (boxTold name valueHash method))
  | .nextGeneration => (0 : UInt64)
  | .publish _ => some ()
  | .latest => some (some (boxStored isProtected))
  | .spin => ()

def boxObserved : Prog Browser (Except ProtocolError ObservedElement) :=
  (observeWithBoundary pageBuild pageConfig (fun _ => "function") (.element boxTarget) 4000).run

/-- The text box of the tree is marked, whichever is asked for. -/
theorem boxTree_hidden (node : NodeIdentity) : Hidden node (boxTree "[redacted]" true) := by
  refine .inr fun semantics live => ?_
  obtain ⟨box, chosen, read⟩ := Option.bind_eq_some_iff.mp live
  have only : boxNode "[redacted]" true = box := by
    change single ([boxNode "[redacted]" true].filter _) = some box at chosen
    rw [List.filter_cons] at chosen
    split at chosen
    · exact Option.some.inj chosen
    · cases chosen
  have marked : (axSemantics (boxNode "[redacted]" true)).toOption.map (·.isProtected) = some true :=
    rfl
  rw [only, read] at marked
  exact Option.some.inj marked

/-- Answers about two names of one text box are alike. -/
theorem boxAnswer_names (name name' : String) (φ : Unit) (op : BrowserOp) (kept : True) :
    names.alike φ op (boxAnswer true name "" op) (boxAnswer true name' "" op) ∧ True := by
  cases op with
  | command method parameters deadlineAtMs =>
    refine ⟨?_, kept⟩
    simp only [names, boxAnswer, boxTold]
    split
    · have nodes : List.Forall₂ SameNode [boxNode name true] [boxNode name' true] :=
        .cons ⟨rfl, nofun⟩ .nil
      exact .reply ⟨rfl, .some (.inr ⟨_, _, rfl, rfl, nodes⟩)⟩
    · rfl
  | _ => exact ⟨rfl, kept⟩

/-- Answers about two values of one text box are alike. -/
theorem boxAnswer_reports {met : NodeIdentity → Json → Prop} {isProtected : Bool}
    (holds : ∀ node, found (.element boxTarget) (some (some (boxStored isProtected))) =
      some node → met node (boxTree "[redacted]" true)) (valueHash valueHash' : String) (φ : Ghost)
    (op : BrowserOp) (kept : ∀ node, φ.node = some node → met node (boxTree "[redacted]" true)) :
    (reports (.element boxTarget) met).alike φ op
      (boxAnswer isProtected "" valueHash op) (boxAnswer isProtected "" valueHash' op) ∧
    ∀ node, ((reports (.element boxTarget) met).learn φ op
      (boxAnswer isProtected "" valueHash op) (boxAnswer isProtected "" valueHash' op)).node =
        some node → met node (boxTree "[redacted]" true) := by
  cases op with
  | latest =>
    refine ⟨rfl, fun node learned => ?_⟩
    rcases Option.or_eq_some_iff.mp learned with before | ⟨_, now⟩
    · exact kept node before
    · exact holds node now
  | command method parameters deadlineAtMs =>
    by_cases called : method = "Runtime.callFunctionOn"
    · subst called
      exact ⟨.reply ⟨rfl, .some ⟨rfl, .some rfl⟩⟩, kept⟩
    · simp only [reports, boxAnswer, boxTold, if_neg called]
      refine ⟨?_, kept⟩
      split
      next partialTree =>
        subst partialTree
        exact .reply ⟨⟨rfl, .some (.inl rfl)⟩, fun _ node probed =>
          ⟨boxTree_hidden node, kept node probed⟩⟩
      next => rfl
  | _ => exact ⟨rfl, kept⟩

/-- At first no element is probed. -/
theorem unprobed {P : NodeIdentity → Prop} (node : NodeIdentity)
    (probed : (Ghost.mk none False).node = some node) : P node :=
  absurd probed (Option.some_ne_none node).symm

/-- A run against the one environment, and a history of the other. -/
theorem alike_histories {Φ α : Type} {m : Pairing Browser Φ} {kept : Φ → Prop} {φ : Φ}
    {respond respond' : (op : BrowserOp) → Browser.Ans op}
    (each : ∀ φ op, kept φ → m.alike φ op (respond op) (respond' op) ∧
      kept (m.learn φ op (respond op) (respond' op))) (start : kept φ) {p : Prog Browser α} {value : α}
    (observed : p.answered respond = value) :
    ∃ trace trace', m.Related φ trace trace' ∧ Steps p trace (.ret value) ∧
      ∀ e ∈ trace', e.ans = respond' e.op := by
  have played : ∃ trace, (∀ e ∈ trace, e.ans = respond e.op) ∧
      Steps p trace (.ret (p.answered respond)) := steps_answered respond (fun _ => rfl) p
  obtain ⟨trace, told, run⟩ := played
  refine ⟨trace, _, related_answers each told start, observed ▸ run, fun e member => ?_⟩
  obtain ⟨first, _, rfl⟩ := List.mem_map.mp member
  rfl

theorem boxStored_listed (isProtected : Bool) :
    (boxStored isProtected).nodes.lookup boxTarget.elementId =
      some ⟨9, isProtected, boxElement⟩ := List.lookup_cons_self

theorem boxStored_found (isProtected : Bool) :
    found (.element boxTarget) (some (some (boxStored isProtected))) =
      some (boxIdentity isProtected) := by
  rw [found, boxStored_listed]
  rfl

theorem boxObservation_resolves :
    boxObservation.resolve pageBuild boxTarget 2000 = .ok boxElement := by decide +kernel

section

variable {α ε : Type} (respond : (op : BrowserOp) → Browser.Ans op)

theorem attempt_query (op : BrowserOp) :
    attempt respond (query op : ExceptT ε (Prog Browser) _) = .ok (respond op) := rfl

theorem attempt_orFail (result : Except ε α) : attempt respond (orFail result) = result := rfl

theorem attempt_mapError (x : BrowserM α) :
    attempt respond (mapError x) = (attempt respond x).mapError mapCdpProtocolError := by
  rw [attempt, mapError, ExceptT.run_mk, answered_bind]
  rfl

theorem attempt_orError (error : ε) (value : α) :
    attempt respond (orError error (some value)) = .ok value := rfl

end

section

variable (isProtected : Bool) (valueHash : String)

theorem boxAnswer_stored : attempt (boxAnswer isProtected "" valueHash)
    (storedNode pageBuild boxTarget) =
      .ok (boxIdentity isProtected) := by
  have latest : boxAnswer isProtected "" valueHash .latest = some (some (boxStored isProtected)) :=
    rfl
  have resolved : ((boxStored isProtected).observation.resolve pageBuild boxTarget
      (boxAnswer isProtected "" valueHash .nowMs)).mapError mapSemanticError = .ok boxElement :=
    congrArg (Except.mapError mapSemanticError) boxObservation_resolves
  rw [storedNode, attempt_then _ (attempt_query ..), attempt_then _ (attempt_query ..), latest,
    attempt_then _ (attempt_orError ..), attempt_then _ (attempt_orError ..)]
  rw [attempt_then _ ((attempt_orFail ..).trans resolved), boxStored_listed,
    attempt_then _ (attempt_orError ..)]
  rfl

/-- The name that is left of a marked element is the one it had before. -/
theorem boxAnswer_probe : attempt (boxAnswer isProtected "" valueHash)
    (liveProbe pageBuild pageConfig (fun _ => "function") boxTarget 4000) =
      .ok ⟨redactedProbe (boxValue valueHash) isProtected, (boxIdentity isProtected).fingerprintHash,
        (boxIdentity isProtected).displayGeometryHash⟩ := by
  have verified : attempt (boxAnswer isProtected "" valueHash) verifyProcess = .ok () := rfl
  have stored : attempt (boxAnswer isProtected "" valueHash)
      (mapError (storedNode pageBuild boxTarget)) = .ok (boxIdentity isProtected) := by
    rw [attempt_mapError, boxAnswer_stored]
    rfl
  have document : attempt (boxAnswer isProtected "" valueHash)
      (currentDocumentId pageBuild pageConfig 4000) = .ok (boxIdentity isProtected).documentId := rfl
  have object : attempt (boxAnswer isProtected "" valueHash) (resolveObject
    (boxIdentity isProtected).backendNodeId (boxIdentity isProtected).executionContextId 4000) =
      .ok "object-1" := rfl
  have told (method : String) (parameters : Json) : attempt (boxAnswer isProtected "" valueHash)
      (probeCommand method parameters 4000) = .ok (boxTold "" valueHash method) := rfl
  rw [liveProbe, attempt_then _ verified, attempt_then _ stored, attempt_then _ document,
    if_neg (not_not_intro rfl), attempt_then _ object, attempt_then _ (told ..)]
  have plain : ¬ ((boxTold "" valueHash "Runtime.callFunctionOn").get? "exceptionDetails").isSome =
    true := Bool.false_ne_true
  have value : pointer (boxTold "" valueHash "Runtime.callFunctionOn") ["result", "value"] =
    some (boxValue valueHash) := rfl
  have connected : ¬ ((boxValue valueHash).get? "connected").bind asBool ≠ some true :=
    not_not_intro rfl
  have viewport : viewportOf (boxTold "" valueHash "Page.getLayoutMetrics") = some boxViewport := rfl
  have semantics : liveAxSemantics (boxTold "" valueHash "Accessibility.getPartialAXTree")
    (boxIdentity isProtected).backendNodeId = some (boxSemantics true) := rfl
  have fenced : ¬ (hashSerializable pageBuild boxViewport ≠ (boxIdentity isProtected).displayGeometryHash ∨
      axFingerprint pageBuild boxDocumentId 9 (boxSemantics true) ≠
        (boxIdentity isProtected).fingerprintHash) :=
    not_or.mpr ⟨not_not_intro rfl, not_not_intro rfl⟩
  rw [if_neg plain, value, attempt_then _ (attempt_orError ..), if_neg connected,
    attempt_then _ (told ..), viewport, attempt_then _ (attempt_orError ..),
    attempt_then _ (told ..), semantics, attempt_then _ (attempt_orError ..), attempt_then _ verified]
  exact congrArg (attempt _) (if_neg fenced)

theorem boxAnswer_observed : ∃ element : ObservedElement,
    boxObserved.answered (boxAnswer isProtected "" valueHash) = .ok element ∧
    element.state = redactedProbe (boxValue valueHash) isProtected := by
  have bounded : attempt (boxAnswer isProtected "" valueHash) (mapError (boundary 4000)) = .ok () :=
    rfl
  have probed : attempt (boxAnswer isProtected "" valueHash) (monadLift
      (liveProbe pageBuild pageConfig (fun _ => "function") boxTarget 4000).run :
        ProbeM (Except ProtocolError LiveProbe)) = .ok (.ok _) :=
    (answered_bind _ _ _).trans (congrArg Except.ok (boxAnswer_probe isProtected valueHash))
  change ∃ element, attempt _ (observeWithBoundary _ _ _ _ _) = _ ∧ _
  rw [observeWithBoundary, attempt_then _ bounded]
  dsimp only
  rw [attempt_then _ probed, attempt_then _ bounded]
  exact ⟨_, rfl, rfl⟩

end

/-- A text box that was recorded as protected is observed alike. -/
theorem hidden_reports_kept_box :
    (∃ trace trace' : List (Event Browser),
      names.Related () trace trace' ∧
      Steps (semanticObservation pageBuild pageConfig 5000 1).run trace (.ret (.ok boxObservation)) ∧
      Steps (semanticObservation pageBuild pageConfig 5000 1).run trace'
        (.ret (.ok boxObservation))) ∧
    ∃ trace trace' : List (Event Browser), ∃ element : ObservedElement,
      (reports (.element boxTarget) (Noticed pageBuild)).Related ⟨none, False⟩ trace trace' ∧
      Steps boxObserved trace (.ret (.ok element)) ∧
      Steps boxObserved trace' (.ret (.ok element)) := by
  constructor
  · have observed : (semanticObservation pageBuild pageConfig 5000 1).run.answered
        (boxAnswer true "one" "") = .ok boxObservation := by decide +kernel
    obtain ⟨trace, trace', related, run, _⟩ :=
      alike_histories (boxAnswer_names "one" "two") trivial observed
    exact ⟨trace, trace', related, run,
      (hidden_reports_kept pageBuild pageConfig 5000).1 1 trace trace' _ related run⟩
  · have stored (node : NodeIdentity)
        (recorded : found (.element boxTarget) (some (some (boxStored true))) = some node) :
        Noticed pageBuild node (boxTree "[redacted]" true) := by
      rw [boxStored_found] at recorded
      exact .inl (congrArg NodeIdentity.isProtected (Option.some.inj recorded)).symm
    obtain ⟨element, observed, _⟩ := boxAnswer_observed true "one"
    obtain ⟨trace, trace', related, run, _⟩ :=
      alike_histories (boxAnswer_reports stored "one" "two") unprobed observed
    exact ⟨trace, trace', element, related, run, (hidden_reports_kept pageBuild pageConfig 4000).2
      (fun _ => "function") (.element boxTarget) trace trace' _ related run⟩

/-- One that was not is marked by now, and what it holds is told. -/
theorem marked_report_escapes : ∃ trace trace' : List (Event Browser), ∃ element : ObservedElement,
    (reports (.element boxTarget) fun _ _ => True).Related ⟨none, False⟩ trace trace' ∧
    Steps boxObserved trace (.ret (.ok element)) ∧
    (element.state.get? "value_hash").bind asStr = some "one" ∧
    ¬ Steps boxObserved trace' (.ret (.ok element)) := by
  obtain ⟨element, observed, state⟩ := boxAnswer_observed false "one"
  obtain ⟨element', observed', state'⟩ := boxAnswer_observed false "two"
  have alike := @boxAnswer_reports (fun _ _ => True) false (fun _ _ => trivial) "one" "two"
  obtain ⟨trace, trace', related, run, told⟩ := alike_histories alike unprobed observed
  refine ⟨trace, trace', element, related, run, by rw [state]; rfl, fun run' => ?_⟩
  -- against the other answers the text box reports the other hash
  have same : element' = element :=
    Except.ok.inj (observed'.symm.trans (answered_of_steps _ run' told))
  rw [same, state] at state'
  have hashes : some "one" = some "two" := congrArg
    (fun state : Json => (state.get? "value_hash").bind asStr) state'
  exact absurd hashes (by decide)

end Praefectus.Cdp.CdpExecutor
