import Praefectus.Observe.LinuxTarget
import Praefectus.Observe.LinuxSnapshot

/-!
# What the hash of an observation on Linux depends on

The hash covers the identity of the target, which a successful observation has found unchanged,
and the clock; it does not cover the state. So two observations of one target have the same hash
exactly when the clock read the same, whether or not the target changed in between.
-/

namespace Praefectus.Atspi

open Prog Json

/-! ### Observations that succeed -/

section

variable {bit : State → UInt64} {deadlineAtMs : Int64} {bus : Bus} {build : Build}
  {target : SemanticTargetRef}

/-- Whatever the answers, what is found is found in a run that succeeds. -/
abbrev Yields {I : Interface} {α : Type} (P : α → Prop) (x : ExceptT ProtocolError (Prog I) α) :
    Prop :=
  Finds (fun _ => True) P (fun _ => True) x

theorem yields_atspi {α : Type} {P : α → Prop} {x : AtspiM α} (yields : Yields P x) :
    Yields P (atspi x) := by
  unfold Yields Finds atspi at *
  rw [run_mk]
  generalize x.run = p at yields
  induction p with
  | ret result => exact yields
  | ask op next ih => exact fun ans _ => ih ans (yields ans trivial)

theorem yields_mapErr {ε α : Type} {P : α → Prop} {error : ProtocolError} {result : Except ε α}
    (holds : ∀ value, result = .ok value → P value) : Yields P (mapErr error result) := by
  cases result with
  | ok value => exact finds_pure (holds value rfl)
  | error e => exact finds_throw trivial

/-- A target that is found has the identity it was recorded with, and was sampled twice alike. -/
theorem resolveLive_found (includeValue : Bool) :
    Yields (fun found => hashSerializable build found.2.2.identity.toJson = target.fingerprintHash ∧
        found.2.2.actionability.stable = true)
      (resolveLive bit deadlineAtMs bus build target includeValue) := by
  unfold resolveLive
  apply finds_skip; intro _
  apply finds_skip; intro stored
  apply finds_skip; intro _
  apply finds_skip; intro _
  apply finds_skip; intro _
  apply finds_ite
  · intro _
    exact finds_throw trivial
  · intro _
    refine finds_after (P := fun expected : SemanticElement =>
      expected.fingerprintHash = target.fingerprintHash) (yields_atspi ?_) ?_
    · apply finds_skip
      intro now
      exact yields_mapErr fun element resolved => (resolve_ok.mp resolved).2.2.2.2.2.2.2
    intro expected recorded
    apply finds_skip; intro found
    apply finds_skip; intro _
    apply finds_skip; intro _
    apply finds_skip; intro _
    apply finds_skip; intro first
    apply finds_skip; intro _
    apply finds_skip; intro second
    apply finds_ite
    · intro _
      exact finds_throw trivial
    · intro accepted
      refine finds_pure ?_
      simp only [Bool.or_eq_true, Bool.not_eq_true', decide_eq_true_eq, not_or, not_not] at accepted
      obtain ⟨⟨stable, same⟩, _⟩ := accepted
      exact ⟨same.trans recorded, by simpa using stable⟩

variable (bit deadlineAtMs bus build target) in
/-- A run that ends with an observation: what it sampled last, and what the clock read when the
hash was made. -/
def Observes (trace : List (Event TargetBus)) (observation : Observation) (sample : NodeSample)
    (hashedAtMs : Int64) : Prop :=
  ∃ before resolving stored object observedAtMs,
    trace = before ++ (resolving ++
      [⟨.bus .nowMs, hashedAtMs⟩, ⟨.bus .nowMs, (observedAtMs : Int64)⟩]) ∧
    Steps (checkTargetBoundary deadlineAtMs).run before (.ret (.ok ())) ∧
    Steps (resolveLive bit deadlineAtMs bus build target true).run resolving
      (.ret (.ok (stored, object, sample))) ∧
    observation = {
      evidence := {
        observationHash := hashSerializable build
          (evidenceSeed target (hashSerializable build sample.identity.toJson) hashedAtMs)
        targetFingerprintHash := some (hashSerializable build sample.identity.toJson)
        displayGeometryHash := stored.observation.provenance.displayGeometryHash
        observedAtMs }
      state := observationState sample.actionability sample.valueHash }

theorem steps_clock {trace : List (Event TargetBus)} {now : Int64} :
    Steps (atspi (ask .nowMs)).run trace (.ret (.ok now)) ↔ trace = [⟨.bus .nowMs, now⟩] := by
  constructor
  · intro run
    cases run with
    | step ans run =>
      obtain ⟨rfl, same⟩ := steps_ret.mp run
      obtain rfl := Except.ok.inj same
      rfl
  · rintro rfl
    exact @Steps.step TargetBus _ (.bus .nowMs) _ _ _ now (.refl _)

theorem observes_iff {trace : List (Event TargetBus)} {observation : Observation} :
    Steps (observeTarget bit deadlineAtMs bus build target).run trace (.ret (.ok observation)) ↔
      ∃ sample hashedAtMs, Observes bit deadlineAtMs bus build target trace observation sample
        hashedAtMs := by
  constructor
  · intro run
    obtain ⟨before, _, _, rfl, checked, resolveRun⟩ := steps_try_ok run
    obtain ⟨resolving, ⟨stored, object, sample⟩, _, rfl, resolved, hashRun⟩ :=
      steps_try_ok resolveRun
    obtain ⟨_, hashedAtMs, _, rfl, hashed, observeRun⟩ := steps_try_ok hashRun
    obtain ⟨_, observedAtMs, _, rfl, observed, returned⟩ := steps_try_ok observeRun
    obtain rfl := steps_clock.mp hashed
    obtain rfl := steps_clock.mp observed
    obtain ⟨rfl, same⟩ := steps_ret.mp returned
    exact ⟨sample, hashedAtMs, before, resolving, stored, object, observedAtMs, rfl, checked,
      resolved, (Except.ok.inj same).symm⟩
  · rintro ⟨sample, hashedAtMs, before, resolving, stored, object, observedAtMs, rfl, checked,
      resolved, rfl⟩
    unfold observeTarget
    refine steps_try.mpr (.inr ⟨before, (), _, rfl, checked, ?_⟩)
    refine steps_try.mpr (.inr ⟨resolving, _, _, rfl, resolved, ?_⟩)
    refine steps_try.mpr (.inr ⟨[_], hashedAtMs, [_], rfl, steps_clock.mpr rfl, ?_⟩)
    exact steps_try.mpr (.inr ⟨[_], observedAtMs, [], rfl, steps_clock.mpr rfl, .refl _⟩)

theorem observes_fingerprint {trace : List (Event TargetBus)} {observation : Observation}
    {sample : NodeSample} {hashedAtMs : Int64}
    (observes : Observes bit deadlineAtMs bus build target trace observation sample hashedAtMs) :
    observation.evidence.targetFingerprintHash = some target.fingerprintHash ∧
      observation.evidence.observationHash =
        hashSerializable build (evidenceSeed target target.fingerprintHash hashedAtMs) := by
  obtain ⟨before, resolving, stored, object, observedAtMs, rfl, _, resolved, rfl⟩ := observes
  have found := finds_run (resolveLive_found true) (fun _ _ => trivial) resolved
  exact ⟨congrArg some found.1, by simp only [found.1]⟩

end

/-! ### Two observations -/

/-- What the hash should tell of two observations: nothing of a target that did not change, and
any change of its state or its fingerprint. -/
structure EvidenceOfState (first second : Observation) (sample sample' : NodeSample) : Prop where
  unchanged : sample.identity = sample'.identity → sample.actionability = sample'.actionability →
    sample.valueHash = sample'.valueHash →
    first.evidence.observationHash = second.evidence.observationHash
  changed : sample.actionability ≠ sample'.actionability ∨ sample.valueHash ≠ sample'.valueHash ∨
      first.evidence.targetFingerprintHash ≠ second.evidence.targetFingerprintHash →
    first.evidence.observationHash ≠ second.evidence.observationHash

/-- The clock has moved on exactly where the target has changed. -/
structure ClockTells (sample sample' : NodeSample) (hashedAtMs hashedAtMs' : Int64) : Prop where
  unchanged : sample.identity = sample'.identity → sample.actionability = sample'.actionability →
    sample.valueHash = sample'.valueHash → hashedAtMs = hashedAtMs'
  changed : sample.actionability ≠ sample'.actionability ∨ sample.valueHash ≠ sample'.valueHash →
    hashedAtMs ≠ hashedAtMs'

/-- The hash does not mix up what the two observations hash. -/
def EvidenceApart (build : Build) (target : SemanticTargetRef) (hashedAtMs hashedAtMs' : Int64) :
    Prop :=
  hashSerializable build (evidenceSeed target target.fingerprintHash hashedAtMs) =
      hashSerializable build (evidenceSeed target target.fingerprintHash hashedAtMs') →
    evidenceSeed target target.fingerprintHash hashedAtMs =
      evidenceSeed target target.fingerprintHash hashedAtMs'

theorem evidenceSeed_clock {target : SemanticTargetRef} {fingerprintHash : String}
    {nowMs nowMs' : Int64}
    (same : evidenceSeed target fingerprintHash nowMs = evidenceSeed target fingerprintHash nowMs') :
    nowMs = nowMs' := by
  simp only [evidenceSeed, Json.arr.injEq, List.cons.injEq, and_true, true_and] at same
  exact ofInt64_injective same

/-- Two observations of a target have the same hash exactly if the clock read the same for both,
and so the hash is evidence of the state exactly if the clock tells whether it changed. -/
theorem observation_hash_clock {bit : State → UInt64} {bus : Bus} {build : Build}
    {target : SemanticTargetRef} {deadlineAtMs deadlineAtMs' : Int64}
    {trace trace' : List (Event TargetBus)} {first second : Observation}
    {sample sample' : NodeSample} {hashedAtMs hashedAtMs' : Int64}
    (observes : Observes bit deadlineAtMs bus build target trace first sample hashedAtMs)
    (observes' : Observes bit deadlineAtMs' bus build target trace' second sample' hashedAtMs')
    (apart : EvidenceApart build target hashedAtMs hashedAtMs') :
    (first.evidence.observationHash = second.evidence.observationHash ↔
      hashedAtMs = hashedAtMs') ∧
    (EvidenceOfState first second sample sample' ↔
      ClockTells sample sample' hashedAtMs hashedAtMs') := by
  obtain ⟨fingerprint, hash⟩ := observes_fingerprint observes
  obtain ⟨fingerprint', hash'⟩ := observes_fingerprint observes'
  have clock : first.evidence.observationHash = second.evidence.observationHash ↔
      hashedAtMs = hashedAtMs' := by
    rw [hash, hash']
    constructor
    · intro same
      exact evidenceSeed_clock (apart same)
    · rintro rfl
      rfl
  -- An observation that succeeds has found the fingerprint that the target was recorded with.
  have recorded : first.evidence.targetFingerprintHash = second.evidence.targetFingerprintHash :=
    fingerprint.trans fingerprint'.symm
  refine ⟨clock, ?_, ?_⟩
  · rintro ⟨unchanged, changed⟩
    constructor
    · intro identity actionability valueHash
      exact clock.mp (unchanged identity actionability valueHash)
    · rintro (actionability | valueHash) same
      · exact changed (.inl actionability) (clock.mpr same)
      · exact changed (.inr (.inl valueHash)) (clock.mpr same)
  · rintro ⟨unchanged, changed⟩
    constructor
    · intro identity actionability valueHash
      exact clock.mpr (unchanged identity actionability valueHash)
    · rintro (actionability | valueHash | other) same
      · exact changed (.inl actionability) (clock.mp same)
      · exact changed (.inr valueHash) (clock.mp same)
      · exact other recorded

/-! ### A panel that does not change -/

/-- The numbers of the states on the accessibility bus. -/
def stateNumber : State → UInt64
  | .active => 1
  | .busy => 3
  | .defunct => 6
  | .editable => 7
  | .enabled => 8
  | .iconified => 15
  | .readOnly => 43
  | .sensitive => 24
  | .showing => 25
  | .visible => 30

def stateBit (state : State) : UInt64 := 1 <<< stateNumber state

def panelWindow : SurfaceIdentity :=
  ⟨chainId 0, 23, "frame", none, none, surfaceStates stateBit [.showing, .visible]⟩

def panelStored : StoredSnapshot := chainStoredOf (hashSerializable chainBuild panelWindow.toJson)

def panelTarget : SemanticTargetRef where
  observationId := chainObservationId
  generation := 1
  provenanceHash := chainObservation.provenanceHash chainBuild
  elementId := chainElementId 1
  fingerprintHash := (chainElement 1).fingerprintHash

def panelSample (stable : Bool) : NodeSample where
  identity := ⟨chainId 1, "panel", none, none, 0, 0, []⟩
  actionability := ⟨false, false, true, stable, false, false, false⟩
  invokeAction := none
  valueHash := none

/-- Nothing fails or changes while the panel is found again. -/
def panelAnswer : (op : TargetOp) → TargetBus.Ans op
  | .bus op => chainAnswer op
  | .latest => Except.ok (some panelStored)
  | .loadPrivateObservation _ => Except.error executorError
  | .call (.getRole _) => Except.ok (23 : UInt32)
  | .call (.getRoleName object) => Except.ok (if object = chainObject 0 then "frame" else "panel")
  | .call (.name _) => Except.ok ""
  | .call (.getState object) =>
    Except.ok (if object = chainObject 0 then [.showing, .visible] else [] : StateSet)
  | .call (.getInterfaces _) => Except.ok (⟨[], 0⟩ : InterfaceSet)
  | .call (.getExtents _) => Except.ok (⟨0, 0, 0, 0⟩ : Extents)
  | .call (.nActions _) => Except.ok (0 : Int32)
  | .call (.getName ..) => Except.ok ""
  | .call (.characterCount _) => Except.ok (0 : Int32)
  | .call (.getText ..) => Except.ok ""

theorem attempt_atspi {α : Type} (x : AtspiM α) :
    attempt panelAnswer (atspi x) = attempt chainAnswer x := by
  rw [attempt, attempt, atspi, run_mk]
  induction x.run with
  | ret result => rfl
  | ask op next ih => exact ih _

theorem panel_boundary : attempt panelAnswer (checkTargetBoundary 2000) = .ok () :=
  (attempt_atspi _).trans chain_boundary

theorem panel_stored : attempt panelAnswer (storedOf panelTarget) = .ok panelStored := by
  have latest : attempt panelAnswer latestSnapshot = .ok (some panelStored) := rfl
  have own : panelStored.observation.observationId = panelTarget.observationId := rfl
  rw [storedOf, attempt_then _ latest]
  simp only [own, if_true]
  rfl

theorem panel_validated : attempt panelAnswer
    (atspi (do ofExcept (panelStored.validate chainBus chainBuild (← ask .nowMs)))) = .ok () := by
  have valid := @chain_stored_window (hashSerializable chainBuild panelWindow.toJson)
    (chainBuild_hash _)
  have now : chainAnswer .nowMs = (1000 : Int64) := rfl
  rw [attempt_atspi, attempt_then _ (chain_ask _), now, panelStored, valid]
  rfl

theorem panel_listed : chainElement 1 ∈ chainObservation.elements :=
  List.mem_map_of_mem (List.mem_range.mpr (by decide))

theorem panel_only : (panelStored.observation.elements.filter fun element =>
    element.elementId = panelTarget.elementId) = [chainElement 1] := by
  have only := List.filter_key (·.elementId) chain_wellFormed.ids panel_listed
  exact only

theorem panel_expected : attempt panelAnswer (atspi (do
    mapErr semanticError
      (panelStored.observation.resolve chainBuild panelTarget (← ask .nowMs)))) =
      .ok (chainElement 1) := by
  have resolved : panelStored.observation.resolve chainBuild panelTarget 1000 =
      .ok (chainElement 1) :=
    resolve_ok.mpr ⟨chain_observation_valid, rfl, rfl, rfl, chainBuild_hash _, chainBuild_hash _,
      panel_only, rfl⟩
  have now : chainAnswer .nowMs = (1000 : Int64) := rfl
  rw [attempt_atspi, attempt_then _ (chain_ask _), now, resolved]
  rfl

theorem panel_targets : panelStored.targets =
    (List.range 65).map fun k => (chainElementId k, ⟨chainObject k, none⟩) := rfl

theorem panel_stored_only : panelStored.targets.filter (fun entry => entry.1 = chainElementId 1) =
    [(chainElementId 1, ⟨chainObject 1, none⟩)] := by
  have unique : (panelStored.targets.map Prod.fst).Nodup := by
    rw [panel_targets, List.map_map]
    refine List.nodup_range.map_on fun m less n less' same => ?_
    exact chainElementId_injective (List.mem_range.mp less) (List.mem_range.mp less') same
  have listed : (chainElementId 1, ⟨chainObject 1, none⟩) ∈ panelStored.targets := by
    rw [panel_targets]
    exact List.mem_map.mpr ⟨1, List.mem_range.mpr (by decide), rfl⟩
  have only := List.filter_key Prod.fst unique listed
  exact only

theorem panel_found : storedTarget panelStored panelTarget = .ok ⟨chainObject 1, none⟩ := by
  have own : panelTarget.elementId = chainElementId 1 := rfl
  rw [storedTarget, own, panel_stored_only]
  rfl

theorem panel_window : attempt panelAnswer
    (validateProcessAndWindow stateBit 2000 chainBus chainBuild panelStored) = .ok () := by
  decide +kernel

theorem panel_live : attempt chainAnswer
    (validateLiveDescendant 2000 chainBus (chainObject 1) (chainObject 0) 4242 "generation") =
      .ok () := by
  decide +kernel

theorem panel_sampled : attempt panelAnswer
    (sample stateBit 2000 chainBus chainBuild (chainObject 1) true) = .ok (panelSample false) := by
  decide +kernel

theorem panel_fingerprint : hashSerializable chainBuild (panelSample true).identity.toJson =
    (chainElement 1).fingerprintHash := rfl

theorem panel_resolved : attempt panelAnswer
    (resolveLive stateBit 2000 chainBus chainBuild panelTarget true) =
      .ok (panelStored, chainObject 1, panelSample true) := by
  have geometry : attempt panelAnswer (atspi (checkDisplayGeometry
      panelStored.observation.provenance.displayGeometryHash)) = .ok () := by
    have own : panelStored.observation.provenance.displayGeometryHash = chainGeometry := rfl
    rw [attempt_atspi, own, checkDisplayGeometry, attempt_then _ (chain_ask _)]
    simp [chainAnswer, ofExcept]
  have own : panelStored.observation.observationId = panelTarget.observationId := rfl
  have found : attempt panelAnswer (atspi (ofExcept (storedTarget panelStored panelTarget))) =
      .ok ⟨chainObject 1, none⟩ := by
    rw [panel_found]
    rfl
  have valid : attempt panelAnswer
      (atspi (ofExcept ((⟨chainObject 1, none⟩ : StoredTarget).validate chainBus))) = .ok () := by
    decide +kernel
  have live : attempt panelAnswer (atspi (validateLiveDescendant 2000 chainBus (chainObject 1)
      panelStored.window panelStored.processId panelStored.processGeneration)) = .ok () :=
    (attempt_atspi _).trans panel_live
  rw [resolveLive, attempt_then _ panel_boundary, attempt_then _ panel_stored,
    attempt_then _ panel_boundary, attempt_then _ geometry, attempt_then _ panel_validated]
  simp only [own, ne_eq, not_true_eq_false, if_false]
  rw [attempt_then _ panel_expected, attempt_then _ found, attempt_then _ valid,
    attempt_then _ panel_window, attempt_then _ live, attempt_then _ panel_sampled,
    attempt_then _ panel_boundary, attempt_then _ panel_sampled]
  have fingerprint := panel_fingerprint
  simp only [panelSample, and_self, decide_true, Bool.not_true, Bool.false_or] at fingerprint ⊢
  simp [fingerprint]

/-- The panel is observed, whatever the clock reads when the hash is made. -/
theorem panel_observed (hashedAtMs : Int64) : ∃ trace observation,
    Observes stateBit 2000 chainBus chainBuild panelTarget trace observation (panelSample true)
      hashedAtMs := by
  obtain ⟨before, _, checked⟩ := @steps_answered TargetBus _ panelAnswer (fun _ => True)
    (fun _ => trivial) (checkTargetBoundary 2000).run
  obtain ⟨resolving, _, resolved⟩ := @steps_answered TargetBus _ panelAnswer (fun _ => True)
    (fun _ => trivial) (resolveLive stateBit 2000 chainBus chainBuild panelTarget true).run
  have found := panel_resolved
  rw [attempt] at found
  rw [found] at resolved
  exact ⟨_, _, before, resolving, panelStored, chainObject 1, 1000, rfl, checked, resolved, rfl⟩

theorem panel_apart :
    hashSerializable chainBuild (evidenceSeed panelTarget panelTarget.fingerprintHash 1000) ≠
      hashSerializable chainBuild (evidenceSeed panelTarget panelTarget.fingerprintHash 1001) := by
  decide +kernel

theorem observation_hash_clock_panel : ∃ trace trace' first second,
    Observes stateBit 2000 chainBus chainBuild panelTarget trace first (panelSample true) 1000 ∧
    Observes stateBit 2000 chainBus chainBuild panelTarget trace' second (panelSample true) 1001 ∧
    ¬ EvidenceOfState first second (panelSample true) (panelSample true) := by
  obtain ⟨trace, first, observes⟩ := panel_observed 1000
  obtain ⟨trace', second, observes'⟩ := panel_observed 1001
  refine ⟨trace, trace', first, second, observes, observes', ?_⟩
  have clock := observation_hash_clock observes observes' fun same => absurd same panel_apart
  intro evidence
  exact absurd ((clock.2.mp evidence).unchanged rfl rfl rfl) (by decide)

/-- The hash of a panel that does not change differs from one millisecond to the next. -/
theorem observation_hash_stale : ¬ ∀ (bit : State → UInt64) (bus : Bus) (build : Build)
    (target : SemanticTargetRef) (deadlineAtMs deadlineAtMs' : Int64)
    (trace trace' : List (Event TargetBus)) (first second : Observation)
    (sample sample' : NodeSample) (hashedAtMs hashedAtMs' : Int64),
    Observes bit deadlineAtMs bus build target trace first sample hashedAtMs →
    Observes bit deadlineAtMs' bus build target trace' second sample' hashedAtMs' →
    EvidenceApart build target hashedAtMs hashedAtMs' → EvidenceOfState first second sample sample' := by
  intro claimed
  obtain ⟨trace, first, observes⟩ := panel_observed 1000
  obtain ⟨trace', second, observes'⟩ := panel_observed 1001
  have evidence := claimed _ _ _ _ _ _ _ _ _ _ _ _ _ _ observes observes'
    fun same => absurd same panel_apart
  have same := evidence.unchanged rfl rfl rfl
  rw [(observes_fingerprint observes).2, (observes_fingerprint observes').2] at same
  exact panel_apart same

end Praefectus.Atspi
