import Praefectus.Semantic.Observation
import Praefectus.Text.Trim
import Mathlib.Data.List.Perm.Subperm
import Mathlib.Logic.Function.Basic

/-!
# The target fence

A target names one element of one observation. The observation that made it resolves
it to that element, and no observation with another identity, provenance or lifetime
resolves it at all, as long as the hash keeps what it covers apart.
-/

theorem List.filter_key {α β : Type} [DecidableEq β] (key : α → β) {items : List α}
    (unique : (items.map key).Nodup) {a : α} (member : a ∈ items) :
    items.filter (fun item => key item = key a) = [a] := by
  induction items with
  | nil => cases member
  | cons head tail ih =>
    simp only [List.map_cons, List.nodup_cons, List.mem_map, not_exists, not_and] at unique
    have others : ∀ item ∈ tail, key item ≠ key head := fun item found => unique.1 item found
    rcases List.mem_cons.mp member with rfl | found
    · -- the element is the head, and nothing after it has its key
      have rest : tail.filter (fun item => key item = key a) = [] := by
        rw [List.filter_eq_nil_iff]
        intro item found
        simpa using others item found
      simp [rest]
    · have differ : key head ≠ key a := fun equal => others a found equal.symm
      simp [differ, ih unique.2 found]

namespace Json

theorem ofStrings_injective {a b : List String} (same : ofStrings a = ofStrings b) : a = b := by
  simp only [ofStrings, Json.arr.injEq] at same
  exact List.map_injective_iff.mpr (fun _ _ equal => Json.str.inj equal) same

theorem ofOption_str_injective {a b : Option String}
    (same : ofOption .str a = ofOption .str b) : a = b := by
  cases a <;> cases b <;> simp_all [ofOption]

theorem canonicalize_ofStrings (strings : List String) :
    (ofStrings strings).canonicalize = ofStrings strings := by
  simp [ofStrings, canonicalize, canonicalItems_eq, Function.comp_def]

theorem canonicalize_ofOption_str (text : Option String) :
    (ofOption .str text).canonicalize = ofOption .str text := by
  cases text <;> rfl

end Json

namespace Praefectus

open Json

/-! ### What the hash keeps apart -/

theorem hexDigit_injective : ∀ m < 16, ∀ n < 16, hexDigit m = hexDigit n → m = n := by decide

theorem hexBytes_injective {a b : List UInt8} (same : hexBytes a = hexBytes b) : a = b := by
  induction a generalizing b with
  | nil =>
    cases b with
    | nil => rfl
    | cons => simp [hexBytes] at same
  | cons x a ih =>
    cases b with
    | nil => simp [hexBytes] at same
    | cons y b =>
      simp only [hexBytes, List.flatMap_cons, List.cons_append, List.nil_append,
        List.cons.injEq] at same
      obtain ⟨first, second, rest⟩ := same
      have small (z : UInt8) : z.toNat < 256 := z.toNat_lt
      have high := hexDigit_injective _ (by have := small x; omega) _
        (by have := small y; omega) first
      have low := hexDigit_injective _ (by omega) _ (by omega) second
      have byte : x = y := by
        apply UInt8.toNat_inj.mp
        omega
      rw [byte, ih rest]

theorem asBytes_hexEncode (bytes : List UInt8) : (hexEncode bytes).asBytes = hexBytes bytes := rfl

theorem hexEncode_injective {a b : List UInt8} (same : hexEncode a = hexEncode b) : a = b :=
  hexBytes_injective (congrArg String.asBytes same)

section Hash

variable {build : Build} (distinct : Function.Injective build.sha256)

include distinct

theorem hashSerializable_injective {i j : Json}
    (same : hashSerializable build i = hashSerializable build j) :
    i.canonicalize = j.canonicalize := by
  have bytes := distinct (hexEncode_injective same)
  exact print_injective (utf8_injective bytes)

end Hash

theorem hexDigit_valid : ∀ n < 16, isLowerHex (hexDigit n) = true := by decide

/-- The digest of a text is a hash. -/
theorem semanticHash_hexEncode {bytes : List UInt8} (long : bytes.length = 32) :
    semanticHash (hexEncode bytes) = true := by
  have size : (hexEncode bytes).utf8ByteSize = (hexBytes bytes).length := rfl
  have whole : (hexBytes bytes).length = 64 := by simp [hexBytes, List.length_flatMap, long]
  rw [semanticHash, size, whole, asBytes_hexEncode]
  simp only [decide_true, Bool.true_and, List.all_eq_true]
  intro digit member
  obtain ⟨b, _, written⟩ := List.mem_flatMap.mp member
  have small := b.toNat_lt
  rcases List.mem_pair.mp written with rfl | rfl
  · exact hexDigit_valid (b.toNat / 16) (by omega)
  · exact hexDigit_valid (b.toNat % 16) (by omega)

theorem semanticHash_length {value : String} (valid : semanticHash value = true) :
    value.length ≤ 64 := by
  simp only [semanticHash, Bool.and_eq_true, decide_eq_true_eq] at valid
  rw [← valid.1, String.utf8ByteSize_eq, ← String.length_toList]
  exact length_le_utf8 value.toList

theorem validText_semanticHash {value : String} {maximum : Nat} (valid : semanticHash value = true)
    (fits : 64 ≤ maximum) : validText value 1 maximum = true := by
  simp only [semanticHash, Bool.and_eq_true, decide_eq_true_eq, List.all_eq_true] at valid
  obtain ⟨size, digits⟩ := valid
  have plain : ∀ c ∈ value.toList, isControl c = false ∧ isWhitespace c = false := by
    intro c member
    obtain ⟨b, byte⟩ := List.exists_mem_of_ne_nil _ (@String.utf8EncodeChar_ne_nil c)
    have digit := digits b (value.asBytes_eq ▸ List.mem_flatMap.mpr ⟨c, member, byte⟩)
    simp [isLowerHex, UInt8.le_iff_toNat_le] at digit
    -- a byte below 128 is the character itself
    rcases utf8EncodeChar_byte byte with same | high
    · simp [isControl, isWhitespace]
      omega
    · omega
  have nonempty : value.toList ≠ [] := by
    intro empty
    rw [String.utf8ByteSize_eq, empty] at size
    simp at size
  obtain ⟨c, member⟩ := List.exists_mem_of_ne_nil _ nonempty
  have each : ∀ c ∈ value.toList, isControl c = false := fun c member => (plain c member).1
  simp only [validText, String.characters_eq, Bool.and_eq_true, decide_eq_true_eq,
    List.all_eq_true, Bool.not_eq_true', List.all_eq_false, Bool.not_eq_true]
  exact ⟨⟨by omega, each⟩, c, member, (plain c member).2⟩

/-! ### What the provenance hash covers -/

theorem SemanticBackend.text_injective : ∀ {a b : SemanticBackend}, a.text = b.text → a = b := by
  rintro ⟨⟩ ⟨⟩ same <;> first | rfl | exact absurd same (by decide)

theorem SemanticProvenance.uniqueKeys (provenance : SemanticProvenance) :
    provenance.toJson.uniqueKeys = true := by
  have optIns : (ofStrings provenance.hostOptIns).uniqueKeys = true := by
    simp only [ofStrings, Json.uniqueKeys]
    induction provenance.hostOptIns with
    | nil => rfl
    | cons text rest ih => simp [uniqueItems, Json.uniqueKeys, ih]
  have document : (ofOption Json.str provenance.documentId).uniqueKeys = true := by
    cases provenance.documentId <;> rfl
  simp [toJson, Json.uniqueKeys, uniqueMembers, optIns, document, ofUInt32, ofUInt64]

theorem SemanticProvenance.toJson_injective {a b : SemanticProvenance}
    (same : a.toJson.canonicalize = b.toJson.canonicalize) : a = b := by
  have field := get?_congr same a.uniqueKeys b.uniqueKeys
  have backend := field "backend"
  have backendName := field "backend_name"
  have processId := field "process_id"
  have processGeneration := field "process_generation"
  have windowId := field "window_id"
  have documentId := field "document_id"
  have displayGeometryHash := field "display_geometry_hash"
  have hostOptIns := field "host_opt_ins"
  simp only [toJson, get?, List.lookup_cons, String.reduceBEq, Option.map_some, canonicalize,
    canonicalize_ofStrings, canonicalize_ofOption_str, Option.some.injEq, Json.str.injEq]
    at backend backendName processId processGeneration windowId documentId displayGeometryHash
      hostOptIns
  cases a
  cases b
  simp only [SemanticProvenance.mk.injEq]
  exact ⟨SemanticBackend.text_injective backend, backendName, ofUInt32_injective processId,
    processGeneration, windowId, ofOption_str_injective documentId, displayGeometryHash,
    ofStrings_injective hostOptIns⟩

/-- Two observations that agree on all an observation's targets are bound to. -/
structure SameFence (o o' : SemanticObservation) : Prop where
  protocolVersion : o.protocolVersion = o'.protocolVersion
  observationId : o.observationId = o'.observationId
  generation : o.generation = o'.generation
  provenance : o.provenance = o'.provenance
  observedAtMs : o.observedAtMs = o'.observedAtMs
  expiresAtMs : o.expiresAtMs = o'.expiresAtMs

theorem fence_injective {o o' : SemanticObservation}
    (same : o.fence.canonicalize = o'.fence.canonicalize) : SameFence o o' := by
  simp only [SemanticObservation.fence, canonicalize, canonicalItems, Json.arr.injEq,
    List.cons.injEq, and_true] at same
  obtain ⟨version, identifier, generation, provenance, observed, expires⟩ := same
  constructor
  · exact ofUInt16_injective version
  · exact Json.str.inj identifier
  · exact ofUInt64_injective generation
  · exact SemanticProvenance.toJson_injective provenance
  · exact ofInt64_injective observed
  · exact ofInt64_injective expires

/-! ### What the mapping accepts -/

/-- More fuel than elements does not change the walk to the ancestors: the identifiers it
has passed are distinct, and each of them is an element's. -/
theorem revisits_fuel (elements : Mapping) (fuel : Nat) (ancestors : List String)
    (next : Option String) (enough : elements.length + 1 ≤ fuel + ancestors.length)
    (distinct : ancestors.Nodup) (known : ∀ id ∈ ancestors, (elements.get id).isSome) :
    revisits elements (fuel + 1) ancestors next = revisits elements fuel ancestors next := by
  induction fuel generalizing ancestors next with
  | zero =>
    have subset : ancestors ⊆ elements.map (·.elementId) := by
      intro id passed
      obtain ⟨element, found⟩ := Option.isSome_iff_exists.mp (known id passed)
      have member := List.mem_of_find?_eq_some found
      have key : element.elementId = id := by simpa using List.find?_some found
      exact List.mem_map.mpr ⟨element, member, key⟩
    have short := (List.subperm_of_subset distinct subset).length_le
    rw [List.length_map] at short
    omega
  | succ fuel ih =>
    cases next with
    | none => rfl
    | some id =>
      rw [revisits, revisits.eq_3 elements ancestors fuel id]
      by_cases passed : id ∈ ancestors
      · simp [passed]
      · cases found : elements.get id with
        | none => cases fuel <;> simp [revisits]
        | some element =>
          have known' : ∀ id' ∈ id :: ancestors, (elements.get id').isSome := by
            intro id' member
            rcases List.mem_cons.mp member with rfl | earlier
            · simp [found]
            · exact known id' earlier
          have longer : elements.length + 1 ≤ fuel + (id :: ancestors).length := by
            simp only [List.length_cons]
            omega
          rw [ih (id :: ancestors) _ longer (List.nodup_cons.mpr ⟨passed, distinct⟩) known']

/-- The elements of a snapshot that is used: valid, told apart by tag and by identifier,
and with parents among themselves. -/
structure WellFormed (elements : List SemanticElement) : Prop where
  valid : ∀ element ∈ elements, validElement element = true
  tags : (elements.map (·.tag)).Nodup
  ids : (elements.map (·.elementId)).Nodup
  parents : ∀ element ∈ elements, checkParents elements element = .ok ()

theorem insertElement_ok {elements elements' : Mapping} {element : SemanticElement} :
    insertElement elements element = .ok elements' ↔
      validElement element = true ∧ element.tag ∉ elements.map (·.tag) ∧
        element.elementId ∉ elements.map (·.elementId) ∧ elements' = elements ++ [element] := by
  have member {f : SemanticElement → String} :
      (elements.any fun earlier => f earlier = f element) = true ↔
        f element ∈ elements.map f := by
    simp
  unfold insertElement
  split
  next invalid =>
    simp only [Bool.not_eq_true'] at invalid
    simp [invalid, throw, throwThe, MonadExceptOf.throw]
  next valid =>
    split
    next tag =>
      have taken := member.mp tag
      simp [taken, throw, throwThe, MonadExceptOf.throw]
    next tag =>
      have free := mt member.mpr tag
      split
      next id =>
        have taken := member.mp id
        simp [taken, throw, throwThe, MonadExceptOf.throw]
      next id =>
        have free' := mt member.mpr id
        simp only [Bool.not_eq_true', Bool.not_eq_false] at valid
        simp only [valid, free, free', pure, Except.pure, Except.ok.injEq, not_false_eq_true,
          true_and]
        exact eq_comm

theorem insertElements_ok {items : List SemanticElement} {done elements : Mapping}
    (tags : (done.map (·.tag)).Nodup) (ids : (done.map (·.elementId)).Nodup) :
    items.foldlM insertElement done = .ok elements ↔
      elements = done ++ items ∧ (∀ element ∈ items, validElement element = true) ∧
        ((done ++ items).map (·.tag)).Nodup ∧ ((done ++ items).map (·.elementId)).Nodup := by
  induction items generalizing done with
  | nil =>
    simp only [List.foldlM_nil, pure, Except.pure, Except.ok.injEq, List.append_nil, tags, ids,
      List.not_mem_nil, false_implies, implies_true, and_true]
    exact eq_comm
  | cons item items ih =>
    have append : done ++ item :: items = (done ++ [item]) ++ items := by simp
    rw [List.foldlM_cons, append]
    constructor
    · intro all
      cases first : insertElement done item with
      | error => simp [first, bind, Except.bind] at all
      | ok done' =>
        obtain ⟨valid, tag, id, rfl⟩ := insertElement_ok.mp first
        have tags' : ((done ++ [item]).map (·.tag)).Nodup := by
          simpa [List.nodup_append, tags] using fun a b c => (tag (by simpa using ⟨a, b, c⟩))
        have ids' : ((done ++ [item]).map (·.elementId)).Nodup := by
          simpa [List.nodup_append, ids] using fun a b c => (id (by simpa using ⟨a, b, c⟩))
        simp only [first, bind, Except.bind] at all
        obtain ⟨shape, others, rest⟩ := (ih tags' ids').mp all
        exact ⟨shape, List.forall_mem_cons.mpr ⟨valid, others⟩, rest⟩
    · rintro ⟨rfl, valid, tags', ids'⟩
      have before {f : SemanticElement → String}
          (unique : ((done ++ [item] ++ items).map f).Nodup) :
          ((done ++ [item]).map f).Nodup := by
        rw [List.map_append] at unique
        exact unique.of_append_left
      have fresh {f : SemanticElement → String}
          (unique : ((done ++ [item]).map f).Nodup) : f item ∉ done.map f := by
        rw [List.map_append, List.nodup_append] at unique
        intro taken
        exact unique.2.2 _ taken _ (by simp) rfl
      have first : insertElement done item = .ok (done ++ [item]) :=
        insertElement_ok.mpr ⟨valid item List.mem_cons_self, fresh (before tags'),
          fresh (before ids'), rfl⟩
      simp only [first, bind, Except.bind]
      apply (ih (before tags') (before ids')).mpr
      exact ⟨rfl, fun element member => valid element (List.mem_cons_of_mem _ member), tags', ids'⟩

theorem forM_ok {α ε : Type} {check : α → Except ε Unit} {items : List α} :
    items.forM check = .ok () ↔ ∀ item ∈ items, check item = .ok () := by
  induction items with
  | nil => simp [pure, Except.pure]
  | cons item items ih =>
    rw [List.forall_mem_cons, ← ih]
    change (check item >>= fun _ => items.forM check) = .ok () ↔ _
    cases check item <;> simp [bind, Except.bind]

theorem buildMapping_ok {items : List SemanticElement} {elements : Mapping} :
    buildMapping items = .ok elements ↔ elements = items ∧ WellFormed items := by
  unfold buildMapping
  constructor
  · intro accepted
    cases first : items.foldlM insertElement [] with
    | error => simp [first, bind, Except.bind] at accepted
    | ok mapping =>
      obtain ⟨shape, valid, tags, ids⟩ :=
        (@insertElements_ok items [] _ List.nodup_nil List.nodup_nil).mp first
      rw [List.nil_append] at shape tags ids
      subst shape
      cases second : mapping.forM (checkParents mapping) with
      | error => simp [first, second, bind, Except.bind] at accepted
      | ok =>
        simp only [first, second, bind, Except.bind, pure, Except.pure, Except.ok.injEq] at accepted
        exact ⟨accepted.symm, ⟨valid, tags, ids, forM_ok.mp second⟩⟩
  · rintro ⟨rfl, wellFormed⟩
    have first : elements.foldlM insertElement [] = .ok elements :=
      (@insertElements_ok elements [] _ List.nodup_nil List.nodup_nil).mpr
        ⟨rfl, wellFormed.valid, wellFormed.tags, wellFormed.ids⟩
    have second := forM_ok.mpr wellFormed.parents
    simp [first, second, bind, Except.bind, pure, Except.pure]

/-! ### What a valid observation is -/

theorem validate_ok {o : SemanticObservation} {nowMs : Int64} (valid : o.validate nowMs = .ok ()) :
    o.observedAtMs ≤ nowMs ∧ nowMs < o.expiresAtMs ∧ WellFormed o.elements := by
  unfold SemanticObservation.validate at valid
  split at valid
  next => cases valid
  next checks =>
    split at valid
    next => cases valid
    next fresh =>
      cases mapped : buildMapping o.elements with
      | error => simp [mapped, bind, Except.bind] at valid
      | ok elements =>
        simp only [Bool.or_eq_true, decide_eq_true_eq, not_or] at checks
        exact ⟨Int64.not_lt.mp checks.1.1.1.2, Int64.not_le.mp fresh, (buildMapping_ok.mp mapped).2⟩

theorem target_ok {build : Build} {o : SemanticObservation} {tag : String}
    {t : SemanticTargetRef} (made : o.target build tag = .ok t) :
    ∃ e ∈ o.elements, t = {
      observationId := o.observationId
      generation := o.generation
      provenanceHash := o.provenanceHash build
      elementId := e.elementId
      fingerprintHash := e.fingerprintHash } := by
  unfold SemanticObservation.target at made
  split at made
  next => cases made
  next element only =>
    have member : element ∈ o.elements := by
      have found : element ∈ o.elements.filter fun e => e.tag = tag := by simp [only]
      exact (List.mem_filter.mp found).1
    exact ⟨element, member, (Except.ok.inj made).symm⟩
  next => cases made

theorem resolve_ok {build : Build} {o : SemanticObservation} {t : SemanticTargetRef}
    {nowMs : Int64} {e : SemanticElement} :
    o.resolve build t nowMs = .ok e ↔
      o.validate nowMs = .ok () ∧ t.observationId = o.observationId ∧
        t.generation = o.generation ∧ t.provenanceHash = o.provenanceHash build ∧
        semanticHash t.elementId = true ∧ semanticHash t.fingerprintHash = true ∧
        (o.elements.filter fun element => element.elementId = t.elementId) = [e] ∧
        e.fingerprintHash = t.fingerprintHash := by
  unfold SemanticObservation.resolve
  cases valid : o.validate nowMs with
  | error => simp [bind, Except.bind]
  | ok =>
    simp only [bind, Except.bind, true_and]
    split
    next stale =>
      simp only [Bool.or_eq_true, decide_eq_true_eq, Bool.not_eq_true'] at stale
      simp only [throw, throwThe, MonadExceptOf.throw, reduceCtorEq, false_iff]
      rintro ⟨identifier, generation, provenance, elementId, fingerprint, -⟩
      simp_all
    next bound =>
      simp only [Bool.or_eq_true, decide_eq_true_eq, Bool.not_eq_true', not_or, not_not,
        Bool.not_eq_false] at bound
      obtain ⟨⟨⟨⟨identifier, generation⟩, provenance⟩, elementId⟩, fingerprint⟩ := bound
      simp only [identifier, generation, provenance, elementId, fingerprint, true_and]
      split
      next none => simp [throw, throwThe, MonadExceptOf.throw, none]
      next element only =>
        by_cases agrees : element.fingerprintHash = t.fingerprintHash
        · simp only [agrees, ne_eq, not_true_eq_false, if_false, only, pure, Except.pure,
            Except.ok.injEq, List.cons.injEq, and_true]
          constructor
          · rintro rfl
            exact ⟨rfl, agrees⟩
          · exact fun both => both.1
        · simp only [ne_eq, agrees, not_false_eq_true, if_true, throw, throwThe,
            MonadExceptOf.throw, reduceCtorEq, only, List.cons.injEq, and_true, false_iff]
          rintro ⟨rfl, same⟩
          exact agrees same
      next nonempty single =>
        simp only [throw, throwThe, MonadExceptOf.throw, reduceCtorEq, false_iff, not_and]
        intro only
        exact absurd only (single e)

/-! ### The fence -/

/-- A valid observation resolves each of its targets to the element it was made for. -/
theorem resolve_target (build : Build) {o : SemanticObservation} {nowMs : Int64}
    {e : SemanticElement} (valid : o.validate nowMs = .ok ()) (member : e ∈ o.elements) :
    ∃ t, o.target build e.tag = .ok t ∧ o.resolve build t nowMs = .ok e := by
  obtain ⟨-, -, wellFormed⟩ := validate_ok valid
  have byTag := List.filter_key (·.tag) wellFormed.tags member
  have byId := List.filter_key (·.elementId) wellFormed.ids member
  have hashes : semanticHash e.elementId = true ∧ semanticHash e.fingerprintHash = true := by
    have checks := wellFormed.valid e member
    simp only [validElement, Bool.and_eq_true] at checks
    exact ⟨checks.1.1.1.1.1.2, checks.1.1.1.1.2⟩
  let t : SemanticTargetRef := {
    observationId := o.observationId
    generation := o.generation
    provenanceHash := o.provenanceHash build
    elementId := e.elementId
    fingerprintHash := e.fingerprintHash }
  have made : o.target build e.tag = .ok t := by
    simp only [SemanticObservation.target, byTag]
    rfl
  have back : o.resolve build t nowMs = .ok e :=
    resolve_ok.mpr ⟨valid, rfl, rfl, rfl, hashes.1, hashes.2, byId, rfl⟩
  exact ⟨t, made, back⟩

/-- **The fence is complete and sound.** -/
theorem fence_binds (build : Build) (distinct : Function.Injective build.sha256) :
    (∀ (o : SemanticObservation) (nowMs : Int64) (e : SemanticElement),
      o.validate nowMs = .ok () → e ∈ o.elements →
        ∃ t, o.target build e.tag = .ok t ∧ o.resolve build t nowMs = .ok e) ∧
    (∀ (o : SemanticObservation) (t : SemanticTargetRef) (nowMs : Int64) (e : SemanticElement),
      o.resolve build t nowMs = .ok e →
        o.validate nowMs = .ok () ∧ o.observedAtMs ≤ nowMs ∧ nowMs < o.expiresAtMs ∧
        (o.elements.filter fun element => element.elementId = t.elementId) = [e] ∧
        e.fingerprintHash = t.fingerprintHash ∧
        ∀ (o' : SemanticObservation) (tag : String),
          o'.target build tag = .ok t → SameFence o' o) := by
  constructor
  · intro o nowMs e valid member
    exact resolve_target build valid member
  · intro o t nowMs e resolved
    obtain ⟨valid, -, -, provenance, -, -, only, fingerprint⟩ := resolve_ok.mp resolved
    obtain ⟨observed, unexpired, -⟩ := validate_ok valid
    refine ⟨valid, observed, unexpired, only, fingerprint, ?_⟩
    intro o' tag made
    obtain ⟨e', -, rfl⟩ := target_ok made
    exact fence_injective (hashSerializable_injective distinct provenance)

/-! ### A snapshot of a window and a button in it -/

def ready : Actionability := ⟨true, true, true, true, true, true, false⟩

def sampleWindow : SemanticElement where
  tag := "e0"
  elementId := "".pushn 'b' 64
  parentId := none
  fingerprintHash := "".pushn 'c' 64
  role := "frame"
  name := some "Editor"
  bounds := some ⟨0, 0, 800, 600⟩
  actionability := ready

def sampleButton : SemanticElement where
  tag := "e1"
  elementId := "".pushn 'e' 64
  parentId := some sampleWindow.elementId
  fingerprintHash := "".pushn 'f' 64
  role := "push button"
  name := none
  bounds := none
  actionability := ready

def sampleObservation : SemanticObservation where
  protocolVersion := protocolVersion
  observationId := "".pushn 'a' 64
  generation := 1
  provenance := {
    backend := .accessibility
    backendName := "praefectus-atspi2"
    processId := 4242
    processGeneration := "process-1"
    windowId := "window-1"
    documentId := none
    displayGeometryHash := "".pushn 'd' 64
    hostOptIns := ["trusted_window"] }
  observedAtMs := 1000
  expiresAtMs := 6000
  truncated := false
  elements := [sampleWindow, sampleButton]

/-- The digest of the sample's fence is the real one; no other message has it. -/
def sampleSha256 (bytes : List UInt8) : List UInt8 :=
  if bytes = canonicalJsonBytes sampleObservation.fence then
    [97, 206, 146, 233, 112, 117, 29, 112, 99, 253, 79, 188, 67, 185, 114, 132, 62, 63, 6, 29, 206,
      104, 169, 109, 157, 152, 251, 97, 34, 116, 0, 236]
  else bytes ++ List.replicate 33 0

theorem sampleSha256_injective : Function.Injective sampleSha256 := by
  intro a b same
  unfold sampleSha256 at same
  split at same
  next known =>
    split at same
    next known' => rw [known, known']
    next => simpa using congrArg List.length same
  next =>
    split at same
    next => simpa using congrArg List.length same
    next => exact List.append_cancel_right same

theorem sampleObservation_valid : sampleObservation.validate 2000 = .ok () := by
  decide +kernel

theorem fence_binds_button :
    ∃ t, sampleObservation.target ⟨false, sampleSha256⟩ "e1" = .ok t ∧
      sampleObservation.resolve ⟨false, sampleSha256⟩ t 2000 = .ok sampleButton ∧
      (sampleObservation.elements.filter fun element => element.elementId = t.elementId) =
        [sampleButton] := by
  have binds := fence_binds ⟨false, sampleSha256⟩ sampleSha256_injective
  obtain ⟨t, made, resolved⟩ := binds.1 sampleObservation 2000 sampleButton
    sampleObservation_valid (by simp [sampleObservation])
  exact ⟨t, made, resolved, (binds.2 sampleObservation t 2000 sampleButton resolved).2.2.2.1⟩

end Praefectus
