import Praefectus.Ledger.Repair
import Praefectus.Protocol.Reader
import Praefectus.Program.Emissions
import Praefectus.Program.Play

/-!
# The derived reader of ledger records

The reader that is derived for the types of a record refuses fields it does not know and
fields that come twice. An optional field may be missing. An enum is told by its tag; the
fields of its variant lie beside the tag.
-/

namespace Praefectus

open Json Prog

/-! ### Structs and enums -/

/-- A struct that is read from its known fields, each of them at most once. -/
def strictly {α : Type} (names : List String) (read : Json → Option α) : Json → Option α
  | .obj members =>
    if members.all (fun member => names.contains member.1) && (members.map Prod.fst).Nodup then
      read (.obj members)
    else none
  | _ => none

/-- A field that may be missing, or null. -/
def optionalField {α : Type} (j : Json) (name : String) (f : Json → Option α) : Option (Option α) :=
  match j.get? name with
  | some value => optionOf f value
  | none => some none

/-- An enum that is read by its tag, from what lies beside the tag. -/
def tagged {α : Type} (variant : String → Json → Option α) : Json → Option α
  | .obj members =>
    match members.filter (·.1 = "kind") with
    | [(_, .str tag)] => variant tag (.obj (members.filter (·.1 ≠ "kind")))
    | _ => none
  | _ => none

/-- An object with some of the fields of the struct, in their order. -/
theorem strictly_within {α : Type} {names : List String} {read : Json → Option α}
    {members : List (String × Json)} (known : (members.map Prod.fst).Sublist names)
    (unique : names.Nodup) : strictly names read (.obj members) = read (.obj members) := by
  have all : members.all (fun member => names.contains member.1) = true := by
    refine List.all_eq_true.mpr fun member held => ?_
    exact List.contains_iff_mem.mpr (known.subset (List.mem_map_of_mem held))
  rw [strictly, all, decide_eq_true (unique.sublist known), Bool.and_true, if_pos rfl]

theorem strictly_eq {α : Type} {names : List String} {read : Json → Option α}
    {members : List (String × Json)} (known : members.map Prod.fst = names) (unique : names.Nodup) :
    strictly names read (.obj members) = read (.obj members) := by
  have within : (members.map Prod.fst).Sublist names := by rw [known]
  exact strictly_within within unique

/-- The tag comes first, and what lies beside it is the rest. -/
theorem tagged_head {α : Type} {variant : String → Json → Option α} {tag : String}
    {members : List (String × Json)} (apart : "kind" ∉ members.map Prod.fst) :
    tagged variant (.obj (("kind", .str tag) :: members)) = variant tag (.obj members) := by
  have other : ∀ member ∈ members, member.1 ≠ "kind" := by
    intro member held same
    exact apart (same ▸ List.mem_map_of_mem held)
  have none : members.filter (fun member => member.1 = "kind") = [] := by
    rw [List.filter_eq_nil_iff]
    intro member held
    simpa using other member held
  have all : members.filter (fun member => member.1 ≠ "kind") = members := by
    rw [List.filter_eq_self]
    intro member held
    simpa using other member held
  simp only [tagged, List.filter_cons, none, all, decide_true, ne_eq, not_true_eq_false,
    decide_false, if_true, Bool.false_eq_true, if_false]

@[simp] theorem optionalField_head {α : Type} (name : String) (value : Json) (f : Json → Option α)
    (members : List (String × Json)) :
    optionalField (.obj ((name, value) :: members)) name f = optionOf f value := by
  simp only [optionalField, get?, List.lookup_cons, beq_self_eq_true]

@[simp] theorem optionalField_skip {α : Type} {name other : String} (differ : name ≠ other)
    (value : Json) (f : Json → Option α) (members : List (String × Json)) :
    optionalField (.obj ((other, value) :: members)) name f = optionalField (.obj members) name f := by
  have apart : (name == other) = false := by simpa using differ
  simp only [optionalField, get?, List.lookup_cons, apart]

@[simp] theorem optionalField_missing {α : Type} (name : String) (f : Json → Option α) :
    optionalField (.obj []) name f = some none := rfl

def evidenceFields : List String :=
  ["observation_hash", "target_fingerprint_hash", "display_geometry_hash", "observed_at_ms"]

def receiptFields : List String :=
  ["protocol_version", "action_name", "action_hash", "started_at_ms", "finished_at_ms", "backend",
    "fallback_chain", "delivery_route", "session_isolation", "interaction_mode",
    "context_preservation", "effect", "before", "after", "warnings"]

def actionAckFields : List String :=
  ["protocol_version", "operation_id", "sequence", "action_hash", "replayed", "state"]

def claimFields : List String :=
  ["operation_id", "action_hash", "claimed_at_ms", "action_name", "delivery_route",
    "session_isolation", "interaction_mode"]

theorem fields_nodup : evidenceFields.Nodup ∧ receiptFields.Nodup ∧ actionAckFields.Nodup ∧
    claimFields.Nodup := by
  decide +kernel

def Evidence.derived : Json → Option Evidence :=
  strictly evidenceFields fun j => do
    pure {
      observationHash := ← field j "observation_hash" asStr
      targetFingerprintHash := ← optionalField j "target_fingerprint_hash" asStr
      displayGeometryHash := ← field j "display_geometry_hash" asStr
      observedAtMs := ← field j "observed_at_ms" int64Of }

def contextPreservations : List ContextPreservation :=
  [.notApplicable, .unchangedAtBoundaries, .changed, .unavailable, .hostIsolated]

def Receipt.derived : Json → Option Receipt :=
  strictly receiptFields fun j => do
    pure {
      protocolVersion := ← field j "protocol_version" uint16Of
      actionName := ← field j "action_name" asStr
      actionHash := ← field j "action_hash" asStr
      startedAtMs := ← field j "started_at_ms" int64Of
      finishedAtMs := ← field j "finished_at_ms" int64Of
      backend := ← field j "backend" asStr
      fallbackChain := ← field j "fallback_chain" stringsOf
      deliveryRoute := ← field j "delivery_route" (enumOf deliveryRoutes DeliveryRoute.text)
      sessionIsolation := ←
        field j "session_isolation" (enumOf sessionIsolations SessionIsolation.text)
      interactionMode := ← field j "interaction_mode" (enumOf interactionModes InteractionMode.text)
      contextPreservation := ←
        field j "context_preservation" (enumOf contextPreservations ContextPreservation.text)
      effect := ← field j "effect" (enumOf [.verified, .executedUnverified, .unknown] Effect.text)
      before := ← optionalField j "before" Evidence.derived
      after := ← optionalField j "after" Evidence.derived
      warnings := ← field j "warnings" stringsOf }

/-- What lies beside the tag of a variant without fields is not looked at. -/
def Terminal.variant (tag : String) (rest : Json) : Option Terminal :=
  match tag with
  | "succeeded" =>
    strictly ["receipt"] (fun j => do pure (.succeeded (← field j "receipt" Receipt.derived))) rest
  | "rejected" =>
    strictly ["code", "message"] (fun j => do
      pure (.rejected (← field j "code" failureCodeOf) (← field j "message" asStr))) rest
  | "failed" =>
    strictly ["code", "message"] (fun j => do
      pure (.failed (← field j "code" failureCodeOf) (← field j "message" asStr))) rest
  | "cancelled_before_effect" => some .cancelledBeforeEffect
  | "expired_before_effect" => some .expiredBeforeEffect
  | "outcome_unknown" =>
    strictly ["receipt", "message"] (fun j => do
      pure (.outcomeUnknown (← field j "receipt" Receipt.derived) (← field j "message" asStr))) rest
  | _ => none

def Terminal.derived : Json → Option Terminal := tagged Terminal.variant

def AckState.variant (tag : String) (rest : Json) : Option AckState :=
  match tag with
  | "accepted" => some .accepted
  | "executing" => some .executing
  | "terminal" =>
    strictly ["terminal"] (fun j => do pure (.terminal (← field j "terminal" Terminal.derived))) rest
  | _ => none

def AckState.derived : Json → Option AckState := tagged AckState.variant

def ActionAck.derived : Json → Option ActionAck :=
  strictly actionAckFields fun j => do
    pure {
      protocolVersion := ← field j "protocol_version" uint16Of
      operationId := ← field j "operation_id" asStr
      sequence := ← field j "sequence" uint32Of
      actionHash := ← field j "action_hash" asStr
      replayed := ← field j "replayed" boolOf
      state := ← field j "state" AckState.derived }

def LedgerRecord.claimOf (j : Json) : Option LedgerRecord := do
  pure (.claim
    (← field j "operation_id" asStr)
    (← field j "action_hash" asStr)
    (← field j "claimed_at_ms" int64Of)
    (← optionalField j "action_name" asStr)
    (← optionalField j "delivery_route" (enumOf deliveryRoutes DeliveryRoute.text))
    (← optionalField j "session_isolation" (enumOf sessionIsolations SessionIsolation.text))
    (← optionalField j "interaction_mode" (enumOf interactionModes InteractionMode.text)))

def LedgerRecord.variant (tag : String) (rest : Json) : Option LedgerRecord :=
  match tag with
  | "claim" => strictly claimFields LedgerRecord.claimOf rest
  | "terminal" =>
    strictly ["acknowledgement"] (fun j => do
      pure (.terminal (← field j "acknowledgement" ActionAck.derived))) rest
  | _ => none

def LedgerRecord.derived : Json → Option LedgerRecord := tagged LedgerRecord.variant

/-! ### What is written is read -/

theorem Evidence.derived_toJson (evidence : Evidence) :
    Evidence.derived evidence.toJson = some evidence := by
  rw [derived, toJson, strictly_eq (by rfl) fields_nodup.1]
  simp [optionString]

theorem derivedEvidence (o : Option Evidence) :
    optionOf Evidence.derived (ofOption Evidence.toJson o) = some o :=
  optionOf_ofOption Evidence.derived_toJson (fun _ same => nomatch same) o

theorem Receipt.derived_toJson (receipt : Receipt) :
    Receipt.derived receipt.toJson = some receipt := by
  rw [derived, toJson, strictly_eq (by rfl) fields_nodup.2.1]
  simp [derivedEvidence, enumOf_route, enumOf_isolation, enumOf_mode, contextPreservations,
    enumOf_preservation, enumOf_effect]

theorem Terminal.derived_toJson (terminal : Terminal) :
    Terminal.derived terminal.toJson = some terminal := by
  cases terminal with
  | succeeded receipt =>
    rw [derived, toJson, tagged_head (by simp), variant, strictly_eq (by rfl) (by simp)]
    simp [Receipt.derived_toJson]
  | rejected code message =>
    rw [derived, toJson, tagged_head (by simp), variant, strictly_eq (by rfl) (by simp)]
    simp [failureCodeOf_text]
  | failed code message =>
    rw [derived, toJson, tagged_head (by simp), variant, strictly_eq (by rfl) (by simp)]
    simp [failureCodeOf_text]
  | outcomeUnknown receipt message =>
    rw [derived, toJson, tagged_head (by simp), variant, strictly_eq (by rfl) (by simp)]
    simp [Receipt.derived_toJson]
  | cancelledBeforeEffect =>
    rw [derived, toJson, tagged_head (by simp), variant]
  | expiredBeforeEffect =>
    rw [derived, toJson, tagged_head (by simp), variant]

theorem AckState.derived_toJson (state : AckState) : AckState.derived state.toJson = some state := by
  cases state with
  | terminal outcome =>
    rw [derived, toJson, tagged_head (by simp), variant, strictly_eq (by rfl) (by simp)]
    simp [Terminal.derived_toJson]
  | accepted =>
    rw [derived, toJson, tagged_head (by simp), variant]
  | executing =>
    rw [derived, toJson, tagged_head (by simp), variant]

theorem ActionAck.derived_toJson (acknowledgement : ActionAck) :
    ActionAck.derived acknowledgement.toJson = some acknowledgement := by
  have replayed : boolOf (.bool acknowledgement.replayed) = some acknowledgement.replayed := rfl
  rw [derived, toJson, strictly_eq (by rfl) fields_nodup.2.2.1]
  simp [AckState.derived_toJson, replayed]

theorem derivedRoute (o : Option DeliveryRoute) :
    optionOf (enumOf deliveryRoutes DeliveryRoute.text) (ofOption (fun route => .str route.text) o) =
      some o :=
  optionOf_ofOption enumOf_route (fun _ same => by cases same) o

theorem derivedIsolation (o : Option SessionIsolation) :
    optionOf (enumOf sessionIsolations SessionIsolation.text)
      (ofOption (fun isolation => .str isolation.text) o) = some o :=
  optionOf_ofOption enumOf_isolation (fun _ same => by cases same) o

theorem derivedMode (o : Option InteractionMode) :
    optionOf (enumOf interactionModes InteractionMode.text)
      (ofOption (fun mode => .str mode.text) o) = some o :=
  optionOf_ofOption enumOf_mode (fun _ same => by cases same) o

/-- The tag of a claim, and the fields that lie beside it. -/
theorem LedgerRecord.claim_toJson (operationId actionHash : String) (claimedAtMs : Int64)
    (actionName : Option String) (route : Option DeliveryRoute)
    (isolation : Option SessionIsolation) (mode : Option InteractionMode) :
    let record := claim operationId actionHash claimedAtMs actionName route isolation mode
    ∃ members, record.toJson = .obj (("kind", .str "claim") :: members) ∧
      members.map Prod.fst = claimFields ∧ claimOf (.obj members) = some record := by
  refine ⟨_, rfl, rfl, ?_⟩
  simp [claimOf, optionString, derivedRoute, derivedIsolation, derivedMode]

theorem kind_not_claimField : "kind" ∉ claimFields := by decide +kernel

theorem LedgerRecord.derived_toJson (record : LedgerRecord) :
    LedgerRecord.derived record.toJson = some record := by
  cases record with
  | claim operationId actionHash claimedAtMs actionName route isolation mode =>
    obtain ⟨members, written, known, read⟩ :=
      claim_toJson operationId actionHash claimedAtMs actionName route isolation mode
    have apart : "kind" ∉ members.map Prod.fst := known ▸ kind_not_claimField
    rw [written, derived, tagged_head apart, variant, strictly_eq known fields_nodup.2.2.2, read]
  | terminal acknowledgement =>
    rw [derived, toJson, tagged_head (by simp), variant, strictly_eq (by rfl) (by simp)]
    simp [ActionAck.derived_toJson]

/-! ### Claims that lack fields -/

def optionalClaimFields : List String :=
  ["action_name", "delivery_route", "session_isolation", "interaction_mode"]

end Praefectus

/-- An object without the fields that are absent. -/
def Json.lacking (absent : List String) : Json → Json
  | .obj members => .obj (members.filter fun member => member.1 ∉ absent)
  | j => j

namespace Praefectus

open Json Prog

/-- What is left of a claim without some of its optional fields. -/
def LedgerRecord.lacking (absent : List String) : LedgerRecord → LedgerRecord
  | .claim operationId actionHash claimedAtMs actionName deliveryRoute sessionIsolation
      interactionMode =>
    .claim operationId actionHash claimedAtMs
      (if "action_name" ∈ absent then none else actionName)
      (if "delivery_route" ∈ absent then none else deliveryRoute)
      (if "session_isolation" ∈ absent then none else sessionIsolation)
      (if "interaction_mode" ∈ absent then none else interactionMode)
  | record => record

theorem get?_lacking (absent : List String) (j : Json) (name : String) :
    (j.lacking absent).get? name = if name ∈ absent then none else j.get? name := by
  cases j with
  | obj members =>
    simp only [Json.lacking, get?]
    induction members with
    | nil => simp
    | cons member members ih =>
      obtain ⟨other, value⟩ := member
      rw [List.filter_cons]
      by_cases gone : other ∈ absent
      · rw [if_neg (by simpa using gone), ih]
        by_cases same : name = other
        · rw [same, if_pos gone, if_pos gone]
        · rw [List.lookup_cons, beq_false_of_ne same]
      · rw [if_pos (by simpa using gone), List.lookup_cons, List.lookup_cons, ih]
        by_cases same : name = other
        · simp only [same, beq_self_eq_true, if_neg gone]
        · rw [beq_false_of_ne same]
  | _ => simp [Json.lacking, get?]

/-- A field that has to be there is not absent. -/
theorem field_lacking {α : Type} {absent : List String} {name : String} (needed : name ∉ absent)
    (j : Json) (f : Json → Option α) : field (j.lacking absent) name f = field j name f := by
  rw [field, get?_lacking, if_neg needed, field]

theorem optionalField_lacking {α : Type} (absent : List String) (j : Json) (name : String)
    (f : Json → Option α) : optionalField (j.lacking absent) name f =
      if name ∈ absent then some none else optionalField j name f := by
  by_cases gone : name ∈ absent <;> simp [optionalField, get?_lacking, gone]

/-- Only the optional fields of a claim may be absent. -/
theorem needed_field {absent : List String} (optional : absent ⊆ optionalClaimFields) {name : String}
    (other : name ∉ optionalClaimFields) : name ∉ absent :=
  fun member => other (optional member)

theorem LedgerRecord.claimOf_lacking {absent : List String} (optional : absent ⊆ optionalClaimFields)
    {j : Json} {record : LedgerRecord} (read : claimOf j = some record) :
    claimOf (j.lacking absent) = some (record.lacking absent) := by
  have operationId : "operation_id" ∉ absent := needed_field optional (by decide +kernel)
  have actionHash : "action_hash" ∉ absent := needed_field optional (by decide +kernel)
  have claimedAtMs : "claimed_at_ms" ∉ absent := needed_field optional (by decide +kernel)
  simp only [claimOf, Option.bind_eq_bind, Option.bind_eq_some_iff, Option.pure_def,
    Option.some.injEq] at read
  obtain ⟨operation, one, hash, two, at', three, name, four, route, five, isolation, six, mode, seven,
    rfl⟩ := read
  have dropped {α : Type} (name : String) (o : Option α) :
      (if name ∈ absent then some none else some o) = some (if name ∈ absent then none else o) := by
    split <;> rfl
  simp only [claimOf, field_lacking operationId, field_lacking actionHash, field_lacking claimedAtMs,
    optionalField_lacking, one, two, three, four, five, six, seven, dropped, Option.bind_eq_bind,
    Option.bind_some, Option.pure_def, LedgerRecord.lacking]

theorem LedgerRecord.derived_lacking (record : LedgerRecord) {absent : List String}
    (optional : absent ⊆ optionalClaimFields) :
    LedgerRecord.derived (record.toJson.lacking absent) = some (record.lacking absent) := by
  have kind : "kind" ∉ absent := needed_field optional (by decide +kernel)
  cases record with
  | terminal acknowledgement =>
    -- A terminal record has no optional fields.
    have present : "acknowledgement" ∉ absent := needed_field optional (by decide +kernel)
    have whole : (toJson (.terminal acknowledgement)).lacking absent =
        toJson (.terminal acknowledgement) := by
      simp [toJson, Json.lacking, kind, present]
    rw [whole, LedgerRecord.derived_toJson]
    rfl
  | claim operationId actionHash claimedAtMs actionName route isolation mode =>
    obtain ⟨members, written, known, read⟩ :=
      claim_toJson operationId actionHash claimedAtMs actionName route isolation mode
    let rest := members.filter fun member => member.1 ∉ absent
    have left : (Json.obj (("kind", .str "claim") :: members)).lacking absent =
        .obj (("kind", .str "claim") :: rest) := by
      simp [Json.lacking, kind, rest]
    -- The fields that are left are still in their order.
    have within : (rest.map Prod.fst).Sublist claimFields := by
      rw [← known]
      exact List.filter_sublist.map Prod.fst
    have apart : "kind" ∉ rest.map Prod.fst := fun member =>
      kind_not_claimField (within.subset member)
    rw [written, left, derived, tagged_head apart, variant,
      strictly_within within fields_nodup.2.2.2]
    exact claimOf_lacking optional read

/-! ### Lines -/

theorem depthMembers_filter (keep : String × Json → Bool) (members : List (String × Json)) :
    depthMembers (members.filter keep) ≤ depthMembers members := by
  induction members with
  | nil => exact Nat.le_refl _
  | cons member members ih =>
    rw [List.filter_cons]
    split
    · simp only [depthMembers]
      omega
    · simp only [depthMembers]
      omega

theorem depth_lacking (absent : List String) (j : Json) : (j.lacking absent).depth ≤ j.depth := by
  cases j with
  | obj members =>
    have kept := depthMembers_filter (fun member => member.1 ∉ absent) members
    simp only [Json.lacking, depth]
    omega
  | _ => exact Nat.le_refl _

/-- `serde_json::from_str`. -/
def LedgerRecord.fromStr (text : List Char) : Option LedgerRecord :=
  (Json.parse recursionLimit text).bind LedgerRecord.derived

/-- `serde_json::from_slice`. -/
def LedgerRecord.fromSlice (bytes : List UInt8) : Option LedgerRecord :=
  (decodeUtf8 bytes).bind LedgerRecord.fromStr

theorem fromSlice_utf8 (text : List Char) :
    LedgerRecord.fromSlice (utf8 text) = LedgerRecord.fromStr text := by
  rw [LedgerRecord.fromSlice, decodeUtf8_utf8, Option.bind_some]

theorem fromStr_print {j : Json} (shallow : j.depth ≤ recursionLimit) :
    LedgerRecord.fromStr j.print = LedgerRecord.derived j := by
  rw [LedgerRecord.fromStr, parse_print j _ shallow, Option.bind_some]

theorem fromStr_written (record : LedgerRecord) :
    LedgerRecord.fromStr record.written = some record := by
  rw [LedgerRecord.written, fromStr_print (depth_record record), LedgerRecord.derived_toJson]

def derivedReader : LedgerReader where
  read := LedgerRecord.fromSlice
  read_written record := by rw [fromSlice_utf8, fromStr_written]

/-! ### What an append writes -/

/-- The bytes that an operation added to the file. -/
def Event.written : Event FileSystem → List UInt8
  | ⟨.write bytes, .ok ()⟩ => bytes
  | _ => []

def writer : Emitter FileSystem UInt8 := ⟨fun _ => True, Event.written⟩

theorem yields_file {op : FileOp} {Q : List UInt8 → op.Result → Prop}
    (each : ∀ value, Q (Event.written ⟨op, .ok value⟩) value) : Yields writer Q (file op) := by
  intro trace value _ run
  obtain rfl := steps_ask.mp run
  simpa [Emitter.events, writer] using each value

theorem emits_append {R : Type} (format : JsonLines R) (record : R) :
    Emits writer (utf8 (format.text record) ++ [newline]) (appendRecord format record) := by
  have quiet {op : FileOp} (none : ∀ value, Event.written ⟨op, .ok value⟩ = []) :
      Emits writer [] (file op) := yields_file none
  have write (bytes : List UInt8) : Emits writer bytes (file (.write bytes)) :=
    yields_file fun _ => rfl
  have syncParent (existed : Bool) :
      Emits writer [] (if !existed then file .syncParent else pure ()) := by
    cases existed with
    | false => exact quiet fun _ => rfl
    | true => exact emits_pure
  have all := emits_bind (quiet fun _ => rfl : Emits writer [] (file .prepare)) fun _ =>
    emits_bind (quiet fun _ => rfl : Emits writer [] (file .«exists»)) fun existed =>
    emits_bind (quiet fun _ => rfl : Emits writer [] (file .«open»)) fun _ =>
    emits_bind (write (utf8 (format.text record))) fun _ => emits_bind (write [newline]) fun _ =>
    emits_bind (quiet fun _ => rfl : Emits writer [] (file .syncAll)) fun _ => syncParent existed
  exact all

/-! ### Round trip -/

/-- A printed value is a single line. -/
theorem print_single (j : Json) : newline ∉ utf8 j.print := by
  intro member
  obtain ⟨c, within, same⟩ := utf8_byte_low member (by decide)
  have visible := print_visible j c within
  have low : (newline).toNat = 10 := rfl
  omega

/-- The lines of the records before, and the line that was appended. -/
def fileAfter (before : List LedgerRecord) (trace : List (Event FileSystem)) : List UInt8 :=
  unlines (before.map derivedReader.format.line) ++ trace.flatMap Event.written

/-- What an append writes is one line. Both readers take it for the record, alone and behind
the records that were there before; and they do not mind absent optional fields. -/
theorem append_read_back (record : LedgerRecord) (before : List LedgerRecord)
    {trace : List (Event FileSystem)} {absent : List String}
    (run : Steps (appendRecord derivedReader.format record).run trace (.ret (.ok ())))
    (optional : absent ⊆ optionalClaimFields) :
    ∃ line older : List Char,
      (trace.flatMap Event.written = utf8 line ++ [newline] ∧ newline ∉ utf8 line) ∧
      (LedgerRecord.fromStr line = some record ∧
        LedgerRecord.fromSlice (utf8 line) = some record) ∧
      (Accepted derivedReader.format (fileAfter before trace) ∧
        completeLength (fileAfter before trace) = (fileAfter before trace).length ∧
        parseRecords derivedReader.format (bufLines (fileAfter before trace)) =
          .ok (before ++ [record])) ∧
      older = (record.toJson.lacking absent).print ∧
      LedgerRecord.fromStr older = some (record.lacking absent) ∧
      LedgerRecord.fromSlice (utf8 older) = some (record.lacking absent) := by
  have written : trace.flatMap Event.written = utf8 record.written ++ [newline] :=
    emits_append derivedReader.format record trace () (fun _ _ => trivial) run
  have lines' : fileAfter before trace =
      unlines ((before ++ [record]).map derivedReader.format.line) := by
    rw [fileAfter, written, List.map_append, unlines_append, List.map_singleton, unlines_cons,
      unlines_nil]
    rfl
  have complete : completeLength (fileAfter before trace) = (fileAfter before trace).length := by
    have whole := completeLength_append ((before ++ [record]).map derivedReader.format.line)
      List.not_mem_nil
    rwa [List.append_nil, ← lines'] at whole
  have shallow := (depth_lacking absent record.toJson).trans (depth_record record)
  have older := (fromStr_print shallow).trans (record.derived_lacking optional)
  refine ⟨record.written, _, ⟨written, print_single record.toJson⟩, ⟨fromStr_written record, ?_⟩,
    ⟨?_, complete, ?_⟩, rfl, older, ?_⟩
  · rw [fromSlice_utf8, fromStr_written]
  · rw [Accepted, complete, List.take_length, lines']
    exact lines_valid (before ++ [record])
  · rw [lines']
    exact parseRecords_kept (before ++ [record])
  · rw [fromSlice_utf8, older]

/-- A claim as older versions wrote it. -/
def bareClaim : LedgerRecord := .claim "op-1" "\u00e9\n" 5 none none none none

/-- Every operation of an append to a file that exists succeeds. -/
def appendTrace (record : LedgerRecord) : List (Event FileSystem) :=
  [⟨.prepare, .ok ()⟩, ⟨.«exists», .ok true⟩, ⟨.«open», .ok ()⟩, ⟨.write (utf8 record.written), .ok ()⟩,
    ⟨.write [newline], .ok ()⟩, ⟨.syncAll, .ok ()⟩]

theorem steps_appendTrace (record : LedgerRecord) :
    Steps (appendRecord derivedReader.format record).run (appendTrace record) (.ret (.ok ())) :=
  .step _ (.step _ (.step _ (.step _ (.step _ (.step _ (.refl _))))))

theorem append_read_back_bare : ∃ line older : List Char,
    (appendTrace bareClaim).flatMap Event.written = utf8 line ++ [newline] ∧
    LedgerRecord.fromSlice (utf8 line) = some bareClaim ∧
    LedgerRecord.fromStr older = some bareClaim := by
  have optional : ["action_name", "interaction_mode"] ⊆ optionalClaimFields := by decide +kernel
  obtain ⟨line, older, ⟨written, _⟩, ⟨_, slice⟩, _, _, bare, _⟩ :=
    append_read_back bareClaim [bareClaim] (steps_appendTrace bareClaim) optional
  exact ⟨line, older, written, slice, bare⟩

end Praefectus
