import Praefectus.Protocol.Serialize
import Praefectus.Json.Visible
import Praefectus.Ledger.File

/-!
# Ledger records as lines

A record is written as the compact text of its JSON form. The reader of the lines is
left open: all that is used of it is that it returns what was written. `objectReader`
is one such reader; it looks the fields up by name.
-/

namespace Praefectus

open Json

def LedgerRecord.written (record : LedgerRecord) : List Char := record.toJson.print

/-- A reader of ledger lines that returns what was written. -/
structure LedgerReader where
  read : List UInt8 → Option LedgerRecord
  read_written : ∀ record : LedgerRecord, read (utf8 record.written) = some record

theorem written_opens (record : LedgerRecord) : record.written.head? = some '{' := by
  cases record <;> rfl

/-- The format of the ledger file. -/
def LedgerReader.format (reader : LedgerReader) : JsonLines LedgerRecord where
  text := LedgerRecord.written
  read := reader.read
  read_text := reader.read_written
  visible record := print_visible record.toJson
  opens := written_opens

/-! ### A reader by field name -/

def boolOf : Json → Option Bool
  | .bool b => some b
  | _ => none

def int64Of : Json → Option Int64
  | .int n => if n.value < 2 ^ 63 then some (.ofInt n.value) else none
  | _ => none

def natOf (bound : Nat) : Json → Option Nat
  | .int n => if 0 ≤ n.value ∧ n.value < bound then some n.value.toNat else none
  | _ => none

def uint16Of (j : Json) : Option UInt16 := (natOf (2 ^ 16) j).map .ofNat

def uint32Of (j : Json) : Option UInt32 := (natOf (2 ^ 32) j).map .ofNat

def optionOf {α : Type} (f : Json → Option α) : Json → Option (Option α)
  | .null => some none
  | j => (f j).map some

def stringsOf : Json → Option (List String)
  | .arr items => items.mapM asStr
  | _ => none

/-- The first of the values that is written with the given text. -/
def enumOf {α : Type} (values : List α) (text : α → String) (j : Json) : Option α := do
  let s ← asStr j
  values.find? fun value => text value = s

def field {α : Type} (j : Json) (name : String) (f : Json → Option α) : Option α :=
  (j.get? name).bind f

@[simp] theorem field_head {α : Type} (name : String) (value : Json) (f : Json → Option α)
    (members : List (String × Json)) : field (.obj ((name, value) :: members)) name f = f value := by
  simp only [field, get?, List.lookup_cons, beq_self_eq_true, Option.bind_some]

@[simp] theorem field_skip {α : Type} {name other : String} (differ : name ≠ other) (value : Json)
    (f : Json → Option α) (members : List (String × Json)) :
    field (.obj ((other, value) :: members)) name f = field (.obj members) name f := by
  have apart : (name == other) = false := by simpa using differ
  simp only [field, get?, List.lookup_cons, apart]

@[simp] theorem int64Of_ofInt64 (n : Int64) : int64Of (ofInt64 n) = some n := by
  have fits : n.toInt < 2 ^ 63 := n.toInt_lt
  simp only [ofInt64, int64Of, if_pos fits, Int64.ofInt_toInt]

theorem natOf_ofUInt64 {bound : Nat} {n : UInt64} (fits : n.toNat < bound) :
    natOf bound (ofUInt64 n) = some n.toNat := by
  have within : (0 : Int) ≤ n.toNat ∧ (n.toNat : Int) < bound := by omega
  rw [ofUInt64, natOf, if_pos within]
  rfl

@[simp] theorem uint16Of_ofUInt16 (n : UInt16) : uint16Of (ofUInt16 n) = some n := by
  have read : natOf (2 ^ 16) (ofUInt16 n) = some n.toNat :=
    natOf_ofUInt64 (by rw [UInt16.toNat_toUInt64]; exact n.toNat_lt)
  rw [uint16Of, read, Option.map_some, UInt16.ofNat_toNat]

@[simp] theorem uint32Of_ofUInt32 (n : UInt32) : uint32Of (ofUInt32 n) = some n := by
  have read : natOf (2 ^ 32) (ofUInt32 n) = some n.toNat :=
    natOf_ofUInt64 (by rw [UInt32.toNat_toUInt64]; exact n.toNat_lt)
  rw [uint32Of, read, Option.map_some, UInt32.ofNat_toNat]

@[simp] theorem asStr_str (s : String) : asStr (.str s) = some s := rfl

@[simp] theorem optionOf_ofOption {α : Type} {f : Json → Option α} {g : α → Json}
    (back : ∀ a, f (g a) = some a) (some' : ∀ a, g a ≠ .null) (o : Option α) :
    optionOf f (ofOption g o) = some o := by
  cases o with
  | none => rfl
  | some a =>
    rw [ofOption]
    unfold optionOf
    split
    next null => exact absurd null (some' a)
    next => rw [back]; rfl

@[simp] theorem stringsOf_ofStrings (strings : List String) :
    stringsOf (ofStrings strings) = some strings := by
  rw [ofStrings, stringsOf]
  induction strings with
  | nil => rfl
  | cons s strings ih => simp [List.mapM_cons, ih]

@[simp] theorem enumOf_text {α : Type} [DecidableEq α] {values : List α} {text : α → String} {a : α}
    (found : values.find? (fun value => text value = text a) = some a) :
    enumOf values text (.str (text a)) = some a := found

def Evidence.fromJson (j : Json) : Option Evidence := do
  pure {
    observationHash := ← field j "observation_hash" asStr
    targetFingerprintHash := ← field j "target_fingerprint_hash" (optionOf asStr)
    displayGeometryHash := ← field j "display_geometry_hash" asStr
    observedAtMs := ← field j "observed_at_ms" int64Of }

def deliveryRoutes : List DeliveryRoute := [.targetAddressed, .pointer, .perProcessEvent, .unknown]

def sessionIsolations : List SessionIsolation := [.sharedDesktop, .hostIsolated, .unknown]

def interactionModes : List InteractionMode := [.interactive, .backgroundOnly, .unknown]

def Receipt.fromJson (j : Json) : Option Receipt := do
  pure {
    protocolVersion := ← field j "protocol_version" uint16Of
    actionName := ← field j "action_name" asStr
    actionHash := ← field j "action_hash" asStr
    startedAtMs := ← field j "started_at_ms" int64Of
    finishedAtMs := ← field j "finished_at_ms" int64Of
    backend := ← field j "backend" asStr
    fallbackChain := ← field j "fallback_chain" stringsOf
    deliveryRoute := ← field j "delivery_route" (enumOf deliveryRoutes DeliveryRoute.text)
    sessionIsolation := ←
      field j "session_isolation" (enumOf sessionIsolations SessionIsolation.text)
    interactionMode := ← field j "interaction_mode" (enumOf interactionModes InteractionMode.text)
    contextPreservation := ← field j "context_preservation" (enumOf
      [.notApplicable, .unchangedAtBoundaries, .changed, .unavailable, .hostIsolated]
      ContextPreservation.text)
    effect := ← field j "effect" (enumOf [.verified, .executedUnverified, .unknown] Effect.text)
    before := ← field j "before" (optionOf Evidence.fromJson)
    after := ← field j "after" (optionOf Evidence.fromJson)
    warnings := ← field j "warnings" stringsOf }

def failureCodeOf : Json → Option FailureCode :=
  enumOf [.invalidRequest, .conflict, .staleTarget, .targetNotFound, .permissionDenied,
    .unsupported, .dispatchFailed, .verificationFailed] FailureCode.text

def Terminal.fromJson (j : Json) : Option Terminal := do
  match ← field j "kind" asStr with
  | "succeeded" => pure (.succeeded (← field j "receipt" Receipt.fromJson))
  | "rejected" => pure (.rejected (← field j "code" failureCodeOf) (← field j "message" asStr))
  | "failed" => pure (.failed (← field j "code" failureCodeOf) (← field j "message" asStr))
  | "cancelled_before_effect" => pure .cancelledBeforeEffect
  | "expired_before_effect" => pure .expiredBeforeEffect
  | "outcome_unknown" =>
    pure (.outcomeUnknown (← field j "receipt" Receipt.fromJson) (← field j "message" asStr))
  | _ => none

def AckState.fromJson (j : Json) : Option AckState := do
  match ← field j "kind" asStr with
  | "accepted" => pure .accepted
  | "executing" => pure .executing
  | "terminal" => pure (.terminal (← field j "terminal" Terminal.fromJson))
  | _ => none

def ActionAck.fromJson (j : Json) : Option ActionAck := do
  pure {
    protocolVersion := ← field j "protocol_version" uint16Of
    operationId := ← field j "operation_id" asStr
    sequence := ← field j "sequence" uint32Of
    actionHash := ← field j "action_hash" asStr
    replayed := ← field j "replayed" boolOf
    state := ← field j "state" AckState.fromJson }

def LedgerRecord.fromJson (j : Json) : Option LedgerRecord := do
  match ← field j "kind" asStr with
  | "claim" => pure (.claim
      (← field j "operation_id" asStr)
      (← field j "action_hash" asStr)
      (← field j "claimed_at_ms" int64Of)
      (← field j "action_name" (optionOf asStr))
      (← field j "delivery_route" (optionOf (enumOf deliveryRoutes DeliveryRoute.text)))
      (← field j "session_isolation" (optionOf (enumOf sessionIsolations SessionIsolation.text)))
      (← field j "interaction_mode" (optionOf (enumOf interactionModes InteractionMode.text))))
  | "terminal" => pure (.terminal (← field j "acknowledgement" ActionAck.fromJson))
  | _ => none

theorem optionString (o : Option String) : optionOf asStr (ofOption .str o) = some o :=
  optionOf_ofOption asStr_str (fun _ same => nomatch same) o

theorem Evidence.fromJson_toJson (evidence : Evidence) :
    Evidence.fromJson evidence.toJson = some evidence := by
  simp [fromJson, toJson, optionString]

theorem optionEvidence (o : Option Evidence) :
    optionOf Evidence.fromJson (ofOption Evidence.toJson o) = some o :=
  optionOf_ofOption Evidence.fromJson_toJson (fun _ same => nomatch same) o

theorem enumOf_route (route : DeliveryRoute) :
    enumOf deliveryRoutes DeliveryRoute.text (.str route.text) = some route := by
  cases route <;> decide

theorem enumOf_isolation (isolation : SessionIsolation) :
    enumOf sessionIsolations SessionIsolation.text (.str isolation.text) = some isolation := by
  cases isolation <;> decide

theorem enumOf_mode (mode : InteractionMode) :
    enumOf interactionModes InteractionMode.text (.str mode.text) = some mode := by
  cases mode <;> decide

theorem enumOf_preservation (preservation : ContextPreservation) :
    enumOf [.notApplicable, .unchangedAtBoundaries, .changed, .unavailable, .hostIsolated]
      ContextPreservation.text (.str preservation.text) = some preservation := by
  cases preservation <;> decide

theorem enumOf_effect (effect : Effect) :
    enumOf [.verified, .executedUnverified, .unknown] Effect.text (.str effect.text) =
      some effect := by
  cases effect <;> decide

theorem failureCodeOf_text (code : FailureCode) : failureCodeOf (.str code.text) = some code := by
  cases code <;> decide

theorem Receipt.fromJson_toJson (receipt : Receipt) :
    Receipt.fromJson receipt.toJson = some receipt := by
  simp [fromJson, toJson, optionEvidence, enumOf_route, enumOf_isolation, enumOf_mode,
    enumOf_preservation, enumOf_effect]

theorem Terminal.fromJson_toJson (terminal : Terminal) :
    Terminal.fromJson terminal.toJson = some terminal := by
  cases terminal <;> simp [fromJson, toJson, Receipt.fromJson_toJson, failureCodeOf_text]

theorem AckState.fromJson_toJson (state : AckState) :
    AckState.fromJson state.toJson = some state := by
  cases state <;> simp [fromJson, toJson, Terminal.fromJson_toJson]

theorem ActionAck.fromJson_toJson (acknowledgement : ActionAck) :
    ActionAck.fromJson acknowledgement.toJson = some acknowledgement := by
  have replayed : boolOf (.bool acknowledgement.replayed) = some acknowledgement.replayed := rfl
  simp [fromJson, toJson, AckState.fromJson_toJson, replayed]

theorem LedgerRecord.fromJson_toJson (record : LedgerRecord) :
    LedgerRecord.fromJson record.toJson = some record := by
  have routes (o : Option DeliveryRoute) := optionOf_ofOption enumOf_route (fun _ same => nomatch same) o
  have isolations (o : Option SessionIsolation) :=
    optionOf_ofOption enumOf_isolation (fun _ same => nomatch same) o
  have modes (o : Option InteractionMode) :=
    optionOf_ofOption enumOf_mode (fun _ same => nomatch same) o
  cases record <;>
    simp [fromJson, toJson, ActionAck.fromJson_toJson, optionString, routes, isolations, modes]

/-- The recursion limit of the reader. -/
def recursionLimit : Nat := 127

theorem depthItems_strings (strings : List String) : depthItems (strings.map .str) = 0 := by
  induction strings with
  | nil => rfl
  | cons s strings ih => simp only [List.map_cons, depthItems, depth, ih, Nat.max_self]

theorem depth_ofStrings (strings : List String) : (ofStrings strings).depth = 1 := by
  rw [ofStrings, depth, depthItems_strings]

theorem depth_ofOption {α : Type} {f : α → Json} {bound : Nat} (each : ∀ a, (f a).depth ≤ bound)
    (o : Option α) : (ofOption f o).depth ≤ bound := by
  cases o with
  | none => exact Nat.zero_le _
  | some a => exact each a

theorem depth_optionString (o : Option String) : (ofOption Json.str o).depth = 0 := by
  cases o <;> rfl

theorem depth_optionText {α : Type} (text : α → String) (o : Option α) :
    (ofOption (fun a => Json.str (text a)) o).depth = 0 := by
  cases o <;> rfl

theorem depth_evidence (evidence : Evidence) : evidence.toJson.depth ≤ 1 := by
  simp only [Evidence.toJson, depth, depthMembers, ofInt64, depth_optionString]
  omega

theorem depth_receipt (receipt : Receipt) : receipt.toJson.depth ≤ 2 := by
  have before := depth_ofOption depth_evidence receipt.before
  have after := depth_ofOption depth_evidence receipt.after
  simp only [Receipt.toJson, depth, depthMembers, ofInt64, ofUInt16, ofUInt64, depth_ofStrings]
  omega

theorem depth_terminal (terminal : Terminal) : terminal.toJson.depth ≤ 3 := by
  cases terminal with
  | succeeded receipt =>
    have := depth_receipt receipt
    simp only [Terminal.toJson, depth, depthMembers]
    omega
  | outcomeUnknown receipt message =>
    have := depth_receipt receipt
    simp only [Terminal.toJson, depth, depthMembers]
    omega
  | _ => simp [Terminal.toJson, depth, depthMembers]

theorem depth_state (state : AckState) : state.toJson.depth ≤ 4 := by
  cases state with
  | terminal outcome =>
    have := depth_terminal outcome
    simp only [AckState.toJson, depth, depthMembers]
    omega
  | _ => simp [AckState.toJson, depth, depthMembers]

theorem depth_record (record : LedgerRecord) : record.toJson.depth ≤ recursionLimit := by
  cases record with
  | terminal acknowledgement =>
    have := depth_state acknowledgement.state
    simp only [LedgerRecord.toJson, ActionAck.toJson, depth, depthMembers, ofUInt16, ofUInt32,
      ofUInt64, recursionLimit]
    omega
  | claim operationId actionHash claimedAtMs actionName deliveryRoute sessionIsolation mode =>
    simp only [LedgerRecord.toJson, depth, depthMembers, ofInt64, depth_optionString,
      depth_optionText, recursionLimit]
    omega

def objectReader : LedgerReader where
  read bytes := do
    let text ← decodeUtf8 bytes
    let j ← Json.parse recursionLimit text
    LedgerRecord.fromJson j
  read_written record := by
    simp only [decodeUtf8_utf8, LedgerRecord.written, parse_print record.toJson _ (depth_record record),
      Option.bind_eq_bind, Option.bind_some, LedgerRecord.fromJson_toJson]

end Praefectus
