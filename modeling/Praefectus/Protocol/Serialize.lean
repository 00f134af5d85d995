import Praefectus.Protocol.Types
import Praefectus.Text.Utf8

/-!
# The JSON form of requests and records

Enumerations are written as snake-case strings, structures as objects in field
order, and enumerations with data as objects that carry their tag in `kind`.
-/

theorem UInt64.inJsonRange (n : UInt64) : -2 ^ 63 ≤ (n.toNat : Int) ∧ (n.toNat : Int) < 2 ^ 64 := by
  have := n.toNat_lt
  omega

theorem Int64.inJsonRange (n : Int64) : -2 ^ 63 ≤ n.toInt ∧ n.toInt < 2 ^ 64 := by
  have := n.toInt_lt
  have := n.le_toInt
  omega

namespace Json

def ofUInt64 (n : UInt64) : Json := .int ⟨n.toNat, n.inJsonRange.1, n.inJsonRange.2⟩

def ofUInt32 (n : UInt32) : Json := ofUInt64 n.toUInt64

def ofUInt16 (n : UInt16) : Json := ofUInt64 n.toUInt64

def ofInt64 (n : Int64) : Json := .int ⟨n.toInt, n.inJsonRange.1, n.inJsonRange.2⟩

def ofOption {α : Type} (f : α → Json) : Option α → Json
  | some a => f a
  | none => .null

def ofStrings (strings : List String) : Json := .arr (strings.map .str)

theorem ofInt64_injective {m n : Int64} (same : ofInt64 m = ofInt64 n) : m = n := by
  simp only [ofInt64, Json.int.injEq, JsonInt.mk.injEq] at same
  exact Int64.toInt_inj.mp same

theorem ofUInt64_injective {m n : UInt64} (same : ofUInt64 m = ofUInt64 n) : m = n := by
  simp only [ofUInt64, Json.int.injEq, JsonInt.mk.injEq, Int.natCast_inj] at same
  exact UInt64.toNat_inj.mp same

theorem ofUInt32_injective {m n : UInt32} (same : ofUInt32 m = ofUInt32 n) : m = n := by
  have wide := congrArg UInt64.toNat (ofUInt64_injective same)
  exact UInt32.toNat_inj.mp wide

theorem ofUInt16_injective {m n : UInt16} (same : ofUInt16 m = ofUInt16 n) : m = n := by
  have wide := congrArg UInt64.toNat (ofUInt64_injective same)
  exact UInt16.toNat_inj.mp wide

end Json

namespace Praefectus

open Json

/-! ### Enumerations -/

def InteractionMode.text : InteractionMode → String
  | .interactive => "interactive"
  | .backgroundOnly => "background_only"
  | .unknown => "unknown"

def SessionIsolation.text : SessionIsolation → String
  | .sharedDesktop => "shared_desktop"
  | .hostIsolated => "host_isolated"
  | .unknown => "unknown"

def DeliveryRoute.text : DeliveryRoute → String
  | .targetAddressed => "target_addressed"
  | .pointer => "pointer"
  | .perProcessEvent => "per_process_event"
  | .unknown => "unknown"

def ContextPreservation.text : ContextPreservation → String
  | .notApplicable => "not_applicable"
  | .unchangedAtBoundaries => "unchanged_at_boundaries"
  | .changed => "changed"
  | .unavailable => "unavailable"
  | .hostIsolated => "host_isolated"

def MouseButton.text : MouseButton → String
  | .left => "left"
  | .right => "right"
  | .middle => "middle"

def Direction.text : Direction → String
  | .up => "up"
  | .down => "down"
  | .left => "left"
  | .right => "right"

def ApplicationOperation.text : ApplicationOperation → String
  | .launch => "launch"
  | .switch => "switch"
  | .quit => "quit"

def WindowOperation.text : WindowOperation → String
  | .focus => "focus"
  | .close => "close"
  | .minimize => "minimize"

def SafetyClass.text : SafetyClass → String
  | .reversible => "reversible"
  | .external => "external"
  | .destructive => "destructive"

def FailureCode.text : FailureCode → String
  | .invalidRequest => "invalid_request"
  | .conflict => "conflict"
  | .staleTarget => "stale_target"
  | .targetNotFound => "target_not_found"
  | .permissionDenied => "permission_denied"
  | .unsupported => "unsupported"
  | .dispatchFailed => "dispatch_failed"
  | .verificationFailed => "verification_failed"

def Effect.text : Effect → String
  | .verified => "verified"
  | .executedUnverified => "executed_unverified"
  | .unknown => "unknown"

theorem InteractionMode.text_injective : ∀ {a b : InteractionMode}, a.text = b.text → a = b := by
  rintro ⟨⟩ ⟨⟩ same <;> first | rfl | exact absurd same (by decide)

theorem SessionIsolation.text_injective : ∀ {a b : SessionIsolation}, a.text = b.text → a = b := by
  rintro ⟨⟩ ⟨⟩ same <;> first | rfl | exact absurd same (by decide)

theorem DeliveryRoute.text_injective : ∀ {a b : DeliveryRoute}, a.text = b.text → a = b := by
  rintro ⟨⟩ ⟨⟩ same <;> first | rfl | exact absurd same (by decide)

theorem MouseButton.text_injective : ∀ {a b : MouseButton}, a.text = b.text → a = b := by
  rintro ⟨⟩ ⟨⟩ same <;> first | rfl | exact absurd same (by decide)

theorem Direction.text_injective : ∀ {a b : Direction}, a.text = b.text → a = b := by
  rintro ⟨⟩ ⟨⟩ same <;> first | rfl | exact absurd same (by decide)

theorem ApplicationOperation.text_injective :
    ∀ {a b : ApplicationOperation}, a.text = b.text → a = b := by
  rintro ⟨⟩ ⟨⟩ same <;> first | rfl | exact absurd same (by decide)

theorem WindowOperation.text_injective : ∀ {a b : WindowOperation}, a.text = b.text → a = b := by
  rintro ⟨⟩ ⟨⟩ same <;> first | rfl | exact absurd same (by decide)

theorem SafetyClass.text_injective : ∀ {a b : SafetyClass}, a.text = b.text → a = b := by
  rintro ⟨⟩ ⟨⟩ same <;> first | rfl | exact absurd same (by decide)

/-! ### Requests -/

def AuthorityGrant.toJson (grant : AuthorityGrant) : Json := .obj [
  ("protocol_version", ofUInt16 grant.protocolVersion),
  ("issuer", .str grant.issuer),
  ("key_id", .str grant.keyId),
  ("operation_id", .str grant.operationId),
  ("subject", .str grant.subject),
  ("session_id", .str grant.sessionId),
  ("risk", .str grant.risk.text),
  ("expires_at_ms", ofInt64 grant.expiresAtMs),
  ("policy_generation", .str grant.policyGeneration),
  ("action_hash", .str grant.actionHash)]

def SemanticTargetRef.toJson (target : SemanticTargetRef) : Json := .obj [
  ("observation_id", .str target.observationId),
  ("generation", ofUInt64 target.generation),
  ("provenance_hash", .str target.provenanceHash),
  ("element_id", .str target.elementId),
  ("fingerprint_hash", .str target.fingerprintHash)]

def TargetRef.toJson : TargetRef → Json
  | .coordinates x y displayId displayGeometryHash snapshotId snapshotContentHash => .obj [
    ("kind", .str "coordinates"),
    ("x", ofInt64 x),
    ("y", ofInt64 y),
    ("display_id", .str displayId),
    ("display_geometry_hash", .str displayGeometryHash),
    ("snapshot_id", .str snapshotId),
    ("snapshot_content_hash", .str snapshotContentHash)]
  | .element target => .obj [("kind", .str "element"), ("target", target.toJson)]
  | .none => .obj [("kind", .str "none")]

/-- `Path::to_str`: the path as text, if it is UTF-8. -/
def PathBuf.toStr (path : PathBuf) : Option String := (decodeUtf8 path.bytes).map String.ofList

/-- A path that is not text cannot be written. -/
def Action.toJson : Action → Option Json
  | .invoke => some (.obj [("kind", .str "invoke")])
  | .click button count allowCoordinateFallback => some (.obj [
    ("kind", .str "click"),
    ("button", .str button.text),
    ("count", ofUInt32 count),
    ("allow_coordinate_fallback", .bool allowCoordinateFallback)])
  | .typeText text clear pressReturn delayMs => some (.obj [
    ("kind", .str "type_text"),
    ("text", .str text),
    ("clear", .bool clear),
    ("press_return", .bool pressReturn),
    ("delay_ms", ofOption ofUInt64 delayMs)])
  | .press key count delayMs => some (.obj [
    ("kind", .str "press"),
    ("key", .str key),
    ("count", ofUInt32 count),
    ("delay_ms", ofOption ofUInt64 delayMs)])
  | .paste text => some (.obj [("kind", .str "paste"), ("text", .str text)])
  | .hotkey keys => some (.obj [("kind", .str "hotkey"), ("keys", ofStrings keys)])
  | .scroll direction amount => some (.obj [
    ("kind", .str "scroll"),
    ("direction", .str direction.text),
    ("amount", ofUInt32 amount)])
  | .move => some (.obj [("kind", .str "move")])
  | .drag destination button => some (.obj [
    ("kind", .str "drag"),
    ("to", destination.toJson),
    ("button", .str button.text)])
  | .selectText start length => some (.obj [
    ("kind", .str "select_text"),
    ("start", ofUInt32 start),
    ("length", ofUInt32 length)])
  | .performSecondaryAction name =>
    some (.obj [("kind", .str "perform_secondary_action"), ("name", .str name)])
  | .setValue value => some (.obj [("kind", .str "set_value"), ("value", .str value)])
  | .screenshot path => path.toStr.map fun path =>
    .obj [("kind", .str "screenshot"), ("path", .str path)]
  | .application operation name => some (.obj [
    ("kind", .str "application"),
    ("operation", .str operation.text),
    ("name", .str name)])
  | .window operation app title => some (.obj [
    ("kind", .str "window"),
    ("operation", .str operation.text),
    ("app", ofOption .str app),
    ("title", ofOption .str title)])
  | .«open» target app noFocus => some (.obj [
    ("kind", .str "open"),
    ("target", .str target),
    ("app", ofOption .str app),
    ("no_focus", .bool noFocus)])
  | .clipboardWrite text => some (.obj [("kind", .str "clipboard_write"), ("text", .str text)])

def VerificationPolicy.toJson : VerificationPolicy → Json
  | .none => .obj [("kind", .str "none")]
  | .snapshotChanged => .obj [("kind", .str "snapshot_changed")]
  | .targetState expected => .obj [("kind", .str "target_state"), ("expected", expected.json)]
  | .targetValueHash sha256 => .obj [("kind", .str "target_value_hash"), ("sha256", .str sha256)]

/-! ### Ledger records -/

def Evidence.toJson (evidence : Evidence) : Json := .obj [
  ("observation_hash", .str evidence.observationHash),
  ("target_fingerprint_hash", ofOption .str evidence.targetFingerprintHash),
  ("display_geometry_hash", .str evidence.displayGeometryHash),
  ("observed_at_ms", ofInt64 evidence.observedAtMs)]

def Receipt.toJson (receipt : Receipt) : Json := .obj [
  ("protocol_version", ofUInt16 receipt.protocolVersion),
  ("action_name", .str receipt.actionName),
  ("action_hash", .str receipt.actionHash),
  ("started_at_ms", ofInt64 receipt.startedAtMs),
  ("finished_at_ms", ofInt64 receipt.finishedAtMs),
  ("backend", .str receipt.backend),
  ("fallback_chain", ofStrings receipt.fallbackChain),
  ("delivery_route", .str receipt.deliveryRoute.text),
  ("session_isolation", .str receipt.sessionIsolation.text),
  ("interaction_mode", .str receipt.interactionMode.text),
  ("context_preservation", .str receipt.contextPreservation.text),
  ("effect", .str receipt.effect.text),
  ("before", ofOption Evidence.toJson receipt.before),
  ("after", ofOption Evidence.toJson receipt.after),
  ("warnings", ofStrings receipt.warnings)]

def Terminal.toJson : Terminal → Json
  | .succeeded receipt => .obj [("kind", .str "succeeded"), ("receipt", receipt.toJson)]
  | .rejected code message => .obj [
    ("kind", .str "rejected"), ("code", .str code.text), ("message", .str message)]
  | .failed code message => .obj [
    ("kind", .str "failed"), ("code", .str code.text), ("message", .str message)]
  | .cancelledBeforeEffect => .obj [("kind", .str "cancelled_before_effect")]
  | .expiredBeforeEffect => .obj [("kind", .str "expired_before_effect")]
  | .outcomeUnknown receipt message => .obj [
    ("kind", .str "outcome_unknown"), ("receipt", receipt.toJson), ("message", .str message)]

def AckState.toJson : AckState → Json
  | .accepted => .obj [("kind", .str "accepted")]
  | .executing => .obj [("kind", .str "executing")]
  | .terminal outcome => .obj [("kind", .str "terminal"), ("terminal", outcome.toJson)]

def ActionAck.toJson (acknowledgement : ActionAck) : Json := .obj [
  ("protocol_version", ofUInt16 acknowledgement.protocolVersion),
  ("operation_id", .str acknowledgement.operationId),
  ("sequence", ofUInt32 acknowledgement.sequence),
  ("action_hash", .str acknowledgement.actionHash),
  ("replayed", .bool acknowledgement.replayed),
  ("state", acknowledgement.state.toJson)]

def LedgerRecord.toJson : LedgerRecord → Json
  | .claim operationId actionHash claimedAtMs actionName deliveryRoute sessionIsolation
      interactionMode => .obj [
    ("kind", .str "claim"),
    ("operation_id", .str operationId),
    ("action_hash", .str actionHash),
    ("claimed_at_ms", ofInt64 claimedAtMs),
    ("action_name", ofOption .str actionName),
    ("delivery_route", ofOption (fun route => .str route.text) deliveryRoute),
    ("session_isolation", ofOption (fun isolation => .str isolation.text) sessionIsolation),
    ("interaction_mode", ofOption (fun mode => .str mode.text) interactionMode)]
  | .terminal acknowledgement => .obj [
    ("kind", .str "terminal"), ("acknowledgement", acknowledgement.toJson)]

end Praefectus
