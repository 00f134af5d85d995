import Praefectus.Semantic.Fence
import Praefectus.Text.Fields

/-!
# What the encoding of a request keeps apart

The canonical JSON of an action, a target, a verification policy and a grant determines it,
up to the order of members in an expected state.
-/

namespace Json

section

variable {members others : List (String × Json)}

/-- Objects with one canonical form agree under each key, up to canonical form. -/
theorem lookup_congr (unique : (members.map Prod.fst).Nodup)
    (same : (obj members).canonicalize = (obj others).canonicalize) (key : String) :
    (members.lookup key).map canonicalize = (others.lookup key).map canonicalize := by
  have sorted : sortMembers (canonicalMembers members) = sortMembers (canonicalMembers others) :=
    Json.obj.inj same
  have perm : (canonicalMembers members).Perm (canonicalMembers others) :=
    (sortMembers_perm _).symm.trans (sorted ▸ sortMembers_perm _)
  have keys : ((canonicalMembers members).map Prod.fst).Nodup := by
    rw [canonicalMembers_keys]
    exact unique
  rw [← canonicalMembers_lookup, ← canonicalMembers_lookup]
  exact lookup_perm perm keys key

theorem values_of_lookup (keys : members.map Prod.fst = others.map Prod.fst)
    (unique : (members.map Prod.fst).Nodup)
    (same : ∀ key ∈ members.map Prod.fst,
      (members.lookup key).map canonicalize = (others.lookup key).map canonicalize) :
    members.map (·.2.canonicalize) = others.map (·.2.canonicalize) := by
  induction members generalizing others with
  | nil =>
    obtain rfl := List.map_eq_nil_iff.mp keys.symm
    rfl
  | cons member members ih =>
    obtain ⟨key, value⟩ := member
    cases others with
    | nil => cases keys
    | cons other others =>
      obtain ⟨key', value'⟩ := other
      obtain ⟨head, tail⟩ := List.cons.inj keys
      obtain rfl : key = key' := head
      obtain ⟨fresh, unique⟩ := List.nodup_cons.mp unique
      have first := same key List.mem_cons_self
      rw [List.lookup_cons_self, List.lookup_cons_self] at first
      rw [List.map_cons, List.map_cons, Option.some.inj first, ih tail unique fun k member => ?_]
      -- the other keys are found behind the first
      have apart : (k == key) = false := beq_false_of_ne fun equal => fresh (equal ▸ member)
      have rest := same k (List.mem_cons_of_mem _ member)
      rwa [List.lookup_cons, List.lookup_cons, apart] at rest

/-- Objects with the same keys and one canonical form have the same values, up to canonical form. -/
theorem values_congr (same : (obj members).canonicalize = (obj others).canonicalize)
    (keys : members.map Prod.fst = others.map Prod.fst) (unique : (members.map Prod.fst).Nodup) :
    members.map (·.2.canonicalize) = others.map (·.2.canonicalize) :=
  values_of_lookup keys unique fun key _ => lookup_congr unique same key

/-- The first member names the case of an enumeration. -/
theorem kind_congr {kind kind' : String}
    (same : (obj (("kind", .str kind) :: members)).canonicalize =
      (obj (("kind", .str kind') :: others)).canonicalize)
    (unique : ("kind" :: members.map Prod.fst).Nodup) : kind = kind' := by
  have keys : ((("kind", Json.str kind) :: members).map Prod.fst).Nodup := unique
  have first := lookup_congr keys same "kind"
  rw [List.lookup_cons_self, List.lookup_cons_self] at first
  exact Json.str.inj (Option.some.inj first)

@[simp] theorem canonicalize_ofOption_ofUInt64 (n : Option UInt64) :
    (ofOption ofUInt64 n).canonicalize = ofOption ofUInt64 n := by
  cases n <;> rfl

theorem ofOption_ofUInt64_injective {m n : Option UInt64}
    (same : ofOption ofUInt64 m = ofOption ofUInt64 n) : m = n := by
  cases m with
  | none =>
    cases n with
    | none => rfl
    | some n => cases same
  | some m =>
    cases n with
    | none => cases same
    | some n => exact congrArg some (ofUInt64_injective same)

end

end Json

namespace Praefectus

open Json

theorem SemanticTargetRef.toJson_injective {a b : SemanticTargetRef}
    (same : a.toJson.canonicalize = b.toJson.canonicalize) : a = b := by
  have values := values_congr same (by simp) (by simp)
  simp only [List.map_cons, List.map_nil, canonicalize, ofUInt64, List.cons.injEq] at values
  obtain ⟨observationId, generation, provenanceHash, elementId, fingerprintHash, _⟩ := values
  cases a
  cases b
  rw [SemanticTargetRef.mk.injEq]
  exact ⟨Json.str.inj observationId, ofUInt64_injective generation, Json.str.inj provenanceHash,
    Json.str.inj elementId, Json.str.inj fingerprintHash⟩

theorem TargetRef.toJson_injective {a b : TargetRef}
    (same : a.toJson.canonicalize = b.toJson.canonicalize) : a = b := by
  cases a with
  | coordinates x y displayId displayGeometryHash snapshotId snapshotContentHash =>
    cases b with
    | coordinates =>
      have values := values_congr same (by simp) (by simp)
      simp only [List.map_cons, List.map_nil, canonicalize, List.cons.injEq] at values
      obtain ⟨_, x, y, displayId, displayGeometryHash, snapshotId, snapshotContentHash, _⟩ := values
      rw [TargetRef.coordinates.injEq]
      exact ⟨ofInt64_injective x, ofInt64_injective y, Json.str.inj displayId,
        Json.str.inj displayGeometryHash, Json.str.inj snapshotId, Json.str.inj snapshotContentHash⟩
    | _ => exact absurd (kind_congr same (by simp)) (by decide)
  | element target =>
    cases b with
    | element =>
      have values := values_congr same (by simp) (by simp)
      simp only [List.map_cons, List.cons.injEq] at values
      exact congrArg TargetRef.element (SemanticTargetRef.toJson_injective values.2.1)
    | _ => exact absurd (kind_congr same (by simp)) (by decide)
  | none =>
    cases b with
    | none => rfl
    | _ => exact absurd (kind_congr same (by simp)) (by decide)

/-! ### Actions -/

@[simp] theorem canonicalize_ofUInt32 (n : UInt32) : (ofUInt32 n).canonicalize = ofUInt32 n := rfl

@[simp] theorem ofUInt32_inj {m n : UInt32} : ofUInt32 m = ofUInt32 n ↔ m = n :=
  ⟨ofUInt32_injective, congrArg _⟩

@[simp] theorem ofOption_ofUInt64_inj {m n : Option UInt64} :
    ofOption ofUInt64 m = ofOption ofUInt64 n ↔ m = n := ⟨ofOption_ofUInt64_injective, congrArg _⟩

@[simp] theorem ofOption_str_inj {a b : Option String} : ofOption .str a = ofOption .str b ↔ a = b :=
  ⟨ofOption_str_injective, congrArg _⟩

@[simp] theorem ofStrings_inj {a b : List String} : ofStrings a = ofStrings b ↔ a = b :=
  ⟨ofStrings_injective, congrArg _⟩

@[simp] theorem MouseButton.text_inj {a b : MouseButton} : a.text = b.text ↔ a = b :=
  ⟨text_injective, congrArg _⟩

@[simp] theorem Direction.text_inj {a b : Direction} : a.text = b.text ↔ a = b :=
  ⟨text_injective, congrArg _⟩

@[simp] theorem ApplicationOperation.text_inj {a b : ApplicationOperation} : a.text = b.text ↔ a = b :=
  ⟨text_injective, congrArg _⟩

@[simp] theorem WindowOperation.text_inj {a b : WindowOperation} : a.text = b.text ↔ a = b :=
  ⟨text_injective, congrArg _⟩

@[simp] theorem TargetRef.toJson_inj {a b : TargetRef} :
    a.toJson.canonicalize = b.toJson.canonicalize ↔ a = b :=
  ⟨toJson_injective, congrArg fun target : TargetRef => target.toJson.canonicalize⟩

/-- A path that can be written is the text that is written. -/
theorem PathBuf.toStr_injective {a b : PathBuf} {text : String} (first : a.toStr = some text)
    (second : b.toStr = some text) : a = b := by
  obtain ⟨decoded, read, rfl⟩ := Option.map_eq_some_iff.mp first
  obtain ⟨decoded', read', same⟩ := Option.map_eq_some_iff.mp second
  obtain rfl := String.ofList_injective same
  have bytes : a.bytes = b.bytes := (utf8_of_decodeUtf8 read).trans (utf8_of_decodeUtf8 read').symm
  cases a
  cases b
  exact congrArg PathBuf.mk bytes

/-- What is written of an action begins with its name. -/
theorem Action.toJson_kind {action : Action} {j : Json} (encoded : action.toJson = some j) :
    ∃ members, j = .obj (("kind", .str action.name) :: members) ∧
      ("kind" :: members.map Prod.fst).Nodup := by
  cases action with
  | screenshot path =>
    obtain ⟨text, _, rfl⟩ := Option.map_eq_some_iff.mp encoded
    exact ⟨_, rfl, by simp⟩
  | _ =>
    cases encoded
    exact ⟨_, rfl, by simp⟩

theorem Action.name_of_toJson {a b : Action} {i j : Json} (encoded : a.toJson = some i)
    (encoded' : b.toJson = some j) (same : i.canonicalize = j.canonicalize) : a.name = b.name := by
  obtain ⟨members, rfl, unique⟩ := toJson_kind encoded
  obtain ⟨others, rfl, _⟩ := toJson_kind encoded'
  exact kind_congr same unique

/-- Actions of one kind have the same values, up to canonical form. -/
theorem Action.values_of_toJson {members others : List (String × Json)} {i j : Json}
    (encoded : some (Json.obj members) = some i) (encoded' : some (Json.obj others) = some j)
    (same : i.canonicalize = j.canonicalize) (keys : members.map Prod.fst = others.map Prod.fst)
    (unique : (members.map Prod.fst).Nodup) :
    members.map (·.2.canonicalize) = others.map (·.2.canonicalize) := by
  cases encoded
  cases encoded'
  exact values_congr same keys unique

theorem Action.toJson_injective {a b : Action} {i j : Json} (encoded : a.toJson = some i)
    (encoded' : b.toJson = some j) (same : i.canonicalize = j.canonicalize) : a = b := by
  have named := name_of_toJson encoded encoded' same
  cases a with
  | invoke =>
    cases b with
    | invoke => rfl
    | _ => simp [name] at named
  | click =>
    cases b with
    | click =>
      have values := values_of_toJson encoded encoded' same rfl (by simp)
      simpa [canonicalize] using values
    | _ => simp [name] at named
  | typeText =>
    cases b with
    | typeText =>
      have values := values_of_toJson encoded encoded' same rfl (by simp)
      simpa [canonicalize] using values
    | _ => simp [name] at named
  | press =>
    cases b with
    | press =>
      have values := values_of_toJson encoded encoded' same rfl (by simp)
      simpa [canonicalize] using values
    | _ => simp [name] at named
  | paste =>
    cases b with
    | paste =>
      have values := values_of_toJson encoded encoded' same rfl (by simp)
      simpa [canonicalize] using values
    | _ => simp [name] at named
  | hotkey =>
    cases b with
    | hotkey =>
      have values := values_of_toJson encoded encoded' same rfl (by simp)
      simpa [canonicalize, canonicalize_ofStrings] using values
    | _ => simp [name] at named
  | scroll =>
    cases b with
    | scroll =>
      have values := values_of_toJson encoded encoded' same rfl (by simp)
      simpa [canonicalize] using values
    | _ => simp [name] at named
  | move =>
    cases b with
    | move => rfl
    | _ => simp [name] at named
  | drag =>
    cases b with
    | drag =>
      have values := values_of_toJson encoded encoded' same rfl (by simp)
      simpa [canonicalize] using values
    | _ => simp [name] at named
  | selectText =>
    cases b with
    | selectText =>
      have values := values_of_toJson encoded encoded' same rfl (by simp)
      simpa [canonicalize] using values
    | _ => simp [name] at named
  | performSecondaryAction =>
    cases b with
    | performSecondaryAction =>
      have values := values_of_toJson encoded encoded' same rfl (by simp)
      simpa [canonicalize] using values
    | _ => simp [name] at named
  | setValue =>
    cases b with
    | setValue =>
      have values := values_of_toJson encoded encoded' same rfl (by simp)
      simpa [canonicalize] using values
    | _ => simp [name] at named
  | screenshot =>
    cases b with
    | screenshot =>
      obtain ⟨text, read, rfl⟩ := Option.map_eq_some_iff.mp encoded
      obtain ⟨text', read', rfl⟩ := Option.map_eq_some_iff.mp encoded'
      have values := values_congr same (by simp) (by simp)
      simp only [List.map_cons, canonicalize, List.cons.injEq] at values
      obtain rfl := Json.str.inj values.2.1
      exact congrArg Action.screenshot (PathBuf.toStr_injective read read')
    | _ => simp [name] at named
  | application =>
    cases b with
    | application =>
      have values := values_of_toJson encoded encoded' same rfl (by simp)
      simpa [canonicalize] using values
    | _ => simp [name] at named
  | window =>
    cases b with
    | window =>
      have values := values_of_toJson encoded encoded' same rfl (by simp)
      simpa [canonicalize, canonicalize_ofOption_str] using values
    | _ => simp [name] at named
  | «open» =>
    cases b with
    | «open» =>
      have values := values_of_toJson encoded encoded' same rfl (by simp)
      simpa [canonicalize, canonicalize_ofOption_str] using values
    | _ => simp [name] at named
  | clipboardWrite =>
    cases b with
    | clipboardWrite =>
      have values := values_of_toJson encoded encoded' same rfl (by simp)
      simpa [canonicalize] using values
    | _ => simp [name] at named

theorem AuthorityGrant.toJson_injective {a b : AuthorityGrant}
    (same : a.toJson.canonicalize = b.toJson.canonicalize) : a = b := by
  have values := values_congr same (by simp) (by simp)
  simp only [List.map_cons, List.map_nil, canonicalize, ofUInt16, ofUInt64, ofInt64,
    List.cons.injEq] at values
  obtain ⟨protocolVersion, issuer, keyId, operationId, subject, sessionId, risk, expiresAtMs,
    policyGeneration, actionHash, _⟩ := values
  cases a
  cases b
  rw [AuthorityGrant.mk.injEq]
  exact ⟨ofUInt16_injective protocolVersion, Json.str.inj issuer, Json.str.inj keyId,
    Json.str.inj operationId, Json.str.inj subject, Json.str.inj sessionId,
    SafetyClass.text_injective (Json.str.inj risk), ofInt64_injective expiresAtMs,
    Json.str.inj policyGeneration, Json.str.inj actionHash⟩

/-! ### Verification policies -/

/-- The same policy, up to the order of members in the expected state. -/
inductive VerificationPolicy.Same : VerificationPolicy → VerificationPolicy → Prop where
  | none : Same .none .none
  | snapshotChanged : Same .snapshotChanged .snapshotChanged
  | targetState {expected expected' : Value} :
      expected.json.Reordered expected'.json → Same (.targetState expected) (.targetState expected')
  | targetValueHash (sha256 : String) : Same (.targetValueHash sha256) (.targetValueHash sha256)

theorem VerificationPolicy.toJson_same {a b : VerificationPolicy}
    (same : a.toJson.canonicalize = b.toJson.canonicalize) : a.Same b := by
  cases a with
  | none =>
    cases b with
    | none => exact .none
    | _ => exact absurd (kind_congr same (by simp)) (by decide)
  | snapshotChanged =>
    cases b with
    | snapshotChanged => exact .snapshotChanged
    | _ => exact absurd (kind_congr same (by simp)) (by decide)
  | targetState =>
    cases b with
    | targetState =>
      have values := values_congr same (by simp) (by simp)
      simp only [List.map_cons, List.cons.injEq] at values
      exact .targetState (reordered_of_canonicalize values.2.1)
    | _ => exact absurd (kind_congr same (by simp)) (by decide)
  | targetValueHash =>
    cases b with
    | targetValueHash =>
      have values := values_congr same (by simp) (by simp)
      simp only [List.map_cons, canonicalize, List.cons.injEq] at values
      obtain rfl := Json.str.inj values.2.1
      exact .targetValueHash _
    | _ => exact absurd (kind_congr same (by simp)) (by decide)

end Praefectus
