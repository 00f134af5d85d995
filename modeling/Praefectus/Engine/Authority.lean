import Praefectus.Engine.Bench
import Praefectus.Protocol.Encodings

/-!
# Signed authority

A keyring pins a policy generation and a public key for each issuer and key identifier. A
request is authorised by a grant that names it and was signed with the pinned key.
-/

namespace Praefectus

/-! ### What the action hash keeps apart -/

/-- Requests that agree in all that the action hash covers. -/
structure SameAction (request other : ActionRequest) : Prop where
  protocolVersion : request.protocolVersion = other.protocolVersion
  actionVersion : request.actionVersion = other.actionVersion
  targetVersion : request.targetVersion = other.targetVersion
  verificationVersion : request.verificationVersion = other.verificationVersion
  subject : request.subject = other.subject
  sessionId : request.sessionId = other.sessionId
  action : request.action = other.action
  target : request.target = other.target
  interactionMode : request.interactionMode = other.interactionMode
  deadlineAtMs : request.deadlineAtMs = other.deadlineAtMs
  verification : request.verification.Same other.verification
  safety : request.safety = other.safety

theorem hashedFields_injective {request other : ActionRequest} {i j : Json}
    (encoded : request.action.toJson = some i) (encoded' : other.action.toJson = some j)
    (same : (hashedFields request i).canonicalize = (hashedFields other j).canonicalize) :
    SameAction request other := by
  simp only [hashedFields, Json.canonicalize, Json.canonicalItems, Json.arr.injEq,
    List.cons.injEq, and_true] at same
  obtain ⟨protocolVersion, actionVersion, targetVersion, verificationVersion, subject, sessionId,
    action, target, interactionMode, deadlineAtMs, verification, safety⟩ := same
  exact {
    protocolVersion := Json.ofUInt16_injective protocolVersion
    actionVersion := Json.ofUInt16_injective actionVersion
    targetVersion := Json.ofUInt16_injective targetVersion
    verificationVersion := Json.ofUInt16_injective verificationVersion
    subject := Json.str.inj subject
    sessionId := Json.str.inj sessionId
    action := Action.toJson_injective encoded encoded' action
    target := TargetRef.toJson_injective target
    interactionMode := InteractionMode.text_injective (Json.str.inj interactionMode)
    deadlineAtMs := Json.ofInt64_injective deadlineAtMs
    verification := VerificationPolicy.toJson_same verification
    safety := SafetyClass.text_injective (Json.str.inj safety) }

theorem normalizedActionHash_ok {build : Build} {request : ActionRequest} {actionHash : String}
    (hashed : normalizedActionHash build request = .ok actionHash) :
    ∃ action, request.action.toJson = some action ∧
      actionHash = hashSerializable build (hashedFields request action) := by
  unfold normalizedActionHash at hashed
  cases valid : validateVerification request.verification with
  | error e =>
    rw [valid] at hashed
    cases hashed
  | ok =>
    cases encoded : request.action.toJson with
    | none =>
      rw [valid, encoded] at hashed
      cases hashed
    | some action =>
      rw [valid, encoded] at hashed
      exact ⟨action, rfl, (Except.ok.inj hashed).symm⟩

theorem normalizedActionHash_same {build : Build} (distinct : Function.Injective build.sha256)
    {request other : ActionRequest} {actionHash : String}
    (hashed : normalizedActionHash build request = .ok actionHash)
    (hashed' : normalizedActionHash build other = .ok actionHash) : SameAction request other := by
  obtain ⟨action, encoded, rfl⟩ := normalizedActionHash_ok hashed
  obtain ⟨action', encoded', same⟩ := normalizedActionHash_ok hashed'
  exact hashedFields_injective encoded encoded' (hashSerializable_injective distinct same)

/-! ### The verifier -/

def canonicalAuthorityBytes (grant : AuthorityGrant) : List UInt8 := canonicalJsonBytes grant.toJson

theorem canonicalAuthorityBytes_injective {grant other : AuthorityGrant}
    (same : canonicalAuthorityBytes grant = canonicalAuthorityBytes other) : grant = other :=
  AuthorityGrant.toJson_injective (Json.print_injective (utf8_injective same))

/-- What the libraries for hexadecimal text and for signatures provide. -/
structure SignatureLibrary where
  VerifyingKey : Type
  decode : String → Option (List UInt8)
  verifyStrict : VerifyingKey → List UInt8 → List UInt8 → Bool

variable {library : SignatureLibrary}

structure Ed25519AuthorityVerifier (library : SignatureLibrary) where
  issuers : List ((String × String) × String × library.VerifyingKey)

namespace Ed25519AuthorityVerifier

/-- An issuer, a key identifier, a policy generation and a key. -/
abbrev Pin (library : SignatureLibrary) := String × String × String × library.VerifyingKey

def insertPin (issuers : List ((String × String) × String × library.VerifyingKey)) :
    Pin library → Except ProtocolError (List ((String × String) × String × library.VerifyingKey))
  | (issuer, keyId, policyGeneration, key) =>
    if !validIdentifier issuer || !validIdentifier keyId || !validIdentifier policyGeneration ||
        (issuers.lookup (issuer, keyId)).isSome then
      throw (.invalidRequest "invalid authority keyring")
    else pure (((issuer, keyId), policyGeneration, key) :: issuers)

def new (keys : List (Pin library)) : Except ProtocolError (Ed25519AuthorityVerifier library) := do
  pure ⟨← keys.foldlM insertPin []⟩

def verify (verifier : Ed25519AuthorityVerifier library) (request : ActionRequest)
    (actionHash : String) : Except ProtocolError VerifiedAuthority :=
  let grant := request.authority.grant
  if grant.protocolVersion ≠ protocolVersion || grant.operationId ≠ request.operationId ||
      grant.subject ≠ request.subject || grant.sessionId ≠ request.sessionId ||
      grant.risk ≠ request.safety || grant.actionHash ≠ actionHash || grant.expiresAtMs ≤ 0 ||
      !validIdentifier grant.issuer || !validIdentifier grant.keyId ||
      !validIdentifier grant.policyGeneration || !isHash grant.actionHash then
    throw .authorityDenied
  else match verifier.issuers.lookup (grant.issuer, grant.keyId) with
    | none => throw .authorityDenied
    | some (policyGeneration, key) =>
      if policyGeneration ≠ grant.policyGeneration then throw .authorityDenied
      else match (library.decode request.authority.signature).filter (·.length = 64) with
        | none => throw .authorityDenied
        | some signature =>
          if library.verifyStrict key (canonicalAuthorityBytes grant) signature then
            pure ⟨grant.expiresAtMs⟩
          else throw .authorityDenied

/-! ### The keyring -/

/-- What is found for an issuer and a key identifier is what was pinned for them. -/
def Keeps (issuers : List ((String × String) × String × library.VerifyingKey))
    (keys : List (Pin library)) : Prop :=
  ∀ issuer keyId policyGeneration key,
    issuers.lookup (issuer, keyId) = some (policyGeneration, key) ↔
      (issuer, keyId, policyGeneration, key) ∈ keys

theorem keeps_insertPin {issuers issuers' : List ((String × String) × String × library.VerifyingKey)}
    {keys : List (Pin library)} {pin : Pin library} (keeps : Keeps issuers keys)
    (inserted : insertPin issuers pin = .ok issuers') : Keeps issuers' (keys ++ [pin]) := by
  obtain ⟨issuer, keyId, policyGeneration, key⟩ := pin
  simp only [insertPin] at inserted
  split at inserted
  · cases inserted
  next accepted =>
    cases inserted
    have fresh : issuers.lookup (issuer, keyId) = none := by
      simp only [Bool.or_eq_true, not_or] at accepted
      exact Option.not_isSome_iff_eq_none.mp accepted.2
    intro issuer' keyId' policyGeneration' key'
    rw [List.mem_append, List.mem_singleton, ← keeps issuer' keyId' policyGeneration' key']
    by_cases same : (issuer', keyId') = (issuer, keyId)
    · obtain ⟨rfl, rfl⟩ := Prod.mk.inj same
      rw [List.lookup_cons_self, fresh]
      constructor
      · intro found
        obtain ⟨rfl, rfl⟩ := Prod.mk.inj (Option.some.inj found)
        exact .inr rfl
      · rintro (found | equal)
        · cases found
        · cases equal
          rfl
    · rw [List.lookup_cons, beq_false_of_ne same]
      constructor
      · exact .inl
      · rintro (found | equal)
        · exact found
        · cases equal
          exact absurd rfl same

theorem keeps_new {keys : List (Pin library)} {verifier : Ed25519AuthorityVerifier library}
    (made : new keys = .ok verifier) : Keeps verifier.issuers keys := by
  have run (rest done : List (Pin library)) issuers issuers' (keeps : Keeps issuers done)
      (folded : rest.foldlM insertPin issuers = .ok issuers') : Keeps issuers' (done ++ rest) := by
    induction rest generalizing done issuers with
    | nil =>
      cases folded
      rwa [List.append_nil]
    | cons pin rest ih =>
      rw [List.foldlM_cons] at folded
      cases inserted : insertPin issuers pin with
      | error e =>
        rw [inserted] at folded
        cases folded
      | ok next =>
        rw [inserted] at folded
        have kept := ih (done ++ [pin]) next (keeps_insertPin keeps inserted) folded
        rwa [List.append_assoc] at kept
  unfold new at made
  cases folded : keys.foldlM insertPin [] with
  | error e =>
    rw [folded] at made
    cases made
  | ok issuers =>
    rw [folded] at made
    cases made
    exact run keys [] [] issuers (fun _ _ _ _ => ⟨nofun, nofun⟩) folded

end Ed25519AuthorityVerifier

/-! ### What an authority is bound to -/

/-- The grant names the request and its action hash. -/
structure AuthorityGrant.Names (grant : AuthorityGrant) (request : ActionRequest)
    (actionHash : String) : Prop where
  operationId : grant.operationId = request.operationId
  subject : grant.subject = request.subject
  sessionId : grant.sessionId = request.sessionId
  risk : grant.risk = request.safety
  actionHash : grant.actionHash = actionHash

/-- The key is the only one pinned for the grant's issuer and key identifier, under the grant's
policy generation. -/
def Pinned (keys : List (Ed25519AuthorityVerifier.Pin library)) (grant : AuthorityGrant)
    (key : library.VerifyingKey) : Prop :=
  (grant.issuer, grant.keyId, grant.policyGeneration, key) ∈ keys ∧
    ∀ policyGeneration other, (grant.issuer, grant.keyId, policyGeneration, other) ∈ keys →
      policyGeneration = grant.policyGeneration ∧ other = key

theorem verify_ok {verifier : Ed25519AuthorityVerifier library} {request : ActionRequest}
    {actionHash : String} {authority : VerifiedAuthority}
    (verified : verifier.verify request actionHash = .ok authority) :
    request.authority.grant.Names request actionHash ∧
    authority.expiresAtMs = request.authority.grant.expiresAtMs ∧
    ∃ key signature,
      verifier.issuers.lookup (request.authority.grant.issuer, request.authority.grant.keyId) =
        some (request.authority.grant.policyGeneration, key) ∧
      library.verifyStrict key (canonicalAuthorityBytes request.authority.grant) signature = true := by
  simp only [Ed25519AuthorityVerifier.verify] at verified
  split at verified
  · cases verified
  next named =>
  split at verified
  · cases verified
  next policyGeneration key found =>
  split at verified
  · cases verified
  next current =>
  split at verified
  · cases verified
  next signature decoded =>
  split at verified
  next signed =>
    cases verified
    simp only [Bool.or_eq_true, decide_eq_true_eq, not_or, ne_eq, not_not, and_assoc] at named
    obtain ⟨_, operationId, subject, sessionId, risk, hashed, _⟩ := named
    rw [not_not.mp current] at found
    exact ⟨⟨operationId, subject, sessionId, risk, hashed⟩, rfl, key, signature, found, signed⟩
  · cases verified

theorem verify_pinned {keys : List (Ed25519AuthorityVerifier.Pin library)}
    {verifier : Ed25519AuthorityVerifier library}
    (made : Ed25519AuthorityVerifier.new keys = .ok verifier) {grant : AuthorityGrant}
    {key : library.VerifyingKey}
    (found : verifier.issuers.lookup (grant.issuer, grant.keyId) = some (grant.policyGeneration, key)) :
    Pinned keys grant key := by
  have keeps := Ed25519AuthorityVerifier.keeps_new made
  refine ⟨(keeps _ _ _ _).mp found, fun policyGeneration other pinned => ?_⟩
  have found' := (keeps _ _ _ _).mpr pinned
  rw [found] at found'
  obtain ⟨rfl, rfl⟩ := Prod.mk.inj (Option.some.inj found')
  exact ⟨rfl, rfl⟩

/-- A signature is evidence that the message was signed, and digests are kept apart. Then the hash
determines what is asked for, a request is authorised only by a signed grant that names it, and
no other request than those that grants were signed for. -/
theorem authority_binds (build : Build) (distinct : Function.Injective build.sha256)
    (library : SignatureLibrary) (Signed : library.VerifyingKey → List UInt8 → Prop)
    (unforgeable : ∀ key message signature,
      library.verifyStrict key message signature = true → Signed key message) :
    (∀ (request other : ActionRequest) (actionHash : String),
      normalizedActionHash build request = .ok actionHash →
      normalizedActionHash build other = .ok actionHash → SameAction request other) ∧
    ∀ (keys : List (Ed25519AuthorityVerifier.Pin library))
      (verifier : Ed25519AuthorityVerifier library),
      Ed25519AuthorityVerifier.new keys = .ok verifier →
      (∀ (request : ActionRequest) (actionHash : String) (authority : VerifiedAuthority),
        verifier.verify request actionHash = .ok authority →
        request.authority.grant.Names request actionHash ∧
        authority.expiresAtMs = request.authority.grant.expiresAtMs ∧
        ∃ key, Pinned keys request.authority.grant key ∧
          Signed key (canonicalAuthorityBytes request.authority.grant)) ∧
      ∀ granted : ActionRequest → Prop,
        (∀ pin ∈ keys, ∀ message, Signed pin.2.2.2 message → ∃ request actionHash grant,
          granted request ∧ normalizedActionHash build request = .ok actionHash ∧
          grant.Names request actionHash ∧ message = canonicalAuthorityBytes grant) →
        ∀ (request : ActionRequest) (actionHash : String) (authority : VerifiedAuthority),
          normalizedActionHash build request = .ok actionHash →
          verifier.verify request actionHash = .ok authority →
          ∃ original, granted original ∧ original.operationId = request.operationId ∧
            SameAction original request := by
  refine ⟨fun request other actionHash => normalizedActionHash_same distinct, ?_⟩
  intro keys verifier made
  have binds (request : ActionRequest) (actionHash : String) (authority : VerifiedAuthority)
      (verified : verifier.verify request actionHash = .ok authority) :
      request.authority.grant.Names request actionHash ∧
      authority.expiresAtMs = request.authority.grant.expiresAtMs ∧
      ∃ key, Pinned keys request.authority.grant key ∧
        Signed key (canonicalAuthorityBytes request.authority.grant) := by
    obtain ⟨names, expires, key, signature, found, signed⟩ := verify_ok verified
    exact ⟨names, expires, key, verify_pinned made found, unforgeable _ _ _ signed⟩
  refine ⟨binds, fun granted signs request actionHash authority hashed verified => ?_⟩
  obtain ⟨names, _, key, pinned, signed⟩ := binds request actionHash authority verified
  obtain ⟨original, originalHash, grant, asked, hashed', named, message⟩ :=
    signs _ pinned.1 _ signed
  -- the signed grant is the one that the request carries
  obtain rfl := canonicalAuthorityBytes_injective message
  obtain rfl : originalHash = actionHash := named.actionHash.symm.trans names.actionHash
  exact ⟨original, asked, named.operationId.symm.trans names.operationId,
    normalizedActionHash_same distinct hashed' hashed⟩

/-! ### A signed request -/

def signatureText : String :=
  "b90ec3958c49add0414423c7e0279fec3eadff5692eac79c7fdc17bb5ac7b51a" ++
  "6a7c3716019205962b61b120b5c92bbb33a040ed1fea6204a809aaace59fa604"

def signatureBytes : List UInt8 :=
  [185, 14, 195, 149, 140, 73, 173, 208, 65, 68, 35, 199, 224, 39, 159, 236, 62, 173, 255, 86, 146,
    234, 199, 156, 127, 220, 23, 187, 90, 199, 181, 26, 106, 124, 55, 22, 1, 146, 5, 150, 43, 97, 177,
    32, 181, 201, 43, 187, 51, 160, 64, 237, 31, 234, 98, 4, 168, 9, 170, 172, 229, 159, 166, 4]

def pinnedKey : List UInt8 :=
  [3, 161, 7, 191, 243, 206, 16, 190, 29, 112, 221, 24, 231, 75, 192, 153, 103, 228, 214, 48, 155,
    165, 13, 95, 29, 220, 134, 100, 18, 85, 49, 184]

def signedHash : String := hexEncode (benchDigest .interactive)

def signedGrant : AuthorityGrant :=
  { (benchRequest .interactive).authority.grant with actionHash := signedHash }

def signedRequest : ActionRequest :=
  { benchRequest .interactive with authority := ⟨signedGrant, signatureText⟩ }

/-- The key has signed the grant, and nothing else. -/
def signedLibrary : SignatureLibrary where
  VerifyingKey := List UInt8
  decode text := if text = signatureText then some signatureBytes else none
  verifyStrict key message signature :=
    key = pinnedKey && message = canonicalAuthorityBytes signedGrant && signature = signatureBytes

/-- The digest of what the request's hash covers is the real one; no other message has it. -/
def signedSha256 (bytes : List UInt8) : List UInt8 :=
  if bytes = canonicalJsonBytes (hashedFields signedRequest (.obj [("kind", .str "invoke")])) then
    benchDigest .interactive
  else bytes ++ List.replicate 33 0

theorem signedSha256_injective : Function.Injective signedSha256 := by
  intro a b same
  unfold signedSha256 at same
  split at same
  next known =>
    split at same
    next known' => rw [known, known']
    next => simpa [benchDigest] using congrArg List.length same
  next =>
    split at same
    next => simpa [benchDigest] using congrArg List.length same
    next => exact List.append_cancel_right same

theorem authority_binds_signed : ∃ verifier : Ed25519AuthorityVerifier signedLibrary,
    Ed25519AuthorityVerifier.new [("issuer-1", "key-1", "policy-1", pinnedKey)] = .ok verifier ∧
    verifier.verify signedRequest signedHash = .ok ⟨1000⟩ ∧
    signedGrant.Names signedRequest signedHash ∧
    SameAction signedRequest (benchRequest .interactive) ∧
    ∃ original, original = signedRequest ∧ SameAction original signedRequest := by
  have hashed : normalizedActionHash ⟨false, signedSha256⟩ signedRequest = .ok signedHash := by
    decide +kernel
  have hashed' : normalizedActionHash ⟨false, signedSha256⟩ (benchRequest .interactive) =
      .ok signedHash := by decide +kernel
  have unforgeable (key message signature : List UInt8)
      (verified : signedLibrary.verifyStrict key message signature = true) :
      key = pinnedKey ∧ message = canonicalAuthorityBytes signedGrant := by
    simp only [signedLibrary, Bool.and_eq_true, decide_eq_true_eq] at verified
    exact verified.1
  have binds := authority_binds ⟨false, signedSha256⟩ signedSha256_injective signedLibrary
    (fun key message => key = pinnedKey ∧ message = canonicalAuthorityBytes signedGrant) unforgeable
  obtain ⟨verifier, made, verified⟩ : ∃ verifier : Ed25519AuthorityVerifier signedLibrary,
      Ed25519AuthorityVerifier.new [("issuer-1", "key-1", "policy-1", pinnedKey)] = .ok verifier ∧
      verifier.verify signedRequest signedHash = .ok ⟨1000⟩ := by
    exact ⟨⟨[(("issuer-1", "key-1"), "policy-1", pinnedKey)]⟩, rfl, by decide +kernel⟩
  obtain ⟨granted, only⟩ := binds.2 _ verifier made
  refine ⟨verifier, made, verified, (granted _ _ _ verified).1, binds.1 _ _ _ hashed hashed', ?_⟩
  refine only (· = signedRequest) ?_ signedRequest signedHash ⟨1000⟩ hashed verified |>.imp
    fun original found => ⟨found.1, found.2.2⟩
  intro pin _ message signed
  exact ⟨signedRequest, signedHash, signedGrant, rfl, hashed, (granted _ _ _ verified).1, signed.2⟩

end Praefectus
