import MapProtocol.Security.CanonicalText
import MapProtocol.Security.CompactSignature

/-!
# Signed records on the wire

Receipts, delegation tokens and agent descriptors are signed in memory and verified after
`JSON.stringify` and `JSON.parse`. A record is an object whose fields are read by name; a field may
be absent or `undefined`, at any depth. Receipts and tokens take their payload straight from the
object in memory; a descriptor is put through JSON before it is signed, so its signature always
survives.
-/

namespace MapProtocol

open Js

/-- Signing and verifying fit together: a signature that is made verifies the text it was made
for. -/
def SigningConfig.Roundtrips (config : SigningConfig) : Prop :=
  ∀ canonicalPayload requestedKid scope signature,
    config.createCompactSignatureFromCanonical canonicalPayload requestedKid scope =
      .ok signature →
        config.verifyCompactSignatureFromCanonical signature canonicalPayload scope = true

theorem SigningConfig.roundtrips_of_distinct {config : SigningConfig} (hsound : config.Sound)
    (hdistinct : (config.keys.map SigningKey.kid).Nodup) : config.Roundtrips :=
  fun _ _ _ _ h => verify_of_created hsound (fun _ hkey => found_of_authorized hkey (.inl hdistinct)) h

namespace Wire

variable {config : SigningConfig} {signature canonicalPayload : String}
  {scope : Option SignatureScope}

/-! ## Records -/

abbrev Record := OrderedMap String JsValue

/-- `o[key]`. -/
def field (o : Record) (key : String) : JsValue := (o.get key).getD .undefined

/-- `JSON.parse(JSON.stringify(o))`. -/
def wireCopy (o : Record) : Record :=
  ⟨jsonCopyMembers o.entries, (jsonCopyMembers_keys o.entries).nodup o.nodup⟩

theorem field_wireCopy (o : Record) (key : String) : field (wireCopy o) key = received (field o key) := by
  have hget : (wireCopy o).get key = (o.get key).bind jsonCopy? :=
    getEntries_jsonCopyMembers key o.nodup
  rw [field, field, hget, received]
  cases o.get key with
  | none => rfl
  | some v => rfl

theorem field_set (o : Record) (key a : String) (v : JsValue) :
    field (o.set key v) a = if key = a then v else field o a := by
  rw [field, OrderedMap.get_set]
  split <;> rfl

/-- The fields hold data, no functions. -/
def Plain (o : Record) : Prop := ∀ key name, field o key ≠ .inherited name

theorem received_orElse_null {v : JsValue} (h : ∀ name, v ≠ .inherited name) :
    received (v.orElse .null) = (received v).orElse .null := by
  cases v with
  | inherited name => exact absurd rfl (h name)
  | _ => rfl

/-! ## Payloads -/

def tokenSigningPayload (token : Record) : JsObject :=
  [("issuer", field token "issuer"),
    ("subject_agent", field token "subject_agent"),
    ("allowed_actions", field token "allowed_actions"),
    ("resource_scope", field token "resource_scope"),
    ("constraints", field token "constraints"),
    ("approval_reference", (field token "approval_reference").orElse .null),
    ("requester_identity", (field token "requester_identity").orElse .null)]

def receiptSigningPayload (receipt : Record) : JsObject :=
  [("receipt_id", field receipt "receipt_id"),
    ("intent_id", field receipt "intent_id"),
    ("capability", field receipt "capability"),
    ("action", field receipt "action"),
    ("timestamp", field receipt "timestamp"),
    ("status", field receipt "status"),
    ("task_id", (field receipt "task_id").orElse .null),
    ("tenant_id", (field receipt "tenant_id").orElse .null),
    ("request_id", (field receipt "request_id").orElse .null),
    ("agent_id", (field receipt "agent_id").orElse .null),
    ("resource_touched", (field receipt "resource_touched").orElse .null),
    ("policy_checks", (field receipt "policy_checks").orElse .null),
    ("approval_used", (field receipt "approval_used").orElse .null),
    ("result_hash", (field receipt "result_hash").orElse .null),
    ("requested_schema_version", (field receipt "requested_schema_version").orElse .null),
    ("executed_schema_version", (field receipt "executed_schema_version").orElse .null),
    ("negotiation", (field receipt "negotiation").orElse .null)]

theorem tokenSigningPayload_wireCopy {token : Record} (h : Plain token) :
    tokenSigningPayload (wireCopy token) =
      (tokenSigningPayload token).map fun e => (e.1, received e.2) := by
  simp [tokenSigningPayload, field_wireCopy, received_orElse_null (h _)]

theorem receiptSigningPayload_wireCopy {receipt : Record} (h : Plain receipt) :
    receiptSigningPayload (wireCopy receipt) =
      (receiptSigningPayload receipt).map fun e => (e.1, received e.2) := by
  simp [receiptSigningPayload, field_wireCopy, received_orElse_null (h _)]

theorem tokenSigningPayload_signature (token : Record) (v : JsValue) :
    tokenSigningPayload (token.set "signature" v) = tokenSigningPayload token := by
  simp [tokenSigningPayload, field_set]

theorem receiptSigningPayload_signature (receipt : Record) (v : JsValue) :
    receiptSigningPayload (receipt.set "signature" v) = receiptSigningPayload receipt := by
  simp [receiptSigningPayload, field_set]

/-- `canonicalize(input)`; `none` where `JSON.parse` throws. -/
def canonicalize (input : String) : Option String := (parse input).bind serializeJcs

def descriptorSigningPayload (descriptor : Record) : Option String :=
  canonicalize (stringify descriptor.entries)

/-! ## Signing and verifying -/

def signDelegationToken (config : SigningConfig) (token : Record) : Except String String := do
  assertValidKeyUse "delegation_token" .delegationToken
  config.createCompactSignature (tokenSigningPayload token) none (some .delegationToken)

/-- `verifyDelegationTokenSignature`. The fields of the payload do not include the signature. -/
def verifyDelegationTokenSignature (config : SigningConfig) (token : Record) : Bool :=
  match field token "signature" with
  | .str signature =>
      config.verifyCompactSignature signature (tokenSigningPayload (token.delete "signature"))
        (some .delegationToken)
  | _              => false

def signReceipt (config : SigningConfig) (receipt : Record) : Except String String := do
  assertValidKeyUse "execution_receipt" .receipt
  config.createCompactSignature (receiptSigningPayload receipt) none (some .receipt)

def verifyReceiptSignature (config : SigningConfig) (receipt : Record) : Bool :=
  match field receipt "signature" with
  | .str signature =>
      config.verifyCompactSignature signature (receiptSigningPayload (receipt.delete "signature"))
        (some .receipt)
  | _              => false

/-- The header of a compact signature, where the signature has three parts and a header. -/
def signatureHeader (signature : String) : Option JsValue :=
  match split signature '.' with
  | [encodedHeader, _, _] => parse (fromUtf8 (bytesOfBase64url encodedHeader))
  | _                     => none

def getSignatureKeyId (signature : String) : Option String :=
  match signatureHeader signature with
  | none              => none
  | some parsedHeader =>
      if (parsedHeader.property "typ").strictEquals (.str "MAPSIG") then
        (parsedHeader.property "kid").asString
      else none

def getSignatureAlgorithm (signature : String) : Option String :=
  match signatureHeader signature with
  | none              => none
  | some parsedHeader =>
      if (parsedHeader.property "typ").strictEquals (.str "MAPSIG") then
        (parsedHeader.property "alg").asString.filter fun alg => alg = "HS256" ∨ alg = "RS256"
      else none

def DEFAULT_ALG : String := "HS256"

/-- The fields that signing adds to a descriptor, and that are not signed. -/
def descriptorSignatureFields : List String :=
  ["descriptor_signature", "descriptor_key_id", "descriptor_signature_alg"]

/-- `{ ...descriptor, ...signAgentDescriptor(descriptor) }`. -/
def signAgentDescriptor (config : SigningConfig) (descriptor : Record) : Except String Record := do
  assertValidKeyUse "agent_descriptor" .descriptor
  match descriptorSigningPayload descriptor with
  | none                  => throw "Unexpected token in JSON"
  | some canonicalPayload =>
      let signature ← config.createCompactSignatureFromCanonical canonicalPayload none
        (some .descriptor)
      return ((descriptor.set "descriptor_signature" (.str signature)).set "descriptor_key_id"
        (.str ((getSignatureKeyId signature).getD DEFAULT_KID))).set "descriptor_signature_alg"
          (.str ((getSignatureAlgorithm signature).getD DEFAULT_ALG))

def verifyAgentDescriptorSignature (config : SigningConfig) (descriptor : Record) : Bool :=
  match field descriptor "descriptor_signature", field descriptor "descriptor_key_id",
      field descriptor "descriptor_signature_alg" with
  | .str signature, .str _, .str _ =>
      let unsignedDescriptor := ((descriptor.delete "descriptor_signature").delete
        "descriptor_key_id").delete "descriptor_signature_alg"
      match descriptorSigningPayload unsignedDescriptor with
      | none                  => false
      | some canonicalPayload =>
          config.verifyCompactSignatureFromCanonical signature canonicalPayload (some .descriptor)
  | _, _, _ => false

/-! ## The key that a signature names -/

theorem signatureHeader_signingInput (key : SigningKey) (canonicalPayload : String)
    (bytes : List UInt8) :
    signatureHeader (SigningConfig.signingInput key canonicalPayload ++ "." ++
      base64urlOfBytes bytes) = some (.obj (SigningConfig.signingHeader key)) := by
  unfold signatureHeader SigningConfig.signingInput
  rw [split_three (dot_notMem_base64url _) (dot_notMem_base64url _) (dot_notMem_base64urlOfBytes _)]
  exact SigningConfig.parse_encodedHeader key

theorem getSignatureKeyId_signingInput (key : SigningKey) (canonicalPayload : String)
    (bytes : List UInt8) :
    getSignatureKeyId (SigningConfig.signingInput key canonicalPayload ++ "." ++
      base64urlOfBytes bytes) = some key.kid := by
  unfold getSignatureKeyId
  rw [signatureHeader_signingInput]
  rfl

/-- What verifies has a header that gives the key. -/
theorem header_of_verify
    (h : config.verifyCompactSignatureFromCanonical signature canonicalPayload scope = true) :
    ∃ header key, signatureHeader signature = some header ∧
      config.verificationKey header scope = some key ∧
      ∃ input bytes, config.verifyBytes key input bytes = true := by
  obtain ⟨encodedHeader, encodedSignature, header, key, hsplit, hheader, hkey, hbytes⟩ :=
    SigningConfig.verifies_iff_parts.mp h
  refine ⟨header, key, ?_, hkey, _, _, hbytes⟩
  unfold signatureHeader
  rw [hsplit]
  exact hheader

/-- What verifies names a key that may verify it. -/
theorem named_of_verify
    (h : config.verifyCompactSignatureFromCanonical signature canonicalPayload scope = true) :
    ∃ key, getSignatureKeyId signature = some key.kid ∧
      config.getSigningKeyByKid key.kid = some key ∧ key.status ≠ .revoked ∧
      (∀ name, scope = some name → name.text ∈ key.scopes) ∧
      ∃ input bytes, config.verifyBytes key input bytes = true := by
  obtain ⟨header, key, hheader, hkey, hbytes⟩ := header_of_verify h
  obtain ⟨htyp, -, hkid, hfound, hlive, hscope⟩ := SigningConfig.verificationKey_eq_some.mp hkey
  refine ⟨key, ?_, hfound, hlive, hscope, hbytes⟩
  unfold getSignatureKeyId
  rw [hheader]
  dsimp only
  rw [htyp, hkid]
  rfl

/-- A signature verifies in every text that decodes to its bytes. -/
theorem verify_of_decoded {config : SigningConfig} {key : SigningKey} {secret : String}
    (hmaterial : key.material = .hmac secret)
    (hfound : config.getSigningKeyByKid key.kid = some key) (hlive : key.status ≠ .revoked)
    {scope : SignatureScope} (hscope : scope.text ∈ key.scopes) {canonicalPayload text : String}
    (hdot : '.' ∉ text.toList) (hbytes : bytesOfBase64url text =
      config.crypto.hmacSha256 secret (SigningConfig.signingInput key canonicalPayload)) :
    config.verifyCompactSignatureFromCanonical
      (SigningConfig.signingInput key canonicalPayload ++ "." ++ text) canonicalPayload (some scope) =
        true := by
  refine (SigningConfig.verifies_iff_of_input hdot).mpr ⟨rfl, key, ?_, ?_⟩
  · exact SigningConfig.verificationKey_signingHeader hfound hlive
      fun _ hname => Option.some.inj hname ▸ hscope
  · unfold SigningConfig.verifyBytes
    rw [hmaterial, hbytes]
    simp

/-- What is made names the key that made it. -/
theorem named_of_create {config : SigningConfig} {signature canonicalPayload : String}
    {requestedKid : Option String} {scope : Option SignatureScope}
    (h : config.createCompactSignatureFromCanonical canonicalPayload requestedKid scope =
      .ok signature) :
    ∃ key sign, config.authorizedKey requestedKid scope = .ok key ∧ config.signer key = .ok sign ∧
      getSignatureKeyId signature = some key.kid := by
  unfold SigningConfig.createCompactSignatureFromCanonical at h
  simp only [bind_eq_ok, pure_eq_ok] at h
  obtain ⟨key, hkey, sign, hsign, rfl⟩ := h
  exact ⟨key, sign, hkey, hsign, getSignatureKeyId_signingInput ..⟩

/-! ## Receipts and tokens -/

section

variable {config : SigningConfig} {o : Record} {signature : String}

theorem plain_signature (h : Plain o) : Plain (o.set "signature" (.str signature)) := by
  intro key name
  rw [field_set]
  split
  · exact JsValue.noConfusion
  · exact h key name

theorem field_delete {key a : String} (h : key ≠ a) : field (o.delete key) a = field o a := by
  rw [field, OrderedMap.get_delete, if_neg h, field]

theorem field_wireCopy_signature :
    field (wireCopy (o.set "signature" (.str signature))) "signature" = .str signature := by
  rw [field_wireCopy, field_set, if_pos rfl]
  rfl

theorem tokenSigningPayload_delete :
    tokenSigningPayload (o.delete "signature") = tokenSigningPayload o := by
  simp [tokenSigningPayload, field_delete]

theorem receiptSigningPayload_delete :
    receiptSigningPayload (o.delete "signature") = receiptSigningPayload o := by
  simp [receiptSigningPayload, field_delete]

/-- Verifying what was made asks for the text that was signed. -/
theorem verify_created_iff (hconfig : config.Roundtrips) {payload payload' : JsObject}
    {scope : SignatureScope}
    (h : config.createCompactSignature payload none (some scope) = .ok signature) :
    config.verifyCompactSignature signature payload' (some scope) = true ↔
      stableStringify payload' = stableStringify payload := by
  constructor
  · intro hverify
    exact (SigningConfig.payload_of_verify h hverify).symm
  · intro htext
    rw [SigningConfig.verifyCompactSignature, htext]
    exact hconfig _ _ _ _ h

theorem token_survives_iff (hconfig : config.Roundtrips) (hplain : Plain o)
    (h : signDelegationToken config o = .ok signature) :
    verifyDelegationTokenSignature config (wireCopy (o.set "signature" (.str signature))) = true ↔
      ∀ e ∈ tokenSigningPayload o, travels e.2 = true := by
  unfold signDelegationToken at h
  simp only [bind_eq_ok] at h
  obtain ⟨_, _, hcreate⟩ := h
  unfold verifyDelegationTokenSignature
  rw [field_wireCopy_signature]
  dsimp only
  rw [tokenSigningPayload_delete, tokenSigningPayload_wireCopy (plain_signature hplain),
    tokenSigningPayload_signature, verify_created_iff hconfig hcreate]
  exact stableStringify_received_iff _

theorem receipt_survives_iff (hconfig : config.Roundtrips) (hplain : Plain o)
    (h : signReceipt config o = .ok signature) :
    verifyReceiptSignature config (wireCopy (o.set "signature" (.str signature))) = true ↔
      ∀ e ∈ receiptSigningPayload o, travels e.2 = true := by
  unfold signReceipt at h
  simp only [bind_eq_ok] at h
  obtain ⟨_, _, hcreate⟩ := h
  unfold verifyReceiptSignature
  rw [field_wireCopy_signature]
  dsimp only
  rw [receiptSigningPayload_delete, receiptSigningPayload_wireCopy (plain_signature hplain),
    receiptSigningPayload_signature, verify_created_iff hconfig hcreate]
  exact stableStringify_received_iff _

end

/-! ## Descriptors -/

section

variable {config : SigningConfig} {o : Record}

def isSigned (e : String × JsValue) : Bool := e.1 ∉ descriptorSignatureFields

theorem deleteEntries_eq_filter {key : String} {es : JsObject} (h : (es.map Prod.fst).Nodup) :
    OrderedMap.deleteEntries key es = es.filter fun e => e.1 ≠ key := by
  induction es with
  | nil => rfl
  | cons e es ih =>
      obtain ⟨k, v⟩ := e
      obtain ⟨hk, hes⟩ := List.nodup_cons.mp h
      by_cases hkey : k = key
      · subst hkey
        have hne : ∀ e ∈ es, e.1 ≠ k := by
          intro e he heq
          have hmem : e.1 ∈ es.map Prod.fst := List.mem_map_of_mem he
          rw [heq] at hmem
          exact hk hmem
        have hall : es.filter (fun e => e.1 ≠ k) = es :=
          List.filter_eq_self.mpr fun e he => by simpa using hne e he
        rw [OrderedMap.deleteEntries, if_pos rfl, List.filter_cons_of_neg (by simp), hall]
      · simp [OrderedMap.deleteEntries, hkey, ih hes]

theorem filter_setEntries {key : String} {v : JsValue} (h : key ∈ descriptorSignatureFields)
    (es : JsObject) : (OrderedMap.setEntries key v es).filter isSigned = es.filter isSigned := by
  induction es with
  | nil => simp [OrderedMap.setEntries, isSigned, h]
  | cons e es ih =>
      obtain ⟨k, w⟩ := e
      by_cases hkey : k = key
      · subst hkey
        simp [OrderedMap.setEntries, isSigned, h]
      · simp only [OrderedMap.setEntries, hkey, if_false, List.filter_cons, ih]

theorem filter_jsonCopyMembers (es : JsObject) :
    (jsonCopyMembers es).filter isSigned = jsonCopyMembers (es.filter isSigned) := by
  induction es with
  | nil => rfl
  | cons e es ih =>
      obtain ⟨k, v⟩ := e
      cases hcopy : jsonCopy? v with
      | none =>
          by_cases hk : isSigned (k, v) = true
          · simp [jsonCopyMembers, hcopy, hk, ih]
          · simp [jsonCopyMembers, hcopy, hk, ih]
      | some w =>
          have hsame : isSigned (k, w) = isSigned (k, v) := rfl
          by_cases hk : isSigned (k, v) = true
          · simp [jsonCopyMembers, hcopy, hk, hsame, ih]
          · simp [jsonCopyMembers, hcopy, hk, hsame, ih]

theorem entries_unsigned (o : Record) : (((o.delete "descriptor_signature").delete
    "descriptor_key_id").delete "descriptor_signature_alg").entries = o.entries.filter isSigned := by
  simp only [OrderedMap.delete]
  rw [deleteEntries_eq_filter (OrderedMap.nodup_deleteEntries _
      (OrderedMap.nodup_deleteEntries _ o.nodup)),
    deleteEntries_eq_filter (OrderedMap.nodup_deleteEntries _ o.nodup),
    deleteEntries_eq_filter o.nodup, List.filter_filter, List.filter_filter]
  refine List.filter_congr fun e _ => ?_
  simp only [isSigned, descriptorSignatureFields, List.mem_cons, List.not_mem_nil, or_false]
  grind

theorem stringify_filter {es : JsObject}
    (h : ∀ e ∈ es, isSigned e = false → jsonCopy? e.2 = none) :
    stringify (es.filter isSigned) = stringify es := by
  have hmembers : stringifyMembers (es.filter isSigned) = stringifyMembers es := by
    induction es with
    | nil => rfl
    | cons e es ih =>
        obtain ⟨k, v⟩ := e
        obtain ⟨he, hes⟩ := List.forall_mem_cons.mp h
        cases hk : isSigned (k, v) with
        | true => simp only [List.filter_cons, hk, if_true, stringifyMembers, ih hes]
        | false =>
            have hnone : stringify? v = none := by
              have htext := stringify_jsonCopy? v
              rw [he hk] at htext
              exact htext.symm
            rw [List.filter_cons_of_neg (by simp [hk]), ih hes, stringifyMembers, hnone]
  simp only [stringify, stringify?, hmembers]

theorem received_field_str {key s : String} (h : field o key = .str s) :
    field (wireCopy o) key = .str s := by
  rw [field_wireCopy, h]
  rfl

/-- **The signature of a descriptor survives.** -/
theorem descriptor_survives (hconfig : config.Roundtrips)
    (hunsigned : ∀ key ∈ descriptorSignatureFields, field o key = .undefined) {signed : Record}
    (h : signAgentDescriptor config o = .ok signed) :
    verifyAgentDescriptorSignature config (wireCopy signed) = true := by
  unfold signAgentDescriptor at h
  simp only [bind_eq_ok] at h
  obtain ⟨_, _, h⟩ := h
  split at h
  · exact absurd h throw_ne_ok
  · rename_i canonicalPayload hpayload
    simp only [bind_eq_ok, pure_eq_ok] at h
    obtain ⟨signature, hcreate, rfl⟩ := h
    unfold verifyAgentDescriptorSignature
    rw [@received_field_str _ "descriptor_signature" signature (by simp [field_set]),
      @received_field_str _ "descriptor_key_id" ((getSignatureKeyId signature).getD DEFAULT_KID)
        (by simp [field_set]),
      @received_field_str _ "descriptor_signature_alg"
        ((getSignatureAlgorithm signature).getD DEFAULT_ALG) (by simp [field_set])]
    dsimp only
    -- without the three fields the received descriptor has the text of the descriptor
    have htext : ∀ kid alg : String, stringify (jsonCopyMembers (((o.set "descriptor_signature"
        (.str signature)).set "descriptor_key_id" (.str kid)).set "descriptor_signature_alg"
          (.str alg)).entries |>.filter isSigned) = stringify o.entries := by
      intro kid alg
      rw [filter_jsonCopyMembers, stringify_jsonCopy]
      simp only [OrderedMap.set]
      rw [filter_setEntries (by decide), filter_setEntries (by decide),
        filter_setEntries (by decide)]
      refine stringify_filter fun e he hk => ?_
      have hmem : e.1 ∈ descriptorSignatureFields := by simpa [isSigned] using hk
      have hget : o.get e.1 = some e.2 := OrderedMap.get_eq_some.mpr he
      have hvalue := hunsigned e.1 hmem
      rw [field, hget] at hvalue
      simp only [Option.getD_some] at hvalue
      rw [hvalue]
      rfl
    unfold descriptorSigningPayload
    rw [entries_unsigned]
    unfold wireCopy
    dsimp only
    rw [htext, ← descriptorSigningPayload, hpayload]
    exact hconfig _ _ _ _ hcreate

end

/-! ## Every signed artifact -/

inductive Artifact where
  | executionReceipt
  | delegationToken
  | agentDescriptor
  deriving DecidableEq, Repr

namespace Artifact

/-- The record is one that has not been signed: its fields hold data, and the type of a descriptor to
sign leaves out the fields that signing adds. -/
def Unsigned : Artifact → Record → Prop
  | .executionReceipt, o => Plain o
  | .delegationToken, o  => Plain o
  | .agentDescriptor, o  => ∀ key ∈ descriptorSignatureFields, field o key = .undefined

def sign (config : SigningConfig) : Artifact → Record → Except String Record
  | .executionReceipt, o => (signReceipt config o).map fun s => o.set "signature" (.str s)
  | .delegationToken, o  => (signDelegationToken config o).map fun s => o.set "signature" (.str s)
  | .agentDescriptor, o  => signAgentDescriptor config o

def verify (config : SigningConfig) : Artifact → Record → Bool
  | .executionReceipt => verifyReceiptSignature config
  | .delegationToken  => verifyDelegationTokenSignature config
  | .agentDescriptor  => verifyAgentDescriptorSignature config

/-- The fields whose values are signed as they are in memory. A descriptor is signed as JSON. -/
def memoryFields : Artifact → List String
  | .executionReceipt =>
      ["receipt_id", "intent_id", "capability", "action", "timestamp", "status", "task_id",
        "tenant_id", "request_id", "agent_id", "resource_touched", "policy_checks",
        "approval_used", "result_hash", "requested_schema_version", "executed_schema_version",
        "negotiation"]
  | .delegationToken  =>
      ["issuer", "subject_agent", "allowed_actions", "resource_scope", "constraints",
        "approval_reference", "requester_identity"]
  | .agentDescriptor  => []

/-- Is nothing below the signed fields `undefined`? A field itself may be. -/
def wireSafe (artifact : Artifact) (o : Record) : Bool :=
  artifact.memoryFields.all fun key => travels (field o key)

end Artifact

theorem travels_orElse_null (v : JsValue) (h : ∀ name, v ≠ .inherited name) :
    travels (v.orElse .null) = travels v := by
  cases v with
  | inherited name => exact absurd rfl (h name)
  | _ => rfl

theorem travels_token_iff {o : Record} (h : Plain o) :
    (∀ e ∈ tokenSigningPayload o, travels e.2 = true) ↔
      Artifact.delegationToken.wireSafe o = true := by
  simp [tokenSigningPayload, Artifact.wireSafe, Artifact.memoryFields,
    travels_orElse_null _ (h _)]

theorem travels_receipt_iff {o : Record} (h : Plain o) :
    (∀ e ∈ receiptSigningPayload o, travels e.2 = true) ↔
      Artifact.executionReceipt.wireSafe o = true := by
  simp [receiptSigningPayload, Artifact.wireSafe, Artifact.memoryFields,
    travels_orElse_null _ (h _)]

/-- **Signatures survive the wire exactly where nothing below a signed field is `undefined`.** -/
theorem signature_survives_iff {config : SigningConfig} (hconfig : config.Roundtrips)
    (artifact : Artifact) {o signed : Record} (hunsigned : artifact.Unsigned o)
    (h : artifact.sign config o = .ok signed) :
    artifact.verify config (wireCopy signed) = true ↔ artifact.wireSafe o = true := by
  cases artifact with
  | executionReceipt =>
      obtain ⟨signature, hsign, rfl⟩ := map_eq_ok.mp h
      exact (receipt_survives_iff hconfig hunsigned hsign).trans (travels_receipt_iff hunsigned)
  | delegationToken =>
      obtain ⟨signature, hsign, rfl⟩ := map_eq_ok.mp h
      exact (token_survives_iff hconfig hunsigned hsign).trans (travels_token_iff hunsigned)
  | agentDescriptor =>
      exact iff_of_true (descriptor_survives hconfig hunsigned h) rfl

/-! ## The receipts of the orchestrator

The orchestrator's receipts have a type of their own. Signing and checking one is signing and checking
the record that it is in memory.
-/

def receiptRecord (receipt : UnsignedReceipt) : Record :=
  ⟨receipt.toJs, by simp [UnsignedReceipt.toJs]⟩

theorem plain_receiptRecord (receipt : UnsignedReceipt) : Plain (receiptRecord receipt) := by
  intro key name h
  obtain ⟨v, hget, rfl⟩ : ∃ v, (receiptRecord receipt).get key = some v ∧ v = .inherited name := by
    unfold field at h
    cases hget : (receiptRecord receipt).get key with
    | none => rw [hget] at h; cases h
    | some v => rw [hget] at h; exact ⟨v, rfl, h⟩
  have hmem : (key, JsValue.inherited name) ∈ receipt.toJs := OrderedMap.get_eq_some.mp hget
  have hoptional : ∀ text : Option String, JsValue.inherited name ≠ .ofString? text := by
    rintro (_ | _) <;> exact JsValue.noConfusion
  have hchecks : JsValue.inherited name ≠ stringsToJs receipt.policyChecks := by
    cases receipt.policyChecks <;> exact JsValue.noConfusion
  have hnegotiation : JsValue.inherited name ≠ negotiationToJs receipt.negotiation := by
    cases receipt.negotiation <;> exact JsValue.noConfusion
  simp [UnsignedReceipt.toJs, hoptional, hchecks, hnegotiation] at hmem

theorem receiptSigningPayload_record (receipt : UnsignedReceipt) :
    receiptSigningPayload (receiptRecord receipt) = MapProtocol.receiptSigningPayload receipt :=
  rfl

theorem signReceipt_record (config : SigningConfig) (receipt : UnsignedReceipt) :
    signReceipt config (receiptRecord receipt) = MapProtocol.signReceipt config receipt :=
  rfl

theorem verifyReceiptSignature_record (config : SigningConfig) (receipt : ExecutionReceipt) :
    verifyReceiptSignature config ((receiptRecord receipt.toUnsignedReceipt).set "signature"
      (.str receipt.signature)) = MapProtocol.verifyReceiptSignature config receipt := by
  unfold verifyReceiptSignature
  rw [field_set, if_pos rfl]
  dsimp only
  rw [receiptSigningPayload_delete, receiptSigningPayload_signature, receiptSigningPayload_record]
  rfl

theorem travels_textOrNull (text : Option String) : travels (textOrNull text) = true := by
  cases text <;> rfl

theorem travels_stringsToJs (texts : Option (List String)) :
    travels ((stringsToJs texts).orElse .null) = true := by
  cases texts with
  | none => rfl
  | some texts =>
      have hall : survivesElements (texts.map .str) = true := survivesElements_iff.mpr (by
        simp [survivesJson])
      simp [travels, stringsToJs, JsValue.orElse, survivesJson, hall]

theorem travels_negotiationToJs (negotiation : InvocationNegotiation) :
    travels (.obj negotiation.toJs) = true ↔ negotiation.requested.schemaVersion.isSome = true ∧
      negotiation.selected.schemaVersion.isSome = true := by
  obtain ⟨⟨requested, _, _⟩, ⟨selected, _, _⟩, actions⟩ := negotiation
  have hactions : ∀ n, survivesElements (List.replicate n (.str "schema_translated")) = true :=
    fun n => survivesElements_iff.mpr fun v hv => by rw [List.eq_of_mem_replicate hv]; rfl
  cases requested <;> cases selected <;> cases actions <;>
    simp [travels, jsonCopy?, InvocationNegotiation.toJs, NegotiatedTerms.toJs,
      JsValue.ofString?, survivesJson, survivesMembers, hactions]

/-- **A receipt survives if it names a schema version wherever it holds a negotiation.** -/
theorem wireSafe_receiptRecord (receipt : UnsignedReceipt) :
    Artifact.executionReceipt.wireSafe (receiptRecord receipt) = true ↔
      ∀ negotiation, receipt.negotiation = some negotiation →
        negotiation.requested.schemaVersion.isSome = true ∧
          negotiation.selected.schemaVersion.isSome = true := by
  have hstr : ∀ s, travels (.str s) = true := fun _ => rfl
  rw [← travels_receipt_iff (plain_receiptRecord receipt), receiptSigningPayload_record]
  simp only [MapProtocol.receiptSigningPayload, List.forall_mem_cons, hstr, travels_textOrNull,
    travels_stringsToJs, true_and]
  cases hnegotiation : receipt.negotiation with
  | none => exact iff_of_true ⟨rfl, by simp⟩ (by simp)
  | some negotiation => simp [negotiationToJs, JsValue.orElse, travels_negotiationToJs]

/-- A receipt of a capability for which no schema version was negotiated. -/
def unversionedReceipt : UnsignedReceipt where
  receiptId := "r1"
  intentId := "i1"
  capability := "ops.restart"
  action := .executed
  timestamp := "2026-01-01T00:00:00.000Z"
  status := .ok
  taskId := some "t1"
  tenantId := none
  requestId := none
  agentId := "agent:ops"
  resourceTouched := none
  policyChecks := none
  approvalUsed := none
  resultHash := none
  requestedSchemaVersion := none
  executedSchemaVersion := none
  negotiation := some ⟨⟨none, .summary, .sync⟩, ⟨none, .summary, .sync⟩, none⟩

theorem roundtrips_oneKey : SigningConfig.oneKey.Roundtrips :=
  SigningConfig.roundtrips_of_distinct
    (SigningConfig.sound_of_idealised SigningConfig.idealised_oneKey) (by decide)

/-- Its signature does not survive. -/
theorem unversionedReceipt_lost : SigningConfig.oneKey.Roundtrips ∧
    Artifact.executionReceipt.Unsigned (receiptRecord unversionedReceipt) ∧
    ∃ signed, Artifact.executionReceipt.sign SigningConfig.oneKey (receiptRecord unversionedReceipt) =
      .ok signed ∧
        Artifact.executionReceipt.verify SigningConfig.oneKey (wireCopy signed) = false := by
  refine ⟨roundtrips_oneKey, plain_receiptRecord _, _, rfl, ?_⟩
  have hplain := plain_receiptRecord unversionedReceipt
  have hunsafe : ¬ ∀ e ∈ receiptSigningPayload (receiptRecord unversionedReceipt),
      travels e.2 = true := by
    rw [travels_receipt_iff hplain, wireSafe_receiptRecord]
    intro h
    exact absurd (h _ rfl).1 (by decide)
  rw [Bool.eq_false_iff]
  intro hverify
  exact hunsafe ((receipt_survives_iff roundtrips_oneKey hplain rfl).mp hverify)

/-- With a schema version it does. -/
theorem signature_survives_iff_versioned : ∃ signed,
    Artifact.executionReceipt.sign SigningConfig.oneKey (receiptRecord { unversionedReceipt with
      negotiation := some ⟨⟨some "1", .summary, .sync⟩, ⟨some "1", .summary, .sync⟩, none⟩ }) =
        .ok signed ∧
      Artifact.executionReceipt.verify SigningConfig.oneKey (wireCopy signed) = true := by
  refine ⟨_, rfl, (signature_survives_iff roundtrips_oneKey .executionReceipt
    (plain_receiptRecord _) rfl).mpr ((wireSafe_receiptRecord _).mpr ?_)⟩
  rintro _ ⟨⟩
  exact ⟨rfl, rfl⟩

end Wire

end MapProtocol
