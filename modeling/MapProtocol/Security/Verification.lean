import MapProtocol.Js.JsonStrings
import MapProtocol.Security.Signing

/-!
# A signature that was made verifies

`verifyCompactSignature` takes a compact signature apart at its dots, reads the header back from
base64url and JSON, finds the key by its kid and compares the payload. Each of these undoes what
`createCompactSignature` did, so that the signature verifies as soon as the primitive does, and the
kid finds the key that signed.
-/

namespace MapProtocol

open Js

/-! ## Dots -/

theorem split_three {a b c : String} (ha : '.' ∉ a.toList) (hb : '.' ∉ b.toList)
    (hc : '.' ∉ c.toList) : split (a ++ "." ++ b ++ "." ++ c) '.' = [a, b, c] := by
  have hchars : (a ++ "." ++ b ++ "." ++ c).toList =
      a.toList ++ '.' :: (b.toList ++ '.' :: c.toList) := by
    simp [String.toList_append]
  unfold split
  rw [hchars, splitChars_append ha, splitChars_append hb, splitChars_of_notMem hc]
  simp

theorem dot_notMem_base64urlOfBytes (bytes : List UInt8) :
    '.' ∉ (base64urlOfBytes bytes).toList := by
  unfold base64urlOfBytes
  rw [String.toList_ofList]
  exact dot_notMem_encodeBytes bytes

theorem dot_notMem_base64url (s : String) : '.' ∉ (base64url s).toList :=
  dot_notMem_base64urlOfBytes _

/-! ## Keys -/

namespace SigningConfig

variable {config : SigningConfig}
variable {requestedKid : Option String} {scope : Option SignatureScope} {key : SigningKey}
  {signature canonicalPayload : String}

/-- What is assumed of the asymmetric primitive: the public key of a pair verifies what the private
key signs. (The symmetric one is verified by computing it again.) -/
def Sound (config : SigningConfig) : Prop :=
  ∀ key ∈ config.keys, ∀ privateKeyPem publicKeyPem sign,
    key.material = .rsa (some privateKeyPem) publicKeyPem →
      config.crypto.rsaSign privateKeyPem = .ok sign →
        ∀ input, config.crypto.rsaVerify publicKeyPem input (sign input) = true

/-- The kid of the key that signs receipts finds that key. -/
def Coherent (config : SigningConfig) : Prop :=
  ∀ key, config.authorizedKey none (some .receipt) = .ok key →
    config.getSigningKeyByKid key.kid = some key

theorem authorizedKey_eq_ok (h : config.authorizedKey requestedKid scope = .ok key) :
    key.status ≠ .revoked ∧ ∀ s, scope = some s → s.text ∈ key.scopes := by
  unfold authorizedKey at h
  simp only [bind_eq_ok, throwIf_eq_ok, pure_eq_ok] at h
  obtain ⟨_, _, _, hstatus, _, hscope, _, _, rfl⟩ := h
  refine ⟨hstatus, fun s hs => ?_⟩
  subst hs
  simpa using hscope

theorem signingHeader_strings (key : SigningKey) :
    signingHeader key = stringMembers [("alg", key.alg.text), ("kid", key.kid), ("typ", "MAPSIG")] :=
  rfl

theorem parse_signingHeader (key : SigningKey) :
    parse (stringify (signingHeader key)) = some (.obj (signingHeader key)) := by
  rw [signingHeader_strings]
  exact parse_stringify_strings (by simp) rfl

theorem verificationKey_signingHeader (hkid : config.getSigningKeyByKid key.kid = some key)
    (hstatus : key.status ≠ .revoked) (hscope : ∀ s, scope = some s → s.text ∈ key.scopes) :
    config.verificationKey (.obj (signingHeader key)) scope = some key := by
  have htyp : (JsValue.obj (signingHeader key)).property "typ" = .str "MAPSIG" := rfl
  have halg : (JsValue.obj (signingHeader key)).property "alg" = .str key.alg.text := rfl
  have hid : (JsValue.obj (signingHeader key)).property "kid" = .str key.kid := rfl
  unfold verificationKey
  rw [htyp, halg, hid]
  cases scope with
  | none => simp [hkid, hstatus]
  | some s => simp [hkid, hstatus, hscope s rfl]

/-- **When a text verifies**: it has three parts, the first names a key that may verify it, the
second is the payload, and the key accepts the third over the two before it. -/
theorem verifies_iff_parts :
    config.verifyCompactSignatureFromCanonical signature canonicalPayload scope = true ↔
      ∃ encodedHeader encodedSignature header key,
        split signature '.' = [encodedHeader, base64url canonicalPayload, encodedSignature] ∧
        parse (fromUtf8 (bytesOfBase64url encodedHeader)) = some header ∧
        config.verificationKey header scope = some key ∧
        config.verifyBytes key (encodedHeader ++ "." ++ base64url canonicalPayload)
          (bytesOfBase64url encodedSignature) = true := by
  unfold verifyCompactSignatureFromCanonical
  constructor
  · intro h
    split at h
    · rename_i encodedHeader encodedPayload encodedSignature hsplit
      split at h
      · cases h
      · rename_i header hheader
        split at h
        · cases h
        · rename_i key hkey
          rw [Bool.and_eq_true, beq_iff_eq] at h
          obtain ⟨rfl, hbytes⟩ := h
          exact ⟨encodedHeader, encodedSignature, header, key, hsplit, hheader, hkey, hbytes⟩
    · cases h
  · rintro ⟨encodedHeader, encodedSignature, header, key, hsplit, hheader, hkey, hbytes⟩
    rw [hsplit]
    dsimp only
    rw [hheader]
    dsimp only
    rw [hkey]
    dsimp only
    rw [hbytes, beq_self_eq_true, Bool.and_true]

/-- Three parts, the first an encoded header. -/
theorem verifies_iff_of_header {headerText payload encodedSignature canonicalPayload : String}
    {header : JsValue} (hread : parse headerText = some header)
    (hdot : '.' ∉ encodedSignature.toList) :
    config.verifyCompactSignatureFromCanonical
        (base64url headerText ++ "." ++ base64url payload ++ "." ++ encodedSignature)
        canonicalPayload scope = true ↔
      payload = canonicalPayload ∧ ∃ key, config.verificationKey header scope = some key ∧
        config.verifyBytes key (base64url headerText ++ "." ++ base64url payload)
          (bytesOfBase64url encodedSignature) = true := by
  have hsplit : split (base64url headerText ++ "." ++ base64url payload ++ "." ++ encodedSignature)
      '.' = [base64url headerText, base64url payload, encodedSignature] :=
    split_three (dot_notMem_base64url _) (dot_notMem_base64url _) hdot
  have hheader : parse (fromUtf8 (bytesOfBase64url (base64url headerText))) = some header := by
    unfold base64url
    rw [bytesOfBase64url_base64urlOfBytes, fromUtf8_utf8, hread]
  rw [verifies_iff_parts, hsplit]
  constructor
  · rintro ⟨encodedHeader, provided, header', key, hparts, hheader', hkey, hbytes⟩
    simp only [List.cons.injEq, and_true] at hparts
    obtain ⟨rfl, hpayload, rfl⟩ := hparts
    obtain rfl := base64url_injective hpayload
    obtain rfl := Option.some.inj (hheader.symm.trans hheader')
    exact ⟨rfl, key, hkey, hbytes⟩
  · rintro ⟨rfl, key, hkey, hbytes⟩
    exact ⟨_, _, header, key, rfl, hheader, hkey, hbytes⟩

/-- A text with the parts of a signing input. -/
theorem verifies_iff_of_input {payload encodedSignature canonicalPayload : String}
    (hdot : '.' ∉ encodedSignature.toList) :
    config.verifyCompactSignatureFromCanonical
        (signingInput key payload ++ "." ++ encodedSignature) canonicalPayload scope = true ↔
      payload = canonicalPayload ∧
        ∃ found, config.verificationKey (.obj (signingHeader key)) scope = some found ∧
          config.verifyBytes found (signingInput key payload) (bytesOfBase64url encodedSignature) =
            true :=
  verifies_iff_of_header (parse_signingHeader key) hdot

theorem verifyBytes_of_signer (hsound : config.Sound) (hkey : key ∈ config.keys)
    {sign : String → List UInt8} (hsign : config.signer key = .ok sign) (input : String) :
    config.verifyBytes key input (sign input) = true := by
  unfold signer at hsign
  unfold verifyBytes
  split at hsign
  · rename_i secret hmaterial
    cases hsign
    rw [hmaterial]
    simp
  · cases hsign
  · rename_i pem publicKeyPem hmaterial
    rw [hmaterial]
    exact hsound key hkey pem publicKeyPem sign hmaterial hsign input

theorem parse_encodedHeader (key : SigningKey) :
    parse (fromUtf8 (bytesOfBase64url (base64url (stringify (signingHeader key))))) =
      some (.obj (signingHeader key)) := by
  unfold base64url
  rw [bytesOfBase64url_base64urlOfBytes, fromUtf8_utf8, parse_signingHeader]

/-- **A signature that was made verifies**, where the kid finds the key that signed. -/
theorem verify_of_created (hsound : config.Sound) {canonicalPayload : String}
    {requestedKid : Option String} {scope : Option SignatureScope}
    (hcoherent : ∀ key, config.authorizedKey requestedKid scope = .ok key →
      config.getSigningKeyByKid key.kid = some key) {signature : String}
    (h : config.createCompactSignatureFromCanonical canonicalPayload requestedKid scope =
      .ok signature) :
    config.verifyCompactSignatureFromCanonical signature canonicalPayload scope = true := by
  unfold createCompactSignatureFromCanonical at h
  simp only [bind_eq_ok, pure_eq_ok] at h
  obtain ⟨key, hkey, sign, hsign, rfl⟩ := h
  have hkid := hcoherent key hkey
  have hmem : key ∈ config.keys := List.mem_of_find?_eq_some hkid
  obtain ⟨hstatus, hscope⟩ := authorizedKey_eq_ok hkey
  rw [verifies_iff_of_input (dot_notMem_base64urlOfBytes _)]
  refine ⟨rfl, key, verificationKey_signingHeader hkid hstatus hscope, ?_⟩
  rw [bytesOfBase64url_base64urlOfBytes]
  exact verifyBytes_of_signer hsound hmem hsign _

theorem verify_of_create (hsound : config.Sound) (hcoherent : config.Coherent) {payload : JsObject}
    (h : config.createCompactSignature payload none (some .receipt) = .ok signature) :
    config.verifyCompactSignature signature payload (some .receipt) = true :=
  verify_of_created hsound hcoherent h

/-- **A signature verifies only the text it was made for.** -/
theorem canonical_of_verify {canonicalPayload canonicalPayload' : String}
    {requestedKid : Option String} {scope scope' : Option SignatureScope} {signature : String}
    (h : config.createCompactSignatureFromCanonical canonicalPayload requestedKid scope =
      .ok signature)
    (hverify : config.verifyCompactSignatureFromCanonical signature canonicalPayload' scope' = true) :
    canonicalPayload = canonicalPayload' := by
  unfold createCompactSignatureFromCanonical at h
  simp only [bind_eq_ok, pure_eq_ok] at h
  obtain ⟨key, _, sign, _, rfl⟩ := h
  exact ((verifies_iff_of_input (dot_notMem_base64urlOfBytes _)).mp hverify).1

theorem payload_of_verify {payload payload' : JsObject} {scope scope' : Option SignatureScope}
    (h : config.createCompactSignature payload requestedKid scope = .ok signature)
    (hverify : config.verifyCompactSignature signature payload' scope' = true) :
    stableStringify payload = stableStringify payload' :=
  canonical_of_verify h hverify

end SigningConfig

/-- **A signed receipt verifies.** -/
theorem verify_of_signReceipt {config : SigningConfig} (hsound : config.Sound)
    (hcoherent : config.Coherent) {receipt : UnsignedReceipt} {signature : String}
    (h : signReceipt config receipt = .ok signature) :
    config.verifyCompactSignature signature (receiptSigningPayload receipt) (some .receipt) =
      true := by
  unfold signReceipt at h
  simp only [bind_eq_ok] at h
  obtain ⟨_, _, hsign⟩ := h
  exact config.verify_of_create hsound hcoherent hsign

/-! ## What a receipt's signature covers -/

/-- The order of the keys alone. -/
def codeUnitOrder (a b : String) : Prop := codeUnits a ≤ codeUnits b

instance : DecidableRel codeUnitOrder := fun a b =>
  inferInstanceAs (Decidable (codeUnits a ≤ codeUnits b))

theorem codeUnitOrder_antisymm (a b : String) (h : codeUnitOrder a b) (h' : codeUnitOrder b a) :
    a = b :=
  eq_of_units (antisymm (r := (· ≤ ·)) h h')

theorem serializeJcsMembers_keys (o : JsObject) :
    (serializeJcsMembers o).map Prod.fst = o.map Prod.fst := by
  induction o with
  | nil => rfl
  | cons e es ih =>
      obtain ⟨k, v⟩ := e
      simp [serializeJcsMembers, ih]

theorem mem_serializeJcsMembers {o : JsObject} {k text : String}
    (h : (k, text) ∈ serializeJcsMembers o) :
    ∃ v, (k, v) ∈ o ∧ text = (serializeJcs v).getD "undefined" := by
  induction o with
  | nil => cases h
  | cons e es ih =>
      obtain ⟨k', v⟩ := e
      rw [serializeJcsMembers] at h
      rcases List.mem_cons.mp h with heq | hrest
      · cases heq
        exact ⟨v, List.mem_cons_self, rfl⟩
      · obtain ⟨w, hmem, htext⟩ := ih hrest
        exact ⟨w, List.mem_cons_of_mem _ hmem, htext⟩

/-- The keys of a receipt's payload, as its canonical text orders them. -/
theorem sorted_receiptKeys (receipt : UnsignedReceipt) :
    ((receiptSigningPayload receipt).map Prod.fst).insertionSort codeUnitOrder =
      ["action", "agent_id", "approval_used", "capability", "executed_schema_version", "intent_id",
        "negotiation", "policy_checks", "receipt_id", "request_id", "requested_schema_version",
        "resource_touched", "result_hash", "status", "task_id", "tenant_id", "timestamp"] := by
  show List.insertionSort codeUnitOrder ["receipt_id", "intent_id", "capability", "action",
    "timestamp", "status", "task_id", "tenant_id", "request_id", "agent_id", "resource_touched",
    "policy_checks", "approval_used", "result_hash", "requested_schema_version",
    "executed_schema_version", "negotiation"] = _
  decide +kernel

/-- The first members of the canonical text of a receipt's payload. -/
theorem receipt_members (receipt : UnsignedReceipt) : ∃ rest,
    (serializeJcsMembers (receiptSigningPayload receipt)).insertionSort keyOrder =
      ("action", quote receipt.action.text) :: ("agent_id", quote receipt.agentId) ::
        ("approval_used", (serializeJcs (textOrNull receipt.approvalUsed)).getD "undefined") ::
          rest := by
  have hkeys : ((serializeJcsMembers (receiptSigningPayload receipt)).insertionSort keyOrder).map
      Prod.fst = _ :=
    (List.map_insertionSort keyOrder codeUnitOrder Prod.fst _ (fun _ _ _ _ => Iff.rfl)).trans
      ((congrArg _ (serializeJcsMembers_keys _)).trans (sorted_receiptKeys receipt))
  have hmem : ∀ k text,
      (k, text) ∈ (serializeJcsMembers (receiptSigningPayload receipt)).insertionSort keyOrder →
        ∃ v, (k, v) ∈ receiptSigningPayload receipt ∧ text = (serializeJcs v).getD "undefined" :=
    fun k text h => mem_serializeJcsMembers ((List.mem_insertionSort _).mp h)
  generalize (serializeJcsMembers (receiptSigningPayload receipt)).insertionSort keyOrder = sorted
    at hkeys hmem
  -- the keys are known, and each key has one value in the payload
  obtain ⟨⟨_, action⟩, _, rfl, rfl, hfirst⟩ := List.map_eq_cons_iff.mp hkeys
  obtain ⟨⟨_, agent⟩, _, rfl, rfl, hsecond⟩ := List.map_eq_cons_iff.mp hfirst
  obtain ⟨⟨_, approval⟩, rest, rfl, rfl, -⟩ := List.map_eq_cons_iff.mp hsecond
  obtain ⟨_, haction, rfl⟩ := hmem "action" action (by simp)
  obtain ⟨_, hagent, rfl⟩ := hmem "agent_id" agent (by simp)
  obtain ⟨_, happroval, rfl⟩ := hmem "approval_used" approval (by simp)
  simp [receiptSigningPayload] at haction hagent happroval
  subst haction hagent happroval
  exact ⟨rest, rfl⟩

theorem commaSeparated_head (s : String) (ss : List String) :
    ∃ tail, commaSeparated (s :: ss) = s ++ tail := by
  cases ss with
  | nil => exact ⟨"", by simp [commaSeparated]⟩
  | cons t ss => exact ⟨"," ++ commaSeparated (t :: ss), by simp [commaSeparated, String.append_assoc]⟩

/-- How the canonical text of a receipt's payload begins. -/
theorem receipt_text (receipt : UnsignedReceipt) : ∃ tail,
    stableStringify (receiptSigningPayload receipt) =
      "\x7b" ++ (quote "action" ++ ":" ++ quote receipt.action.text) ++ "," ++
        (quote "agent_id" ++ ":" ++ quote receipt.agentId) ++ "," ++ (quote "approval_used" ++ ":" ++
          (serializeJcs (textOrNull receipt.approvalUsed)).getD "undefined") ++ tail := by
  obtain ⟨rest, hmembers⟩ := receipt_members receipt
  obtain ⟨tail, htail⟩ := commaSeparated_head (quote "approval_used" ++ ":" ++
    (serializeJcs (textOrNull receipt.approvalUsed)).getD "undefined")
      (rest.map fun m => quote m.1 ++ ":" ++ m.2)
  refine ⟨tail ++ "\x7d", ?_⟩
  unfold stableStringify
  rw [serializeJcs, hmembers]
  simp only [List.map_cons, Option.getD_some]
  rw [commaSeparated, commaSeparated, htail]
  · simp only [String.append_assoc]
  all_goals simp

/-- **The signature covers `approval_used`**: a receipt that gets one has another payload. -/
theorem approvalUsed_covered {receipt : UnsignedReceipt} (h : receipt.approvalUsed = none)
    (reference : String) :
    stableStringify (receiptSigningPayload receipt) ≠
      stableStringify
        (receiptSigningPayload { receipt with approvalUsed := some reference }) := by
  obtain ⟨tail, htext⟩ := receipt_text receipt
  obtain ⟨tail', htext'⟩ := receipt_text { receipt with approvalUsed := some reference }
  have hnull : (serializeJcs (textOrNull none)).getD "undefined" = "null" := rfl
  have hquote : (serializeJcs (textOrNull (some reference))).getD "undefined" = quote reference := rfl
  intro heq
  rw [htext, htext', h, hnull, hquote] at heq
  have hchars := congrArg String.toList heq
  simp only [String.toList_append, List.append_assoc, List.append_cancel_left_eq] at hchars
  unfold quote at hchars
  rw [String.toList_ofList] at hchars
  have hhead := congrArg List.head? hchars
  exact absurd hhead (by simp)
end MapProtocol
