import MapProtocol.Js.Bytes
import MapProtocol.Js.Json
import MapProtocol.Lib.Checks
import MapProtocol.Protocol.Types
import Mathlib.Data.List.Lex
import Mathlib.Data.List.Sort

/-!
# Signing

Compact signatures `header.payload.signature` over the canonical JSON of a payload. The keys are
those `getSigningKeys()` resolved from the environment; a key's algorithm is that of its material.
The primitives of `node:crypto` are parameters, and `SigningConfig.Sound` is what is assumed of them.
-/

namespace MapProtocol

open Js

/-! ## Canonical JSON -/

/-- `Math.abs(n)`. -/
def magnitude (n : Rat) : Rat := if n < 0 then -n else n

/-- `n.toFixed(15)` below 10 ^ 21. -/
def toFixed15 (n : Rat) : List Char :=
  let scaled := (magnitude n * 10 ^ 15 + 1 / 2).floor.toNat
  let digits := (toString (scaled / 10 ^ 15)).toList ++ '.' :: (padded 15 (scaled % 10 ^ 15)).toList
  if n < 0 then '-' :: digits else digits

/-- `str.replace(/0+$/, "")`, and without a `.` left at the end. -/
def stripFraction (digits : List Char) : List Char :=
  let kept := digits.reverse.dropWhile (· = '0')
  match kept with
  | '.' :: rest => rest.reverse
  | kept        => kept.reverse

def serializeJcsNumber (n : Rat) : String :=
  if n = 0 then "0"
  else if n.den = 1 ∧ magnitude n < 10 ^ 21 then numberToString n
  else if 10 ^ 21 ≤ magnitude n then numberToString n
  else String.ofList (stripFraction (toFixed15 n))

/-- The UTF-16 code units of a string, by which `Array.prototype.sort` compares. -/
def codeUnits (s : String) : List Nat := s.toList.flatMap unitsOf

def keyOrder (a b : String × String) : Prop := codeUnits a.1 ≤ codeUnits b.1

instance : DecidableRel keyOrder := fun a b =>
  inferInstanceAs (Decidable (codeUnits a.1 ≤ codeUnits b.1))

mutual

/-- `serializeJcs(value)`; `none` is its `undefined`. -/
def serializeJcs : JsValue → Option String
  | .undefined   => none
  | .inherited _ => none
  | .null        => some "null"
  | .bool b      => some (if b then "true" else "false")
  | .num n       => some (serializeJcsNumber n)
  | .str s       => some (quote s)
  | .arr xs      => some ("[" ++ commaSeparated (serializeJcsElements xs) ++ "]")
  | .obj es      =>
      let members := (serializeJcsMembers es).insertionSort keyOrder
      some ("\x7b" ++ commaSeparated (members.map fun m => quote m.1 ++ ":" ++ m.2) ++ "\x7d")

/-- `items.join` writes nothing for an `undefined` element. -/
def serializeJcsElements : List JsValue → List String
  | []      => []
  | v :: vs => (serializeJcs v).getD "" :: serializeJcsElements vs

/-- A template writes the word `undefined` for an `undefined` property. -/
def serializeJcsMembers : List (String × JsValue) → List (String × String)
  | []           => []
  | (k, v) :: es => (k, (serializeJcs v).getD "undefined") :: serializeJcsMembers es

end

def stableStringify (payload : JsObject) : String := (serializeJcs (.obj payload)).getD "undefined"

/-! ## Keys -/

inductive SigningAlgorithm where
  | hs256
  | rs256
  deriving DecidableEq, Repr

def SigningAlgorithm.text : SigningAlgorithm → String
  | .hs256 => "HS256"
  | .rs256 => "RS256"

inductive KeyStatus where
  | active
  | retiring
  | revoked
  deriving DecidableEq, Repr

inductive KeyMaterial where
  | hmac (secret : String)
  | rsa (privateKeyPem : Option String) (publicKeyPem : String)
  deriving DecidableEq, Repr

def DEFAULT_KID : String := "map-dev-key-1"

structure SigningKey where
  kid      : String
  status   : KeyStatus
  scopes   : List String
  material : KeyMaterial
  deriving DecidableEq, Repr

def SigningKey.signable (key : SigningKey) : Bool := key.status ≠ .revoked

def SigningKey.alg (key : SigningKey) : SigningAlgorithm :=
  match key.material with
  | .hmac _  => .hs256
  | .rsa _ _ => .rs256

inductive DeploymentProfile where
  | open
  | verified
  | regulated
  deriving DecidableEq, Repr

def DeploymentProfile.text : DeploymentProfile → String
  | .open      => "open"
  | .verified  => "verified"
  | .regulated => "regulated"

/-- The signing primitives. `rsaSign` gives the signer of a private key, or what reading the key
throws; `rsaVerify` is false where reading the key throws. -/
structure Crypto where
  hmacSha256 : String → String → List UInt8
  rsaSign    : String → Except String (String → List UInt8)
  rsaVerify  : String → String → List UInt8 → Bool

structure SigningConfig where
  keys      : List SigningKey
  activeKid : Option String
  profile   : DeploymentProfile
  crypto    : Crypto

inductive SignatureScope where
  | descriptor
  | delegationToken
  | receipt
  | httpRequest
  | auditCheckpoint
  | auditExport
  | conformanceExport
  | trustBundle
  deriving DecidableEq, Repr

def SignatureScope.text : SignatureScope → String
  | .descriptor        => "descriptor"
  | .delegationToken   => "delegation_token"
  | .receipt           => "receipt"
  | .httpRequest       => "http_request"
  | .auditCheckpoint   => "audit_checkpoint"
  | .auditExport       => "audit_export"
  | .conformanceExport => "conformance_export"
  | .trustBundle       => "trust_bundle"

def KEY_USE_CONSTRAINTS : List (String × List SignatureScope) :=
  [("agent_descriptor", [.descriptor]), ("delegation_token", [.delegationToken]),
    ("execution_receipt", [.receipt]), ("http_request", [.httpRequest]),
    ("audit_checkpoint", [.auditCheckpoint]), ("audit_export", [.auditExport]),
    ("conformance_export", [.conformanceExport]), ("trust_bundle", [.trustBundle])]

/-- `texts.join(", ")`. -/
def joinTexts : List String → String
  | []      => ""
  | [t]     => t
  | t :: ts => t ++ ", " ++ joinTexts ts

def assertValidKeyUse (artifactType : String) (scope : SignatureScope) : Except String Unit :=
  match KEY_USE_CONSTRAINTS.lookup artifactType with
  | none               =>
      .error ("Unknown artifact type: " ++ artifactType ++ ". Cannot assert key-use constraints.")
  | some allowedScopes =>
      throwIf (scope ∉ allowedScopes)
        ("Key scope \"" ++ scope.text ++ "\" is not allowed for artifact type \"" ++ artifactType ++
          "\". Allowed scopes: " ++ joinTexts (allowedScopes.map SignatureScope.text))

def getAllowedAlgorithms : DeploymentProfile → List SigningAlgorithm
  | .open      => [.hs256, .rs256]
  | .verified  => [.rs256]
  | .regulated => [.rs256]

/-- `assertAlgorithmAllowed`. Its last test cannot fail: the regulated profile allows RS256 only. -/
def assertAlgorithmAllowed (alg : SigningAlgorithm) (profile : DeploymentProfile) :
    Except String Unit :=
  let allowed := getAllowedAlgorithms profile
  throwIf (alg ∉ allowed)
    ("Algorithm \"" ++ alg.text ++ "\" is not allowed for deployment profile \"" ++ profile.text ++
      "\". Allowed algorithms: " ++ joinTexts (allowed.map SigningAlgorithm.text))

namespace SigningConfig

variable (config : SigningConfig)

def getSigningKeyByKid (kid : String) : Option SigningKey :=
  config.keys.find? fun key => key.kid == kid

def getActiveSigningKey : Except String SigningKey :=
  let byKid := match config.activeKid with
    | some activeKid =>
        if isBlank activeKid then none
        else (config.getSigningKeyByKid (trim activeKid)).filter SigningKey.signable
    | none => none
  match byKid.or (config.keys.find? SigningKey.signable) with
  | some key => .ok key
  | none     => .error "No active signing key available (all keys are revoked)."

/-- The key that signs: the requested one, else the active one. -/
def signingKey (requestedKid : Option String) : Except String SigningKey :=
  match requestedKid with
  | some kid =>
      if isBlank kid then config.getActiveSigningKey
      else match config.getSigningKeyByKid (trim kid) with
        | some key => .ok key
        | none     => .error "No signing key found for requested kid."
  | none => config.getActiveSigningKey

/-- What a key signs a text with. -/
def signer (key : SigningKey) : Except String (String → List UInt8) :=
  match key.material with
  | .hmac secret       => .ok (config.crypto.hmacSha256 secret)
  | .rsa none _        => .error ("No private key configured for signing kid: " ++ key.kid)
  | .rsa (some pem) _  => config.crypto.rsaSign pem

/-- `{ alg, kid, typ: "MAPSIG" }`. -/
def signingHeader (key : SigningKey) : JsObject :=
  [("alg", .str key.alg.text), ("kid", .str key.kid), ("typ", .str "MAPSIG")]

/-- The signing key, once its status, its scopes and its algorithm have been checked. -/
def authorizedKey (requestedKid : Option String) (scope : Option SignatureScope) :
    Except String SigningKey := do
  let key ← config.signingKey requestedKid
  throwIf (key.status = .revoked) ("Requested signing key is revoked: " ++ key.kid)
  throwIf (scope.any fun s => s.text ∉ key.scopes)
    ("Signing key " ++ key.kid ++ " is not authorized for scope " ++
      (scope.map SignatureScope.text).getD "" ++ ".")
  assertAlgorithmAllowed key.alg config.profile
  return key

/-- `header.payload`, the text that is signed. -/
def signingInput (key : SigningKey) (canonicalPayload : String) : String :=
  base64url (stringify (signingHeader key)) ++ "." ++ base64url canonicalPayload

def createCompactSignatureFromCanonical (canonicalPayload : String) (requestedKid : Option String)
    (scope : Option SignatureScope) : Except String String := do
  let key ← config.authorizedKey requestedKid scope
  let sign ← config.signer key
  let input := signingInput key canonicalPayload
  return input ++ "." ++ base64urlOfBytes (sign input)

def createCompactSignature (payload : JsObject) (requestedKid : Option String)
    (scope : Option SignatureScope) : Except String String :=
  config.createCompactSignatureFromCanonical (stableStringify payload) requestedKid scope

/-- Does the provided signature verify under the material of a key? -/
def verifyBytes (key : SigningKey) (signingInput : String) (provided : List UInt8) : Bool :=
  match key.material with
  | .hmac secret         => provided == config.crypto.hmacSha256 secret signingInput
  | .rsa _ publicKeyPem  => config.crypto.rsaVerify publicKeyPem signingInput provided

/-- The key a header names, where the header is one of ours and the key may verify. -/
def verificationKey (header : JsValue) (scope : Option SignatureScope) : Option SigningKey :=
  match header.property "typ", header.property "alg", header.property "kid" with
  | .str typ, .str alg, .str kid =>
      if typ ≠ "MAPSIG" then none
      else match config.getSigningKeyByKid kid with
        | none     => none
        | some key =>
            if key.status = .revoked ∨ key.alg.text ≠ alg then none
            else match scope with
              | some scope => if scope.text ∈ key.scopes then some key else none
              | none       => some key
  | _, _, _ => none

def verifyCompactSignatureFromCanonical (signature canonicalPayload : String)
    (scope : Option SignatureScope) : Bool :=
  match split signature '.' with
  | [encodedHeader, encodedPayload, providedSignature] =>
      match parse (fromUtf8 (bytesOfBase64url encodedHeader)) with
      | none              => false
      | some parsedHeader =>
          match config.verificationKey parsedHeader scope with
          | none     => false
          | some key =>
              encodedPayload == base64url canonicalPayload &&
                config.verifyBytes key (encodedHeader ++ "." ++ encodedPayload)
                  (bytesOfBase64url providedSignature)
  | _ => false

def verifyCompactSignature (signature : String) (payload : JsObject)
    (scope : Option SignatureScope) : Bool :=
  config.verifyCompactSignatureFromCanonical signature (stableStringify payload) scope

end SigningConfig

/-! ## Receipts -/

/-- `a ?? null` for an optional text. -/
def textOrNull (text : Option String) : JsValue := (JsValue.ofString? text).orElse .null

def receiptSigningPayload (receipt : UnsignedReceipt) : JsObject :=
  [("receipt_id", .str receipt.receiptId),
    ("intent_id", .str receipt.intentId),
    ("capability", .str receipt.capability),
    ("action", .str receipt.action.text),
    ("timestamp", .str receipt.timestamp),
    ("status", .str receipt.status.text),
    ("task_id", textOrNull receipt.taskId),
    ("tenant_id", textOrNull receipt.tenantId),
    ("request_id", textOrNull receipt.requestId),
    ("agent_id", .str receipt.agentId),
    ("resource_touched", textOrNull receipt.resourceTouched),
    ("policy_checks", (stringsToJs receipt.policyChecks).orElse .null),
    ("approval_used", textOrNull receipt.approvalUsed),
    ("result_hash", textOrNull receipt.resultHash),
    ("requested_schema_version", textOrNull receipt.requestedSchemaVersion),
    ("executed_schema_version", textOrNull receipt.executedSchemaVersion),
    ("negotiation", (negotiationToJs receipt.negotiation).orElse .null)]

def signReceipt (config : SigningConfig) (receipt : UnsignedReceipt) : Except String String := do
  assertValidKeyUse "execution_receipt" .receipt
  config.createCompactSignature (receiptSigningPayload receipt) none (some .receipt)

def verifyReceiptSignature (config : SigningConfig) (receipt : ExecutionReceipt) : Bool :=
  config.verifyCompactSignature receipt.signature (receiptSigningPayload receipt.toUnsignedReceipt)
    (some .receipt)

end MapProtocol
