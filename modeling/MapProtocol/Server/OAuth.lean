import MapProtocol.Js.JsonRoundTrip
import MapProtocol.Lib.Transition
import MapProtocol.Server.Auth

/-!
# Validation of OAuth 2.0 tokens

`validateOAuth2Token` compares a token with the static token, or else takes it for a JWT: it checks the
claims, asks for the keys of the issuer, and verifies the signature with one of them. The keys are
cached for as long as their answer says, and any number of validations may wait for them at a time. A
token that is found valid is backed by a key of the issuer, from an answer that was not too old when
the validation began (`validated_is_backed`).
-/

namespace MapProtocol

open Js

/-- The algorithm that `crypto.subtle` verifies with. -/
inductive SubtleAlgorithm where
  | rsassa (hash : String)
  | ecdsa (hash : String)
  deriving DecidableEq, Repr

/-- What the validation reads of its process and platform: the variables that configure it, and the
verdict of `crypto.subtle` on a signature, `none` where it rejects the key or the signature. -/
structure OAuthEnv extends ServerEnv where
  issuer       : Option String
  audience     : Option String
  subtleVerify : SubtleAlgorithm → JsValue → List UInt8 → String → Option Bool

structure OAuth2TokenResult where
  valid  : Bool
  sub    : Option String
  scopes : Option (List String)
  deriving DecidableEq, Repr

def invalidToken : OAuth2TokenResult := ⟨false, none, none⟩

/-- A token of three parts, with what its first two hold. -/
structure Jwt where
  encodedHeader    : String
  encodedPayload   : String
  encodedSignature : String
  header           : JsValue
  payload          : JsValue

def decodeJwt (token : String) : Option Jwt :=
  match split token '.' with
  | [encodedHeader, encodedPayload, encodedSignature] => do
      let header ← parse (fromUtf8 (bytesOfBase64url encodedHeader))
      let payload ← parse (fromUtf8 (bytesOfBase64url encodedPayload))
      return ⟨encodedHeader, encodedPayload, encodedSignature, header, payload⟩
  | _ => none

structure CachedJwksEntry where
  keys      : List JsValue
  expiresAt : Int

/-- What comes of `fetch` and `response.json()`. -/
inductive JwksAnswer where
  | failed
  | answered (ok : Bool) (body : JsValue) (cacheControl : Option String)

/-! ## Keys

An answer is kept for the `max-age` it brings, and a key is found by its `kid`. -/

/-- The digits after `max-age=`, where there are any. -/
def maxAgeAt (cs : List Char) : Option Nat :=
  if "max-age=".toList.isPrefixOf (cs.map Char.toLower) then
    let digits := (cs.drop 8).takeWhile isDigit
    if digits.isEmpty then none else some (digitsValue digits)
  else none

/-- `cacheControl.match(/max-age=(\d+)/i)`. -/
def maxAge : List Char → Option Nat
  | []      => none
  | c :: cs => (maxAgeAt (c :: cs)).or (maxAge cs)

def ttlMs (cacheControl : Option String) : Int :=
  match maxAge (cacheControl.getD "").toList with
  | some seconds => seconds * 1000
  | none         => 5 * 60 * 1000

/-- The keys of an answer; `none` where `getOAuth2Jwks` throws. -/
def JwksAnswer.keys : JwksAnswer → Option (List JsValue)
  | .answered true body _ =>
      if body.truthy then
        match body.property "keys" with
        | .arr keys => some keys
        | _         => none
      else none
  | _ => none

def JwksAnswer.ttl : JwksAnswer → Int
  | .answered _ _ cacheControl => ttlMs cacheControl
  | .failed                    => 0

/-- `keys.find((key) => key.kid === kid)`; to read a property of `null` throws. -/
def findKey (kid : String) : List JsValue → Option JsValue
  | []            => none
  | .null :: _    => none
  | key :: keys   => if (key.property "kid").strictEquals (.str kid) then some key else findKey kid keys

/-- The key that a token is verified with; `none` where there is none, or where it throws. -/
def matchingKey (header : JsValue) (keys : List JsValue) : Option JsValue :=
  match header with
  | .null  => none
  | header =>
      let found :=
        match (header.property "kid").asString.filter fun kid => kid ≠ "" with
        | some kid => findKey kid keys
        | none     => keys.head?
      found.filter fun key => key.truthy

def algorithmOf (jwk : JsValue) : SubtleAlgorithm :=
  match (jwk.property "alg").asString with
  | some "RS384" => .rsassa "SHA-384"
  | some "RS512" => .rsassa "SHA-512"
  | some "ES256" => .ecdsa "SHA-256"
  | some "ES384" => .ecdsa "SHA-384"
  | _            => .rsassa "SHA-256"

/-! ## Claims

`iss` and `aud` are compared where they are configured, `exp` where it is present. -/

/-- `scope.split(/\s+/).filter(Boolean)`. -/
def scopeWords (scope : String) : List String :=
  ((scope.toList.splitOnP isWhiteSpace).filter fun word => !word.isEmpty).map String.ofList

def scopesOf (payload : JsValue) : Option (List String) :=
  match (payload.property "scope").orElse (payload.property "scopes") with
  | .str scope  => some (scopeWords scope)
  | .arr scopes => some (scopes.map toText)
  | _           => none

namespace OAuthEnv

variable (env : OAuthEnv)

def expAccepted (now : Int) (payload : JsValue) : Bool :=
  let claim := payload.property "exp"
  claim.isUndefined ||
    match claim.asNumber.or (env.toNumber claim) with
    | none     => false
    | some exp => decide (¬ exp < (now / 1000 : Int))

def issAccepted (payload : JsValue) : Bool :=
  match env.issuer.filter fun issuer => !isBlank issuer with
  | none        => true
  | some issuer => (payload.property "iss").asString == some (trim issuer)

def audAccepted (payload : JsValue) : Bool :=
  match env.audience.filter fun audience => !isBlank audience with
  | none          => true
  | some audience =>
      match payload.property "aud" with
      | .arr aud => aud.any fun a => a.strictEquals (.str (trim audience))
      | .str aud => aud == trim audience
      | _        => false

def verifyJwtSignature (jwt : Jwt) (jwk : JsValue) : Bool :=
  (env.subtleVerify (algorithmOf jwk) jwk (bytesOfBase64url jwt.encodedSignature)
    (jwt.encodedHeader ++ "." ++ jwt.encodedPayload)).getD false

/-! ## Validation -/

/-- What `validateOAuth2Token` has come to when it first waits. -/
inductive Validation where
  | settled (outcome : Except String OAuth2TokenResult)
  | asks (url : String) (jwt : Jwt)

/-- `validateOAuth2Token`, until it asks for the keys. -/
def beginValidation (now : Int) (token : String) : Validation :=
  match env.staticToken.filter fun staticToken => !isBlank staticToken with
  | some staticToken =>
      if env.sha256 token = env.sha256 staticToken then .settled (.ok ⟨true, none, none⟩)
      else .settled (.ok invalidToken)
  | none =>
      match env.jwksUrl.filter fun url => !isBlank url with
      | none     => .settled (.ok invalidToken)
      | some url =>
          match decodeJwt token with
          | none     => .settled (.ok invalidToken)
          | some jwt =>
              match jwt.payload with
              | .null => .settled (.error "Cannot read properties of null (reading 'exp')")
              | _     =>
                  if env.expAccepted now jwt.payload && env.issAccepted jwt.payload &&
                    env.audAccepted jwt.payload then .asks url jwt
                  else .settled (.ok invalidToken)

/-- The rest of `validateOAuth2Token`, where it has the keys. -/
def finishValidation (jwt : Jwt) (keys : List JsValue) : OAuth2TokenResult :=
  match matchingKey jwt.header keys with
  | none     => invalidToken
  | some key =>
      if env.verifyJwtSignature jwt key then
        ⟨true, (jwt.payload.property "sub").asString, scopesOf jwt.payload⟩
      else invalidToken

end OAuthEnv

/-! ## Runs -/

structure WaitingValidation where
  id        : Nat
  token     : String
  url       : String
  jwt       : Jwt
  startedAt : Int

structure SettledValidation where
  token     : String
  startedAt : Int
  outcome   : Except String OAuth2TokenResult

/-- The keys that an answer brought, for the record. -/
structure ServedKeys where
  url     : String
  askedAt : Int
  keys    : List JsValue
  ttl     : Int

structure OAuthState where
  jwksCache : OrderedMap String CachedJwksEntry
  waiting   : List WaitingValidation
  nextId    : Nat
  served    : List ServedKeys
  settled   : List SettledValidation

inductive OAuthLabel where
  | validate (now : Int) (token : String)
  | answered (id : Nat) (answer : JwksAnswer)

namespace OAuthState

def start : OAuthState := ⟨.empty, [], 0, [], []⟩

def settle (token : String) (startedAt : Int) (outcome : Except String OAuth2TokenResult)
    (s : OAuthState) : OAuthState :=
  { s with settled := ⟨token, startedAt, outcome⟩ :: s.settled }

/-- `getOAuth2Jwks` returns the keys of the cache, or fetches. -/
def validate (env : OAuthEnv) (now : Int) (token : String) (s : OAuthState) : OAuthState :=
  match env.beginValidation now token with
  | .settled outcome => s.settle token now outcome
  | .asks url jwt    =>
      match (s.jwksCache.get url).filter fun cached => now < cached.expiresAt with
      | some cached => s.settle token now (.ok (env.finishValidation jwt cached.keys))
      | none        =>
          { s with
            waiting := ⟨s.nextId, token, url, jwt, now⟩ :: s.waiting
            nextId := s.nextId + 1 }

/-- An answer comes for a validation that waits. -/
def answered (env : OAuthEnv) (id : Nat) (answer : JwksAnswer) (s : OAuthState) : OAuthState :=
  match s.waiting.find? fun w => w.id == id with
  | none   => s
  | some w =>
      let s := { s with waiting := s.waiting.filter fun w => w.id != id }
      match answer.keys with
      | none      => s.settle w.token w.startedAt (.ok invalidToken)
      | some keys =>
          let s := { s with
            jwksCache := s.jwksCache.set w.url ⟨keys, w.startedAt + answer.ttl⟩
            served := ⟨w.url, w.startedAt, keys, answer.ttl⟩ :: s.served }
          s.settle w.token w.startedAt (.ok (env.finishValidation w.jwt keys))

def step (env : OAuthEnv) (s : OAuthState) : OAuthLabel → OAuthState
  | .validate now token => s.validate env now token
  | .answered id answer => s.answered env id answer

end OAuthState

/-! ## What backs a token

Some answer of the issuer, not yet out of date, has the key that verifies it. -/

/-- The claims of a token are in order at a time. -/
structure OAuthEnv.ClaimsHold (env : OAuthEnv) (now : Int) (payload : JsValue) : Prop where
  exp : payload.property "exp" = .undefined ∨ ∃ exp, ((payload.property "exp").asNumber.or
    (env.toNumber (payload.property "exp"))) = some exp ∧ ((now / 1000 : Int) : Rat) ≤ exp
  iss : ∀ issuer, env.issuer = some issuer → isBlank issuer = false →
    payload.property "iss" = .str (trim issuer)
  aud : ∀ audience, env.audience = some audience → isBlank audience = false →
    payload.property "aud" = .str (trim audience) ∨
      ∃ aud, payload.property "aud" = .arr aud ∧ .str (trim audience) ∈ aud

def Named (header key : JsValue) : Prop :=
  ∀ kid, header.property "kid" = .str kid → kid ≠ "" → key.property "kid" = .str kid

/-- What backs the result for a token: keys that were served, recently enough, one of which verifies
the signature. -/
structure OAuthEnv.Backed (env : OAuthEnv) (served : List ServedKeys) (now : Int) (jwt : Jwt)
    (result : OAuth2TokenResult) : Prop where
  claims  : env.ClaimsHold now jwt.payload
  key     : ∃ answer ∈ served, env.jwksUrl = some answer.url ∧
    (answer.askedAt = now ∨ now < answer.askedAt + answer.ttl) ∧
      ∃ key ∈ answer.keys, Named jwt.header key ∧
        env.subtleVerify (algorithmOf key) key (bytesOfBase64url jwt.encodedSignature)
          (jwt.encodedHeader ++ "." ++ jwt.encodedPayload) = some true
  subject : result.sub = (jwt.payload.property "sub").asString

/-- The token is the static token, of which nothing more is known, or it is backed. -/
def OAuthEnv.Justified (env : OAuthEnv) (served : List ServedKeys) (token : String) (now : Int)
    (result : OAuth2TokenResult) : Prop :=
  (result.sub = none ∧ ∃ staticToken, env.staticToken = some staticToken ∧
    isBlank staticToken = false ∧ env.sha256 token = env.sha256 staticToken) ∨
  ∃ jwt, decodeJwt token = some jwt ∧ env.Backed served now jwt result

/-! ## One validation -/

theorem mem_of_findKey {kid : String} {keys : List JsValue} {key : JsValue}
    (h : findKey kid keys = some key) : key ∈ keys ∧ key.property "kid" = .str kid := by
  induction keys with
  | nil => cases h
  | cons first keys ih =>
      unfold findKey at h
      split at h
      · cases h
      · cases h
      · rename_i heq
        obtain ⟨rfl, rfl⟩ := List.cons.inj heq
        split at h
        · rename_i hkid
          obtain rfl := Option.some.inj h
          exact ⟨List.mem_cons_self, JsValue.eq_str_of_strictEquals hkid⟩
        · obtain ⟨hmem, hkid⟩ := ih h
          exact ⟨List.mem_cons_of_mem _ hmem, hkid⟩

theorem mem_of_matchingKey {header : JsValue} {keys : List JsValue} {key : JsValue}
    (h : matchingKey header keys = some key) : key ∈ keys ∧ Named header key := by
  unfold matchingKey at h
  split at h
  · cases h
  · obtain ⟨hfound, -⟩ := Option.filter_eq_some_iff.mp h
    cases hkid : (header.property "kid").asString.filter fun kid => kid ≠ "" with
    | none =>
        rw [hkid] at hfound
        refine ⟨List.mem_of_head? hfound, fun kid hheader hne => ?_⟩
        rw [hheader] at hkid
        simp [JsValue.asString, Option.filter, hne] at hkid
    | some named =>
        rw [hkid] at hfound
        obtain ⟨hmem, hkey⟩ := mem_of_findKey hfound
        refine ⟨hmem, fun kid hheader _ => ?_⟩
        rw [hheader] at hkid
        obtain ⟨hsame, -⟩ := Option.filter_eq_some_iff.mp hkid
        obtain rfl := Option.some.inj hsame
        exact hkey

namespace OAuthEnv

variable {env : OAuthEnv} {now : Int} {token : String} {jwt : Jwt} {keys : List JsValue}

/-- A token found valid is verified with one of the keys. -/
theorem verified_of_finish (h : (env.finishValidation jwt keys).valid = true) :
    (env.finishValidation jwt keys).sub = (jwt.payload.property "sub").asString ∧
      ∃ key ∈ keys, Named jwt.header key ∧
        env.subtleVerify (algorithmOf key) key (bytesOfBase64url jwt.encodedSignature)
          (jwt.encodedHeader ++ "." ++ jwt.encodedPayload) = some true := by
  unfold finishValidation at h ⊢
  split at h
  · cases h
  · rename_i key hkey
    obtain ⟨hmem, hnamed⟩ := mem_of_matchingKey hkey
    split at h
    · rename_i hverified
      rw [if_pos hverified]
      refine ⟨rfl, key, hmem, hnamed, ?_⟩
      unfold verifyJwtSignature at hverified
      cases hsubtle : env.subtleVerify (algorithmOf key) key (bytesOfBase64url jwt.encodedSignature)
          (jwt.encodedHeader ++ "." ++ jwt.encodedPayload) with
      | none => simp [hsubtle] at hverified
      | some verdict =>
          rw [hsubtle] at hverified
          exact congrArg some hverified
    · cases h

/-- The claims that are accepted hold. -/
theorem claimsHold (hexp : env.expAccepted now jwt.payload = true)
    (hiss : env.issAccepted jwt.payload = true) (haud : env.audAccepted jwt.payload = true) :
    env.ClaimsHold now jwt.payload where
  exp := by
    unfold expAccepted at hexp
    -- an `exp` that is undefined is not compared
    rcases Bool.or_eq_true_iff.mp hexp with hundefined | hlive
    · refine .inl ?_
      cases hclaim : jwt.payload.property "exp" <;> rw [hclaim] at hundefined <;>
        first | rfl | cases hundefined
    · refine .inr ?_
      split at hlive
      · cases hlive
      · rename_i exp hsome
        exact ⟨exp, hsome, Rat.not_lt.mp (of_decide_eq_true hlive)⟩
  iss := by
    intro issuer hissuer hblank
    have hfilter : (env.issuer.filter fun issuer => !isBlank issuer) = some issuer :=
      Option.filter_eq_some_iff.mpr ⟨hissuer, by simp [hblank]⟩
    unfold issAccepted at hiss
    rw [hfilter] at hiss
    have htext : (jwt.payload.property "iss").asString = some (trim issuer) := beq_iff_eq.mp hiss
    cases hclaim : jwt.payload.property "iss" with
    | str iss =>
        rw [hclaim] at htext
        exact congrArg JsValue.str (Option.some.inj htext)
    | _ =>
        rw [hclaim] at htext
        cases htext
  aud := by
    intro audience haudience hblank
    have hfilter : (env.audience.filter fun audience => !isBlank audience) = some audience :=
      Option.filter_eq_some_iff.mpr ⟨haudience, by simp [hblank]⟩
    unfold audAccepted at haud
    rw [hfilter] at haud
    dsimp only at haud
    split at haud
    · rename_i aud hclaim
      obtain ⟨a, ha, hequal⟩ := List.any_eq_true.mp haud
      obtain rfl := JsValue.eq_str_of_strictEquals hequal
      exact .inr ⟨aud, hclaim, ha⟩
    · rename_i aud hclaim
      rw [hclaim, beq_iff_eq.mp haud]
      exact .inl rfl
    · cases haud

theorem asks_of_begin {url : String} (h : env.beginValidation now token = .asks url jwt) :
    env.jwksUrl = some url ∧ decodeJwt token = some jwt ∧ env.ClaimsHold now jwt.payload := by
  unfold beginValidation at h
  split at h
  · split at h <;> cases h
  · split at h
    · cases h
    · rename_i _ asked hasked
      obtain ⟨hurl, -⟩ := Option.filter_eq_some_iff.mp hasked
      split at h
      · cases h
      · rename_i decoded hdecoded
        split at h
        · cases h
        · split at h
          · rename_i haccepted
            cases h
            simp only [Bool.and_eq_true] at haccepted
            exact ⟨hurl, hdecoded, claimsHold haccepted.1.1 haccepted.1.2 haccepted.2⟩
          · cases h

theorem begin_asks {url : String}
    (hstatic : (env.staticToken.filter fun staticToken => !isBlank staticToken) = none)
    (hurl : (env.jwksUrl.filter fun url => !isBlank url) = some url)
    (hjwt : decodeJwt token = some jwt) (hpayload : jwt.payload ≠ .null)
    (haccepted : (env.expAccepted now jwt.payload && env.issAccepted jwt.payload &&
      env.audAccepted jwt.payload) = true) : env.beginValidation now token = .asks url jwt := by
  unfold beginValidation
  rw [hstatic, hurl]
  dsimp only
  rw [hjwt]
  dsimp only
  split
  · rename_i h
    exact absurd h hpayload
  · rw [if_pos haccepted]

/-- A validation that is over at once is valid only for the static token. -/
theorem static_of_begin {outcome : Except String OAuth2TokenResult}
    (h : env.beginValidation now token = .settled outcome) {result : OAuth2TokenResult}
    (hok : outcome = .ok result) (hvalid : result.valid = true) :
    result.sub = none ∧ ∃ staticToken, env.staticToken = some staticToken ∧
      isBlank staticToken = false ∧ env.sha256 token = env.sha256 staticToken := by
  unfold beginValidation at h
  split at h
  · rename_i staticToken hstatic
    obtain ⟨hset, hblank⟩ := Option.filter_eq_some_iff.mp hstatic
    split at h
    · rename_i hequal
      cases h
      cases hok
      exact ⟨rfl, staticToken, hset, by simpa using hblank, hequal⟩
    · cases h
      cases hok
      cases hvalid
  · have hinvalid : outcome = .ok invalidToken ∨ ∃ e, outcome = .error e := by
      split at h
      · cases h
        exact .inl rfl
      · split at h
        · cases h
          exact .inl rfl
        · split at h
          · cases h
            exact .inr ⟨_, rfl⟩
          · split at h <;> cases h
            exact .inl rfl
    -- no static token is set: only a signature can settle it with `valid`
    rcases hinvalid with rfl | ⟨e, rfl⟩
    · cases hok
      cases hvalid
    · cases hok

end OAuthEnv

/-! ## Any number of validations

Validations wait for the key set side by side. Each is accounted for by its own token. -/

theorem OAuthEnv.Justified.mono {env : OAuthEnv} {served served' : List ServedKeys} {token : String}
    {now : Int} {result : OAuth2TokenResult} (hsub : served ⊆ served')
    (h : env.Justified served token now result) : env.Justified served' token now result := by
  rcases h with hstatic | ⟨jwt, hjwt, hbacked⟩
  · exact .inl hstatic
  · obtain ⟨answer, hanswer, hkey⟩ := hbacked.key
    exact .inr ⟨jwt, hjwt, hbacked.claims, ⟨answer, hsub hanswer, hkey⟩, hbacked.subject⟩

namespace OAuthState

/-- What holds of every state: the cache is what was served, who waits has a right to, and what was
found valid is justified. -/
structure Accounted (env : OAuthEnv) (s : OAuthState) : Prop where
  cache   : ∀ url cached, s.jwksCache.get url = some cached → ∃ answer ∈ s.served,
    answer.url = url ∧ answer.keys = cached.keys ∧ cached.expiresAt = answer.askedAt + answer.ttl
  waiting : ∀ w ∈ s.waiting, env.jwksUrl = some w.url ∧ decodeJwt w.token = some w.jwt ∧
    env.ClaimsHold w.startedAt w.jwt.payload
  settled : ∀ v ∈ s.settled, ∀ result, v.outcome = .ok result → result.valid = true →
    env.Justified s.served v.token v.startedAt result

variable {env : OAuthEnv} {s : OAuthState}

theorem accounted_start (env : OAuthEnv) : start.Accounted env where
  cache _ _ h := by cases h
  waiting _ h := absurd h List.not_mem_nil
  settled _ h := absurd h List.not_mem_nil

/-- A validation is over. -/
theorem Accounted.settle (h : s.Accounted env) {token : String} {now : Int}
    {outcome : Except String OAuth2TokenResult}
    (hjustified : ∀ result, outcome = .ok result → result.valid = true →
      env.Justified s.served token now result) : (s.settle token now outcome).Accounted env where
  cache := h.cache
  waiting := h.waiting
  settled v hv := by
    rcases List.mem_cons.mp hv with rfl | hold
    · exact hjustified
    · exact h.settled v hold

theorem Accounted.validate (h : s.Accounted env) (now : Int) (token : String) :
    (s.validate env now token).Accounted env := by
  unfold OAuthState.validate
  split
  · rename_i outcome hbegin
    exact h.settle fun result hok hvalid => .inl (OAuthEnv.static_of_begin hbegin hok hvalid)
  · rename_i url jwt hbegin
    obtain ⟨hurl, hjwt, hclaims⟩ := OAuthEnv.asks_of_begin hbegin
    split
    · rename_i cached hcached
      obtain ⟨hget, hlive⟩ := Option.filter_eq_some_iff.mp hcached
      refine h.settle fun result hok hvalid => .inr ⟨jwt, hjwt, ?_⟩
      obtain rfl := Except.ok.inj hok
      obtain ⟨hsub, key, hkey, hverified⟩ := OAuthEnv.verified_of_finish hvalid
      obtain ⟨answer, hanswer, rfl, hkeys, hexpires⟩ := h.cache url cached hget
      have hfresh : now < answer.askedAt + answer.ttl := hexpires ▸ of_decide_eq_true hlive
      exact ⟨hclaims, ⟨answer, hanswer, hurl, .inr hfresh, key, hkeys ▸ hkey, hverified⟩, hsub⟩
    · refine ⟨h.cache, fun w hw => ?_, h.settled⟩
      rcases List.mem_cons.mp hw with rfl | hold
      · exact ⟨hurl, hjwt, hclaims⟩
      · exact h.waiting w hold

theorem Accounted.answered (h : s.Accounted env) (id : Nat) (answer : JwksAnswer) :
    (s.answered env id answer).Accounted env := by
  unfold OAuthState.answered
  split
  · exact h
  · rename_i w hfind
    obtain ⟨hurl, hjwt, hclaims⟩ := h.waiting w (List.mem_of_find?_eq_some hfind)
    have hwaiting : ∀ w' ∈ s.waiting.filter fun w => w.id != id, env.jwksUrl = some w'.url ∧
        decodeJwt w'.token = some w'.jwt ∧ env.ClaimsHold w'.startedAt w'.jwt.payload :=
      fun w' hw' => h.waiting w' (List.mem_of_mem_filter hw')
    dsimp only
    split
    -- the issuer did not answer with keys
    · have hleft : { s with waiting := s.waiting.filter fun w => w.id != id }.Accounted env :=
        ⟨h.cache, hwaiting, h.settled⟩
      refine hleft.settle fun result hok hvalid => ?_
      cases hok
      cases hvalid
    · rename_i keys hkeys
      have hserved : s.served ⊆ ⟨w.url, w.startedAt, keys, answer.ttl⟩ :: s.served :=
        fun _ hold => List.mem_cons_of_mem _ hold
      have hkept : { s with
          waiting := s.waiting.filter fun w => w.id != id
          jwksCache := s.jwksCache.set w.url ⟨keys, w.startedAt + answer.ttl⟩
          served := ⟨w.url, w.startedAt, keys, answer.ttl⟩ :: s.served }.Accounted env := by
        refine ⟨fun url cached hget => ?_, hwaiting, fun v hv result hok hvalid =>
          (h.settled v hv result hok hvalid).mono hserved⟩
        rw [OrderedMap.get_set] at hget
        split at hget
        · rename_i hsame
          obtain rfl := Option.some.inj hget
          -- the entry that was just written is the answer's own
          exact ⟨_, List.mem_cons_self, hsame, rfl, rfl⟩
        · obtain ⟨served, hmem, hcached⟩ := h.cache url cached hget
          exact ⟨served, hserved hmem, hcached⟩
      refine hkept.settle fun result hok hvalid => ?_
      obtain rfl := Except.ok.inj hok
      obtain ⟨hsub, key, hkey, hverified⟩ := OAuthEnv.verified_of_finish hvalid
      exact .inr ⟨w.jwt, hjwt, hclaims, ⟨⟨w.url, w.startedAt, keys, answer.ttl⟩,
        List.mem_cons_self, hurl, .inl rfl, key, hkey, hverified⟩, hsub⟩

/-- The first validation is settled with the keys that are answered. -/
theorem settled_of_asks {now : Int} {token url : String} {jwt : Jwt}
    (h : env.beginValidation now token = .asks url jwt) {answer : JwksAnswer} {keys : List JsValue}
    (hkeys : answer.keys = some keys) :
    (⟨token, now, .ok (env.finishValidation jwt keys)⟩ : SettledValidation) ∈
      (Transition.run (step env) .start [.validate now token, .answered 0 answer]).settled := by
  rw [Transition.run_cons, Transition.run_cons, Transition.run_nil]
  unfold OAuthState.step OAuthState.validate
  dsimp only
  rw [h]
  unfold OAuthState.answered OAuthState.start
  simp [OrderedMap.get_empty, hkeys, OAuthState.settle]

end OAuthState

/-- **A token that is found valid is backed**: whatever validations and answers come in whatever order,
it is the static token, or its claims held when its validation began, and a key that the issuer served
then, or no longer before than its answer said, verifies its signature. -/
theorem validated_is_backed (env : OAuthEnv) (ls : List OAuthLabel) :
    ∀ v ∈ (Transition.run (OAuthState.step env) .start ls).settled, ∀ result,
      v.outcome = .ok result → result.valid = true → env.Justified
        (Transition.run (OAuthState.step env) .start ls).served v.token v.startedAt result := by
  have haccounted : (Transition.run (OAuthState.step env) .start ls).Accounted env := by
    refine Transition.run_preserves (I := fun s : OAuthState => s.Accounted env) (fun s l hs => ?_) ls
      (OAuthState.accounted_start env)
    cases l with
    | validate now token => exact hs.validate now token
    | answered id answer => exact hs.answered id answer
  exact haccounted.settled

/-- An issuer of tokens for one audience, whose signature is a zero. -/
def sampleOAuth : OAuthEnv :=
  { sampleServer with
    jwksUrl      := some "https://issuer.example/keys"
    issuer       := some "https://issuer.example"
    audience     := some "map"
    subtleVerify := fun _ _ signature _ => some (signature == [0]) }

def sampleHeader : JsObject := [("alg", .str "RS256"), ("kid", .str "k1")]

def sampleClaims : JsObject :=
  [("iss", .str "https://issuer.example"), ("aud", .str "map"), ("sub", .str "alice"),
    ("exp", .num 9)]

def sampleJwt : Jwt where
  encodedHeader    := base64url (stringify sampleHeader)
  encodedPayload   := base64url (stringify sampleClaims)
  encodedSignature := "AA"
  header           := .obj sampleHeader
  payload          := .obj sampleClaims

def sampleToken : String :=
  sampleJwt.encodedHeader ++ "." ++ sampleJwt.encodedPayload ++ "." ++ sampleJwt.encodedSignature

theorem parse_encoded {o : JsObject} (h : IsJson (.obj o)) :
    parse (fromUtf8 (bytesOfBase64url (base64url (stringify o)))) = some (.obj o) := by
  obtain ⟨text, htext⟩ := h.text
  unfold base64url stringify
  rw [bytesOfBase64url_base64urlOfBytes, fromUtf8_utf8, htext]
  exact parse_stringify? h htext

theorem decodeJwt_encoded {header payload : JsObject} (hheader : IsJson (.obj header))
    (hpayload : IsJson (.obj payload)) {signature : String} (h : '.' ∉ signature.toList) :
    decodeJwt (base64url (stringify header) ++ "." ++ base64url (stringify payload) ++ "." ++
      signature) = some ⟨base64url (stringify header), base64url (stringify payload), signature,
        .obj header, .obj payload⟩ := by
  unfold decodeJwt
  rw [split_three (dot_notMem_base64url _) (dot_notMem_base64url _) h]
  dsimp only
  rw [parse_encoded hheader, parse_encoded hpayload]
  rfl

theorem decodeJwt_sample : decodeJwt sampleToken = some sampleJwt := by
  have hheader : IsJson (.obj sampleHeader) := ⟨by decide, trivial, trivial, trivial⟩
  have hclaims : IsJson (.obj sampleClaims) :=
    ⟨by decide, trivial, trivial, trivial, ⟨0, by simp⟩, trivial⟩
  exact decodeJwt_encoded hheader hclaims (by decide)

/-- A token that waits for the keys of its issuer is found valid once they come. -/
theorem validated_is_backed_sample :
    ∃ served, sampleOAuth.Justified served sampleToken 0 ⟨true, some "alice", none⟩ := by
  have hbegin : sampleOAuth.beginValidation 0 sampleToken =
      .asks "https://issuer.example/keys" sampleJwt :=
    OAuthEnv.begin_asks rfl rfl decodeJwt_sample (by simp [sampleJwt]) rfl
  have hfinish : sampleOAuth.finishValidation sampleJwt
      [.obj [("kty", .str "RSA"), ("kid", .str "k1")]] = ⟨true, some "alice", none⟩ := rfl
  have hsettled := @OAuthState.settled_of_asks _ _ _ _ _ hbegin
    (.answered true (.obj [("keys", .arr [.obj [("kty", .str "RSA"), ("kid", .str "k1")]])]) none) _
    rfl
  rw [hfinish] at hsettled
  exact ⟨_, validated_is_backed sampleOAuth _ _ hsettled _ rfl rfl⟩

end MapProtocol
