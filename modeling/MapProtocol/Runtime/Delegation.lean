import MapProtocol.Js.JsonWriters
import MapProtocol.Runtime.MicroAgent
import MapProtocol.Security.CanonicalNumbers

/-!
# What a delegation allows

`DelegationService.issue` signs a token for a request, and a micro-agent asks of every call that its
token binds it. The two meet in texts: the signature carries the canonical text of the token, and the
scope of the token is compared with the constraints of the task as a text. Both are written by a
`JsonWriter`, so equal texts mean equal values. A call that is authorised with the signature of a
delegation stays within that delegation, whatever else its token says (`delegation_confines`).

The canonical text rounds a number to fifteen digits after the point, so this holds of the scope with
its numbers rounded like that.
-/

namespace MapProtocol

open Js Wire

variable {token : Record} {v w : JsValue} {key : String} {env : MicroAgentEnv} {call : InvokeCall}

/-! ## The two writers -/

/-- The number that the canonical text of a number denotes. -/
def canonicalNumber (q : Rat) : Rat :=
  if q.den = 1 ∨ 10 ^ 21 ≤ magnitude q then q else Doubles.fixed15 q

theorem serializeJcsNumber_spells (q : Rat) (h : Decimal q) :
    ∃ t : NumberText, t.WellFormed ∧ (serializeJcsNumber q).toList = t.chars ∧
      t.value = canonicalNumber q := by
  have hplain : q.den = 1 ∨ 10 ^ 21 ≤ magnitude q → ∃ t : NumberText, t.WellFormed ∧
      (numberToString q).toList = t.chars ∧ t.value = canonicalNumber q := by
    intro hq
    obtain ⟨t, hwell, htext, hvalue⟩ := numberToString_text h
    exact ⟨t, hwell, htext, hvalue.trans (if_pos hq).symm⟩
  unfold serializeJcsNumber
  by_cases hzero : q = 0
  · subst hzero
    rw [if_pos rfl]
    exact hplain (.inl rfl)
  · rw [if_neg hzero]
    by_cases hlarge : 10 ^ 21 ≤ magnitude q
    · rw [if_neg fun hq => absurd hlarge (not_le.mpr hq.2), if_pos hlarge]
      exact hplain (.inr hlarge)
    · by_cases hint : q.den = 1
      · rw [if_pos ⟨hint, not_le.mp hlarge⟩]
        exact hplain (.inl hint)
      · obtain ⟨t, hwell, htext, hvalue⟩ := Doubles.toFixed15_text q
        refine ⟨t, hwell, ?_, hvalue.trans (if_neg (by simp [hint, hlarge])).symm⟩
        rw [if_neg fun hq => hint hq.1, if_neg hlarge, String.toList_ofList, htext]

/-- `stableStringify` of the signatures. -/
def canonicalWriter : JsonWriter where
  number := serializeJcsNumber
  arrange := fun es => es.insertionSort keyOrder
  noElement := ""
  noValue := "undefined"
  denoted := canonicalNumber
  number_spells := serializeJcsNumber_spells
  arrange_perm := fun es => List.perm_insertionSort keyOrder es

mutual

theorem text_canonicalWriter : ∀ v, canonicalWriter.text v = serializeJcs v
  | .undefined   => rfl
  | .inherited _ => rfl
  | .null        => rfl
  | .bool _      => rfl
  | .num _       => rfl
  | .str _       => rfl
  | .arr xs      => by
      rw [JsonWriter.text, serializeJcs, elements_canonicalWriter xs]
  | .obj es      => by
      rw [JsonWriter.text, serializeJcs, members_canonicalWriter es]
      rfl

theorem elements_canonicalWriter : ∀ vs, canonicalWriter.elements vs = serializeJcsElements vs
  | []      => rfl
  | v :: vs => by
      rw [JsonWriter.elements, serializeJcsElements, text_canonicalWriter v,
        elements_canonicalWriter vs]
      rfl

theorem members_canonicalWriter : ∀ es, canonicalWriter.members es = serializeJcsMembers es
  | []           => rfl
  | (k, v) :: es => by
      rw [JsonWriter.members, serializeJcsMembers, text_canonicalWriter v,
        members_canonicalWriter es]
      rfl

end

namespace MicroAgentEnv

variable (env : MicroAgentEnv)

/-- `stableStringify` of the micro-agent. -/
def scopeWriter : JsonWriter where
  number := numberToString
  arrange := fun es => es.mergeSort fun a b => decide (env.localeCompare a.1 b.1 ≤ 0)
  noElement := ""
  noValue := "undefined"
  denoted := fun q => q
  number_spells := fun _ h => numberToString_text h
  arrange_perm := fun es => List.mergeSort_perm es _

mutual

theorem text_scopeWriter : ∀ v, env.scopeWriter.text v = env.stableText v
  | .undefined   => rfl
  | .inherited _ => rfl
  | .null        => rfl
  | .bool _      => rfl
  | .num _       => rfl
  | .str _       => rfl
  | .arr xs      => by
      rw [JsonWriter.text, stableText, elements_scopeWriter xs]
  | .obj es      => by
      rw [JsonWriter.text, stableText, members_scopeWriter es]
      rfl

theorem elements_scopeWriter : ∀ vs, env.scopeWriter.elements vs = env.stableElements vs
  | []      => rfl
  | v :: vs => by
      rw [JsonWriter.elements, stableElements, text_scopeWriter v, elements_scopeWriter vs]
      rfl

theorem members_scopeWriter : ∀ es, env.scopeWriter.members es = env.stableMembers es
  | []           => rfl
  | (k, v) :: es => by
      rw [JsonWriter.members, stableMembers, text_scopeWriter v, members_scopeWriter es]
      rfl

end

/-- **Scopes that match are equal** up to the order of members, however names are compared. -/
theorem sameJson_of_scopeMatches {scope constraints : JsValue} (hscope : IsJson scope)
    (hconstraints : IsJson constraints) (h : env.scopeMatches scope constraints = true) :
    SameJson scope constraints := by
  have htext : env.stableText scope = env.stableText constraints := beq_iff_eq.mp h
  rw [← text_scopeWriter, ← text_scopeWriter] at htext
  have hsame := env.scopeWriter.sameJson_of_text hscope hconstraints htext
  have hid : ∀ v, mapNumbers env.scopeWriter.denoted v = v := mapNumbers_id
  rwa [hid, hid] at hsame

end MicroAgentEnv

/-! ## Issuing -/

/-- What `issue` is asked for. The constraints and the approval reference are those of the policy
decision; the requester is the object as it is in memory. -/
structure DelegationRequest where
  subjectAgent      : String
  allowedActions    : List String
  resourceScope     : JsObject
  requesterIdentity : JsObject
  scopedConstraints : Option JsObject
  approvalReference : Option String
  expiresAt         : String

/-- A delegation service, with the signing keys of the time. -/
structure DelegationService where
  issuer : String := "map-delegation-service"
  config : SigningConfig

namespace DelegationService

variable (service : DelegationService) (request : DelegationRequest)

def tokenWithoutSignature : Record where
  entries :=
    let scopedConstraints := request.scopedConstraints.getD []
    [("issuer", .str service.issuer),
      ("subject_agent", .str request.subjectAgent),
      ("allowed_actions", .arr (request.allowedActions.map .str)),
      ("resource_scope", .obj request.resourceScope),
      ("constraints", .obj
        [("common", (scopedConstraints.get "common").orElse (.obj [])),
          ("domain", (scopedConstraints.get "domain").orElse (.obj [])),
          ("expires_at", .str request.expiresAt)]),
      ("approval_reference", .ofString? request.approvalReference),
      ("requester_identity", .obj request.requesterIdentity)]
  nodup := by simp

def issue : Except String Record := do
  let signature ← signDelegationToken service.config (service.tokenWithoutSignature request)
  return (service.tokenWithoutSignature request).set "signature" (.str signature)

end DelegationService

structure DelegationRequest.IsData (request : DelegationRequest) : Prop where
  scope       : IsJson (.obj request.resourceScope)
  requester   : IsJson (.obj request.requesterIdentity)
  constraints : IsJson (.obj (request.scopedConstraints.getD []))

/-- The token has the fields that are signed, and they and the constraints of the task are JSON data,
as they come out of a request body. -/
structure InvokeCall.IsData (call : InvokeCall) : Prop where
  token       : ∀ e ∈ tokenSigningPayload call.token, IsJson e.2
  constraints : IsJson (.obj call.envelope.constraints.toJs)

theorem isJson_get {o : JsObject} (h : IsJson (.obj o)) (key : String) :
    IsJson ((o.get key).orElse (.obj [])) := by
  unfold JsObject.get
  cases hget : OrderedMap.getEntries key o with
  | none => exact ⟨List.nodup_nil, trivial⟩
  | some v =>
      have hv : IsJson v := haveJson_iff.mp h.2 (key, v) ((OrderedMap.getEntries_eq_some h.1).mp hget)
      cases v with
      | undefined => exact ⟨List.nodup_nil, trivial⟩
      | null => exact ⟨List.nodup_nil, trivial⟩
      | _ => exact hv

/-- What `issue` signs is JSON data. -/
theorem DelegationRequest.IsData.payload {request : DelegationRequest} (h : request.IsData)
    (service : DelegationService) :
    ∀ e ∈ tokenSigningPayload (service.tokenWithoutSignature request), IsJson e.2 := by
  have hactions : AreJson (request.allowedActions.map .str) := by
    rw [areJson_iff]
    intro v hv
    obtain ⟨action, -, rfl⟩ := List.mem_map.mp hv
    trivial
  have hreference : IsJson ((JsValue.ofString? request.approvalReference).orElse .null) := by
    cases request.approvalReference with
    | none => trivial
    | some reference => trivial
  have hconstraints : IsJson (.obj
      [("common", ((request.scopedConstraints.getD []).get "common").orElse (.obj [])),
        ("domain", ((request.scopedConstraints.getD []).get "domain").orElse (.obj [])),
        ("expires_at", .str request.expiresAt)]) :=
    ⟨by simp, isJson_get h.constraints _, isJson_get h.constraints _, trivial, trivial⟩
  intro e he
  simp only [tokenSigningPayload, List.mem_cons, List.not_mem_nil, or_false] at he
  rcases he with rfl | rfl | rfl | rfl | rfl | rfl | rfl
  · trivial
  · trivial
  · exact hactions
  · exact h.scope
  · exact hconstraints
  · exact hreference
  · exact h.requester

theorem isJson_payload (h : ∀ e ∈ tokenSigningPayload token, IsJson e.2) :
    IsJson (.obj (tokenSigningPayload token)) := by
  refine ⟨?_, haveJson_iff.mpr h⟩
  simp [tokenSigningPayload]

theorem InvokeCall.IsData.member {call : InvokeCall} (h : call.IsData) {key : String} {v : JsValue}
    (hv : OrderedMap.getEntries key (tokenSigningPayload call.token) = some v) : IsJson v :=
  h.token (key, v) ((OrderedMap.getEntries_eq_some (isJson_payload h.token).1).mp hv)

/-! ## One signature, one content

A signature is of a canonical text, which tells values apart up to numbers that round alike. -/

/-- The numbers of a value, as a signature sees them. -/
def asSigned (v : JsValue) : JsValue := mapNumbers canonicalNumber v

/-- Tokens with one canonical text agree in every signed field, up to numbers as a signature sees
them. -/
theorem sameJson_of_signedContent {token token' : Record}
    (h : ∀ e ∈ tokenSigningPayload token, IsJson e.2)
    (h' : ∀ e ∈ tokenSigningPayload token', IsJson e.2)
    (htext : stableStringify (tokenSigningPayload token) =
      stableStringify (tokenSigningPayload token')) :
    SameJson (asSigned (.obj (tokenSigningPayload token)))
      (asSigned (.obj (tokenSigningPayload token'))) := by
  refine canonicalWriter.sameJson_of_text (isJson_payload h) (isJson_payload h') ?_
  rw [text_canonicalWriter, text_canonicalWriter]
  unfold stableStringify at htext
  rw [serializeJcs, serializeJcs] at htext ⊢
  exact congrArg some htext

/-- A signature that was made for one token verifies no other. -/
theorem signedContent_of_issued {service : DelegationService} {request : DelegationRequest}
    {token received : Record} (hissued : service.issue request = .ok token)
    {config : SigningConfig} (hsignature : field received "signature" = field token "signature")
    (hverify : verifyDelegationTokenSignature config received = true) :
    stableStringify (tokenSigningPayload (service.tokenWithoutSignature request)) =
      stableStringify (tokenSigningPayload received) := by
  unfold DelegationService.issue at hissued
  simp only [bind_eq_ok, pure_eq_ok] at hissued
  obtain ⟨signature, hsign, rfl⟩ := hissued
  rw [field_set, if_pos rfl] at hsignature
  unfold signDelegationToken at hsign
  simp only [bind_eq_ok] at hsign
  obtain ⟨_, -, hcreate⟩ := hsign
  unfold verifyDelegationTokenSignature at hverify
  rw [hsignature] at hverify
  dsimp only at hverify
  rw [tokenSigningPayload_delete] at hverify
  obtain ⟨key, -, hkey, -⟩ := named_of_create hcreate
  exact (SigningConfig.created_verifies_only hcreate hkey hverify).1.symm

/-! ## Texts inside a value

Agents, capabilities and requesters are texts, and texts are not rounded. -/

/-- The string, if that is what stands there. -/
def shapeText : Shape → Option String
  | .str s => some s
  | _      => none

/-- The string that stands at a place, if one does. -/
def textAt (v : JsValue) (place : Place) : Option String := (shapeAt v place).bind shapeText

theorem textAt_asSigned (v : JsValue) (place : Place) : textAt (asSigned v) place = textAt v place := by
  unfold textAt asSigned
  rw [shapeAt_mapNumbers, Option.bind_map]
  congr 1
  funext shape
  cases shape <;> rfl

theorem textAt_of_same (h : SameJson (asSigned v) (asSigned w)) (place : Place) :
    textAt v place = textAt w place := by
  have hsame : textAt (asSigned v) place = textAt (asSigned w) place := by
    unfold textAt
    rw [h place]
  rwa [textAt_asSigned, textAt_asSigned] at hsame

theorem textAt_member {es : JsObject} (h : OrderedMap.getEntries key es = some v) (place : Place) :
    textAt (.obj es) (.member key :: place) = textAt v place := by
  have hchild : child? (.obj es) (.member key) = some v := h
  unfold textAt
  rw [shapeAt, hchild, Option.bind_some]

/-- The name is no element's, and on no prototype. -/
structure OwnName (key : String) : Prop where
  object : key ∉ JsValue.objectPrototype
  array  : key ∉ JsValue.arrayPrototype
  length : key ≠ "length"
  letter : ∃ c ∈ key.toList, isDigit c = false

theorem ownName (h : key ∈ ["type", "id", "tenant_id", "expires_at"]) :
    OwnName key := by
  simp only [List.mem_cons, List.not_mem_nil, or_false] at h
  rcases h with rfl | rfl | rfl | rfl
  · exact ⟨by decide, by decide, by decide, 't', by decide, rfl⟩
  · exact ⟨by decide, by decide, by decide, 'i', by decide, rfl⟩
  · exact ⟨by decide, by decide, by decide, 't', by decide, rfl⟩
  · exact ⟨by decide, by decide, by decide, 'e', by decide, rfl⟩

/-- A property of such a name, read as a string. -/
theorem asString_property (hv : IsJson v) (hkey : OwnName key) :
    (v.property key).asString = textAt v [.member key] := by
  cases v with
  | obj es =>
      have hchild : child? (.obj es) (.member key) = OrderedMap.getEntries key es := rfl
      rw [JsValue.property_obj hkey.object]
      unfold JsObject.get textAt
      rw [shapeAt, hchild]
      cases OrderedMap.getEntries key es with
      | none => rfl
      | some w => cases w <;> rfl
  | arr xs =>
      have hproto : key ≠ "__proto__" := by
        rintro rfl
        exact hkey.object (by decide)
      have hindex : ∀ i : Nat, toString i ≠ key := by
        rintro i rfl
        obtain ⟨c, hc, hletter⟩ := hkey.letter
        rw [isDigit_of_mem_toString hc] at hletter
        cases hletter
      have hnone : (JsValue.arr xs).ownProperty key = .undefined := by
        unfold JsValue.ownProperty
        dsimp only
        rw [if_neg hkey.length]
        split
        · rw [if_neg (hindex _)]
        · rfl
      have hread : (JsValue.arr xs).property key = .undefined := by
        simp only [JsValue.property, if_neg hproto, hkey.array, hkey.object, or_self, if_false, hnone]
      rw [hread]
      rfl
  | inherited name => exact absurd hv id
  | undefined => exact absurd hv id
  | null => rfl
  | bool b => rfl
  | num n => rfl
  | str s => rfl

/-! ## Authorised calls -/

/-- What the checks before the replay check establish. -/
structure TokenChecked (env : MicroAgentEnv) (call : InvokeCall) (expiresAt : Int) : Prop where
  subject  : field call.token "subject_agent" = .str call.agentId
  verified : verifyDelegationTokenSignature call.config call.token = true
  expiry   : env.tokenExpiry call.token = some expiresAt
  live     : call.now < expiresAt

theorem tokenChecked_of_checkToken {expiresAt : Int} (h : env.checkToken call = .ok expiresAt) :
    TokenChecked env call expiresAt := by
  unfold MicroAgentEnv.checkToken at h
  split at h
  · cases h
  · split at h
    · cases h
    · rename_i hsubject
      split at h
      · cases h
      · rename_i hverified
        split at h
        · cases h
        · rename_i hexpiry
          split at h
          · cases h
          · rename_i hlive
            cases h
            exact ⟨JsValue.eq_str_of_strictEquals (by simpa using hsubject), by simpa using hverified,
              hexpiry, Int.not_le.mp hlive⟩

def InvokeCall.action (call : InvokeCall) : String :=
  toText ((call.envelope.meta "capability").orElse (.str ""))

/-- What the checks after it establish. -/
structure BindingChecked (env : MicroAgentEnv) (call : InvokeCall) : Prop where
  action : ∃ actions, field call.token "allowed_actions" = .arr actions ∧
    .str call.action ∈ actions
  scope  : env.scopeMatches (field call.token "resource_scope")
    (.obj call.envelope.constraints.toJs) = true
  type   : (field call.token "requester_identity").property "type" =
    .str call.envelope.requesterIdentity.type.text
  id     : (field call.token "requester_identity").property "id" =
    .str call.envelope.requesterIdentity.id
  tenant : TaskStore.resolveTenantId
      ((field call.token "requester_identity").property "tenant_id").asString =
    TaskStore.resolveTenantId call.envelope.requesterIdentity.tenantId

theorem bindingChecked_of_checkBinding (h : env.checkBinding call = .ok ()) :
    BindingChecked env call := by
  unfold MicroAgentEnv.checkBinding at h
  dsimp only at h
  split at h
  · cases h
  · split at h
    · rename_i actions hactions
      split at h
      · cases h
      · rename_i haction
        split at h
        · cases h
        · rename_i hscope
          split at h
          · cases h
          · split at h
            · cases h
            · rename_i hrequester
              split at h
              · cases h
              · rename_i htenant
                have hpassed : ∀ {b : Bool}, ¬ (!b) = true → b = true := by simp
                obtain ⟨htype, hid⟩ := Bool.and_eq_true_iff.mp (hpassed hrequester)
                obtain ⟨allowed, hallowed, hequal⟩ := List.any_eq_true.mp (hpassed haction)
                have hallowed' : .str call.action ∈ actions :=
                  JsValue.eq_str_of_strictEquals hequal ▸ hallowed
                exact ⟨⟨actions, hactions, hallowed'⟩, hpassed hscope, JsValue.eq_str_of_strictEquals htype,
                  JsValue.eq_str_of_strictEquals hid, not_not.mp htenant⟩
    · rw [Bool.not_false, if_pos rfl] at h
      cases h

theorem checked_of_authorized {seen : OrderedMap String Int}
    (h : (env.assertAuthorized call seen).1 = .ok ()) :
    (∃ expiresAt, TokenChecked env call expiresAt) ∧ BindingChecked env call := by
  rcases @MicroAgentEnv.assertAuthorized_cases env call seen with
    ⟨e, -, heq⟩ | ⟨_, _, -, -, -, heq⟩ | ⟨expiresAt, hcheck, -, heq⟩
  · rw [heq] at h
    cases h
  · rw [heq] at h
    cases h
  · rw [heq] at h
    exact ⟨⟨expiresAt, tokenChecked_of_checkToken hcheck⟩, bindingChecked_of_checkBinding h⟩

/-! ## Confinement -/

/-- **The call stays within the delegation.** -/
structure Confined (env : MicroAgentEnv) (request : DelegationRequest) (call : InvokeCall) :
    Prop where
  subject : call.agentId = request.subjectAgent
  action  : call.action ∈ request.allowedActions
  /-- The constraints of the task are the scope that was delegated. -/
  scope   : SameJson (asSigned (.obj request.resourceScope))
    (asSigned (.obj call.envelope.constraints.toJs))
  type    : textAt (.obj request.requesterIdentity) [.member "type"] =
    some call.envelope.requesterIdentity.type.text
  id      : textAt (.obj request.requesterIdentity) [.member "id"] =
    some call.envelope.requesterIdentity.id
  tenant  : TaskStore.resolveTenantId (textAt (.obj request.requesterIdentity) [.member "tenant_id"]) =
    TaskStore.resolveTenantId call.envelope.requesterIdentity.tenantId
  live    : ∃ expiresAt, env.parseDate request.expiresAt = some expiresAt ∧ call.now < expiresAt

theorem asSigned_congr (h : SameJson v w) : SameJson (asSigned v) (asSigned w) := by
  intro place
  unfold asSigned
  rw [shapeAt_mapNumbers, shapeAt_mapNumbers, h place]

theorem sameJson_member {es fs : JsObject} (h : SameJson (asSigned (.obj es)) (asSigned (.obj fs)))
    (key : String) (hv : OrderedMap.getEntries key es = some v)
    (hw : OrderedMap.getEntries key fs = some w) : SameJson (asSigned v) (asSigned w) := by
  intro place
  have hplace := h (.member key :: place)
  have hchild : child? (.obj es) (.member key) = some v := hv
  have hchild' : child? (.obj fs) (.member key) = some w := hw
  unfold asSigned at hplace ⊢
  rw [shapeAt_mapNumbers, shapeAt_mapNumbers, shapeAt, shapeAt, hchild, hchild'] at hplace
  rw [shapeAt_mapNumbers, shapeAt_mapNumbers]
  exact hplace

section Confinement

variable {env : MicroAgentEnv} {service : DelegationService} {request : DelegationRequest}
  {token : Record} {call : InvokeCall}

theorem action_of_textAt {actions : List String} {action : String} {i : Nat}
    (h : textAt (.arr (actions.map .str)) [.element i] = some action) : action ∈ actions := by
  have hchild : child? (.arr (actions.map .str)) (.element i) = (actions[i]?).map .str :=
    List.getElem?_map
  unfold textAt at h
  rw [shapeAt, hchild] at h
  cases hget : actions[i]? with
  | none =>
      rw [hget] at h
      cases h
  | some allowed =>
      rw [hget] at h
      obtain rfl : allowed = action := Option.some.inj h
      exact List.mem_of_getElem? hget

theorem requester_text (hdata : call.IsData) {key : String} (hkey : OwnName key) :
    ((field call.token "requester_identity").property key).asString =
      textAt (.obj (tokenSigningPayload call.token)) [.member "requester_identity", .member key] := by
  have hget : OrderedMap.getEntries "requester_identity" (tokenSigningPayload call.token) =
      some ((field call.token "requester_identity").orElse .null) := rfl
  rw [textAt_member hget, ← asString_property (hdata.member hget) hkey]
  cases field call.token "requester_identity" with
  | undefined => rfl
  | _ => rfl

/-- **A call that is authorised with the signature of a delegation stays within it.** -/
theorem confined_of_authorized (hissued : service.issue request = .ok token)
    (hrequest : request.IsData) (hdata : call.IsData)
    (hsignature : field call.token "signature" = field token "signature")
    {seen : OrderedMap String Int} (hok : (env.assertAuthorized call seen).1 = .ok ()) :
    Confined env request call := by
  obtain ⟨⟨expiresAt, hchecked⟩, hbinding⟩ := checked_of_authorized hok
  have hsame := sameJson_of_signedContent (hrequest.payload service) hdata.token
    (signedContent_of_issued hissued hsignature hchecked.verified)
  -- every text of the token that was issued is a text of the token of the call
  have htext := textAt_of_same hsame
  have hrequester : ∀ key, OwnName key →
      textAt (.obj request.requesterIdentity) [.member key] =
        ((field call.token "requester_identity").property key).asString := by
    intro key hkey
    rw [requester_text hdata hkey, ← htext]
    exact (textAt_member rfl _).symm
  constructor
  · have hsubject := htext [.member "subject_agent"]
    rw [textAt_member (v := .str request.subjectAgent) rfl,
      textAt_member (v := field call.token "subject_agent") rfl, hchecked.subject] at hsubject
    exact (Option.some.inj hsubject).symm
  · obtain ⟨actions, hactions, hallowed⟩ := hbinding.action
    obtain ⟨i, hi⟩ := List.mem_iff_getElem?.mp hallowed
    have hchild : child? (.arr actions) (.element i) = some (.str call.action) := hi
    have haction := htext [.member "allowed_actions", .element i]
    rw [textAt_member (v := .arr (request.allowedActions.map .str)) rfl,
      textAt_member (v := field call.token "allowed_actions") rfl, hactions] at haction
    refine action_of_textAt (haction.trans ?_)
    unfold textAt
    rw [shapeAt, hchild]
    rfl
  · have hscope : SameJson (asSigned (.obj request.resourceScope))
        (asSigned (field call.token "resource_scope")) :=
      sameJson_member hsame "resource_scope" rfl rfl
    have hjson : IsJson (field call.token "resource_scope") :=
      @InvokeCall.IsData.member call hdata "resource_scope" _ rfl
    exact hscope.trans
      (asSigned_congr (env.sameJson_of_scopeMatches hjson hdata.constraints hbinding.scope))
  · rw [hrequester "type" (ownName (by decide)), hbinding.type]
    rfl
  · rw [hrequester "id" (ownName (by decide)), hbinding.id]
    rfl
  · rw [hrequester "tenant_id" (ownName (by decide))]
    exact hbinding.tenant
  · have hget : OrderedMap.getEntries "constraints" (tokenSigningPayload call.token) =
        some (field call.token "constraints") := rfl
    have hexpiry := hchecked.expiry
    unfold MicroAgentEnv.tokenExpiry at hexpiry
    rw [asString_property (hdata.member hget) (ownName (by decide)), ← textAt_member hget,
      ← htext] at hexpiry
    exact ⟨expiresAt, hexpiry, hchecked.live⟩

end Confinement

/-! ## Runs -/

theorem attempt_checked (env : MicroAgentEnv) (calls : List InvokeCall) :
    ∀ attempt ∈ (Transition.run env.invoke .start calls).history,
      attempt.call ∈ calls ∧ ∃ seen, attempt.outcome = (env.assertAuthorized attempt.call seen).1 := by
  have hmeet : Transition.StepsMeet env.invoke (fun _ call => call ∈ calls) .start calls := by
    rw [Transition.stepsMeet_iff_forall]
    intro ks call hprefix
    exact hprefix.subset (List.mem_append_right ks (List.mem_singleton_self call))
  refine Transition.run_invariant (I := fun s => ∀ attempt ∈ s.history,
    attempt.call ∈ calls ∧ ∃ seen, attempt.outcome = (env.assertAuthorized attempt.call seen).1)
    ?_ (fun attempt h => absurd h List.not_mem_nil) hmeet
  intro s call hs hcall attempt hattempt
  unfold MicroAgentEnv.invoke at hattempt
  rcases List.mem_append.mp hattempt with hold | hlast
  · exact hs attempt hold
  · obtain rfl := List.mem_singleton.mp hlast
    exact ⟨hcall, s.seen, rfl⟩

/-- **A delegation confines its holder**: in every run of calls at micro-agents, a call that is
authorised with the signature of the delegation acts for the delegated subject and requester, does a
delegated action within the delegated scope, and comes before the delegation expires, whatever the
other fields of its token were changed to. -/
theorem delegation_confines (env : MicroAgentEnv) {service : DelegationService}
    {request : DelegationRequest} {token : Record} (hissued : service.issue request = .ok token)
    (hrequest : request.IsData) (calls : List InvokeCall) (hdata : ∀ call ∈ calls, call.IsData) :
    ∀ attempt ∈ (Transition.run env.invoke .start calls).history, attempt.outcome = .ok () →
      field attempt.call.token "signature" = field token "signature" →
        Confined env request attempt.call := by
  intro attempt hattempt hok hsignature
  obtain ⟨hcall, seen, houtcome⟩ := attempt_checked env calls attempt hattempt
  rw [houtcome] at hok
  exact confined_of_authorized hissued hrequest (hdata _ hcall) hsignature hok

open MicroAgentEnv

def payService : DelegationService := ⟨"shop", SigningConfig.openConfig [payKey]⟩

def payRequest : DelegationRequest where
  subjectAgent := "pay-agent"
  allowedActions := ["pay"]
  resourceScope := [("common", .obj [])]
  requesterIdentity := [("type", .str "user"), ("id", .str "u1")]
  scopedConstraints := none
  approvalReference := none
  expiresAt := "1970-01-01T00:00:02.000Z"

/-- The delegation of payments, used for a payment and then for a refund. -/
theorem delegation_confines_pay : ∃ token signature, payService.issue payRequest = .ok token ∧
    field token "signature" = .str signature ∧
    ∀ attempt ∈ (Transition.run payEnv.invoke .start
        [payCall signature "pay", payCall signature "refund"]).history, attempt.outcome = .ok () →
      field attempt.call.token "signature" = field token "signature" →
        Confined payEnv payRequest attempt.call := by
  have hissued : ∃ signature, payService.issue payRequest =
      .ok ((payService.tokenWithoutSignature payRequest).set "signature" (.str signature)) :=
    ⟨_, rfl⟩
  obtain ⟨signature, hissued⟩ := hissued
  refine ⟨_, signature, hissued, by rw [field_set, if_pos rfl], ?_⟩
  have hrequest : payRequest.IsData :=
    ⟨⟨by decide, ⟨by decide, trivial⟩, trivial⟩, ⟨by decide, trivial, trivial, trivial⟩,
      ⟨by decide, trivial⟩⟩
  -- the token that the calls carry has the fields of the one that is issued
  have htoken : ∀ e ∈ tokenSigningPayload payToken, IsJson e.2 := hrequest.payload payService
  have hcalls : ∀ capability, (payCall signature capability).IsData := by
    intro capability
    refine ⟨?_, List.nodup_singleton _, ⟨List.nodup_nil, trivial⟩, trivial⟩
    have hpayload : tokenSigningPayload (payCall signature capability).token =
        tokenSigningPayload payToken := tokenSigningPayload_signature payToken (.str signature)
    rw [hpayload]
    exact htoken
  refine delegation_confines payEnv hissued hrequest _ fun call hcall => ?_
  rcases List.mem_cons.mp hcall with rfl | hlast
  · exact hcalls "pay"
  · obtain rfl := List.mem_singleton.mp hlast
    exact hcalls "refund"

end MapProtocol
