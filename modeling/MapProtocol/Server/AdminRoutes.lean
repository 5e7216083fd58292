import MapProtocol.Server.Auth

/-!
# The admin routes

An administrator disables and enables agents and capabilities, and revokes and unrevokes signing
keys. A route is chosen by how the URL begins and ends, in a fixed order; what it is about is then
sliced out of the normalised path and decoded. The `GET` routes change nothing and are left out.
-/

namespace MapProtocol

open Js

/-! ## The runtime controls -/

/-- Since when and by whom a control is in force, and why. -/
structure ControlInfo where
  since  : String
  actor  : String
  reason : Option String
  deriving DecidableEq, Repr

structure RuntimeControls where
  disabledAgents       : OrderedMap String ControlInfo
  disabledCapabilities : OrderedMap String (OrderedMap String ControlInfo)
  revokedSigningKeys   : OrderedMap String ControlInfo

namespace RuntimeControls

variable (controls : RuntimeControls)

def isAgentDisabled (agentId : String) : Bool := (controls.disabledAgents.get agentId).isSome

def isCapabilityDisabled (agentId capability : String) : Bool :=
  match controls.disabledCapabilities.get agentId with
  | some capabilities => (capabilities.get capability).isSome
  | none              => false

/-- The capabilities of the agent, enabled again. A map that empties is dropped. -/
def enableCapability (agentId capability : String) : RuntimeControls :=
  match controls.disabledCapabilities.get agentId with
  | none              => controls
  | some capabilities =>
      let kept := capabilities.delete capability
      let disabled := controls.disabledCapabilities.set agentId kept
      { controls with
        disabledCapabilities := if kept.entries.isEmpty then disabled.delete agentId else disabled }

end RuntimeControls

def noControls : RuntimeControls := ⟨.empty, .empty, .empty⟩

inductive Control where
  | disableAgent (agentId : String)
  | enableAgent (agentId : String)
  | disableCapability (agentId capability : String)
  | enableCapability (agentId capability : String)
  | revokeKey (keyId : String)
  | unrevokeKey (keyId : String)
  deriving DecidableEq, Repr

namespace Control

def apply (control : Control) (info : ControlInfo) (controls : RuntimeControls) : RuntimeControls :=
  match control with
  | .disableAgent agentId =>
      { controls with disabledAgents := controls.disabledAgents.set agentId info }
  | .enableAgent agentId =>
      { controls with disabledAgents := controls.disabledAgents.delete agentId }
  | .disableCapability agentId capability =>
      let capabilityMap := (controls.disabledCapabilities.get agentId).getD .empty
      { controls with
        disabledCapabilities :=
          controls.disabledCapabilities.set agentId (capabilityMap.set capability info) }
  | .enableCapability agentId capability => controls.enableCapability agentId capability
  | .revokeKey keyId =>
      { controls with revokedSigningKeys := controls.revokedSigningKeys.set keyId info }
  | .unrevokeKey keyId =>
      { controls with revokedSigningKeys := controls.revokedSigningKeys.delete keyId }

end Control

/-! ## The routes -/

inductive ControlRoute where
  | disableAgent
  | enableAgent
  | disableCapability
  | enableCapability
  | revokeKey
  | unrevokeKey
  deriving DecidableEq, Repr

/-- The first route whose tests the URL of a `POST` passes. -/
def controlRoute (url : String) : Option ControlRoute :=
  if startsWith url "/admin/agents/" && endsWith url "/disable" then some .disableAgent
  else if startsWith url "/admin/agents/" && endsWith url "/enable" then some .enableAgent
  else if startsWith url "/admin/agents/" && includes url "/capabilities/" &&
      endsWith url "/disable" then some .disableCapability
  else if startsWith url "/admin/agents/" && includes url "/capabilities/" &&
      endsWith url "/enable" then some .enableCapability
  else if startsWith url "/admin/keys/" && endsWith url "/revoke" then some .revokeKey
  else if startsWith url "/admin/keys/" && endsWith url "/unrevoke" then some .unrevokeKey
  else none

/-- A text before the first `pattern`, and the text after it, where it occurs. -/
def breakOn (pattern : List Char) : List Char → List Char × Option (List Char)
  | []      => ([], if pattern.isEmpty then some [] else none)
  | c :: cs =>
      if pattern.isPrefixOf (c :: cs) then ([], some ((c :: cs).drop pattern.length))
      else ((c :: (breakOn pattern cs).1), (breakOn pattern cs).2)

/-- The first two pieces of `segment.split("/capabilities/")`; a missing one is empty. -/
def capabilityPieces (segment : String) : String × String :=
  match breakOn "/capabilities/".toList segment.toList with
  | (agentId, none)      => (String.ofList agentId, "")
  | (agentId, some rest) =>
      (String.ofList agentId, String.ofList (breakOn "/capabilities/".toList rest).1)

def decodeOrThrow (s : String) : Except String String :=
  match decodeURIComponent s with
  | some decoded => .ok decoded
  | none         => .error "URI malformed"

/-- `pathname.slice(opening.length, -closing.length)`. -/
def between (path opening closing : String) : String :=
  sliceInner path opening.toList.length closing.toList.length

/-- What a route is about, from the normalised path. -/
def ControlRoute.control (route : ControlRoute) (path : String) : Except String Control :=
  match route with
  | .disableAgent =>
      (decodeOrThrow (between path "/admin/agents/" "/disable")).map .disableAgent
  | .enableAgent => (decodeOrThrow (between path "/admin/agents/" "/enable")).map .enableAgent
  | .disableCapability => do
      let (encodedAgentId, encodedCapability) :=
        capabilityPieces (between path "/admin/agents/" "/disable")
      let agentId ← decodeOrThrow encodedAgentId
      let capability ← decodeOrThrow encodedCapability
      return .disableCapability agentId capability
  | .enableCapability => do
      let (encodedAgentId, encodedCapability) :=
        capabilityPieces (between path "/admin/agents/" "/enable")
      let agentId ← decodeOrThrow encodedAgentId
      let capability ← decodeOrThrow encodedCapability
      return .enableCapability agentId capability
  | .revokeKey => (decodeOrThrow (between path "/admin/keys/" "/revoke")).map .revokeKey
  | .unrevokeKey => (decodeOrThrow (between path "/admin/keys/" "/unrevoke")).map .unrevokeKey

/-- A request, and `Date.now()` while it is handled. -/
structure HttpCall where
  request : IncomingMessage
  now     : Nat

/-- The actor and the reason that the body of a control names. -/
def controlInfo (parsed : JsValue) (now : Nat) : ControlInfo where
  since  := toISOString now
  actor  := ((nonBlankText (parsed.property "actor")).map trim).getD "admin"
  reason := (nonBlankText (parsed.property "reason")).map trim

inductive AdminReply where
  | refused (error : ServerEnv.AdminError)
  | control (control : Control) (info : ControlInfo) (route : String)

namespace ServerEnv

variable (env : ServerEnv)

/-- The key ids that are revoked: those of the environment where it lists any, else those revoked
at run time. -/
def getEffectiveRevokedKeyIds (controls : RuntimeControls) : List String :=
  match env.signing.revokedKids.filter fun raw => !isBlank raw with
  | some raw => listedKids (some raw)
  | none     => controls.revokedSigningKeys.entries.map Prod.fst

/-- The body of the request and the error of its administrator, and its path where there is none. -/
def requireAdmin (nonces : NonceCache) (controls : RuntimeControls) (call : HttpCall) :
    Except String (Except AdminError (JsValue × String)) := do
  let body ← readJsonBody call.request
  let adminError ← (env.getAdminTokenError nonces call.now call.request body.raw
    (env.getEffectiveRevokedKeyIds controls)).1
  match adminError with
  | some error => return .error error
  | none       => do
      let path ← env.normalizePath (call.request.url.getD "/")
      return .ok (body.parsed, path)

/-- A control route, once it is chosen. -/
def runControl (nonces : NonceCache) (controls : RuntimeControls) (call : HttpCall)
    (route : ControlRoute) : Except String (AdminReply × RuntimeControls) := do
  match ← env.requireAdmin nonces controls call with
  | .error error        => return (.refused error, controls)
  | .ok (parsed, path)  => do
      let control ← route.control path
      let info := controlInfo parsed call.now
      return (.control control info path, control.apply info controls)

/-- The `POST` routes of `handleAdminRoutes`: `none` where the request is for none of them. -/
def handleAdminRoutes (nonces : NonceCache) (controls : RuntimeControls) (call : HttpCall) :
    Option (Except String (AdminReply × RuntimeControls)) :=
  match call.request.method, call.request.url with
  | some "POST", some url => (controlRoute url).map (env.runControl nonces controls call)
  | _, _                  => none

end ServerEnv

end MapProtocol
