import MapProtocol.Core.Types
import MapProtocol.Js.Letters
import MapProtocol.Js.UrlHosts

/-!
# The HTTP adapter

`HttpAdapter` takes requests to `https:` URLs whose host is none of five names and whose text begins with
none of a list of prefixes. The platform's URL parser is a parameter; of what it gives, the adapter reads
the host. `execute` is modelled up to the request it hands to `fetch`.
-/

namespace MapProtocol

open Js

structure HttpPlatform where
  upper    : UpperCase
  lower    : LowerCase
  parseUrl : String → Option Host

structure HttpAdapterOptions where
  requireHttps         : Option Bool          := none
  blockedPrefixes      : Option (List String) := none
  maxResponseBodyBytes : Option Nat           := none

structure HttpAdapter where
  requireHttps         : Bool
  blockedPrefixes      : List String
  maxResponseBodyBytes : Nat

/-- What `fetch` is called with. -/
structure HttpRequest where
  url       : String
  method    : String
  headers   : JsObject
  body      : Option String
  timeoutMs : Rat

namespace HttpAdapter

def allowedMethods : List String := ["GET", "POST", "PUT", "PATCH", "DELETE", "HEAD"]

def defaultTimeoutMs : Rat := 10000

def maxTimeoutMs : Rat := 60000

def defaultPrefixes : List String :=
  ["http://localhost", "http://127.", "http://10.", "http://0.", "http://172.16.", "http://172.17.",
    "http://172.18.", "http://172.19.", "http://172.20.", "http://172.21.", "http://172.22.",
    "http://172.23.", "http://172.24.", "http://172.25.", "http://172.26.", "http://172.27.",
    "http://172.28.", "http://172.29.", "http://172.30.", "http://172.31.", "http://192.168.",
    "http://169.254.", "http://[::", "https://localhost", "https://127.", "https://[::", "https://0."]

def new (options : HttpAdapterOptions) : HttpAdapter where
  requireHttps         := options.requireHttps.getD true
  blockedPrefixes      := options.blockedPrefixes.getD defaultPrefixes
  maxResponseBodyBytes := options.maxResponseBodyBytes.getD (1024 * 1024)

/-! ## Validation -/

def blockedHosts : List String := ["localhost", "0.0.0.0", "[::1]", "[::]", "127.0.0.1"]

def hostErrors (platform : HttpPlatform) (adapter : HttpAdapter) (url : String) :
    List ValidationError :=
  match platform.parseUrl url with
  | none      => [⟨"url", "url is not a valid URL."⟩]
  | some host =>
      if blockedHosts.contains (platform.lower.apply host.hostname) then
        [⟨"url", "URL targets a blocked host."⟩]
      else
        match adapter.blockedPrefixes.find? fun opening =>
          startsWith (platform.lower.apply url) (platform.lower.apply opening) with
        | some opening =>
            -- `if (blocked)` does not see an empty prefix that was found
            if opening = "" then [] else [⟨"url", "URL is blocked (matches blocked prefix)."⟩]
        | none         => []

def urlErrors (platform : HttpPlatform) (adapter : HttpAdapter) (url : JsValue) :
    List ValidationError :=
  match url with
  | .str text =>
      if isBlank text then [⟨"url", "url is required and must be a non-empty string."⟩]
      else
        (if adapter.requireHttps && !startsWith (trim text) "https://" then
          [⟨"url", "Only https:// URLs are allowed."⟩] else []) ++
        -- the host is looked at even where the scheme is refused
        hostErrors platform adapter (trim text)
  | _         => [⟨"url", "url is required and must be a non-empty string."⟩]

def methodErrors (upper : UpperCase) (method : JsValue) : List ValidationError :=
  match method with
  | .undefined => []
  | .str text  =>
      if allowedMethods.contains (upper.apply text) then []
      else [⟨"method", "method must be one of: GET, POST, PUT, PATCH, DELETE, HEAD."⟩]
  | _          => [⟨"method", "method must be a string."⟩]

/-- The headers; `Object.entries(null)` throws. -/
def headersErrors (headers : JsValue) : Except String (List ValidationError) :=
  match headers with
  | .undefined => .ok []
  | .null      => .error "Cannot convert undefined or null to object"
  | .obj es    => .ok ((es.filter fun e => e.2.asString.isNone).map fun e =>
      ⟨"headers." ++ e.1, "Header values must be strings."⟩)
  | _          => .ok [⟨"headers", "headers must be a plain object."⟩]

def bodyErrors (body : JsValue) : List ValidationError :=
  match body with
  | .undefined => []
  | .str _     => []
  | _          => [⟨"body", "body must be a string."⟩]

def timeoutErrors (timeout : JsValue) : List ValidationError :=
  match timeout with
  | .undefined => []
  | .num n     =>
      if n ≤ 0 then [⟨"timeout_ms", "timeout_ms must be a positive number."⟩]
      else if maxTimeoutMs < n then [⟨"timeout_ms", "timeout_ms cannot exceed 60000ms."⟩]
      else []
  | _          => [⟨"timeout_ms", "timeout_ms must be a positive number."⟩]

def inputErrors (platform : HttpPlatform) (adapter : HttpAdapter) (inp : JsObject) :
    Except String (List ValidationError) := do
  let headers ← headersErrors (inp.get "headers")
  return urlErrors platform adapter (inp.get "url") ++ methodErrors platform.upper (inp.get "method") ++
    headers ++ bodyErrors (inp.get "body") ++ timeoutErrors (inp.get "timeout_ms")

/-- The errors of `validate`; an array is an object that has none of the members. -/
def errorsOf (platform : HttpPlatform) (adapter : HttpAdapter) (input : JsValue) :
    Except String (List ValidationError) :=
  match input with
  | .obj es => inputErrors platform adapter es
  | .arr _  => inputErrors platform adapter []
  | _       => .ok [⟨"input", "Input must be an object."⟩]

def validate (platform : HttpPlatform) (adapter : HttpAdapter) (input : JsValue) :
    Except String ValidationResult :=
  (errorsOf platform adapter input).map fun errors => ⟨errors.isEmpty, errors⟩

/-! ## Execution -/

def urlOf (input : JsObject) : String := trim ((input.get "url").asString.getD "")

/-- What `execute` hands to `fetch`, for an input that was accepted. -/
def requestOf (platform : HttpPlatform) (intentId : String) (input : JsObject) : HttpRequest :=
  let method := platform.upper.apply ((input.get "method").asString.getD "GET")
  { url       := urlOf input
    method    := method
    headers   := JsObject.spread
      [("user-agent", .str "MAP/1.0 (http-adapter)"), ("x-map-intent-id", .str intentId)]
      ((input.get "headers").asObject.getD [])
    body      := (input.get "body").asString.filter fun _ => method ≠ "GET" && method ≠ "HEAD"
    timeoutMs := min ((input.get "timeout_ms").asNumber.getD defaultTimeoutMs) maxTimeoutMs }

end HttpAdapter

end MapProtocol
