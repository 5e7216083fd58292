import MapProtocol.Js.Json
import MapProtocol.Js.Uri
import MapProtocol.Lib.Checks

/-!
# Requests

What arrives over HTTP. A body is read whole, up to a limit, parsed as JSON and freed of the keys
through which a prototype could be reached.
-/

namespace MapProtocol

open Js

/-- A request: its body is the bytes that arrived, or the error of reading them. -/
structure IncomingMessage where
  method  : Option String
  url     : Option String
  headers : String → Option String
  body    : Except String (List UInt8)

structure JsonBody where
  raw    : String
  parsed : JsValue

def DEFAULT_MAX_BODY_SIZE : Nat := 1048576

def forbiddenKeys : List String := ["__proto__", "constructor", "prototype"]

mutual

def sanitizeKeys : JsValue → JsValue
  | .arr xs => .arr (sanitizeElements xs)
  | .obj es => .obj (sanitizeMembers es)
  | v       => v

def sanitizeElements : List JsValue → List JsValue
  | []      => []
  | v :: vs => sanitizeKeys v :: sanitizeElements vs

def sanitizeMembers : List (String × JsValue) → List (String × JsValue)
  | []           => []
  | (k, v) :: es =>
      if k ∈ forbiddenKeys then sanitizeMembers es else (k, sanitizeKeys v) :: sanitizeMembers es

end

def readJsonBody (req : IncomingMessage) : Except String JsonBody := do
  let bytes ← req.body
  throwIf (DEFAULT_MAX_BODY_SIZE < bytes.length)
    ("Request body exceeds maximum size of " ++ toString DEFAULT_MAX_BODY_SIZE ++ " bytes.")
  if bytes.isEmpty then return ⟨"", .obj []⟩
  else
    let raw := fromUtf8 bytes
    match parse raw with
    | some parsed => return ⟨raw, sanitizeKeys parsed⟩
    | none        => throw "Invalid JSON in request body."

end MapProtocol
