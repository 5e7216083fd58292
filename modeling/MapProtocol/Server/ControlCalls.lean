import MapProtocol.Server.AdminRoutes

/-!
# Control requests

The requests that the admin routes are documented for: `POST /admin/agents/:a/disable` and its
siblings, with any percent-encoded names. `asked` is the control that such a request asks for; what
the server does is followed through the choice of the route, the normalised path and the slices.
-/

namespace MapProtocol

open Js

/-- One segment of a path: a name, percent-encoded wherever a path needs it. -/
structure Segment where
  chars : List Char
  plain : ∀ c ∈ chars, isSegmentChar c = true

namespace Segment

def name (segment : Segment) : Option String := decodeURIComponent (String.ofList segment.chars)

/-- `.` and `..`, which are resolved before a route sees them. -/
def IsDot (segment : Segment) : Prop :=
  isSingleDot segment.chars = true ∨ isDoubleDot segment.chars = true

theorem plainSegment {segment : Segment} (h : ¬ segment.IsDot) : PlainSegment segment.chars where
  chars := segment.plain
  singleDot := Bool.eq_false_iff.mpr fun hdot => h (.inl hdot)
  doubleDot := Bool.eq_false_iff.mpr fun hdot => h (.inr hdot)

end Segment

inductive ControlPath where
  | disableAgent (agent : Segment)
  | enableAgent (agent : Segment)
  | disableCapability (agent capability : Segment)
  | enableCapability (agent capability : Segment)
  | revokeKey (key : Segment)
  | unrevokeKey (key : Segment)

namespace ControlPath

def segments : ControlPath → List (List Char)
  | .disableAgent agent => ["admin".toList, "agents".toList, agent.chars, "disable".toList]
  | .enableAgent agent  => ["admin".toList, "agents".toList, agent.chars, "enable".toList]
  | .disableCapability agent capability =>
      ["admin".toList, "agents".toList, agent.chars, "capabilities".toList, capability.chars,
        "disable".toList]
  | .enableCapability agent capability =>
      ["admin".toList, "agents".toList, agent.chars, "capabilities".toList, capability.chars,
        "enable".toList]
  | .revokeKey key   => ["admin".toList, "keys".toList, key.chars, "revoke".toList]
  | .unrevokeKey key => ["admin".toList, "keys".toList, key.chars, "unrevoke".toList]

def url (path : ControlPath) : String := String.ofList (pathText path.segments)

def names : ControlPath → List Segment
  | .disableAgent agent                 => [agent]
  | .enableAgent agent                  => [agent]
  | .disableCapability agent capability => [agent, capability]
  | .enableCapability agent capability  => [agent, capability]
  | .revokeKey key                      => [key]
  | .unrevokeKey key                    => [key]

/-- The control that a path asks for, where its names are well encoded. -/
def asked : ControlPath → Option Control
  | .disableAgent agent => agent.name.map .disableAgent
  | .enableAgent agent  => agent.name.map .enableAgent
  | .disableCapability agent capability => do
      let agentId ← agent.name
      let capabilityName ← capability.name
      return .disableCapability agentId capabilityName
  | .enableCapability agent capability => do
      let agentId ← agent.name
      let capabilityName ← capability.name
      return .enableCapability agentId capabilityName
  | .revokeKey key   => key.name.map .revokeKey
  | .unrevokeKey key => key.name.map .unrevokeKey

def Plain (path : ControlPath) : Prop := ∀ segment ∈ path.names, ¬ segment.IsDot

end ControlPath

structure ControlCall where
  path    : ControlPath
  headers : String → Option String
  body    : Except String (List UInt8)
  now     : Nat

def ControlCall.toCall (call : ControlCall) : HttpCall :=
  ⟨⟨some "POST", some call.path.url, call.headers, call.body⟩, call.now⟩

/-! ## The path -/

theorem plainSegment_word {word : List Char} (h : word.all isSegmentChar = true)
    (hdot : isSingleDot word = false ∧ isDoubleDot word = false) : PlainSegment word :=
  ⟨List.all_eq_true.mp h, hdot.1, hdot.2⟩

theorem ControlPath.plainSegments {path : ControlPath} (h : path.Plain) :
    ∀ s ∈ path.segments, PlainSegment s := by
  have hword (w : List Char) (hw : w ∈ ["admin".toList, "agents".toList, "disable".toList,
      "enable".toList, "capabilities".toList, "keys".toList, "revoke".toList, "unrevoke".toList]) :
      PlainSegment w := by
    simp only [List.mem_cons, List.not_mem_nil, or_false] at hw
    rcases hw with rfl | rfl | rfl | rfl | rfl | rfl | rfl | rfl <;>
      exact plainSegment_word (by decide) (by decide)
  have hname (segment : Segment) (hmem : segment ∈ path.names) : PlainSegment segment.chars :=
    Segment.plainSegment (h segment hmem)
  intro s hs
  cases path with
  | disableAgent agent | enableAgent agent | revokeKey agent | unrevokeKey agent =>
      simp only [segments, List.mem_cons, List.not_mem_nil, or_false] at hs
      rcases hs with rfl | rfl | rfl | rfl
      · exact hword _ (by decide)
      · exact hword _ (by decide)
      · exact hname agent (by simp [names])
      · exact hword _ (by decide)
  | disableCapability agent capability | enableCapability agent capability =>
      simp only [segments, List.mem_cons, List.not_mem_nil, or_false] at hs
      rcases hs with rfl | rfl | rfl | rfl | rfl | rfl
      · exact hword _ (by decide)
      · exact hword _ (by decide)
      · exact hname agent (by simp [names])
      · exact hword _ (by decide)
      · exact hname capability (by simp [names])
      · exact hword _ (by decide)

theorem ControlPath.pathname_url {path : ControlPath} (h : path.Plain)
    (foreign : String → Option String) : pathname foreign path.url = some path.url := by
  have hfirst : ∃ c cs rest, path.segments = (c :: cs) :: rest := by
    cases path <;> exact ⟨_, _, _, rfl⟩
  have hpath := pathname_plain foreign (ControlPath.plainSegments h) hfirst (.inl rfl) (by simp)
  rwa [List.append_nil] at hpath

/-! ## The route and the slices -/

theorem startsWith_append (opening : String) (rest : List Char) :
    startsWith (String.ofList (opening.toList ++ rest)) opening = true := by
  unfold startsWith
  rw [String.toList_ofList]
  exact List.isPrefixOf_iff_prefix.mpr (List.prefix_append _ _)

theorem endsWith_append (cs : List Char) {closing pattern : String}
    (h : endsWith pattern closing = true → endsWith closing pattern = true) :
    endsWith (String.ofList (cs ++ closing.toList)) pattern = endsWith closing pattern := by
  unfold endsWith at *
  rw [String.toList_ofList, Bool.eq_iff_iff]
  simp only [List.isSuffixOf_iff_suffix] at *
  constructor
  · intro hs
    rcases List.suffix_or_suffix_of_suffix hs (List.suffix_append cs closing.toList) with hs | hs
    · exact hs
    · exact h hs
  · exact fun hs => hs.trans (List.suffix_append _ _)

theorem between_append (opening closing : String) (cs : List Char) :
    between (String.ofList (opening.toList ++ (cs ++ closing.toList))) opening closing =
      String.ofList cs := by
  have hlength : (opening.toList ++ cs ++ closing.toList).length - closing.toList.length =
      (opening.toList ++ cs).length := by
    simp only [List.length_append]
    omega
  unfold between sliceInner
  rw [String.toList_ofList, ← List.append_assoc, hlength, List.take_left, List.drop_left]

namespace ControlPath

/-- What a path is about, between its opening and its closing. -/
def middle : ControlPath → List Char
  | .disableAgent agent | .enableAgent agent => agent.chars
  | .disableCapability agent capability | .enableCapability agent capability =>
      agent.chars ++ ("/capabilities/".toList ++ capability.chars)
  | .revokeKey key | .unrevokeKey key => key.chars

def opening : ControlPath → String
  | .revokeKey _ | .unrevokeKey _ => "/admin/keys/"
  | _                             => "/admin/agents/"

def closing : ControlPath → String
  | .disableAgent _ | .disableCapability _ _ => "/disable"
  | .enableAgent _ | .enableCapability _ _   => "/enable"
  | .revokeKey _                             => "/revoke"
  | .unrevokeKey _                           => "/unrevoke"

/-- The route that takes a path: that of the agent where a capability is meant. -/
def route : ControlPath → ControlRoute
  | .disableAgent _ | .disableCapability _ _ => .disableAgent
  | .enableAgent _ | .enableCapability _ _   => .enableAgent
  | .revokeKey _                             => .revokeKey
  | .unrevokeKey _                           => .unrevokeKey

theorem url_eq (path : ControlPath) :
    path.url = String.ofList (path.opening.toList ++ (path.middle ++ path.closing.toList)) := by
  cases path <;> simp [url, segments, pathText, opening, middle, closing]

theorem startsWith_url (path : ControlPath) : startsWith path.url path.opening = true := by
  rw [url_eq]
  exact startsWith_append _ _

theorem endsWith_url {path : ControlPath} {closing : String} (hclosing : path.closing = closing)
    {pattern : String} (h : endsWith pattern closing = true → endsWith closing pattern = true) :
    endsWith path.url pattern = endsWith closing pattern := by
  rw [url_eq, ← List.append_assoc, hclosing]
  exact endsWith_append _ h

theorem not_agents_url {path : ControlPath} (h : path.opening = "/admin/keys/") :
    startsWith path.url "/admin/agents/" = false := by
  rw [url_eq, h]
  unfold startsWith
  simp only [String.toList_ofList]
  rfl

/-- **Which route takes a control request.** -/
theorem controlRoute_url (path : ControlPath) : controlRoute path.url = some path.route := by
  have hstarts := path.startsWith_url
  unfold controlRoute
  cases path with
  | disableAgent agent =>
      have hdisable := @endsWith_url (.disableAgent agent) "/disable" rfl "/disable" (by decide)
      simp only [opening] at hstarts
      rw [hstarts, hdisable]
      rfl
  | disableCapability agent capability =>
      have hdisable :=
        @endsWith_url (.disableCapability agent capability) "/disable" rfl "/disable" (by decide)
      simp only [opening] at hstarts
      rw [hstarts, hdisable]
      rfl
  | enableAgent agent =>
      have hdisable := @endsWith_url (.enableAgent agent) "/enable" rfl "/disable" (by decide)
      have henable := @endsWith_url (.enableAgent agent) "/enable" rfl "/enable" (by decide)
      simp only [opening] at hstarts
      rw [hstarts, hdisable, henable]
      rfl
  | enableCapability agent capability =>
      have hdisable :=
        @endsWith_url (.enableCapability agent capability) "/enable" rfl "/disable" (by decide)
      have henable :=
        @endsWith_url (.enableCapability agent capability) "/enable" rfl "/enable" (by decide)
      simp only [opening] at hstarts
      rw [hstarts, hdisable, henable]
      rfl
  | revokeKey key =>
      have hrevoke := @endsWith_url (.revokeKey key) "/revoke" rfl "/revoke" (by decide)
      simp only [opening] at hstarts
      rw [not_agents_url rfl, hstarts, hrevoke]
      rfl
  | unrevokeKey key =>
      have hrevoke := @endsWith_url (.unrevokeKey key) "/unrevoke" rfl "/revoke" (by decide)
      have hunrevoke := @endsWith_url (.unrevokeKey key) "/unrevoke" rfl "/unrevoke" (by decide)
      simp only [opening] at hstarts
      rw [not_agents_url rfl, hstarts, hrevoke, hunrevoke]
      rfl

/-- The control that the route of a path carries out. -/
def done : ControlPath → Option Control
  | .disableAgent agent => agent.name.map .disableAgent
  | .enableAgent agent  => agent.name.map .enableAgent
  | .disableCapability agent capability =>
      (decodeURIComponent (String.ofList
        (agent.chars ++ ("/capabilities/".toList ++ capability.chars)))).map .disableAgent
  | .enableCapability agent capability =>
      (decodeURIComponent (String.ofList
        (agent.chars ++ ("/capabilities/".toList ++ capability.chars)))).map .enableAgent
  | .revokeKey key   => key.name.map .revokeKey
  | .unrevokeKey key => key.name.map .unrevokeKey

theorem route_cases (path : ControlPath) :
    (path.route = .disableAgent ∨ path.route = .enableAgent) ∨
      ∃ key, path = .revokeKey key ∨ path = .unrevokeKey key := by
  cases path with
  | disableAgent agent | disableCapability agent capability => exact .inl (.inl rfl)
  | enableAgent agent | enableCapability agent capability => exact .inl (.inr rfl)
  | revokeKey key => exact .inr ⟨key, .inl rfl⟩
  | unrevokeKey key => exact .inr ⟨key, .inr rfl⟩

theorem decodeOrThrow_map {s : String} {f : String → Control} {control : Control} :
    (decodeOrThrow s).map f = .ok control ↔ (decodeURIComponent s).map f = some control := by
  unfold decodeOrThrow
  cases decodeURIComponent s <;> simp [Except.map]

theorem control_url {path : ControlPath} {control : Control} :
    path.route.control path.url = .ok control ↔ path.done = some control := by
  rw [url_eq]
  cases path <;> simp only [route, ControlRoute.control, opening, closing, middle, between_append] <;>
    exact decodeOrThrow_map

end ControlPath

theorem ControlRoute.control_agent {route : ControlRoute}
    (hroute : route = .disableAgent ∨ route = .enableAgent) {path : String} {control : Control}
    (h : route.control path = .ok control) :
    ∃ agentId, control = .disableAgent agentId ∨ control = .enableAgent agentId := by
  rcases hroute with rfl | rfl
  · obtain ⟨agentId, _, rfl⟩ := map_eq_ok.mp h
    exact ⟨agentId, .inl rfl⟩
  · obtain ⟨agentId, _, rfl⟩ := map_eq_ok.mp h
    exact ⟨agentId, .inr rfl⟩

/-! ## What a control request does -/

namespace ServerEnv

variable {env : ServerEnv} {nonces : NonceCache} {controls : RuntimeControls}

/-- The administrator that a request comes from is accepted. -/
def Admitted (env : ServerEnv) (nonces : NonceCache) (controls : RuntimeControls)
    (call : HttpCall) : Prop :=
  ∃ body, readJsonBody call.request = .ok body ∧
    (env.getAdminTokenError nonces call.now call.request body.raw
      (env.getEffectiveRevokedKeyIds controls)).1 = .ok none

theorem handleAdminRoutes_control (call : ControlCall) :
    env.handleAdminRoutes nonces controls call.toCall =
      some (env.runControl nonces controls call.toCall call.path.route) := by
  show (controlRoute call.path.url).map (env.runControl nonces controls call.toCall) = _
  rw [ControlPath.controlRoute_url]
  rfl

theorem requireAdmin_ok {call : HttpCall} {parsed : JsValue} {path : String} :
    env.requireAdmin nonces controls call = .ok (.ok (parsed, path)) ↔
      ∃ body, readJsonBody call.request = .ok body ∧ body.parsed = parsed ∧
        (env.getAdminTokenError nonces call.now call.request body.raw
          (env.getEffectiveRevokedKeyIds controls)).1 = .ok none ∧
        env.normalizePath (call.request.url.getD "/") = .ok path := by
  unfold requireAdmin
  simp only [bind_eq_ok]
  constructor
  · rintro ⟨body, hbody, adminError, hadmin, h⟩
    cases adminError with
    | some error =>
        dsimp only at h
        cases h
    | none =>
        simp only [bind_eq_ok, pure_eq_ok] at h
        obtain ⟨path', hpath, h⟩ := h
        cases h
        exact ⟨body, hbody, rfl, hadmin, hpath⟩
  · rintro ⟨body, hbody, rfl, hadmin, hpath⟩
    refine ⟨body, hbody, none, hadmin, ?_⟩
    simp only [bind_eq_ok, pure_eq_ok]
    exact ⟨path, hpath, rfl⟩

/-- A control route either refuses and changes nothing, or carries its control out. -/
theorem runControl_cases {call : HttpCall} {route : ControlRoute} {reply : AdminReply}
    {after : RuntimeControls} (h : env.runControl nonces controls call route = .ok (reply, after)) :
    (∃ error, reply = .refused error ∧ after = controls) ∨
      ∃ control info path, reply = .control control info path ∧
        env.Admitted nonces controls call ∧
          env.normalizePath (call.request.url.getD "/") = .ok path ∧
            route.control path = .ok control ∧ after = control.apply info controls := by
  unfold runControl at h
  simp only [bind_eq_ok] at h
  obtain ⟨admin, hadmin, h⟩ := h
  cases admin with
  | error error =>
      cases h
      exact .inl ⟨error, rfl, rfl⟩
  | ok found =>
      obtain ⟨parsed, path⟩ := found
      obtain ⟨body, hbody, -, hadmitted, hpath⟩ := requireAdmin_ok.mp hadmin
      simp only [bind_eq_ok, pure_eq_ok] at h
      obtain ⟨control, hcontrol, h⟩ := h
      cases h
      exact .inr ⟨control, _, path, rfl, ⟨body, hbody, hadmitted⟩, hpath, hcontrol, rfl⟩

/-- An admitted control request is carried out. -/
theorem runControl_admitted {call : HttpCall} {route : ControlRoute} {path : String}
    {control : Control} (hadmitted : env.Admitted nonces controls call)
    (hpath : env.normalizePath (call.request.url.getD "/") = .ok path)
    (hcontrol : route.control path = .ok control) :
    ∃ info, env.runControl nonces controls call route =
      .ok (.control control info path, control.apply info controls) := by
  obtain ⟨body, hbody, hadmin⟩ := hadmitted
  refine ⟨controlInfo body.parsed call.now, ?_⟩
  unfold runControl
  simp only [bind_eq_ok]
  refine ⟨_, requireAdmin_ok.mpr ⟨body, hbody, rfl, hadmin, hpath⟩, ?_⟩
  simp only [bind_eq_ok, pure_eq_ok]
  exact ⟨control, hcontrol, rfl⟩

theorem normalizePath_plain {path : ControlPath} (h : path.Plain) :
    env.normalizePath path.url = .ok path.url := by
  unfold normalizePath
  rw [ControlPath.pathname_url h]

end ServerEnv

end MapProtocol
