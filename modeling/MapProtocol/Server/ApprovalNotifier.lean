import MapProtocol.Js.JsonRoundTrip

/-!
# Redaction of approval requests

`redactSensitiveFields` goes through the objects of an input and puts a marker where a name is
sensitive. It does not go into arrays, so what an array holds is sent as it is; and what stands under
`__proto__` is lost, since the assignment sets the prototype of the copy
(`redaction_complete_iff`).
-/

namespace MapProtocol

open Js

def SENSITIVE_KEYS : List String :=
  ["password", "secret", "token", "key", "credential", "auth", "authorization", "api_key",
    "private_key", "card_number", "cvv", "ssn", "account_number"]

/-- `SENSITIVE_KEYS.has(k.toLowerCase())`. Of the characters beyond ASCII only the Kelvin sign has the
lower case of a letter of these keys. -/
def isSensitive (k : String) : Bool :=
  toLowerCase (String.ofList (k.toList.map fun c => if c.toNat = 0x212A then 'k' else c)) ∈
    SENSITIVE_KEYS

def redactionMarker : JsValue := .str "[REDACTED]"

/-- `redacted[k] = v`. -/
def assignMember (redacted : JsObject) (k : String) (v : JsValue) : JsObject :=
  if k = "__proto__" then redacted else redacted.set k v

mutual

/-- What is assigned for a value under a name that is not sensitive. -/
def redactValue : JsValue → JsValue
  | .obj es => .obj (redactMembers [] es)
  | v       => v

/-- The loop over `Object.entries(input)`. -/
def redactMembers (redacted : JsObject) : List (String × JsValue) → JsObject
  | []           => redacted
  | (k, v) :: es =>
      redactMembers (assignMember redacted k (if isSensitive k then redactionMarker else redactValue v))
        es

end

/-- `Object.entries(input)`, for an object or an array. -/
def objectEntries : JsValue → Option (List (String × JsValue))
  | .obj es => some es
  | .arr xs => some (xs.zipIdx.map fun x => (toString x.2, x.1))
  | _       => none

def redactSensitiveFields (input : JsValue) : Option JsObject :=
  (objectEntries input).map (redactMembers [])

/-! ## What redaction is for -/

mutual

/-- Nothing but the marker stands under a sensitive name, at any depth. -/
def NoSecret : JsValue → Prop
  | .arr xs => NoSecrets xs
  | .obj es => NoSecretMembers es
  | _       => True

def NoSecrets : List JsValue → Prop
  | []      => True
  | v :: vs => NoSecret v ∧ NoSecrets vs

def NoSecretMembers : List (String × JsValue) → Prop
  | []           => True
  | (k, v) :: es => (if isSensitive k then v = redactionMarker else NoSecret v) ∧ NoSecretMembers es

end

mutual

/-- What is not below a sensitive name stands at its place. -/
def Keeps : JsValue → JsValue → Prop
  | .arr xs, w => ∃ ys, w = .arr ys ∧ KeepsAll xs ys
  | .obj es, w => ∃ fs, w = .obj fs ∧ KeepsMembers es fs
  | v, w       => w = v

def KeepsAll : List JsValue → List JsValue → Prop
  | [], ys      => ys = []
  | x :: xs, ys => ∃ y zs, ys = y :: zs ∧ Keeps x y ∧ KeepsAll xs zs

def KeepsMembers : List (String × JsValue) → List (String × JsValue) → Prop
  | [], fs           => fs = []
  | (k, v) :: es, fs => ∃ w gs, fs = (k, w) :: gs ∧ (isSensitive k = false → Keeps v w) ∧
      KeepsMembers es gs

end

def RedactsCompletely (input : JsValue) : Prop :=
  ∃ result, redactSensitiveFields input = some result ∧ NoSecret (.obj result) ∧
    Keeps input (.obj result)

mutual

/-- A value that redaction gets right: an array has no secret in it already. -/
def Redactable : JsValue → Prop
  | .obj es => RedactableMembers es
  | .arr xs => NoSecrets xs
  | _       => True

/-- Members that redaction gets right: none that is kept is called `__proto__`. -/
def RedactableMembers : List (String × JsValue) → Prop
  | []           => True
  | (k, v) :: es => (isSensitive k = true ∨ k ≠ "__proto__" ∧ Redactable v) ∧ RedactableMembers es

end

/-! ## What the loop leaves -/

/-- The member that the loop assigns. -/
def redactedMember (e : String × JsValue) : String × JsValue :=
  (e.1, if isSensitive e.1 then redactionMarker else redactValue e.2)

/-- The members that are assigned, in order. -/
def redactedMembers (es : List (String × JsValue)) : JsObject :=
  (es.filter fun e => e.1 ≠ "__proto__").map redactedMember

theorem redactMembers_append (redacted : JsObject) {es : List (String × JsValue)}
    (hnodup : ((redacted ++ es).map Prod.fst).Nodup) :
    redactMembers redacted es = redacted ++ redactedMembers es := by
  unfold redactedMembers
  induction es generalizing redacted with
  | nil => simp [redactMembers]
  | cons e es ih =>
      obtain ⟨k, v⟩ := e
      rw [redactMembers, assignMember]
      by_cases hproto : k = "__proto__"
      · rw [if_pos hproto, List.filter_cons_of_neg (by simpa using hproto), ih]
        refine (List.Sublist.map Prod.fst ?_).nodup hnodup
        exact (List.Sublist.refl redacted).append (List.sublist_cons_self _ _)
      · have hfresh : OrderedMap.getEntries k redacted = none := by
          rw [OrderedMap.getEntries_eq_none]
          intro hmem
          rw [List.map_append, List.nodup_append] at hnodup
          exact hnodup.2.2 k hmem k List.mem_cons_self rfl
        have hset : JsObject.set redacted k (if isSensitive k then redactionMarker else redactValue v) =
            redacted ++ [redactedMember (k, v)] := OrderedMap.setEntries_of_get_none hfresh
        rw [if_neg hproto, hset, ih, List.filter_cons_of_pos (by simpa using hproto), List.map_cons,
          List.append_assoc, List.singleton_append]
        simpa [redactedMember] using hnodup

theorem redactMembers_nil {es : List (String × JsValue)} (hnodup : (es.map Prod.fst).Nodup) :
    redactMembers [] es = redactedMembers es := by
  rw [redactMembers_append [] (by simpa using hnodup), List.nil_append]

theorem keys_redactedMembers (es : List (String × JsValue)) :
    (redactedMembers es).map Prod.fst = (es.filter fun e => e.1 ≠ "__proto__").map Prod.fst := by
  rw [redactedMembers, List.map_map]
  exact List.map_congr_left fun e _ => by rw [Function.comp_apply, redactedMember]

theorem proto_notMem_redactedMembers (es : List (String × JsValue)) :
    "__proto__" ∉ (redactedMembers es).map Prod.fst := by
  rw [keys_redactedMembers]
  intro hmem
  obtain ⟨e, he, hkey⟩ := List.mem_map.mp hmem
  simp [hkey] at he

mutual

theorem keeps_refl : ∀ v, Keeps v v
  | .undefined   => rfl
  | .null        => rfl
  | .bool _      => rfl
  | .num _       => rfl
  | .str _       => rfl
  | .inherited _ => rfl
  | .arr xs      => ⟨xs, rfl, keepsAll_refl xs⟩
  | .obj es      => ⟨es, rfl, keepsMembers_refl es⟩

theorem keepsAll_refl : ∀ xs, KeepsAll xs xs
  | []      => rfl
  | x :: xs => ⟨x, xs, rfl, keeps_refl x, keepsAll_refl xs⟩

theorem keepsMembers_refl : ∀ es, KeepsMembers es es
  | []           => rfl
  | (_, v) :: es => ⟨v, es, rfl, fun _ => keeps_refl v, keepsMembers_refl es⟩

end

theorem keepsMembers_cons {k : String} {v w : JsValue} {es fs : List (String × JsValue)} :
    KeepsMembers ((k, v) :: es) ((k, w) :: fs) ↔
      (isSensitive k = false → Keeps v w) ∧ KeepsMembers es fs := by
  constructor
  · rintro ⟨w', gs, heq, hv, hes⟩
    obtain ⟨hhead, rfl⟩ := List.cons.inj heq
    obtain ⟨_, rfl⟩ := Prod.mk.inj hhead
    exact ⟨hv, hes⟩
  · rintro ⟨hv, hes⟩
    exact ⟨w, fs, rfl, hv, hes⟩

theorem not_keepsMembers_proto {k : String} (hk : k = "__proto__") (v : JsValue)
    (es fs : List (String × JsValue)) : ¬ KeepsMembers ((k, v) :: es) (redactedMembers fs) := by
  rintro ⟨w, gs, heq, _⟩
  refine proto_notMem_redactedMembers fs ?_
  rw [heq, ← hk]
  exact List.mem_cons_self

theorem isSensitive_proto : isSensitive "__proto__" = false := by decide

mutual

/-- What a value that is assigned has to be. -/
theorem redactValue_iff : ∀ v, IsJson v →
    (NoSecret (redactValue v) ∧ Keeps v (redactValue v) ↔ Redactable v)
  | .null, _   => by simp [redactValue, NoSecret, Keeps, Redactable]
  | .bool _, _ => by simp [redactValue, NoSecret, Keeps, Redactable]
  | .num _, _  => by simp [redactValue, NoSecret, Keeps, Redactable]
  | .str _, _  => by simp [redactValue, NoSecret, Keeps, Redactable]
  | .arr xs, _ => and_iff_left (keeps_refl (.arr xs))
  | .obj es, h => by
      obtain ⟨hnodup, hes⟩ := h
      rw [redactValue, redactMembers_nil hnodup]
      show _ ↔ RedactableMembers es
      rw [← redactedMembers_iff es hes]
      refine and_congr_right fun _ => ?_
      constructor
      · rintro ⟨fs, heq, hkeeps⟩
        exact JsValue.obj.inj heq ▸ hkeeps
      · exact fun hkeeps => ⟨_, rfl, hkeeps⟩

/-- What the members that are assigned have to be. -/
theorem redactedMembers_iff : ∀ es, HaveJson es →
    (NoSecretMembers (redactedMembers es) ∧ KeepsMembers es (redactedMembers es) ↔
      RedactableMembers es)
  | [], _           => by simp [redactedMembers, NoSecretMembers, KeepsMembers, RedactableMembers]
  | (k, v) :: es, h => by
      obtain ⟨hv, hes⟩ := h
      have hvalue := redactValue_iff v hv
      have hrest := redactedMembers_iff es hes
      by_cases hproto : k = "__proto__"
      · have hlost : redactedMembers ((k, v) :: es) = redactedMembers es := by
          simp [redactedMembers, hproto]
        have hplain : ¬ isSensitive k = true := by
          rw [hproto, isSensitive_proto]
          simp
        rw [hlost, RedactableMembers]
        constructor
        · rintro ⟨_, hkeeps⟩
          exact absurd hkeeps (not_keepsMembers_proto hproto v es es)
        · rintro ⟨hsafe, _⟩
          exact absurd hproto (hsafe.resolve_left hplain).1
      · have hassigned : redactedMembers ((k, v) :: es) =
            (k, if isSensitive k then redactionMarker else redactValue v) :: redactedMembers es := by
          simp [redactedMembers, redactedMember, hproto]
        rw [hassigned, keepsMembers_cons, NoSecretMembers, RedactableMembers, ← hrest, ← hvalue]
        by_cases hsensitive : isSensitive k = true
        · simp only [hsensitive, if_true, Bool.true_eq_false, false_implies, true_and, true_or]
        · rw [if_neg hsensitive, if_neg hsensitive]
          simp only [Bool.not_eq_true] at hsensitive
          simp only [hsensitive, Bool.false_eq_true, false_or, true_implies, ne_eq, hproto,
            not_false_eq_true, true_and]
          exact and_and_and_comm

end

/-- **What redaction gets right**: an object, in which no array that is kept has a secret, and no member
that is kept is called `__proto__`. -/
theorem redaction_complete_iff (input : JsValue) (hjson : IsJson input)
    (hinput : (objectEntries input).isSome = true) :
    RedactsCompletely input ↔ ∃ es, input = .obj es ∧ RedactableMembers es := by
  unfold RedactsCompletely redactSensitiveFields
  cases input with
  | obj es =>
      have hes : (∃ fs, JsValue.obj es = .obj fs ∧ RedactableMembers fs) ↔ Redactable (.obj es) := by
        constructor
        · rintro ⟨fs, heq, hfs⟩
          exact JsValue.obj.inj heq ▸ hfs
        · exact fun h => ⟨es, rfl, h⟩
      rw [hes, ← redactValue_iff (.obj es) hjson]
      constructor
      · rintro ⟨result, heq, hresult⟩
        obtain rfl := Option.some.inj heq
        exact hresult
      · exact fun h => ⟨_, rfl, h⟩
  | arr xs =>
      constructor
      · rintro ⟨result, _, _, ys, heq, _⟩
        cases heq
      · rintro ⟨es, heq, _⟩
        cases heq
  | undefined   => cases hinput
  | null        => cases hinput
  | bool b      => cases hinput
  | num n       => cases hinput
  | str s       => cases hinput
  | inherited n => cases hinput

/-- A token under a name, and an array of plain texts. -/
theorem redacts_token : RedactsCompletely
    (.obj [("Token", .str "t0"), ("tags", .arr [.str "a"])]) :=
  (redaction_complete_iff _ (by simp [IsJson, HaveJson, AreJson]) rfl).mpr
    ⟨_, rfl, .inl (by decide), .inr ⟨by decide, trivial, trivial⟩, trivial⟩

/-- A token in an array is sent. -/
theorem token_in_array_sent : ¬ RedactsCompletely
    (.obj [("accounts", .arr [.obj [("token", .str "t0")]])]) := by
  rintro ⟨result, hresult, hsecret, _⟩
  obtain rfl := Option.some.inj hresult
  have hleak := hsecret.1.1.1
  rw [if_pos (by decide)] at hleak
  simp [redactionMarker] at hleak

end MapProtocol
