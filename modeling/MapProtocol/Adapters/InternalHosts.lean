import MapProtocol.Adapters.HttpAdapter
import Mathlib.Data.List.TakeWhile

/-!
# Internal hosts

The adapter is to keep requests from internal hosts. By name it stops five of them, whatever the text of
the URL; by prefix only what is written in one of four ways, since the other prefixes begin with `http:`,
which is refused anyway. `avoidsInternal_iff` says for which inputs that is enough.
-/

namespace MapProtocol

open Js

/-! ## The ranges -/

/-- Loopback, unspecified, private, or local to the link. -/
def isInternalIpv4 (address : Nat) : Bool :=
  address / 2 ^ 24 == 127 || address == 0 || address / 2 ^ 24 == 10 ||
    address / 2 ^ 20 == 172 * 2 ^ 4 + 1 || address / 2 ^ 16 == 192 * 2 ^ 8 + 168 ||
    address / 2 ^ 16 == 169 * 2 ^ 8 + 254

/-- Loopback, unspecified, local to the link, or an internal IPv4 address that is mapped. -/
def isInternalIpv6 (address : Ipv6) : Bool :=
  match address.pieces with
  | [0, 0, 0, 0, 0, 0, 0, 0]      => true
  | [0, 0, 0, 0, 0, 0, 0, 1]      => true
  | [0, 0, 0, 0, 0, 0xFFFF, a, b] => isInternalIpv4 (a * 2 ^ 16 + b)
  | p :: _                        => p / 2 ^ 6 == 0xFE80 / 2 ^ 6
  | []                            => false

/-- A host inside. A dot at its end makes a name no other. -/
def Js.Host.isInternal : Host → Bool
  | .domain d     => d.text == "localhost" || d.text == "localhost."
  | .ipv4 address => isInternalIpv4 address.val
  | .ipv6 address => isInternalIpv6 address
  | .other _      => false

namespace HttpAdapter

variable {lower : LowerCase} {platform : HttpPlatform}

/-- If the input is accepted, what is fetched is not from inside. -/
def AvoidsInternal (platform : HttpPlatform) (adapter : HttpAdapter) (intentId : String)
    (input : JsObject) : Prop :=
  ∀ result, adapter.validate platform (.obj input) = .ok result → result.valid = true →
    ∀ host, platform.parseUrl (requestOf platform intentId input).url = some host →
      host.isInternal = false

inductive StoppedByName : Host → Prop where
  | localhost (d : Domain) (h : d.text = "localhost") : StoppedByName (.domain d)
  | unspecified : StoppedByName (.ipv4 0)
  | loopback : StoppedByName (.ipv4 0x7F000001)
  | unspecified6 : StoppedByName (.ipv6 Js.unspecified)
  | loopback6 : StoppedByName (.ipv6 Js.loopback)

/-- The beginnings that are stopped in an `https:` URL. -/
def stoppedPrefixes : List String := ["https://localhost", "https://127.", "https://[::", "https://0."]

/-- The members apart from the URL are in order. -/
structure SoundBesides (upper : UpperCase) (input : JsObject) : Prop where
  method  : methodErrors upper (input.get "method") = []
  headers : headersErrors (input.get "headers") = .ok []
  body    : bodyErrors (input.get "body") = []
  timeout : timeoutErrors (input.get "timeout_ms") = []

/-- What keeps an input from inside. -/
inductive KeptOutside (platform : HttpPlatform) (input : JsObject) : Prop where
  | refused (h : ¬ SoundBesides platform.upper input)
  | notHttps (h : startsWith (urlOf input) "https://" = false)
  | outside (h : ∀ host, platform.parseUrl (urlOf input) = some host → host.isInternal = false)
  | named (host : Host) (hparse : platform.parseUrl (urlOf input) = some host) (h : StoppedByName host)
  | written (opening : String) (hopening : opening ∈ stoppedPrefixes)
      (h : startsWith (platform.lower.apply (urlOf input)) opening = true)

/-! ## The names -/

theorem small_of_isHostChar {c : Char} (h : isHostChar c = true) :
    c.toNat < 128 ∧ ¬ (65 ≤ c.toNat ∧ c.toNat ≤ 90) := by
  simp only [isHostChar, Bool.and_eq_true, decide_eq_true_eq, Bool.not_eq_true',
    Bool.and_eq_false_iff, decide_eq_false_iff_not] at h
  omega

theorem apply_hostname {host : Host} (h : host.isInternal = true) :
    lower.apply host.hostname = host.hostname := by
  refine apply_small fun c hc => small_of_isHostChar ?_
  cases host with
  | domain d => exact d.chars c hc
  | ipv4 address =>
      rw [Host.hostname, String.toList_ofList] at hc
      exact (isHostChar_ipv4 hc).1
  | ipv6 address =>
      rw [Host.hostname, String.toList_ofList, List.mem_cons, List.mem_append, List.mem_singleton] at hc
      rcases hc with rfl | hchars | rfl
      · decide
      · exact isHostChar_ipv6 hchars
      · decide
  | other text => cases h

theorem domain_hostname_iff {d : Domain} : d.text ∈ blockedHosts ↔ StoppedByName (.domain d) := by
  constructor
  · intro h
    have hnumber : ∀ text, endsInNumber text.toList = true → d.text ≠ text := by
      rintro text htext rfl
      rw [d.noNumber] at htext
      cases htext
    have hbracket : ∀ text : String, '[' ∈ text.toList → d.text ≠ text := by
      rintro text htext rfl
      exact d.noBracket htext
    simp only [blockedHosts, List.mem_cons, List.not_mem_nil, or_false] at h
    rcases h with hlocal | hzero | hloop | hunspecified | hloopback
    · exact .localhost d hlocal
    · exact absurd hzero (hnumber _ (by decide))
    · exact absurd hloop (hbracket _ (by decide))
    · exact absurd hunspecified (hbracket _ (by decide))
    · exact absurd hloopback (hnumber _ (by decide))
  · intro h
    cases h with
    | localhost _ h =>
        rw [h]
        decide

theorem ipv4_hostname_iff {address : Ipv4} :
    (Host.ipv4 address).hostname ∈ blockedHosts ↔ StoppedByName (.ipv4 address) := by
  constructor
  · intro h
    have hchars {text : String} (heq : (Host.ipv4 address).hostname = text) :
        address.chars = text.toList := by
      rw [← heq, Host.hostname, String.toList_ofList]
    have hbracket {text : String} (htext : '[' ∈ text.toList)
        (heq : (Host.ipv4 address).hostname = text) : False :=
      (isHostChar_ipv4 (hchars heq ▸ htext)).2 rfl
    simp only [blockedHosts, List.mem_cons, List.not_mem_nil, or_false] at h
    rcases h with hlocal | hzero | hloop | hunspecified | hloopback
    · -- an address has four parts, and the name has one
      have hfour : (splitChars '.' address.chars).length = 4 := by
        rw [splitChars_ipv4, List.length_map]
        rfl
      rw [hchars hlocal] at hfour
      exact absurd hfour (by decide)
    · have hsame : address = 0 := ipv4_chars_injective ((hchars hzero).trans (by decide))
      exact hsame ▸ .unspecified
    · exact (hbracket (by decide) hloop).elim
    · exact (hbracket (by decide) hunspecified).elim
    · have hsame : address = 0x7F000001 := ipv4_chars_injective ((hchars hloopback).trans (by decide))
      exact hsame ▸ .loopback
  · intro h
    cases h <;> decide

theorem ipv6_hostname_iff {address : Ipv6} :
    (Host.ipv6 address).hostname ∈ blockedHosts ↔ StoppedByName (.ipv6 address) := by
  constructor
  · intro h
    have hchars {text : String} (heq : (Host.ipv6 address).hostname = text) :
        '[' :: (address.chars ++ [']']) = text.toList := by
      rw [← heq, Host.hostname, String.toList_ofList]
    have hinner {cs : List Char} (heq : '[' :: (address.chars ++ [']']) = '[' :: (cs ++ [']'])) :
        address.chars = cs :=
      List.append_cancel_right (List.cons.inj heq).2
    simp only [blockedHosts, List.mem_cons, List.not_mem_nil, or_false] at h
    rcases h with hlocal | hzero | hloop | hunspecified | hloopback
    · exact absurd (List.cons.inj (hchars hlocal)).1 (by decide)
    · exact absurd (List.cons.inj (hchars hzero)).1 (by decide)
    · rw [ipv6_chars_loopback.mp (hinner (hchars hloop))]
      exact .loopback6
    · rw [ipv6_chars_unspecified.mp (hinner (hchars hunspecified))]
      exact .unspecified6
    · exact absurd (List.cons.inj (hchars hloopback)).1 (by decide)
  · intro h
    cases h <;> decide

/-- **Of the hosts inside, the names stop `localhost`, `0.0.0.0`, `127.0.0.1`, `::` and `::1`.** -/
theorem hostname_iff {host : Host} (h : host.isInternal = true) :
    lower.apply host.hostname ∈ blockedHosts ↔ StoppedByName host := by
  rw [apply_hostname h]
  cases host with
  | domain d => exact domain_hostname_iff
  | ipv4 address => exact ipv4_hostname_iff
  | ipv6 address => exact ipv6_hostname_iff
  | other text => cases h

/-! ## The prefixes -/

theorem defaultPrefixes_cases :
    ∀ opening ∈ defaultPrefixes, startsWith opening "http://" = true ∨ opening ∈ stoppedPrefixes := by
  decide +kernel

theorem mem_defaultPrefixes : ∀ opening ∈ stoppedPrefixes, opening ∈ defaultPrefixes := by
  decide

theorem isHostChar_opening :
    ∀ opening ∈ defaultPrefixes, ∀ c ∈ opening.toList, isHostChar c = true := by
  have hall : (defaultPrefixes.all fun opening => opening.toList.all isHostChar) = true := by
    decide +kernel
  exact fun opening hopening => List.all_eq_true.mp (List.all_eq_true.mp hall opening hopening)

theorem apply_opening {opening : String} (h : opening ∈ defaultPrefixes) :
    lower.apply opening = opening :=
  apply_small fun c hc => small_of_isHostChar (isHostChar_opening opening h c hc)

theorem prefix_iff {lower : LowerCase} {url : String} (h : startsWith url "https://" = true) :
    (∃ opening ∈ defaultPrefixes, startsWith (lower.apply url) (lower.apply opening) = true) ↔
      ∃ opening ∈ stoppedPrefixes, startsWith (lower.apply url) opening = true := by
  constructor
  · rintro ⟨opening, hopening, hstarts⟩
    rw [apply_opening hopening] at hstarts
    rcases defaultPrefixes_cases opening hopening with hhttp | hstopped
    · have hchars : ("https://".toList.all isHostChar) = true := by decide
      have hhttps := @startsWith_apply_small lower _ _
        (fun c hc => small_of_isHostChar (List.all_eq_true.mp hchars c hc)) h
      -- the fifth character of the two schemes differs
      unfold startsWith at hhttp hstarts hhttps
      rw [List.isPrefixOf_iff_prefix] at hhttp hstarts hhttps
      have hboth := List.prefix_of_prefix_length_le (hhttp.trans hstarts) hhttps (by decide)
      exact absurd hboth (by decide)
    · exact ⟨opening, hstopped, hstarts⟩
  · rintro ⟨opening, hopening, hstarts⟩
    have hdefault := mem_defaultPrefixes opening hopening
    exact ⟨opening, hdefault, by rwa [apply_opening hdefault]⟩

/-! ## What is accepted -/

/-- An `https:` URL whose host is stopped neither by name nor by prefix. -/
structure PassesHost (platform : HttpPlatform) (url : String) : Prop where
  https    : startsWith url "https://" = true
  host     : ∃ host, platform.parseUrl url = some host ∧
    platform.lower.apply host.hostname ∉ blockedHosts
  prefixes : ¬ ∃ opening ∈ stoppedPrefixes, startsWith (platform.lower.apply url) opening = true

theorem hostErrors_eq_nil_iff {url : String} (h : startsWith url "https://" = true) :
    hostErrors platform (new {}) url = [] ↔ PassesHost platform url := by
  have hblocked := @prefix_iff platform.lower url h
  unfold hostErrors
  cases hparse : platform.parseUrl url with
  | none =>
      refine iff_of_false nofun fun hpasses => ?_
      obtain ⟨host, hhost, -⟩ := hpasses.host
      rw [hparse] at hhost
      cases hhost
  | some host =>
      dsimp only
      by_cases hname : platform.lower.apply host.hostname ∈ blockedHosts
      · rw [if_pos (List.contains_iff_mem.mpr hname)]
        refine iff_of_false nofun fun hpasses => ?_
        obtain ⟨host', hhost, hnot⟩ := hpasses.host
        rw [hparse] at hhost
        exact hnot (Option.some.inj hhost ▸ hname)
      · rw [if_neg (by simpa using hname)]
        split
        · rename_i opening hfind
          have hopening : opening ∈ defaultPrefixes := List.mem_of_find?_eq_some hfind
          have hne : opening ≠ "" := by
            rintro rfl
            exact absurd hopening (by decide)
          rw [if_neg hne]
          refine iff_of_false nofun fun hpasses => hpasses.prefixes ?_
          have hstarts := List.find?_some hfind
          exact hblocked.mp ⟨opening, hopening, hstarts⟩
        · rename_i hfind
          refine iff_of_true rfl ⟨h, ⟨host, hparse, hname⟩, fun hstopped => ?_⟩
          obtain ⟨opening, hopening, hstarts⟩ := hblocked.mpr hstopped
          exact List.find?_eq_none.mp hfind opening hopening hstarts

theorem urlErrors_eq_nil_iff {input : JsObject} :
    urlErrors platform (new {}) (input.get "url") = [] ↔ PassesHost platform (urlOf input) := by
  have hempty (heq : urlOf input = "") : ¬ PassesHost platform (urlOf input) := by
    intro hpasses
    have hhttps := hpasses.https
    rw [heq] at hhttps
    exact absurd hhttps (by decide)
  unfold urlErrors
  cases hurl : input.get "url" with
  | str text =>
      have htext : urlOf input = trim text := by
        unfold urlOf
        rw [hurl]
        rfl
      dsimp only
      by_cases hblank : isBlank text = true
      · rw [if_pos hblank]
        exact iff_of_false nofun (hempty (htext.trans (trim_eq_empty_iff.mpr hblank)))
      · rw [if_neg hblank, List.append_eq_nil_iff, htext]
        cases hhttps : startsWith (trim text) "https://" with
        | true =>
            rw [hostErrors_eq_nil_iff hhttps]
            exact and_iff_right rfl
        | false =>
            refine iff_of_false (fun h => nomatch h.1) fun hpasses => ?_
            rw [hpasses.https] at hhttps
            cases hhttps
  | _ =>
      refine iff_of_false nofun (hempty ?_)
      unfold urlOf
      rw [hurl]
      rfl

theorem accepted_iff {input : JsObject} :
    (∃ result, (new {}).validate platform (.obj input) = .ok result ∧ result.valid = true) ↔
      SoundBesides platform.upper input ∧ PassesHost platform (urlOf input) := by
  rw [← urlErrors_eq_nil_iff]
  unfold validate errorsOf
  dsimp only
  cases hheaders : headersErrors (input.get "headers") with
  | error message =>
      have hthrows : inputErrors platform (new {}) input = .error message := by
        unfold inputErrors
        rw [hheaders]
        rfl
      rw [hthrows]
      refine iff_of_false (fun h => nomatch h.choose_spec.1) fun h => ?_
      exact nomatch hheaders.symm.trans h.1.headers
  | ok headers =>
      have hgives : inputErrors platform (new {}) input =
          .ok (urlErrors platform (new {}) (input.get "url") ++
            methodErrors platform.upper (input.get "method") ++ headers ++
            bodyErrors (input.get "body") ++ timeoutErrors (input.get "timeout_ms")) := by
        unfold inputErrors
        rw [hheaders]
        rfl
      rw [hgives]
      constructor
      · rintro ⟨result, hresult, hvalid⟩
        obtain rfl := Except.ok.inj hresult
        simp only [List.isEmpty_iff, List.append_eq_nil_iff] at hvalid
        obtain ⟨⟨⟨⟨hurl, hmethod⟩, hnone⟩, hbody⟩, htimeout⟩ := hvalid
        exact ⟨⟨hmethod, hnone ▸ hheaders, hbody, htimeout⟩, hurl⟩
      · rintro ⟨⟨hmethod, hsound, hbody, htimeout⟩, hurl⟩
        obtain rfl := Except.ok.inj (hheaders.symm.trans hsound)
        refine ⟨_, rfl, ?_⟩
        rw [hmethod, hbody, htimeout, hurl]
        rfl

/-- **An input does not reach inside exactly when something else is wrong with it, its host is not inside,
or is one of those stopped by name, or its text begins in one of the four ways.** -/
theorem avoidsInternal_iff (platform : HttpPlatform) (intentId : String) (input : JsObject) :
    AvoidsInternal platform (new {}) intentId input ↔ KeptOutside platform input := by
  constructor
  · intro h
    by_contra hkept
    have hsound : SoundBesides platform.upper input := not_not.mp fun hbad => hkept (.refused hbad)
    have hhttps : startsWith (urlOf input) "https://" = true := by
      by_contra hbad
      exact hkept (.notHttps (by simpa using hbad))
    have hprefixes : ¬ ∃ opening ∈ stoppedPrefixes,
        startsWith (platform.lower.apply (urlOf input)) opening = true :=
      fun ⟨opening, hopening, hstarts⟩ => hkept (.written opening hopening hstarts)
    obtain ⟨host, hparse, hinternal⟩ : ∃ host, platform.parseUrl (urlOf input) = some host ∧
        host.isInternal = true := by
      by_contra hbad
      refine hkept (.outside fun host hparse => ?_)
      by_contra hinternal
      exact hbad ⟨host, hparse, by simpa using hinternal⟩
    have hname : platform.lower.apply host.hostname ∉ blockedHosts := by
      rw [hostname_iff hinternal]
      exact fun hnamed => hkept (.named host hparse hnamed)
    -- nothing stops the input, so that it is accepted and its host is reached
    obtain ⟨result, hresult, hvalid⟩ :=
      accepted_iff.mpr ⟨hsound, hhttps, ⟨host, hparse, hname⟩, hprefixes⟩
    rw [h result hresult hvalid host hparse] at hinternal
    cases hinternal
  · intro hkept result hresult hvalid host hhost
    obtain ⟨hsound, hhttps, ⟨host', hparse, hname⟩, hprefixes⟩ :=
      accepted_iff.mp ⟨result, hresult, hvalid⟩
    obtain rfl := Option.some.inj (hhost.symm.trans hparse)
    cases hkept with
    | refused hbad => exact absurd hsound hbad
    | notHttps hnot =>
        rw [hhttps] at hnot
        cases hnot
    | outside houtside => exact houtside host hparse
    | named named hnamed hstopped =>
        obtain rfl := Option.some.inj (hparse.symm.trans hnamed)
        by_contra hinternal
        exact hname ((hostname_iff (by simpa using hinternal)).mpr hstopped)
    | written opening hopening hstarts => exact absurd ⟨opening, hopening, hstarts⟩ hprefixes

/-- A parser that knows the address of a private network. -/
def samplePlatform : HttpPlatform where
  upper    := asciiCapitals
  lower    := asciiSmall
  parseUrl := fun url => if url = "https://10.0.0.1/" then some (.ipv4 0x0A000001) else none

/-- A private address is reached by `https:`. -/
theorem avoidsInternal_fails :
    ¬ ∀ (platform : HttpPlatform) (intentId : String) (input : JsObject),
      AvoidsInternal platform (new {}) intentId input := by
  intro h
  have hinput := h samplePlatform "intent_1" [("url", .str "https://10.0.0.1/")]
  exact absurd (hinput ⟨true, []⟩ (by rfl) rfl (.ipv4 0x0A000001) (by rfl)) (by decide)

end HttpAdapter

end MapProtocol
