import MapProtocol.Js.Json
import MapProtocol.Js.RegExp
import MapProtocol.Lib.OrderedMap
import MapProtocol.Lib.QuotedPairs
import MapProtocol.Lib.StableSort

/-!
# The labels of metrics

A series is kept under a text, its name with its labels in braces (`makeKey`), and when the metrics
are exported the labels are read out of that text again (`parseKey`). Nothing is escaped on the way.
The name and the labels come back exactly if the name has no braces, the labels have words for names,
and there is no quote and no line terminator in their values (`parseKey_makeKey_iff`).
-/

namespace MapProtocol.Sdk.TypeScript

open Js QuotedPairs

/-- `Record<string, string>`. -/
abbrev Labels := OrderedMap String String

/-- `localeCompare`, a consistent comparison. -/
structure Collation where
  localeCompare : String → String → Int
  total         : ∀ a b, localeCompare a b ≤ 0 ∨ localeCompare b a ≤ 0
  trans         : ∀ a b c, localeCompare a b ≤ 0 → localeCompare b c ≤ 0 → localeCompare a c ≤ 0

/-! ## Objects -/

def arrayIndex? (name : String) : Option Nat :=
  let n := digitsValue name.toList
  if toString n = name ∧ n < 2 ^ 32 - 1 then some n else none

/-- `Object.entries(labels)`: array indices come first, in their order. -/
def objectEntries (labels : Labels) : List (String × String) :=
  ((labels.entries.filter fun e => (arrayIndex? e.1).isSome).mergeSort fun a b =>
      decide ((arrayIndex? a.1).getD 0 ≤ (arrayIndex? b.1).getD 0)) ++
    labels.entries.filter fun e => !(arrayIndex? e.1).isSome

/-! ## Keys -/

/-- `${k}="${v}"`. -/
def pairText (e : String × String) : String := e.1 ++ "=\"" ++ e.2 ++ "\""

def sortEntries (collation : Collation) (es : List (String × String)) : List (String × String) :=
  es.mergeSort fun a b => decide (collation.localeCompare a.1 b.1 ≤ 0)

def makeKey (collation : Collation) (name : String) (labels : Labels) : String :=
  let sortedLabels :=
    commaSeparated ((sortEntries collation (objectEntries labels)).map pairText)
  name ++ (if sortedLabels ≠ "" then "\x7b" ++ sortedLabels ++ "\x7d" else "")

def isBrace (c : Char) : Bool := c = '{' || c = '}'

/-- `key.match(/^([^}{]+)(?:\{(.+)\})?$/)`: both groups, the second only where there is one. -/
def matchKey (key : List Char) : Option (List Char × Option (List Char)) :=
  match key.takeWhile (!isBrace ·), key.dropWhile (!isBrace ·) with
  | [], _             => none
  | name, []          => some (name, none)
  | name, '{' :: rest =>
      if rest.getLast? = some '}' ∧ rest.dropLast ≠ [] ∧ rest.dropLast.all dotCovers then
        some (name, some rest.dropLast)
      else none
  | _, _              => none

/-- `/(\w+)="([^"]*)"/` at the front of a text, and what follows. -/
def matchPair (cs : List Char) : Option (Pair × List Char) :=
  match cs.takeWhile isWordChar, cs.dropWhile isWordChar with
  | c :: name, '=' :: '"' :: rest =>
      match rest.dropWhile (· ≠ '"') with
      | []         => none
      | _ :: after => some ((c :: name, rest.takeWhile (· ≠ '"')), after)
  | _, _ => none

/-- `matchAll(/(\w+)="([^"]*)"/g)`, in at most `fuel` places. -/
def matchAll : Nat → List Char → List Pair
  | 0, _              => []
  | _ + 1, []         => []
  | fuel + 1, c :: cs =>
      match matchPair (c :: cs) with
      | some (pair, after) => pair :: matchAll fuel after
      | none               => matchAll fuel cs

/-- `metricLabels[k] = v`. The assignment to `__proto__` is for the prototype, which a string cannot
be. -/
def assign (labels : Labels) (pair : Pair) : Labels :=
  if String.ofList pair.1 = "__proto__" then labels
  else labels.set (String.ofList pair.1) (String.ofList pair.2)

def parseKey (key : String) : String × Labels :=
  match matchKey key.toList with
  | none                   => (key, .empty)
  | some (name, none)      => (String.ofList name, .empty)
  | some (name, some body) =>
      (String.ofList name, (matchAll body.length body).foldl assign .empty)

/-- `{ ...defaultLabels, ...labels }`. -/
def mergeLabels (defaultLabels labels : Labels) : Labels :=
  (objectEntries labels).foldl (fun merged e => merged.set e.1 e.2)
    ((objectEntries defaultLabels).foldl (fun merged e => merged.set e.1 e.2) .empty)

def formatLabels (labels : Labels) : String :=
  if (objectEntries labels).length = 0 then ""
  else "\x7b" ++ commaSeparated ((objectEntries labels).map pairText) ++ "\x7d"

/-! ## Texts of labels

A key is a list of pairs, written with commas between them. -/

variable {collation : Collation} {name name' : String} {labels labels' : Labels}

/-- A label as the characters of its name and of its value. -/
def chars (e : String × String) : Pair := (e.1.toList, e.2.toList)

theorem chars_injective : Function.Injective chars := by
  intro e e' h
  have h₁ : e.1.toList = e'.1.toList := congrArg Prod.fst h
  have h₂ : e.2.toList = e'.2.toList := congrArg Prod.snd h
  exact Prod.ext (String.toList_inj.mp h₁) (String.toList_inj.mp h₂)

theorem toList_pairTexts (es : List (String × String)) :
    (commaSeparated (es.map pairText)).toList = write (es.map chars) := by
  have hpair : ∀ e, (pairText e).toList = writePair (chars e) := by
    intro e
    simp [pairText, writePair, chars]
  induction es with
  | nil => rfl
  | cons e es ih =>
      cases es with
      | nil => exact hpair e
      | cons e' es =>
          show (pairText e ++ "," ++ commaSeparated ((e' :: es).map pairText)).toList = _
          rw [String.toList_append, String.toList_append, hpair, ih]
          simp [write]

theorem toList_braced (es : List (String × String)) (hne : es ≠ []) :
    ("\x7b" ++ commaSeparated (es.map pairText) ++ "\x7d").toList = block (es.map chars) := by
  rw [block, if_neg (by simpa using hne), String.toList_append, String.toList_append,
    toList_pairTexts]
  rfl

theorem objectEntries_perm (labels : Labels) : (objectEntries labels).Perm labels.entries :=
  ((List.mergeSort_perm _ _).append_right _).trans
    (List.filter_append_perm (fun e : String × String => (arrayIndex? e.1).isSome) labels.entries)

theorem objectEntries_eq (h : ∀ e ∈ labels.entries, arrayIndex? e.1 = none) :
    objectEntries labels = labels.entries := by
  have hnone : labels.entries.filter (fun e => (arrayIndex? e.1).isSome) = [] := by
    rw [List.filter_eq_nil_iff]
    intro e he
    simp [h e he]
  unfold objectEntries
  rw [hnone, List.mergeSort_nil, List.nil_append, List.filter_eq_self]
  intro e he
  simp [h e he]

theorem sortEntries_perm (collation : Collation) (labels : Labels) :
    (sortEntries collation (objectEntries labels)).Perm labels.entries :=
  (List.mergeSort_perm _ _).trans (objectEntries_perm labels)

theorem toList_makeKey (collation : Collation) (name : String) (labels : Labels) :
    (makeKey collation name labels).toList =
      name.toList ++ block ((sortEntries collation (objectEntries labels)).map chars) := by
  have htexts := toList_pairTexts (sortEntries collation (objectEntries labels))
  unfold makeKey
  dsimp only
  rw [String.toList_append]
  by_cases hnil : sortEntries collation (objectEntries labels) = []
  · rw [hnil]
    rfl
  · have hne : commaSeparated ((sortEntries collation (objectEntries labels)).map pairText) ≠ "" := by
      intro hempty
      rw [hempty] at htexts
      exact write_ne_nil (by simpa using hnil) htexts.symm
    rw [if_pos hne, toList_braced _ hnil]

theorem toList_formatLabels (labels : Labels) :
    (formatLabels labels).toList = block ((objectEntries labels).map chars) := by
  unfold formatLabels
  split
  · rename_i hnil
    rw [List.length_eq_zero_iff.mp hnil]
    rfl
  · rename_i hne
    exact toList_braced _ (mt List.length_eq_zero_iff.mpr hne)

/-! ## The regular expressions -/

structure Grouped (key name body : List Char) : Prop where
  text     : key = name ++ '{' :: (body ++ ['}'])
  named    : name ≠ []
  unbraced : ∀ c ∈ name, isBrace c = false
  nonempty : body ≠ []
  line     : ∀ c ∈ body, dotCovers c = true

theorem matchKey_of_grouped {key n body : List Char} (h : Grouped key n body) :
    matchKey key = some (n, some body) := by
  have htake : key.takeWhile (!isBrace ·) = n := by
    rw [h.text, List.takeWhile_append_of_pos (by simpa using h.unbraced)]
    exact List.append_nil n
  have hdrop : key.dropWhile (!isBrace ·) = '{' :: (body ++ ['}']) := by
    rw [h.text, List.dropWhile_append_of_pos (by simpa using h.unbraced)]
    rfl
  have hgroup : (body ++ ['}']).getLast? = some '}' ∧ (body ++ ['}']).dropLast ≠ [] ∧
      (body ++ ['}']).dropLast.all dotCovers = true := by
    rw [List.dropLast_concat]
    exact ⟨List.getLast?_concat, h.nonempty, List.all_eq_true.mpr h.line⟩
  obtain ⟨c, cs, rfl⟩ := List.exists_cons_of_ne_nil h.named
  unfold matchKey
  rw [htake, hdrop]
  show (if _ then some (c :: cs, some (body ++ ['}']).dropLast) else none) = _
  rw [if_pos hgroup, List.dropLast_concat]

theorem unbraced_takeWhile (key : List Char) : ∀ c ∈ key.takeWhile (!isBrace ·), isBrace c = false := by
  intro c hc
  simpa using List.mem_takeWhile_imp hc

theorem grouped_of_matchKey {key n body : List Char} (h : matchKey key = some (n, some body)) :
    Grouped key n body := by
  have hkey := List.takeWhile_append_dropWhile (p := (!isBrace ·)) (l := key)
  have hunbraced := unbraced_takeWhile key
  unfold matchKey at h
  split at h
  · cases h
  · cases h
  · rename_i hdrop hnamed
    split at h
    · rename_i hgroup
      obtain ⟨hlast, hne, hall⟩ := hgroup
      cases h
      rw [hdrop] at hkey
      have hbody := List.dropLast_append_getLast? _ hlast
      refine ⟨?_, hnamed, hunbraced, hne, List.all_eq_true.mp hall⟩
      rw [hbody]
      exact hkey.symm
    · cases h
  · cases h

theorem eq_of_matchKey {key n : List Char} (h : matchKey key = some (n, none)) : n = key := by
  have hkey := List.takeWhile_append_dropWhile (p := (!isBrace ·)) (l := key)
  unfold matchKey at h
  split at h
  · cases h
  · rename_i hdrop _
    cases h
    rw [hdrop, List.append_nil] at hkey
    exact hkey
  · split at h
    · cases h
    · cases h
  · cases h

/-- A pair that the expression of labels matches whole. -/
structure Matched (pair : Pair) : Prop where
  named    : pair.1 ≠ []
  word     : ∀ c ∈ pair.1, isWordChar c = true
  unquoted : '"' ∉ pair.2

theorem matchPair_writePair {pair : Pair} (h : Matched pair) (rest : List Char) :
    matchPair (writePair pair ++ rest) = some (pair, rest) := by
  obtain ⟨n, value⟩ := pair
  have hne : ∀ c ∈ value, (decide (c ≠ '"')) = true := by
    intro c hc
    refine decide_eq_true ?_
    rintro rfl
    exact h.unquoted hc
  have htext : writePair (n, value) ++ rest = n ++ '=' :: '"' :: (value ++ '"' :: rest) := by
    simp [writePair]
  have htake : (n ++ '=' :: '"' :: (value ++ '"' :: rest)).takeWhile isWordChar = n := by
    rw [List.takeWhile_append_of_pos h.word]
    exact List.append_nil n
  have hdrop : (n ++ '=' :: '"' :: (value ++ '"' :: rest)).dropWhile isWordChar =
      '=' :: '"' :: (value ++ '"' :: rest) := by
    rw [List.dropWhile_append_of_pos h.word]
    rfl
  have hvalue : (value ++ '"' :: rest).takeWhile (· ≠ '"') = value := by
    rw [List.takeWhile_append_of_pos hne]
    exact List.append_nil value
  have hafter : (value ++ '"' :: rest).dropWhile (· ≠ '"') = '"' :: rest := by
    rw [List.dropWhile_append_of_pos hne]
    rfl
  have hnamed := h.named
  rw [htext]
  unfold matchPair
  rw [htake, hdrop]
  cases n with
  | nil => exact absurd rfl hnamed
  | cons c n =>
      show (match (value ++ '"' :: rest).dropWhile (· ≠ '"') with
        | []         => none
        | _ :: after =>
            some ((c :: n, (value ++ '"' :: rest).takeWhile (· ≠ '"')), after)) = _
      rw [hafter, hvalue]

theorem matched_of_matchPair {cs after : List Char} {pair : Pair}
    (h : matchPair cs = some (pair, after)) :
    Matched pair ∧ (∀ c ∈ pair.2, c ∈ cs) ∧ ∀ c ∈ after, c ∈ cs := by
  have hcs := List.takeWhile_append_dropWhile (p := isWordChar) (l := cs)
  unfold matchPair at h
  split at h
  · rename_i c n rest htake hdrop
    have hrest : ∀ d ∈ rest, d ∈ cs := by
      intro d hd
      rw [← hcs, hdrop]
      simp [hd]
    split at h
    · cases h
    · rename_i d after' hafter
      cases h
      refine ⟨⟨List.cons_ne_nil c n, ?_, ?_⟩, ?_, ?_⟩
      · intro d hd
        rw [← htake] at hd
        exact List.mem_takeWhile_imp hd
      · intro hquote
        have hne := List.mem_takeWhile_imp hquote
        exact absurd hne (by decide)
      · exact fun d hd => hrest d ((List.takeWhile_sublist _).subset hd)
      · intro e he
        have hmem : e ∈ rest.dropWhile (· ≠ '"') := hafter ▸ List.mem_cons_of_mem d he
        exact hrest e ((List.dropWhile_sublist _).subset hmem)
  · cases h

/-- **The labels that are written are matched**, one after the other. -/
theorem matchAll_write {ps : List Pair} (h : ∀ p ∈ ps, Matched p) {fuel : Nat}
    (hfuel : 2 * ps.length ≤ fuel) : matchAll fuel (write ps) = ps := by
  induction ps generalizing fuel with
  | nil => cases fuel <;> rfl
  | cons p ps ih =>
      obtain ⟨hp, hps⟩ := List.forall_mem_cons.mp h
      rw [List.length_cons] at hfuel
      -- one step reads the pair, one goes over the comma
      obtain ⟨fuel, rfl⟩ : ∃ n, fuel = n + 2 := ⟨fuel - 2, by omega⟩
      have hpair : ∀ rest, matchAll (fuel + 2) (writePair p ++ rest) =
          p :: matchAll (fuel + 1) rest := by
        intro rest
        have hmatch := matchPair_writePair hp rest
        obtain ⟨c, cs, hcs⟩ : ∃ c cs, writePair p ++ rest = c :: cs :=
          List.exists_cons_of_ne_nil (by simp [writePair])
        rw [hcs] at hmatch ⊢
        rw [matchAll, hmatch]
      cases ps with
      | nil =>
          rw [write, ← List.append_nil (writePair p), hpair]
          rfl
      | cons q ps =>
          rw [write, hpair]
          -- no word begins at the comma
          have hcomma : matchAll (fuel + 1) (',' :: write (q :: ps)) =
              matchAll fuel (write (q :: ps)) := rfl
          rw [hcomma, ih hps (by omega)]

theorem matched_of_mem_matchAll {fuel : Nat} {cs : List Char} {p : Pair}
    (h : p ∈ matchAll fuel cs) : Matched p ∧ ∀ c ∈ p.2, c ∈ cs := by
  induction fuel generalizing cs with
  | zero => cases h
  | succ fuel ih =>
      cases cs with
      | nil => cases h
      | cons c cs =>
          unfold matchAll at h
          split at h
          · rename_i pair after hmatch
            obtain ⟨hmatched, hvalue, hafter⟩ := matched_of_matchPair hmatch
            rcases List.mem_cons.mp h with rfl | h
            · exact ⟨hmatched, hvalue⟩
            · obtain ⟨hp, hmem⟩ := ih h
              exact ⟨hp, fun d hd => hafter d (hmem d hd)⟩
          · obtain ⟨hp, hmem⟩ := ih h
            exact ⟨hp, fun d hd => List.mem_cons_of_mem c (hmem d hd)⟩

/-! ## Reading keys back -/

/-- A label that comes back out of a key: its name is a word, and its value has no quotes and no line
terminators. -/
structure LabelReadable (e : String × String) : Prop where
  named    : e.1 ≠ ""
  word     : ∀ c ∈ e.1.toList, isWordChar c = true
  proto    : e.1 ≠ "__proto__"
  unquoted : '"' ∉ e.2.toList
  line     : ∀ c ∈ e.2.toList, dotCovers c = true

/-- A name and labels that come back out of their key: without labels the name does not look like one
with labels, and with labels it is there and has no braces. -/
def KeyReadable (name : String) (labels : Labels) : Prop :=
  if labels.entries = [] then ∀ n body, ¬ Grouped name.toList n body
  else name ≠ "" ∧ (∀ c ∈ name.toList, isBrace c = false) ∧ ∀ e ∈ labels.entries, LabelReadable e

instance (e : String × String) : Decidable (LabelReadable e) :=
  decidable_of_iff (e.1 ≠ "" ∧ e.1.toList.all isWordChar = true ∧ e.1 ≠ "__proto__" ∧
      '"' ∉ e.2.toList ∧ e.2.toList.all dotCovers = true)
    ⟨fun ⟨named, word, proto, unquoted, line⟩ =>
        ⟨named, List.all_eq_true.mp word, proto, unquoted, List.all_eq_true.mp line⟩,
      fun h => ⟨h.named, List.all_eq_true.mpr h.word, h.proto, h.unquoted,
        List.all_eq_true.mpr h.line⟩⟩

theorem keyReadable_of_nil (hnil : labels.entries = []) :
    (matchKey name.toList).bind Prod.snd = none ↔ KeyReadable name labels := by
  rw [KeyReadable, if_pos hnil]
  constructor
  · intro h n body hgrouped
    rw [matchKey_of_grouped hgrouped] at h
    cases h
  · intro h
    cases hmatch : matchKey name.toList with
    | none => rfl
    | some groups =>
        obtain ⟨n, body⟩ := groups
        cases body with
        | none => rfl
        | some body => exact absurd (grouped_of_matchKey hmatch) (h n body)

theorem keyReadable_of_ne_nil (hne : labels.entries ≠ []) :
    name ≠ "" ∧ name.toList.all (!isBrace ·) = true ∧
      labels.entries.all (fun e => decide (LabelReadable e)) = true ↔ KeyReadable name labels := by
  rw [KeyReadable, if_neg hne]
  simp

instance (name : String) (labels : Labels) : Decidable (KeyReadable name labels) :=
  if hnil : labels.entries = [] then decidable_of_iff _ (keyReadable_of_nil hnil)
  else decidable_of_iff _ (keyReadable_of_ne_nil hnil)

theorem LabelReadable.matched {e : String × String} (h : LabelReadable e) : Matched (chars e) :=
  ⟨fun hnil => h.named (String.toList_eq_nil_iff.mp hnil), h.word, h.unquoted⟩

theorem dotCovers_word {c : Char} (h : isWordChar c = true) : dotCovers c = true := by
  unfold dotCovers isLineTerminator
  rw [Bool.not_eq_true', decide_eq_false_iff_not]
  intro hmem
  simp only [List.mem_cons, List.not_mem_nil, or_false] at hmem
  rcases hmem with rfl | rfl | rfl | rfl <;> exact absurd h (by decide)

theorem grouped_makeKey (hne : labels.entries ≠ []) (h : KeyReadable name labels) :
    Grouped (makeKey collation name labels).toList name.toList
      (write ((sortEntries collation (objectEntries labels)).map chars)) := by
  obtain ⟨hname, hbraces, hlabels⟩ := (if_neg hne).mp h
  have hsorted : (sortEntries collation (objectEntries labels)).map chars ≠ [] := by
    intro hnil
    have hperm := sortEntries_perm collation labels
    rw [List.map_eq_nil_iff.mp hnil] at hperm
    exact hne hperm.nil_eq.symm
  refine ⟨?_, fun hnil => hname (String.toList_eq_nil_iff.mp hnil), hbraces, write_ne_nil hsorted, ?_⟩
  · rw [toList_makeKey, block, if_neg hsorted]
  · intro c hc
    rcases mem_write hc with hc | ⟨p, hp, hc⟩
    · simp only [List.mem_cons, List.not_mem_nil, or_false] at hc
      rcases hc with rfl | rfl | rfl <;> decide
    · obtain ⟨e, he, rfl⟩ := List.mem_map.mp hp
      have hreadable := hlabels e ((sortEntries_perm collation labels).subset he)
      rcases hc with hc | hc
      · exact dotCovers_word (hreadable.word c hc)
      · exact hreadable.line c hc

theorem foldl_assign_chars {es : List (String × String)} (h : ∀ e ∈ es, LabelReadable e)
    (m : Labels) : (es.map chars).foldl assign m = es.foldl (fun m e => m.set e.1 e.2) m := by
  induction es generalizing m with
  | nil => rfl
  | cons e es ih =>
      obtain ⟨he, hes⟩ := List.forall_mem_cons.mp h
      have hassign : assign m (chars e) = m.set e.1 e.2 := by
        unfold assign chars
        rw [String.ofList_toList, String.ofList_toList, if_neg he.proto]
      rw [List.map_cons, List.foldl_cons, hassign, ih hes, List.foldl_cons]

theorem mem_foldl_assign {ps : List Pair} {m : Labels} {e : String × String}
    (h : e ∈ (ps.foldl assign m).entries) :
    e ∈ m.entries ∨ e.1 ≠ "__proto__" ∧ ∃ p ∈ ps, e = (String.ofList p.1, String.ofList p.2) := by
  induction ps generalizing m with
  | nil => exact .inl h
  | cons p ps ih =>
      rcases ih h with hm | ⟨hproto, q, hq, he⟩
      · unfold assign at hm
        split at hm
        · exact .inl hm
        · rename_i hproto
          rw [← OrderedMap.get_eq_some, OrderedMap.get_set] at hm
          split at hm
          · rename_i hkey
            have hvalue := Option.some.inj hm
            refine .inr ⟨hkey ▸ hproto, p, List.mem_cons_self .., ?_⟩
            exact Prod.ext hkey.symm hvalue.symm
          · exact .inl (OrderedMap.get_eq_some.mp hm)
      · exact .inr ⟨hproto, q, List.mem_cons_of_mem _ hq, he⟩

theorem perm_of_foldl_set {es : List (String × String)} (h : es.Perm labels.entries) :
    (es.foldl (fun m e => m.set e.1 e.2) (OrderedMap.empty : Labels)).entries.Perm
      labels.entries := by
  have hnodup : (es.map Prod.fst).Nodup := (h.map Prod.fst).nodup_iff.mpr labels.nodup
  have hentries : labels.entries.Perm (⟨es, hnodup⟩ : Labels).entries := h.symm
  refine OrderedMap.perm_iff_get.mpr fun k => ?_
  rw [OrderedMap.get_foldl_set_of_nodup hnodup, OrderedMap.get_empty, Option.or_none]
  exact (OrderedMap.perm_iff_get.mp hentries k).symm

theorem makeKey_of_nil (hnil : labels.entries = []) : makeKey collation name labels = name := by
  have hsorted : sortEntries collation (objectEntries labels) = [] :=
    List.Perm.eq_nil (hnil ▸ sortEntries_perm collation labels)
  apply String.toList_inj.mp
  rw [toList_makeKey, hsorted]
  exact List.append_nil _

/-- A name alone comes back unless it looks like one with labels. -/
theorem parseKey_iff_of_nil (hnil : labels.entries = []) :
    (parseKey name).1 = name ∧ (parseKey name).2.entries.Perm labels.entries ↔
      KeyReadable name labels := by
  rw [KeyReadable, if_pos hnil]
  constructor
  · rintro ⟨hname, -⟩ n body hgrouped
    unfold parseKey at hname
    rw [matchKey_of_grouped hgrouped] at hname
    -- the name is longer than what is read of it
    have htext : name.toList = n ++ '{' :: (body ++ ['}']) := hgrouped.text
    have hshort : n = name.toList := by
      rw [← hname]
      exact (String.toList_ofList).symm
    rw [← hshort] at htext
    have hlength := congrArg List.length htext
    rw [List.length_append, List.length_cons] at hlength
    omega
  · intro h
    unfold parseKey
    split
    · exact ⟨rfl, hnil ▸ List.Perm.refl _⟩
    · rename_i n hmatch
      rw [eq_of_matchKey hmatch, String.ofList_toList]
      exact ⟨rfl, hnil ▸ List.Perm.refl _⟩
    · rename_i n body hmatch
      exact absurd (grouped_of_matchKey hmatch) (h n body)

/-- What comes back out of a key, labels among it, can be read. -/
theorem keyReadable_of_parseKey {key : String} (hne : labels.entries ≠ [])
    (hname : (parseKey key).1 = name) (hperm : (parseKey key).2.entries.Perm labels.entries) :
    KeyReadable name labels := by
  rw [KeyReadable, if_neg hne]
  unfold parseKey at hname hperm
  split at hperm
  · exact absurd hperm.nil_eq.symm hne
  · exact absurd hperm.nil_eq.symm hne
  · rename_i n body hmatch
    have hgrouped := grouped_of_matchKey hmatch
    rw [hmatch] at hname
    have hn : name.toList = n := by
      rw [← hname]
      exact String.toList_ofList
    refine ⟨?_, hn ▸ hgrouped.unbraced, ?_⟩
    · rintro rfl
      exact hgrouped.named hn.symm
    · intro e he
      rcases mem_foldl_assign (hperm.symm.subset he) with hmem | ⟨hproto, p, hp, rfl⟩
      · cases hmem
      · obtain ⟨hmatched, hbody⟩ := matched_of_mem_matchAll hp
        refine ⟨?_, ?_, hproto, ?_, ?_⟩
        · intro hempty
          exact hmatched.named (by simpa using congrArg String.toList hempty)
        · simpa using hmatched.word
        · simpa using hmatched.unquoted
        · intro c hc
          exact hgrouped.line c (hbody c (by simpa using hc))

theorem parseKey_of_keyReadable (hne : labels.entries ≠ []) (h : KeyReadable name labels) :
    (parseKey (makeKey collation name labels)).1 = name ∧
      (parseKey (makeKey collation name labels)).2.entries.Perm labels.entries := by
  have hlabels := ((if_neg hne).mp h).2.2
  have hsorted : ∀ e ∈ sortEntries collation (objectEntries labels), LabelReadable e :=
    fun e he => hlabels e ((sortEntries_perm collation labels).subset he)
  have hmatched : ∀ p ∈ (sortEntries collation (objectEntries labels)).map chars, Matched p := by
    intro p hp
    obtain ⟨e, he, rfl⟩ := List.mem_map.mp hp
    exact (hsorted e he).matched
  unfold parseKey
  -- the group of the expression is what was written, and each label matches in it
  rw [matchKey_of_grouped (grouped_makeKey hne h)]
  dsimp only
  rw [matchAll_write hmatched (length_le_write _), foldl_assign_chars hsorted]
  exact ⟨String.ofList_toList, perm_of_foldl_set (sortEntries_perm collation labels)⟩

/-- **The name and the labels come back out of their key** exactly if the key can be read. -/
theorem parseKey_makeKey_iff (collation : Collation) (name : String) (labels : Labels) :
    (parseKey (makeKey collation name labels)).1 = name ∧
      (parseKey (makeKey collation name labels)).2.entries.Perm labels.entries ↔
        KeyReadable name labels := by
  by_cases hnil : labels.entries = []
  · rw [makeKey_of_nil hnil]
    exact parseKey_iff_of_nil hnil
  · constructor
    · rintro ⟨hname, hperm⟩
      exact keyReadable_of_parseKey hnil hname hperm
    · exact parseKey_of_keyReadable hnil

/-! ## Keys that are the same

Two keys are one text if their labels sort to the same list. -/

/-- Labels that the comparison takes for equal stand in the same order in both. -/
def TiesAlike (collation : Collation) (labels labels' : Labels) : Prop :=
  ∀ a b, collation.localeCompare a.1 b.1 ≤ 0 → collation.localeCompare b.1 a.1 ≤ 0 →
    Before (objectEntries labels) a b → Before (objectEntries labels') a b

theorem nodup_objectEntries (labels : Labels) : ((objectEntries labels).map Prod.fst).Nodup :=
  ((objectEntries_perm labels).map Prod.fst).nodup_iff.mpr labels.nodup

theorem tiesAlike_of_antisymm
    (h : ∀ a b, collation.localeCompare a b ≤ 0 → collation.localeCompare b a ≤ 0 → a = b)
    (labels labels' : Labels) : TiesAlike collation labels labels' := by
  intro a b hab hba hbefore
  have hnames := (hbefore.map Prod.fst).nodup (nodup_objectEntries labels)
  rw [List.map_cons, List.map_singleton, h _ _ hab hba] at hnames
  exact absurd hnames (by simp)

theorem sortEntries_eq_iff (collation : Collation) (hperm : labels.entries.Perm labels'.entries) :
    sortEntries collation (objectEntries labels) = sortEntries collation (objectEntries labels') ↔
      TiesAlike collation labels labels' := by
  have trans : ∀ a b c : String × String, decide (collation.localeCompare a.1 b.1 ≤ 0) = true →
      decide (collation.localeCompare b.1 c.1 ≤ 0) = true →
      decide (collation.localeCompare a.1 c.1 ≤ 0) = true := by
    intro a b c hab hbc
    exact decide_eq_true (collation.trans _ _ _ (of_decide_eq_true hab) (of_decide_eq_true hbc))
  have total : ∀ a b : String × String, (decide (collation.localeCompare a.1 b.1 ≤ 0) ||
      decide (collation.localeCompare b.1 a.1 ≤ 0)) = true := by
    intro a b
    simpa using collation.total a.1 b.1
  have hnodup := List.Nodup.of_map _ (nodup_objectEntries labels)
  have hnodup' := List.Nodup.of_map _ (nodup_objectEntries labels')
  constructor
  · intro hsorted a b hab hba hbefore
    have hafter := List.pair_sublist_mergeSort trans total (decide_eq_true hab) hbefore
    have heq : (objectEntries labels).mergeSort _ = (objectEntries labels').mergeSort _ := hsorted
    rw [heq] at hafter
    exact before_of_before_mergeSort trans total hnodup' hafter (decide_eq_true hba)
  · intro hties
    refine mergeSort_eq_of_ties trans total hnodup ?_ ?_
    · exact ((objectEntries_perm labels).trans hperm).trans (objectEntries_perm labels').symm
    · intro a b hab hba
      exact hties a b (of_decide_eq_true hab) (of_decide_eq_true hba)

/-- **Keys that can be read are the same** exactly if the names are, the labels are, and those that
the comparison takes for equal come in the same order. -/
theorem makeKey_eq_iff (collation : Collation) (h : KeyReadable name labels)
    (h' : KeyReadable name' labels') :
    makeKey collation name labels = makeKey collation name' labels' ↔
      name = name' ∧ labels.entries.Perm labels'.entries ∧ TiesAlike collation labels labels' := by
  constructor
  · intro heq
    obtain ⟨hname, hperm⟩ := (parseKey_makeKey_iff collation name labels).mpr h
    obtain ⟨hname', hperm'⟩ := (parseKey_makeKey_iff collation name' labels').mpr h'
    rw [heq] at hname hperm
    have hlabels := hperm.symm.trans hperm'
    refine ⟨hname.symm.trans hname', hlabels, (sortEntries_eq_iff collation hlabels).mp ?_⟩
    -- what is written in the braces is the same, and it is read back in its order
    have htexts := congrArg String.toList heq
    rw [toList_makeKey, toList_makeKey, ← hname, hname'] at htexts
    have hblock := List.append_cancel_left htexts
    have hunquoted : ∀ {name : String} {labels : Labels}, KeyReadable name labels →
        ∀ p ∈ (sortEntries collation (objectEntries labels)).map chars, Unquoted p := by
      intro name labels h p hp
      obtain ⟨e, he, rfl⟩ := List.mem_map.mp hp
      have hmem := (sortEntries_perm collation labels).subset he
      have hreadable := ((if_neg (List.ne_nil_of_mem hmem)).mp h).2.2 e hmem
      refine ⟨fun hquote => ?_, hreadable.unquoted⟩
      exact absurd (hreadable.word _ hquote) (by decide)
    have hread : readBlock (block _ ++ []) = _ := readBlock_block (hunquoted h) nofun
    have hread' : readBlock (block _ ++ []) = _ := readBlock_block (hunquoted h') nofun
    rw [hblock, hread'] at hread
    exact (List.map_injective_iff.mpr chars_injective
      (congrArg Prod.fst (Option.some.inj hread))).symm
  · rintro ⟨rfl, hperm, hties⟩
    apply String.toList_inj.mp
    rw [toList_makeKey, toList_makeKey, (sortEntries_eq_iff collation hperm).mpr hties]

/-! ## Labels with the defaults

A label that is given goes before the default of its name. -/

theorem getEntries_objectEntries (labels : Labels) (k : String) :
    OrderedMap.getEntries k (objectEntries labels) = labels.get k := by
  have hperm : (⟨objectEntries labels, nodup_objectEntries labels⟩ : Labels).entries.Perm
      labels.entries := objectEntries_perm labels
  exact OrderedMap.perm_iff_get.mp hperm k

theorem get_mergeLabels (defaultLabels labels : Labels) (k : String) :
    (mergeLabels defaultLabels labels).get k = (labels.get k).or (defaultLabels.get k) := by
  unfold mergeLabels
  rw [OrderedMap.get_foldl_set_of_nodup (nodup_objectEntries labels),
    OrderedMap.get_foldl_set_of_nodup (nodup_objectEntries defaultLabels),
    getEntries_objectEntries, getEntries_objectEntries, OrderedMap.get_empty, Option.or_none]

/-- The labels read at the front of a text, and what follows them. -/
def readLabels (text : String) : Option (List (String × String) × String) :=
  (readBlock text.toList).map fun (ps, rest) =>
    (ps.map fun p => (String.ofList p.1, String.ofList p.2), String.ofList rest)

/-- **Labels without quotes are read back from their text.** -/
theorem readLabels_formatLabels (h : ∀ e ∈ labels.entries, Unquoted (chars e)) {rest : String}
    (hrest : rest.toList.head? ≠ some '{') :
    readLabels (formatLabels labels ++ rest) = some (objectEntries labels, rest) := by
  have hunquoted : ∀ p ∈ (objectEntries labels).map chars, Unquoted p := by
    intro p hp
    obtain ⟨e, he, rfl⟩ := List.mem_map.mp hp
    exact h e ((objectEntries_perm labels).subset he)
  have hchars : (fun p : Pair => (String.ofList p.1, String.ofList p.2)) ∘ chars = id := by
    funext e
    simp [chars]
  unfold readLabels
  rw [String.toList_append, toList_formatLabels, readBlock_block hunquoted hrest, Option.map_some]
  dsimp only
  rw [List.map_map, hchars, List.map_id, String.ofList_toList]

end MapProtocol.Sdk.TypeScript
