import MapProtocol.Js.Doubles
import MapProtocol.Js.Numbers
import MapProtocol.Lib.PaddedOrder

/-!
# Protocol versions

`compareVersions`, `isVersionCompatible` and `selectVersion`. A version is a text of numbers with
dots between them. Its parts are read by `Number`, so that each is a double, and a part that is too
long is an infinity.

Among versions the comparison is that of their parts filled up with zeros, and sorting is by a total
preorder. Another text may have a part that is no number, which compares as equal to every number;
what `sort` does then is up to the engine.
-/

namespace MapProtocol

open Js
open Std (TransCmp OrientedCmp)

/-- `Number(s)`, as the double it is. -/
def doubleOf (s : String) : Number :=
  match stringToNumber s with
  | .finite q =>
      if isFinite (toDouble q) then .finite (toDouble q)
      else if q < 0 then .negInfinity else .infinity
  | n         => n

/-- `version.split(".").map(Number)`. -/
def versionParts (version : String) : List Number := (split version '.').map doubleOf

/-- `a > b` first, then `a < b`. -/
def compareNumbers (a b : Number) : Ordering :=
  if b.lt a then .gt else if a.lt b then .lt else .eq

/-- The loop of `compareVersions` over the parts. -/
def compareParts : List Number → List Number → Ordering
  | [], []           => .eq
  | a :: as, []      => (compareNumbers a (.finite 0)).then (compareParts as [])
  | [], b :: bs      => (compareNumbers (.finite 0) b).then (compareParts [] bs)
  | a :: as, b :: bs => (compareNumbers a b).then (compareParts as bs)

/-- `compareVersions`: `.lt` is -1, `.eq` is 0 and `.gt` is 1. -/
def compareVersions (a b : String) : Ordering := compareParts (versionParts a) (versionParts b)

inductive CompatibilityMode where
  | backwardCompatible
  | forwardCompatible
  | breakingChange
  deriving DecidableEq, Repr

/-- `const [major] = version.split(".").map(Number)`. -/
def majorOf (version : String) : Number := (versionParts version).headD .nan

def isVersionCompatible (clientVersion serverVersion : String) (mode : CompatibilityMode) : Bool :=
  let comparison := compareVersions clientVersion serverVersion
  let clientMajor := majorOf clientVersion
  let serverMajor := majorOf serverVersion
  let sameMajor := clientMajor == serverMajor && clientMajor != .nan
  match mode with
  | .backwardCompatible => sameMajor && comparison.isGE
  | .forwardCompatible  => sameMajor && comparison.isLE
  | .breakingChange     => clientVersion == serverVersion

/-- The first server version in order that is compatible with the first client version in order that
has one. -/
def searchVersion (mode : CompatibilityMode) (serverVersions : List String) :
    List String → Option String
  | []                        => none
  | clientVer :: clientVersions =>
      match serverVersions.find? fun serverVer => isVersionCompatible clientVer serverVer mode with
      | some serverVer => some serverVer
      | none           => searchVersion mode serverVersions clientVersions

def selectVersion (clientVersions serverVersions : List String) (mode : CompatibilityMode) :
    Option String :=
  let sortedClient := sortedBy compareVersions clientVersions
  let sortedServer := sortedBy compareVersions serverVersions
  searchVersion mode sortedServer sortedClient

/-! ## The order of versions -/

/-- A dotted numeric version: its parts are runs of digits. -/
def IsVersion (version : String) : Prop :=
  ∀ part ∈ split version '.', part ≠ "" ∧ ∀ c ∈ part.toList, isDigit c = true

instance (version : String) : Decidable (IsVersion version) :=
  decidable_of_iff ((split version '.').all (fun part => part ≠ "" && part.toList.all isDigit))
    (by simp [IsVersion])

namespace Js.Number

/-- A number in the order of the numbers; what is no number has a place too. -/
def rank : Number → WithBot (WithTop Rat)
  | .nan         => ((0 : Rat) : WithTop Rat)
  | .negInfinity => ⊥
  | .finite q    => (q : WithTop Rat)
  | .infinity    => (⊤ : WithTop Rat)

theorem lt_iff_rank {a b : Number} (ha : a ≠ .nan) (hb : b ≠ .nan) :
    a.lt b = true ↔ a.rank < b.rank := by
  have htop (q : Rat) : ((q : WithTop Rat) : WithBot (WithTop Rat)) < ((⊤ : WithTop Rat) : _) :=
    WithBot.coe_lt_coe.mpr (WithTop.coe_lt_top q)
  cases a <;> cases b <;> simp_all [Number.lt, rank]

end Js.Number

open Js.Number (rank lt_iff_rank)

theorem compareNumbers_eq {a b : Number} (ha : a ≠ .nan) (hb : b ≠ .nan) :
    compareNumbers a b = compare a.rank b.rank := by
  unfold compareNumbers
  rcases lt_trichotomy a.rank b.rank with hlt | heq | hgt
  · rw [if_neg (by simpa [lt_iff_rank hb ha] using hlt.le), if_pos ((lt_iff_rank ha hb).mpr hlt),
      compare_lt_iff_lt.mpr hlt]
  · rw [if_neg (by simp [lt_iff_rank hb ha, heq]), if_neg (by simp [lt_iff_rank ha hb, heq]),
      compare_eq_iff_eq.mpr heq]
  · rw [if_pos ((lt_iff_rank hb ha).mpr hgt), compare_gt_iff_gt.mpr hgt]

theorem compareParts_eq {as bs : List Number} (has : ∀ a ∈ as, a ≠ .nan)
    (hbs : ∀ b ∈ bs, b ≠ .nan) :
    compareParts as bs = comparePadded (rank (.finite 0)) (as.map rank) (bs.map rank) := by
  have hzero : Number.finite 0 ≠ .nan := nofun
  induction as, bs using compareParts.induct with
  | case1 => simp [compareParts, comparePadded]
  | case2 a as ih =>
      obtain ⟨ha, has⟩ := List.forall_mem_cons.mp has
      simp [compareParts, comparePadded, compareNumbers_eq ha hzero, ih has hbs]
  | case3 b bs ih =>
      obtain ⟨hb, hbs⟩ := List.forall_mem_cons.mp hbs
      simp [compareParts, comparePadded, compareNumbers_eq hzero hb, ih has hbs]
  | case4 a as b bs ih =>
      obtain ⟨ha, has⟩ := List.forall_mem_cons.mp has
      obtain ⟨hb, hbs⟩ := List.forall_mem_cons.mp hbs
      simp [compareParts, comparePadded, compareNumbers_eq ha hb, ih has hbs]

/-- A run of digits is a number. -/
theorem stringToNumber_digits {s : String} (hne : s ≠ "")
    (h : ∀ c ∈ s.toList, isDigit c = true) : ∃ q, stringToNumber s = .finite q := by
  -- a digit is no white space
  have htrim : trim s = s := by
    refine trim_eq_self fun c hc => ?_
    have hdigit := h c hc
    simp only [isDigit, Bool.and_eq_true, decide_eq_true_eq] at hdigit
    have hlow : 48 ≤ c.toNat := hdigit.1
    have hhigh : c.toNat ≤ 57 := hdigit.2
    simp only [isWhiteSpace, Bool.or_eq_false_iff, Bool.and_eq_false_iff, decide_eq_false_iff_not,
      beq_eq_false_iff_ne]
    omega
  have hend : ∀ c ∈ ([] : List Char).head?, isDigit c = false := by simp
  have hspan : s.toList.span isDigit = (s.toList, []) := by simpa using span_digits h hend
  have hdecimal : ∃ q, readDecimal s.toList = some q := by
    unfold readDecimal
    rw [hspan]
    dsimp only
    rw [if_neg (by simpa using hne)]
    exact ⟨_, rfl⟩
  obtain ⟨q, hq⟩ := hdecimal
  have hsigned : readSigned false s.toList = .finite q := by
    unfold readSigned
    rw [if_neg (fun heq => by
      -- `Infinity` starts with no digit
      have hletter := h 'I' (by rw [heq]; decide)
      exact absurd hletter (by decide)), hq]
    rfl
  refine ⟨q, ?_⟩
  unfold stringToNumber
  rw [htrim]
  split
  · rename_i hnil
    exact absurd (String.toList_injective hnil) hne
  all_goals first
    | exact hsigned
    | (rename_i hcons
       rw [hcons] at h
       simp [isDigit] at h)

theorem doubleOf_ne_nan {s : String} (hne : s ≠ "") (h : ∀ c ∈ s.toList, isDigit c = true) :
    doubleOf s ≠ .nan := by
  obtain ⟨q, hq⟩ := stringToNumber_digits hne h
  unfold doubleOf
  rw [hq]
  dsimp only
  split
  · exact nofun
  · split <;> exact nofun

theorem versionParts_ne_nan {version : String} (h : IsVersion version) :
    ∀ n ∈ versionParts version, n ≠ .nan := by
  intro n hn
  obtain ⟨part, hpart, rfl⟩ := List.mem_map.mp hn
  obtain ⟨hne, hdigits⟩ := h part hpart
  exact doubleOf_ne_nan hne hdigits

/-- The parts of a version, as places in the order of the numbers. -/
def versionKey (version : String) : List (WithBot (WithTop Rat)) := (versionParts version).map rank

/-- The comparison of the parts filled up with zeros, for any texts. -/
def compareKeys (a b : String) : Ordering :=
  comparePadded (rank (.finite 0)) (versionKey a) (versionKey b)

instance : TransCmp compareKeys where
  eq_swap := comparePadded_eq_swap _ _ _
  isLE_trans {a b c} := by
    unfold compareKeys
    exact TransCmp.isLE_trans

theorem compareVersions_eq {a b : String} (ha : IsVersion a) (hb : IsVersion b) :
    compareVersions a b = compareKeys a b :=
  compareParts_eq (versionParts_ne_nan ha) (versionParts_ne_nan hb)

/-- The part of a version at place `i`; one that is missing is zero. -/
def versionPart (version : String) (i : Nat) : Number :=
  paddedAt (.finite 0) (versionParts version) i

theorem versionPart_ne_nan {version : String} (h : IsVersion version) (i : Nat) :
    versionPart version i ≠ .nan := by
  unfold versionPart paddedAt
  cases hpart : (versionParts version)[i]? with
  | none => exact nofun
  | some n => exact versionParts_ne_nan h n (List.mem_of_getElem? hpart)

theorem paddedAt_versionKey (version : String) (i : Nat) :
    paddedAt (rank (.finite 0)) (versionKey version) i = (versionPart version i).rank := by
  unfold paddedAt versionKey versionPart paddedAt
  rw [List.getElem?_map]
  cases (versionParts version)[i]? <;> rfl

theorem rank_inj {a b : Number} (ha : a ≠ .nan) (hb : b ≠ .nan) (h : a.rank = b.rank) : a = b := by
  cases a <;> cases b <;> simp_all [rank]

/-- The version is not above the other. -/
def AtMost (a b : String) : Prop := compareVersions a b ≠ .gt

/-- **The comparison is a total preorder, in which missing parts are zeros.** -/
structure ComparesVersions : Prop where
  total   : ∀ a b, IsVersion a → IsVersion b → AtMost a b ∨ AtMost b a
  trans   : ∀ a b c, IsVersion a → IsVersion b → IsVersion c → AtMost a b → AtMost b c → AtMost a c
  swap    : ∀ a b, IsVersion a → IsVersion b → compareVersions b a = (compareVersions a b).swap
  missing : ∀ a b, IsVersion a → IsVersion b → (compareVersions a b = .lt ↔
    ∃ i, (∀ j < i, versionPart a j = versionPart b j) ∧
      (versionPart a i).lt (versionPart b i) = true)

theorem atMost_iff {a b : String} (ha : IsVersion a) (hb : IsVersion b) :
    AtMost a b ↔ (compareKeys a b).isLE = true := by
  unfold AtMost
  rw [compareVersions_eq ha hb, Ordering.isLE_iff_ne_gt]

theorem comparesVersions : ComparesVersions where
  total a b ha hb := by
    have hswap : compareKeys b a = (compareKeys a b).swap := OrientedCmp.eq_swap
    rw [atMost_iff ha hb, atMost_iff hb ha, hswap]
    cases compareKeys a b <;> simp
  trans a b c ha hb hc := by
    rw [atMost_iff ha hb, atMost_iff hb hc, atMost_iff ha hc]
    exact TransCmp.isLE_trans
  swap a b ha hb := by
    rw [compareVersions_eq ha hb, compareVersions_eq hb ha]
    exact OrientedCmp.eq_swap
  missing a b ha hb := by
    rw [compareVersions_eq ha hb]
    unfold compareKeys
    rw [comparePadded_eq_lt_iff]
    simp only [paddedAt_versionKey]
    refine exists_congr fun i => and_congr (forall₂_congr fun j _ => ?_) ?_
    · exact ⟨rank_inj (versionPart_ne_nan ha j) (versionPart_ne_nan hb j), congrArg rank⟩
    · exact (lt_iff_rank (versionPart_ne_nan ha i) (versionPart_ne_nan hb i)).symm

/-! ## The selected version -/

def hasCompatible (mode : CompatibilityMode) (serverVersions : List String) (clientVersion : String) :
    Bool :=
  serverVersions.any fun serverVersion => isVersionCompatible clientVersion serverVersion mode

theorem searchVersion_eq (mode : CompatibilityMode) (servers clients : List String) :
    searchVersion mode servers clients =
      (clients.find? (hasCompatible mode servers)).bind fun client =>
        servers.find? fun server => isVersionCompatible client server mode := by
  induction clients with
  | nil => rfl
  | cons client clients ih =>
      rw [searchVersion]
      cases hfind : servers.find? fun server => isVersionCompatible client server mode with
      | some server =>
          have hhas : hasCompatible mode servers client = true :=
            List.any_eq_true.mpr ⟨server, List.mem_of_find?_eq_some hfind, by
              simpa using List.find?_some hfind⟩
          rw [List.find?_cons_of_pos hhas, Option.bind_some, hfind]
      | none =>
          have hhas : ¬ hasCompatible mode servers client = true := by
            unfold hasCompatible
            rw [List.any_eq_true]
            rintro ⟨server, hserver, hcompatible⟩
            exact List.find?_eq_none.mp hfind server hserver hcompatible
          rw [List.find?_cons_of_neg hhas, ih]

/-- The server version is the highest one that is compatible with the highest client version that has
one. -/
def IsSelected (clients servers : List String) (mode : CompatibilityMode) (server : String) : Prop :=
  ∃ client, IsBest compareVersions (hasCompatible mode servers) clients client ∧
    IsBest compareVersions (fun server => isVersionCompatible client server mode) servers server

/-- Neither list has a version, or the two versions compare equal. -/
def SameVersion : Option String → Option String → Prop
  | some a, some b => compareVersions a b = .eq
  | none, none     => True
  | _, _           => False

section Select

variable {clients servers : List String} {mode : CompatibilityMode}

theorem sortedBy_versions {versions : List String} (h : ∀ v ∈ versions, IsVersion v) :
    sortedBy compareVersions versions = sortedBy compareKeys versions :=
  sortedBy_congr fun a ha b hb => compareVersions_eq (h a ha) (h b hb)

theorem IsBest.ofKeys {versions : List String} {p : String → Bool} {a : String}
    (hversions : ∀ v ∈ versions, IsVersion v) (h : IsBest compareKeys p versions a) :
    IsBest compareVersions p versions a :=
  h.congr (fun _ => Iff.rfl) (fun _ _ => rfl) fun b hb =>
    compareVersions_eq (hversions b hb) (hversions a h.mem)

theorem IsBest.equal_of_same {versions versions' : List String} {p q : String → Bool} {a b : String}
    (hversions : ∀ v ∈ versions, IsVersion v) (hsame : versions'.Perm versions)
    (hp : ∀ v ∈ versions, p v = q v) (h : IsBest compareVersions p versions a)
    (h' : IsBest compareVersions q versions' b) : compareVersions b a = .eq := by
  have ha := hversions a h.mem
  have hb := hversions b (hsame.subset h'.mem)
  have hbest : IsBest compareKeys p versions a :=
    h.congr (fun _ => Iff.rfl) (fun _ _ => rfl) fun v hv =>
      (compareVersions_eq (hversions v hv) ha).symm
  have hbest' : IsBest compareKeys p versions b :=
    h'.congr (fun _ => hsame.mem_iff.symm) (fun v hv => hp v (hsame.subset hv)) fun v hv =>
      (compareVersions_eq (hversions v (hsame.subset hv)) hb).symm
  rw [compareVersions_eq hb ha]
  exact hbest'.equal hbest

theorem hasCompatible_congr {servers' : List String} (h : ∀ v, v ∈ servers' ↔ v ∈ servers) :
    hasCompatible mode servers' = hasCompatible mode servers := by
  funext client
  unfold hasCompatible
  rw [Bool.eq_iff_iff, List.any_eq_true, List.any_eq_true]
  simp only [h]

theorem hasCompatible_iff {client : String} : hasCompatible mode servers client = true ↔
    ∃ server ∈ servers, isVersionCompatible client server mode = true :=
  List.any_eq_true

theorem selectVersion_cases (hclients : ∀ v ∈ clients, IsVersion v)
    (hservers : ∀ v ∈ servers, IsVersion v) :
    selectVersion clients servers mode = none ∧
        (∀ client ∈ clients, ¬ hasCompatible mode servers client = true) ∨
      ∃ server, selectVersion clients servers mode = some server ∧
        IsSelected clients servers mode server := by
  have hselect : selectVersion clients servers mode =
      ((sortedBy compareKeys clients).find? (hasCompatible mode servers)).bind fun client =>
        (sortedBy compareKeys servers).find? fun server => isVersionCompatible client server mode := by
    unfold selectVersion
    dsimp only
    rw [sortedBy_versions hclients, sortedBy_versions hservers, searchVersion_eq,
      hasCompatible_congr fun _ => mem_sortedBy]
  rw [hselect]
  cases hclient : (sortedBy compareKeys clients).find? (hasCompatible mode servers) with
  | none => exact .inl ⟨rfl, find?_sortedBy_eq_none.mp hclient⟩
  | some client =>
      right
      rw [Option.bind_some]
      have hbest := find?_sortedBy hclient
      cases hserver : (sortedBy compareKeys servers).find?
          fun server => isVersionCompatible client server mode with
      | none =>
          obtain ⟨server, hmem, hcompatible⟩ := hasCompatible_iff.mp hbest.takes
          -- the client's version was taken because some server has it
          exact absurd hcompatible (find?_sortedBy_eq_none.mp hserver server hmem)
      | some server =>
          exact ⟨server, rfl, client, hbest.ofKeys hclients,
            (find?_sortedBy hserver).ofKeys hservers⟩

theorem majorOf_eq (version : String) : majorOf version = versionPart version 0 := by
  unfold majorOf versionPart
  rw [paddedAt_zero]
  cases hparts : versionParts version with
  | nil =>
      rw [versionParts, split, List.map_map, List.map_eq_nil_iff] at hparts
      exact absurd hparts (splitChars_ne_nil _)
  | cons n ns => rfl

theorem compatible_congr {client client' server : String} (hclient : IsVersion client)
    (hclient' : IsVersion client') (hserver : IsVersion server)
    (hequal : compareVersions client client' = .eq) (hmode : mode ≠ .breakingChange) :
    isVersionCompatible client server mode = isVersionCompatible client' server mode := by
  rw [compareVersions_eq hclient hclient'] at hequal
  have hpart := comparePadded_eq_eq_iff.mp hequal 0
  rw [paddedAt_versionKey, paddedAt_versionKey] at hpart
  have hmajor : majorOf client = majorOf client' := by
    rw [majorOf_eq, majorOf_eq]
    exact rank_inj (versionPart_ne_nan hclient 0) (versionPart_ne_nan hclient' 0) hpart
  have hcomparison : compareVersions client server = compareVersions client' server := by
    rw [compareVersions_eq hclient hserver, compareVersions_eq hclient' hserver,
      TransCmp.congr_left hequal]
  unfold isVersionCompatible
  rw [hmajor, hcomparison]
  cases mode with
  | breakingChange => exact absurd rfl hmode
  | backwardCompatible => rfl
  | forwardCompatible => rfl

/-- What is selected does not depend on the order of the lists, up to versions that compare equal. -/
theorem IsSelected.equal {clients' servers' : List String} {server server' : String}
    (hclients : ∀ v ∈ clients, IsVersion v) (hservers : ∀ v ∈ servers, IsVersion v)
    (h : IsSelected clients servers mode server)
    (h' : IsSelected clients' servers' mode server') (hsame : clients'.Perm clients)
    (hsame' : servers'.Perm servers) : compareVersions server' server = .eq := by
  obtain ⟨client, hclient, hserver⟩ := h
  obtain ⟨client', hclient', hserver'⟩ := h'
  have hversion := hclients client hclient.mem
  have hversion' := hclients client' (hsame.subset hclient'.mem)
  have hhas := @hasCompatible_congr _ mode _ fun v => @List.Perm.mem_iff _ v _ _ hsame'
  have hequal : compareVersions client' client = .eq :=
    hclient.equal_of_same hclients hsame (fun _ _ => congrFun hhas.symm _) hclient'
  by_cases hmode : mode = .breakingChange
  · subst hmode
    have hsingle : client = server := of_decide_eq_true hserver.takes
    have hsingle' : client' = server' := of_decide_eq_true hserver'.takes
    rw [← hsingle, ← hsingle', hequal]
  · -- clients that compare equal leave the same servers
    exact hserver.equal_of_same hservers hsame' (fun v hv =>
      (compatible_congr hversion' hversion (hservers v hv) hequal hmode).symm) hserver'

theorem selectVersion_eq_none_iff (hclients : ∀ v ∈ clients, IsVersion v)
    (hservers : ∀ v ∈ servers, IsVersion v) :
    selectVersion clients servers mode = none ↔
      ∀ client ∈ clients, ¬ hasCompatible mode servers client = true := by
  rcases @selectVersion_cases _ _ mode hclients hservers with
    ⟨hselect, hall⟩ | ⟨server, hselect, client, hbest, -⟩
  · exact iff_of_true hselect hall
  · refine iff_of_false (by simp [hselect]) fun hall => ?_
    exact hall client hbest.mem hbest.takes

theorem isSelected_of_selectVersion {server : String} (hclients : ∀ v ∈ clients, IsVersion v)
    (hservers : ∀ v ∈ servers, IsVersion v) (h : selectVersion clients servers mode = some server) :
    IsSelected clients servers mode server := by
  rcases @selectVersion_cases _ _ mode hclients hservers with
    ⟨hselect, -⟩ | ⟨server', hselect, hselected⟩
  · rw [h] at hselect
    cases hselect
  · rw [h] at hselect
    cases hselect
    exact hselected

/-- The order of the lists does not matter. -/
theorem sameVersion_perm {clients' servers' : List String} (hclients : ∀ v ∈ clients, IsVersion v)
    (hservers : ∀ v ∈ servers, IsVersion v) (hsame : clients'.Perm clients)
    (hsame' : servers'.Perm servers) :
    SameVersion (selectVersion clients' servers' mode) (selectVersion clients servers mode) := by
  have hclients' : ∀ v ∈ clients', IsVersion v := fun v hv => hclients v (hsame.subset hv)
  have hservers' : ∀ v ∈ servers', IsVersion v := fun v hv => hservers v (hsame'.subset hv)
  have hnone : selectVersion clients' servers' mode = none ↔
      selectVersion clients servers mode = none := by
    rw [selectVersion_eq_none_iff hclients' hservers', selectVersion_eq_none_iff hclients hservers,
      hasCompatible_congr fun v => @List.Perm.mem_iff _ v _ _ hsame']
    simp only [hsame.mem_iff]
  cases hselect : selectVersion clients servers mode with
  | none =>
      rw [hnone.mpr hselect]
      trivial
  | some server =>
      cases hselect' : selectVersion clients' servers' mode with
      | none =>
          rw [hnone.mp hselect'] at hselect
          cases hselect
      | some server' =>
          exact (isSelected_of_selectVersion hclients hservers hselect).equal hclients hservers
            (isSelected_of_selectVersion hclients' hservers' hselect') hsame hsame'

end Select

/-- **The selected version is the best one,** whatever the order of the lists. -/
theorem version_selected {clients servers : List String} (hclients : ∀ v ∈ clients, IsVersion v)
    (hservers : ∀ v ∈ servers, IsVersion v) (mode : CompatibilityMode) :
    ComparesVersions ∧
      (selectVersion clients servers mode = none ↔ ∀ client ∈ clients, ∀ server ∈ servers,
        isVersionCompatible client server mode = false) ∧
      (∀ server, selectVersion clients servers mode = some server →
        IsSelected clients servers mode server) ∧
      ∀ clients' servers', clients'.Perm clients → servers'.Perm servers →
        SameVersion (selectVersion clients' servers' mode) (selectVersion clients servers mode) := by
  have hnone : (∀ client ∈ clients, ¬ hasCompatible mode servers client = true) ↔
      ∀ client ∈ clients, ∀ server ∈ servers, isVersionCompatible client server mode = false := by
    simp only [hasCompatible_iff, not_exists, not_and, Bool.not_eq_true]
  refine ⟨comparesVersions, ?_, ?_, ?_⟩
  · rw [← hnone]
    exact selectVersion_eq_none_iff hclients hservers
  · intro server hselect
    exact isSelected_of_selectVersion hclients hservers hselect
  · intro clients' servers' hsame hsame'
    exact sameVersion_perm hclients hservers hsame hsame'

theorem version_selected_sample :
    (∀ v ∈ ["1.2", "2.0.1", "1.10.0"], IsVersion v) ∧
      ∀ server, selectVersion ["1.2", "2.0.1", "1.10.0"] ["1.10", "1.9.3"] .backwardCompatible =
        some server →
          IsSelected ["1.2", "2.0.1", "1.10.0"] ["1.10", "1.9.3"] .backwardCompatible server :=
  ⟨by decide, (version_selected (by decide) (by decide) .backwardCompatible).2.2.1⟩

end MapProtocol
