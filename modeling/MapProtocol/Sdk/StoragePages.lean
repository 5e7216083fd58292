import MapProtocol.Sdk.Storages

/-!
# Pages of the storages

A list in memory is read in the order of insertion, a directory and a table in the descending order
of a time. Where the times of the records that pass fall in the order of insertion, sorting brings
any arrangement of them into that order (`sortBy_eq`), and a table selects the page that memory gives
(`select_eq`).
-/

namespace MapProtocol.Sdk.Python

open Py

/-! ## Pages -/

theorem passing_eq {passes : Dict → Option Bool} {p : Dict → Bool} {ds : List Dict}
    (h : ∀ d ∈ ds, passes d = some (p d)) : passing passes ds = some (ds.filter p) := by
  induction ds with
  | nil => rfl
  | cons d ds ih =>
      obtain ⟨hd, hds⟩ := List.forall_mem_cons.mp h
      cases hp : p d <;> simp [passing, hd, ih hds, hp]

theorem slice_eq {α : Type} (xs : List α) (start : Nat) {limit : Int} (h : 0 ≤ limit) :
    slice xs start (start + limit) = (xs.drop start).take limit.toNat := by
  have hstop : 0 ≤ (start : Int) + limit := by omega
  have hnat : ((start : Int) + limit).toNat = start + limit.toNat := by omega
  unfold slice
  rw [if_pos hstop, hnat, List.drop_take]
  congr 1
  omega

theorem limited_eq {α : Type} {limit : Int} (h : 0 ≤ limit) (hlarge : limit + 1 < 2 ^ 63)
    (rows : List α) : limited limit rows = some (rows.take limit.toNat) := by
  have hfits : -2 ^ 63 ≤ limit + 1 ∧ limit + 1 < 2 ^ 63 := ⟨by omega, hlarge⟩
  have hslice := slice_eq (rows.take (limit + 1).toNat) 0 h
  rw [Int.natCast_zero, Int.zero_add] at hslice
  unfold limited
  rw [if_pos hfits, if_neg (by omega), hslice, List.drop_zero, List.take_take]
  congr 2
  omega

section

variable {key : String} {limit : Int} {cursor : Option String}

theorem equals_str (v : Value) (s : String) : v.equals (.str s) = true ↔ v = .str s := by
  cases v <;> simp [Value.equals, Value.number?]

theorem pageAfter_start (hlimit : 0 ≤ limit) (hcursor : given cursor = none) (ds : List Dict) :
    pageAfter key limit cursor ds = ds.take limit.toNat := by
  unfold pageAfter
  rw [hcursor]
  exact slice_eq ds 0 hlimit

theorem pageAfter_split (hlimit : 0 ≤ limit) {c : String} (hcursor : given cursor = some c)
    {front rest : List Dict} {d : Dict} (hd : member key d = .str c)
    (hfront : ∀ e ∈ front, member key e ≠ .str c) :
    pageAfter key limit cursor (front ++ d :: rest) = rest.take limit.toNat := by
  have hindex : (front ++ d :: rest).findIdx? (fun e => (member key e).equals (.str c)) =
      some front.length := by
    rw [List.findIdx?_append]
    have hnone : front.findIdx? (fun e => (member key e).equals (.str c)) = none := by
      rw [List.findIdx?_eq_none_iff]
      intro e he
      exact Bool.eq_false_iff.mpr (mt (equals_str _ _).mp (hfront e he))
    have hfound : (member key d).equals (.str c) = true := (equals_str _ _).mpr hd
    simp [hnone, List.findIdx?_cons, hfound]
  unfold pageAfter
  rw [hcursor]
  dsimp only
  rw [hindex]
  have hslice := slice_eq (front ++ d :: rest) (front.length + 1) hlimit
  have hdrop : (front ++ d :: rest).drop (front.length + 1) = rest := by
    simp [List.drop_append]
  rw [hdrop] at hslice
  exact hslice

theorem pageAfter_nil : pageAfter key limit cursor [] = [] := by
  unfold pageAfter slice
  simp

/-- What a call may ask a list for: a limit that is no negative number, and the page after one of the
records that pass. -/
structure Listable (key : String) (limit : Int) (cursor : Option String) (records : List Dict) :
    Prop where
  limit  : 0 ≤ limit ∧ limit + 1 < 2 ^ 63
  cursor : ∀ c, given cursor = some c → records ≠ [] → ∃ d ∈ records, member key d = .str c

/-- A time by which the records can be sorted: texts, unless there is only one record. -/
def Sortable (key : String) (records : List Dict) : Prop :=
  records.length ≤ 1 ∨
    ∀ d ∈ records, ∃ s, (OrderedMap.getEntries key d).getD (.str "") = .str s

theorem sortBy_eq {records ds : List Dict} (hsortable : Sortable key records)
    (hdescending : Descending (textAt key) records) (hperm : ds.Perm records) :
    sortBy key ds = some records := by
  rw [← hdescending.sortDescending_eq hperm]
  unfold sortBy
  refine if_pos ?_
  rw [Bool.or_eq_true, decide_eq_true_eq, hperm.length_eq]
  refine hsortable.imp_right fun htext => ?_
  rw [List.all_map, List.all_eq_true]
  intro d hd
  obtain ⟨s, hs⟩ := htext d (hperm.subset hd)
  simp [hs]

/-- The entries of a store: the records name their keys. -/
def Keyed (key : String) (entries : List (String × Dict)) : Prop :=
  (entries.map Prod.fst).Nodup ∧ ∀ e ∈ entries, member key e.2 = .str e.1

theorem Keyed.filter {entries : List (String × Dict)} (h : Keyed key entries)
    (p : String × Dict → Bool) : Keyed key (entries.filter p) :=
  ⟨(List.filter_sublist.map Prod.fst).nodup h.1, fun e he => h.2 e (List.mem_filter.mp he).1⟩

theorem Keyed.split {entries : List (String × Dict)} (h : Keyed key entries) {c : String}
    {d : Dict} (hd : d ∈ entries.map Prod.snd) (hmember : member key d = .str c) :
    ∃ front rest, entries = front ++ (c, d) :: rest ∧
      ∀ e ∈ front.map Prod.snd, member key e ≠ .str c := by
  obtain ⟨e, he, rfl⟩ := List.mem_map.mp hd
  have hkey : e.1 = c := by
    have hsame := (h.2 e he).symm.trans hmember
    exact Value.str.inj hsame
  obtain ⟨front, rest, hsplit⟩ := List.append_of_mem he
  refine ⟨front, rest, ?_, ?_⟩
  · rw [hsplit, ← hkey]
  · intro e' he' hmember'
    obtain ⟨f, hf, rfl⟩ := List.mem_map.mp he'
    have hentry : f ∈ entries := by
      rw [hsplit]
      exact List.mem_append_left _ hf
    have hfkey : f.1 = c := Value.str.inj ((h.2 f hentry).symm.trans hmember')
    have hnodup := h.1
    rw [hsplit, List.map_append, List.map_cons] at hnodup
    have hdisjoint := (List.nodup_append.mp hnodup).2.2
    exact hdisjoint f.1 (List.mem_map_of_mem hf) e.1 List.mem_cons_self (hfkey.trans hkey.symm)

section

variable {Row : Type} {id time : Row → String} {data : Row → Dict} {passes : Row → Bool}
  {rowOf : String × Dict → Row} {rows : List Row} {entries : List (String × Dict)}

theorem find?_key (hnodup : (entries.map Prod.fst).Nodup)
    (hrows : rows.Perm (entries.map rowOf)) (hid : ∀ e, id (rowOf e) = e.1) {e : String × Dict}
    (he : e ∈ entries) : rows.find? (fun r => id r == e.1) = some (rowOf e) := by
  cases hfind : rows.find? fun r => id r == e.1 with
  | none =>
      have hrow : rowOf e ∈ rows := hrows.symm.subset (List.mem_map_of_mem he)
      have habsent := List.find?_eq_none.mp hfind (rowOf e) hrow
      exact absurd (by simp [hid]) habsent
  | some row =>
      have hmem := hrows.subset (List.mem_of_find?_eq_some hfind)
      have hkey := List.find?_some hfind
      obtain ⟨f, hf, rfl⟩ := List.mem_map.mp hmem
      have hsame : f.1 = e.1 := by simpa [hid] using hkey
      rw [List.inj_on_of_nodup_map hnodup hf he hsame]

theorem find?_no_key (hrows : rows.Perm (entries.map rowOf)) (hid : ∀ e, id (rowOf e) = e.1)
    {c : String} (hc : c ∉ entries.map Prod.fst) : rows.find? (fun r => id r == c) = none := by
  rw [List.find?_eq_none]
  intro row hrow
  obtain ⟨f, hf, rfl⟩ := List.mem_map.mp (hrows.subset hrow)
  rw [hid, beq_iff_eq]
  rintro rfl
  exact hc (List.mem_map_of_mem hf)

theorem find?_data (hnodup : (entries.map Prod.fst).Nodup) (hrows : rows.Perm (entries.map rowOf))
    (hid : ∀ e, id (rowOf e) = e.1) (hdata : ∀ e, data (rowOf e) = e.2) (c : String) :
    (rows.find? fun r => id r == c).map data = OrderedMap.getEntries c entries := by
  cases hget : OrderedMap.getEntries c entries with
  | some d =>
      have hentry := (OrderedMap.getEntries_eq_some hnodup).mp hget
      rw [find?_key hnodup hrows hid hentry, Option.map_some, hdata]
  | none =>
      rw [find?_no_key hrows hid (OrderedMap.getEntries_eq_none.mp hget)]
      rfl

/-- What is selected is the list of entries that it arranges. -/
theorem page_of_selected {host : Host} {q : Row → Bool} {selected : List (String × Dict)}
    (hrows : rows.Perm (entries.map rowOf)) (hdata : ∀ e, data (rowOf e) = e.2)
    (hselected : entries.filter (q ∘ rowOf) = selected)
    (hdescending : Descending (time ∘ rowOf) selected) (hlimit : 0 ≤ limit)
    (hlarge : limit + 1 < 2 ^ 63) :
    (limited limit (sortDescending time ((host.scan rows).filter q))).map
        (fun rows => rows.map data) =
      some ((selected.map Prod.snd).take limit.toNat) := by
  have hperm : ((host.scan rows).filter q).Perm (selected.map rowOf) := by
    rw [← hselected, ← List.filter_map]
    exact ((host.scan_perm rows).trans hrows).filter q
  have hsorted := (Descending.map_iff.mpr hdescending).sortDescending_eq hperm
  rw [hsorted, limited_eq hlimit hlarge, Option.map_some, ← List.map_take, List.map_map,
    List.map_take]
  have hcomp : data ∘ rowOf = Prod.snd := funext hdata
  rw [hcomp]

/-- The rows that a statement selects, and keeps behind the cursor, are those of the entries selected. -/
theorem select_selected (host : Host) {p : Dict → Bool} {before : Row → Bool}
    {selected : List (String × Dict)} (hrows : rows.Perm (entries.map rowOf))
    (hdata : ∀ e, data (rowOf e) = e.2) (hpasses : ∀ e ∈ entries, passes (rowOf e) = p e.2)
    (hbefore : ∀ row, SQLiteStorage.isBefore id time cursor rows row = before row)
    (hselected : (entries.filter fun e => p e.2).filter (before ∘ rowOf) = selected)
    (hfalls : Descending (time ∘ rowOf) selected) (hlimit : 0 ≤ limit) (hlarge : limit + 1 < 2 ^ 63) :
    SQLiteStorage.select host id time data passes limit cursor rows =
      .page ((selected.map Prod.snd).take limit.toNat) := by
  have hall : entries.filter ((fun row => passes row && before row) ∘ rowOf) = selected := by
    rw [← hselected, List.filter_filter]
    refine List.filter_congr fun e he => ?_
    simp [hpasses e he, Bool.and_comm]
  have hpage : (limited limit (sortDescending time ((host.scan rows).filter
      fun row => passes row && before row))).map (fun rows => rows.map data) =
        some ((selected.map Prod.snd).take limit.toNat) :=
    page_of_selected hrows hdata hall hfalls hlimit hlarge
  unfold SQLiteStorage.select
  simp only [hbefore]
  cases hlimited : limited limit (sortDescending time
      ((host.scan rows).filter fun row => passes row && before row)) with
  | none =>
      rw [hlimited] at hpage
      cases hpage
  | some rows =>
      rw [hlimited] at hpage
      exact congrArg StorageResult.page (Option.some.inj hpage)

/-- **A page of a table is the page of the entries in memory,** where their times fall in order. -/
theorem select_eq (host : Host) {p : Dict → Bool} (hkeyed : Keyed key entries)
    (hrows : rows.Perm (entries.map rowOf)) (hid : ∀ e, id (rowOf e) = e.1)
    (hdata : ∀ e, data (rowOf e) = e.2) (hpasses : ∀ e ∈ entries, passes (rowOf e) = p e.2)
    (hlist : Listable key limit cursor ((entries.map Prod.snd).filter p))
    (hdescending : Descending (time ∘ rowOf) (entries.filter fun e => p e.2)) :
    SQLiteStorage.select host id time data passes limit cursor rows =
      .page (pageAfter key limit cursor ((entries.map Prod.snd).filter p)) := by
  obtain ⟨⟨hlimit, hlarge⟩, hcursor⟩ := hlist
  have hmap : (entries.map Prod.snd).filter p = (entries.filter fun e => p e.2).map Prod.snd :=
    List.filter_map
  rw [hmap] at hcursor ⊢
  cases hgiven : given cursor with
  | none =>
      rw [pageAfter_start hlimit hgiven]
      have hall (row : Row) : SQLiteStorage.isBefore id time cursor rows row = true := by
        unfold SQLiteStorage.isBefore
        rw [hgiven]
      exact select_selected host hrows hdata hpasses hall (List.filter_true _) hdescending hlimit hlarge
  | some c =>
      by_cases hempty : (entries.filter fun e => p e.2) = []
      · rw [hempty, List.map_nil, pageAfter_nil]
        have hnone : (entries.filter fun e => p e.2).filter
            (SQLiteStorage.isBefore id time cursor rows ∘ rowOf) = [] := by
          rw [hempty, List.filter_nil]
        refine (select_selected host hrows hdata hpasses (fun _ => rfl) hnone .nil hlimit hlarge).trans ?_
        rw [List.map_nil, List.take_nil]
      · obtain ⟨d, hd, hmember⟩ := hcursor c hgiven (by simpa using hempty)
        obtain ⟨front, rest, hsplit, hfront⟩ :=
          (hkeyed.filter fun e => p e.2).split hd hmember
        have hentry : (c, d) ∈ entries := by
          have hfiltered : (c, d) ∈ entries.filter fun e => p e.2 := by
            rw [hsplit]
            exact List.mem_append_right _ List.mem_cons_self
          exact (List.mem_filter.mp hfiltered).1
        have hfound := find?_key hkeyed.1 hrows hid hentry
        have hbelow (row : Row) : SQLiteStorage.isBefore id time cursor rows row =
            decide (time row < time (rowOf (c, d))) := by
          unfold SQLiteStorage.isBefore
          rw [hgiven]
          dsimp only
          rw [hfound]
          rfl
        rw [hsplit] at hdescending
        -- the entries whose times are below that of the cursor are those behind it
        have hbehind : (entries.filter fun e => p e.2).filter
            ((fun row => decide (time row < time (rowOf (c, d)))) ∘ rowOf) = rest := by
          rw [hsplit]
          exact hdescending.filter_below
        rw [hsplit, List.map_append, List.map_cons, pageAfter_split hlimit hgiven hmember hfront]
        exact select_selected host hrows hdata hpasses hbelow hbehind
          (List.pairwise_cons.mp (List.pairwise_append.mp hdescending).2.1).2 hlimit hlarge

end

end

end MapProtocol.Sdk.Python
