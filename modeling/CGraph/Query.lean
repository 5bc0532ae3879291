import CGraph.Dedup

/-!
# Queries on a start symbol

A well-formed start symbol is a reader whose decoded parts fit together as the writer lays them out
(spec §3): one label and one index-function id per edge, ids inside the table, index
functions of at most `LIMIT_MAX_RANK` entries that point into the edge's column. On such a
start symbol each call of `startsymbol_neighborhood_next` returns the edge `decode`
describes, unless the column buffer of that edge cannot be allocated, and the three query
modes enumerate the edges the spec promises, in ascending order. One does not: with no
non-wildcard entry in the pattern, `EXACT` and `CONTAINS` seed the row iterator from
`n->nodes[0]`, which the call never writes, so the edges returned are the row of whatever the
caller's memory held there, not every edge.

The last section drops the fit: `get_edge` on a reader of arbitrary bytes.
-/
namespace CGraph.StartSymbol

/-- A start symbol as the writer lays it out: `matrix.cols` edges, each with a label and an
index-function id inside the table; the index functions have at most `LIMIT_MAX_RANK`
entries, and those of an edge point into the edge's column. -/
structure WellFormed where
  reader : StartSymbolReader
  labels_n : reader.labels.n = reader.matrix.cols
  edgeIfs_lt : ∀ e < reader.matrix.cols, 0 ≤ reader.edgeIfs e ∧ reader.edgeIfs e < reader.ifCount
  ifGet_le : ∀ i : Nat, i < reader.ifCount → (reader.ifGet i).length ≤ limitMaxRank
  ifGet_lt : ∀ e < reader.matrix.cols, ∀ k ∈ reader.ifGet (reader.edgeIfs e),
    0 ≤ k ∧ k < (k2ColumnList reader.matrix e).length

namespace WellFormed

/-- The number `m` of edges. -/
def edgeCount (S : WellFormed) : Nat := S.reader.matrix.cols

/-- The edge of id `e`: label `labels[e]`, rank `|IF(e)|` and nodes `column(e)[IF(e)[j]]`. -/
def decode (S : WellFormed) (e : Nat) : StEdge :=
  let f := S.reader.ifGet (S.reader.edgeIfs e)
  ⟨S.reader.labels.get e, f.length, f.map fun k => (k2ColumnList S.reader.matrix e).getD k.toNat 0⟩

/-- What the calls return for the edges `es`: the edge, or `-1` where the column buffer of
the edge cannot be allocated. -/
def withFailures (S : WellFormed) (es : List Nat) : List NextResult :=
  es.map fun e => if S.reader.matrix.columnFails e then .error else .edge (S.decode e)

/-- The calls the spec describes for the edges `es`: each edge decoded, then `0`. -/
def decodedRun (S : WellFormed) (es : List Nat) : List NextResult :=
  es.map (fun e => .edge (S.decode e)) ++ [.done]

/-- The edges whose column holds every non-wildcard entry of the pattern, ascending. -/
def matching (S : WellFormed) (p : List Int) : List Nat :=
  (List.range S.edgeCount).filter fun e =>
    p.all fun v => v = cgraphNodesAll || k2Get S.reader.matrix v e

end WellFormed

/-! ## `get_edge` on a start symbol -/

theorem mapM_columnAt {col : List Nat} {l : List Int}
    (h : ∀ k ∈ l, 0 ≤ k ∧ k < col.length) :
    l.mapM (columnAt col) = some (l.map fun k => col.getD k.toNat 0) := by
  induction l with
  | nil => rfl
  | cons k l ih =>
      obtain ⟨h₀, h₁⟩ := h k (List.mem_cons_self k l)
      have hk : columnAt col k = some (col.getD k.toNat 0) := by
        simp [columnAt, h₀, List.getD_eq_getElem?_getD, List.getElem?_eq_getElem (by omega : k.toNat < col.length)]
      rw [List.mapM_cons, hk, ih (fun k' h' => h k' (List.mem_cons_of_mem k h'))]
      rfl

theorem getEdge_startSymbol (S : WellFormed) (n : StartSymbolNeighborhood) {e : Nat}
    (he : e < S.edgeCount) :
    getEdge S.reader n e = if adjacent S.reader n e then
      (if S.reader.matrix.columnFails e then .error else .edge (S.decode e)) else .skip := by
  obtain ⟨h₀, h₁⟩ := S.edgeIfs_lt e he
  have hle := S.ifGet_le (S.reader.edgeIfs e).toNat (by omega)
  rw [Int.toNat_of_nonneg h₀] at hle
  unfold getEdge k2Column
  split_ifs with hadj hfail
  · rfl
  · simp only [fillEdge, Nat.not_lt.mpr hle, ↓reduceIte, mapM_columnAt (S.ifGet_lt e he)]
    rfl
  · rfl

theorem emitted_startSymbol (S : WellFormed) (n : StartSymbolNeighborhood) {cs : List Nat}
    (hcs : ∀ e ∈ cs, e < S.edgeCount) :
    emitted S.reader n cs = S.withFailures (cs.filter (adjacent S.reader n)) := by
  induction cs with
  | nil => rfl
  | cons e cs ih =>
      have ih := ih (fun e' h => hcs e' (List.mem_cons_of_mem e h))
      simp only [emitted, List.filterMap_cons,
        getEdge_startSymbol S n (hcs e (List.mem_cons_self e cs))] at ih ⊢
      rw [ih]
      by_cases hadj : adjacent S.reader n e <;> by_cases hfail : S.reader.matrix.columnFails e <;>
        simp [hadj, hfail, EdgeResult.emit, WellFormed.withFailures]

/-- Where no call returns `-1`, the calls are those the spec describes. -/
theorem take_withFailures (S : WellFormed) (es : List Nat) (k : Nat)
    (h : NextResult.error ∉ (S.withFailures es ++ [NextResult.done]).take k) :
    (S.withFailures es ++ [NextResult.done]).take k = (S.decodedRun es).take k := by
  induction es generalizing k with
  | nil => rfl
  | cons e es ih =>
      cases k with
      | zero => rfl
      | succ k =>
          by_cases hfail : S.reader.matrix.columnFails e
          · simp [WellFormed.withFailures, hfail] at h
          · simp only [WellFormed.withFailures, WellFormed.decodedRun, hfail, List.map_cons,
              List.cons_append, List.take_succ_cons, List.mem_cons, not_or] at h ⊢
            exact congrArg _ (ih k h.2)

theorem length_withFailures (S : WellFormed) (es : List Nat) :
    (S.withFailures es).length = es.length :=
  List.length_map _ _

/-- The prefix form of a run: the first `k` calls, as long as none returns `-1`. -/
theorem nextCalls_until_error (S : WellFormed) {n : StartSymbolNeighborhood} {es : List Nat}
    (hrun : nextCalls S.reader (es.length + 1) n = S.withFailures es ++ [NextResult.done]) {k : Nat}
    (hk : k ≤ es.length + 1) (herr : NextResult.error ∉ nextCalls S.reader k n) :
    nextCalls S.reader k n = (S.decodedRun es).take k := by
  rw [nextCalls_take S.reader n hk, hrun] at herr ⊢
  exact take_withFailures S es k herr

/-! ## The pattern as the neighborhood holds it -/

theorem neighborhood_some (s : StartSymbolReader) (q : QueryType) (p : List Int)
    (n : StartSymbolNeighborhood) :
    (startsymbolNeighborhood s q (some p) n).nodes =
        markDuplicates (nonWildcards p).length (copyNodes n.nodes 0 p).1 ∧
      (startsymbolNeighborhood s q (some p) n).rank = (nonWildcards p).length := by
  cases q <;> simp [startsymbolNeighborhood, copyNodes_eq]

/-- The neighborhood holds, below its rank, exactly the non-wildcard values of the pattern. -/
theorem neighborhood_values (s : StartSymbolReader) (q : QueryType) (p : List Int)
    (n : StartSymbolNeighborhood) (v : Int) (hv : v ≠ cgraphNodesAll) :
    (∃ k < (startsymbolNeighborhood s q (some p) n).rank.toNat,
      (startsymbolNeighborhood s q (some p) n).nodes k = v) ↔ v ∈ p := by
  obtain ⟨hnodes, hrank⟩ := neighborhood_some s q p n
  rw [hnodes, hrank, Int.toNat_ofNat, (markDuplicates_spec _ _).1 v hv]
  constructor
  · rintro ⟨k, hk, rfl⟩
    rw [(copyNodes_zero _ _ k).1, if_pos hk, List.getD_eq_getElem _ _ hk]
    exact (mem_nonWildcards.mp (List.getElem_mem _)).1
  · intro hp
    obtain ⟨k, hk, hkv⟩ := List.getElem_of_mem (mem_nonWildcards.mpr ⟨hp, hv⟩)
    exact ⟨k, hk, by rw [(copyNodes_zero _ _ k).1, if_pos hk, List.getD_eq_getElem _ _ hk, hkv]⟩

/-- The incidence filter of a pattern query tests every non-wildcard entry of the pattern. -/
theorem adjacent_some (s : StartSymbolReader) (q : QueryType) (p : List Int)
    (n : StartSymbolNeighborhood) (e : Nat) :
    adjacent s (startsymbolNeighborhood s q (some p) n) e =
      p.all fun v => v = cgraphNodesAll || k2Get s.matrix v e := by
  have hval := neighborhood_values s q p n
  rw [Bool.eq_iff_iff, adjacent, List.all_eq_true, List.all_eq_true]
  simp only [List.mem_range, Bool.or_eq_true, decide_eq_true_eq]
  constructor
  · intro h v hp
    by_cases hv : v = cgraphNodesAll
    · exact .inl hv
    · obtain ⟨k, hk, rfl⟩ := (hval v hv).mpr hp
      exact h k hk
  · intro h k hk
    by_cases hv : (startsymbolNeighborhood s q (some p) n).nodes k = cgraphNodesAll
    · exact .inl hv
    · exact h _ ((hval _ hv).mp ⟨k, hk, rfl⟩)

/-- With a non-wildcard entry, the row iterator is seeded with the first of them. -/
theorem neighborhood_seed (s : StartSymbolReader) (q : QueryType) (p : List Int)
    (n : StartSymbolNeighborhood) (hp : ∃ v ∈ p, v ≠ cgraphNodesAll) :
    (startsymbolNeighborhood s q (some p) n).nodes 0 = (nonWildcards p).getD 0 0 := by
  have hlen : 0 < (nonWildcards p).length := by
    obtain ⟨v, hv, hne⟩ := hp
    exact List.length_pos_of_mem (mem_nonWildcards.mpr ⟨hv, hne⟩)
  rw [(neighborhood_some s q p n).1, (markDuplicates_spec _ _).2.1, (copyNodes_zero _ _ 0).1,
    if_pos hlen]

/-- For a pattern, `startsymbol_neighborhood` leaves in `n->nodes[0 .. n->rank)` each
non-wildcard value of the pattern exactly once, the first of them in front. -/
theorem neighborhood_dedup (s : StartSymbolReader) (q : QueryType) (p : List Int)
    (n : StartSymbolNeighborhood) :
    (startsymbolNeighborhood s q (some p) n).rank = (nonWildcards p).length ∧
      (∀ i j, i < j → j < (startsymbolNeighborhood s q (some p) n).rank.toNat →
        (startsymbolNeighborhood s q (some p) n).nodes i ≠ cgraphNodesAll →
        (startsymbolNeighborhood s q (some p) n).nodes i ≠
          (startsymbolNeighborhood s q (some p) n).nodes j) ∧
      (∀ v, v ≠ cgraphNodesAll →
        ((∃ k < (startsymbolNeighborhood s q (some p) n).rank.toNat,
          (startsymbolNeighborhood s q (some p) n).nodes k = v) ↔ v ∈ p)) ∧
      (0 < (startsymbolNeighborhood s q (some p) n).rank →
        p.find? (fun v => v ≠ cgraphNodesAll) =
          some ((startsymbolNeighborhood s q (some p) n).nodes 0)) := by
  obtain ⟨hnodes, hrank⟩ := neighborhood_some s q p n
  refine ⟨hrank, fun i j hij hj hi => ?_, neighborhood_values s q p n, fun hpos => ?_⟩
  · rw [hrank, Int.toNat_ofNat] at hj
    rw [hnodes] at hi ⊢
    exact markDuplicates_ne hij hj hi
  · have hlen : 0 < (nonWildcards p).length := by rw [hrank] at hpos; exact_mod_cast hpos
    have hv := mem_nonWildcards.mp (List.getElem_mem hlen)
    rw [← List.filter_head?, neighborhood_seed s q p n ⟨_, hv.1, hv.2⟩]
    show (nonWildcards p).head? = _
    cases hnw : nonWildcards p with
    | nil => simp [hnw] at hlen
    | cons v vs => rfl

/-- A pattern without a non-wildcard entry writes no entry of `n->nodes`. -/
theorem neighborhood_wildcards (s : StartSymbolReader) (q : QueryType) (p : List Int)
    (n : StartSymbolNeighborhood) (hp : ∀ v ∈ p, v = cgraphNodesAll) :
    (startsymbolNeighborhood s q (some p) n).nodes = n.nodes ∧
      (startsymbolNeighborhood s q (some p) n).rank = 0 := by
  have hf : nonWildcards p = [] := by
    simpa [nonWildcards, List.filter_eq_nil_iff] using hp
  obtain ⟨hnodes, hrank⟩ := neighborhood_some s q p n
  rw [hf] at hnodes hrank
  refine ⟨?_, hrank⟩
  rw [hnodes, copyNodes_eq, hf]
  funext k
  simp [markDuplicates]

theorem neighborhood_it (s : StartSymbolReader) {q : QueryType} (hq : q = .exact ∨ q = .contains)
    (nodes : Option (List Int)) (n : StartSymbolNeighborhood) :
    (startsymbolNeighborhood s q nodes n).it =
      k2Row s.matrix ((startsymbolNeighborhood s q nodes n).nodes 0) := by
  rcases hq with rfl | rfl <;> cases nodes <;> rfl

theorem candidates_row (s : StartSymbolReader) {q : QueryType} (hq : q = .exact ∨ q = .contains)
    (nodes : Option (List Int)) (n : StartSymbolNeighborhood) :
    candidates (startsymbolNeighborhood s q nodes n) =
      some (k2Row s.matrix ((startsymbolNeighborhood s q nodes n).nodes 0)) := by
  rcases hq with rfl | rfl <;> cases nodes <;> rfl

theorem mem_k2Row {m : K2Reader} {r : Int} {e : Nat} (h : e ∈ k2Row m r) : e < m.cols :=
  List.mem_range.mp (List.mem_filter.mp h).1

theorem adjacent_null (s : StartSymbolReader) (q : QueryType) (n : StartSymbolNeighborhood)
    (e : Nat) : adjacent s (startsymbolNeighborhood s q none n) e = true := by
  cases q <;> rfl

theorem candidates_decompress (s : StartSymbolReader) (n : StartSymbolNeighborhood) :
    candidates (startsymbolNeighborhood s .decompress none n) = some (List.range s.labels.n) := by
  simp [startsymbolNeighborhood, candidates, startsymbolIter, List.range_eq_range']

/-- Two nodes and two edges of rank one, edge `e` incident to node `e` only. -/
def twoEdges : WellFormed where
  reader :=
    { matrix := ⟨2, 2, fun r c => r == c, fun _ => false⟩
      labels := ⟨2, fun e => e⟩
      edgeIfs := fun _ => 0
      ifCount := 1
      ifGet := fun _ => [0] }
  labels_n := rfl
  edgeIfs_lt := by decide
  ifGet_le := by decide
  ifGet_lt := by decide

/-- A neighborhood left over from an earlier query: every node entry holds `0`. -/
def staleNeighborhood : StartSymbolNeighborhood :=
  ⟨fun _ => 0, 0, .decompress, [], ⟨0, 0, false⟩⟩

/-! ## The three query modes -/

/-- A pattern query draws the row of its first node and keeps what matches the rest. -/
theorem nextCalls_matching (S : WellFormed) {q : QueryType} (hq : q = .exact ∨ q = .contains)
    (p : List Int) (hp : ∃ v ∈ p, v ≠ cgraphNodesAll) (n : StartSymbolNeighborhood) :
    nextCalls S.reader ((S.matching p).length + 1) (startsymbolNeighborhood S.reader q (some p) n) =
      S.withFailures (S.matching p) ++ [.done] := by
  set n' := startsymbolNeighborhood S.reader q (some p) n
  have hv0 : n'.nodes 0 ∈ p ∧ n'.nodes 0 ≠ cgraphNodesAll := by
    obtain ⟨v, hv, hne⟩ := hp
    have hlen := List.length_pos_of_mem (mem_nonWildcards.mpr ⟨hv, hne⟩)
    rw [neighborhood_seed S.reader q p n ⟨v, hv, hne⟩, List.getD_eq_getElem _ _ hlen]
    exact mem_nonWildcards.mp (List.getElem_mem hlen)
  have hsel : (k2Row S.reader.matrix (n'.nodes 0)).filter (adjacent S.reader n') = S.matching p := by
    rw [k2Row, List.filter_filter, WellFormed.matching]
    refine List.filter_congr fun e _ => ?_
    rw [adjacent_some]
    cases hall : p.all fun v => v = cgraphNodesAll || k2Get S.reader.matrix v e
    · rfl
    · simp only [List.all_eq_true, Bool.or_eq_true, decide_eq_true_eq] at hall
      simpa [hv0.2] using hall _ hv0.1
  have hrun := nextCalls_candidates S.reader (candidates_row S.reader hq (some p) n)
  rwa [emitted_startSymbol S n' (fun e h => mem_k2Row h), hsel, length_withFailures] at hrun

/-- `EXACT` and `CONTAINS` with a node: as long as no call returns `-1`, the calls return
each edge whose column holds every non-wildcard entry of the pattern, decoded, in ascending
order, and then `0`. -/
theorem neighborhood_next_pattern (S : WellFormed) {q : QueryType}
    (hq : q = .exact ∨ q = .contains) (p : List Int) (hp : ∃ v ∈ p, v ≠ cgraphNodesAll)
    (n : StartSymbolNeighborhood) {k : Nat} (hk : k ≤ (S.matching p).length + 1)
    (herr : NextResult.error ∉ nextCalls S.reader k (startsymbolNeighborhood S.reader q (some p) n)) :
    nextCalls S.reader k (startsymbolNeighborhood S.reader q (some p) n) =
      (S.decodedRun (S.matching p)).take k :=
  nextCalls_until_error S (nextCalls_matching S hq p hp n) hk herr

theorem neighborhood_next_pattern_two_edges :
    (∃ v ∈ [(1 : Int)], v ≠ cgraphNodesAll) ∧ 2 ≤ (twoEdges.matching [1]).length + 1 ∧
      NextResult.error ∉ nextCalls twoEdges.reader 2
        (startsymbolNeighborhood twoEdges.reader .exact (some [1]) staleNeighborhood) ∧
      nextCalls twoEdges.reader 2
          (startsymbolNeighborhood twoEdges.reader .exact (some [1]) staleNeighborhood) =
        (twoEdges.decodedRun (twoEdges.matching [1])).take 2 := by
  have hp : ∃ v ∈ [(1 : Int)], v ≠ cgraphNodesAll := ⟨1, List.mem_singleton_self 1, by decide⟩
  have hrun := nextCalls_matching twoEdges (Or.inl rfl) [1] hp staleNeighborhood
  have herr : NextResult.error ∉ nextCalls twoEdges.reader 2
      (startsymbolNeighborhood twoEdges.reader .exact (some [1]) staleNeighborhood) := by
    rw [show 2 = (twoEdges.matching [1]).length + 1 by decide, hrun]
    decide
  exact ⟨hp, by decide, herr,
    neighborhood_next_pattern twoEdges (Or.inl rfl) [1] hp staleNeighborhood (by decide) herr⟩

theorem nextCalls_decompress (S : WellFormed) (n : StartSymbolNeighborhood) :
    nextCalls S.reader (S.reader.labels.n + 1) (startsymbolNeighborhood S.reader .decompress none n) =
      S.withFailures (List.range S.reader.labels.n) ++ [.done] := by
  have hrun := nextCalls_candidates S.reader (candidates_decompress S.reader n)
  have hlt : ∀ e ∈ List.range S.reader.labels.n, e < S.edgeCount := fun e h => by
    rw [WellFormed.edgeCount, ← S.labels_n]
    exact List.mem_range.mp h
  rwa [emitted_startSymbol S _ hlt, List.filter_eq_self.mpr (fun e _ => adjacent_null _ _ _ e),
    length_withFailures, List.length_range] at hrun

/-- `DECOMPRESS`: as long as no call returns `-1`, the calls return the edges `0 … m-1`
decoded, none filtered out, and then `0`. -/
theorem neighborhood_next_decompress (S : WellFormed) (n : StartSymbolNeighborhood) {k : Nat}
    (hk : k ≤ S.reader.labels.n + 1)
    (herr : NextResult.error ∉
      nextCalls S.reader k (startsymbolNeighborhood S.reader .decompress none n)) :
    nextCalls S.reader k (startsymbolNeighborhood S.reader .decompress none n) =
      (S.decodedRun (List.range S.reader.labels.n)).take k := by
  have hlen := List.length_range S.reader.labels.n
  exact @nextCalls_until_error S _ (List.range S.reader.labels.n)
    (by rw [hlen]; exact nextCalls_decompress S n) k (by rw [hlen]; exact hk) herr

theorem neighborhood_next_decompress_two_edges :
    NextResult.error ∉ nextCalls twoEdges.reader 3
        (startsymbolNeighborhood twoEdges.reader .decompress none staleNeighborhood) ∧
      nextCalls twoEdges.reader 3
          (startsymbolNeighborhood twoEdges.reader .decompress none staleNeighborhood) =
        (twoEdges.decodedRun (List.range 2)).take 3 := by
  have herr : NextResult.error ∉ nextCalls twoEdges.reader 3
      (startsymbolNeighborhood twoEdges.reader .decompress none staleNeighborhood) := by
    rw [show 3 = twoEdges.reader.labels.n + 1 from rfl, nextCalls_decompress twoEdges staleNeighborhood]
    decide
  exact ⟨herr, neighborhood_next_decompress twoEdges staleNeighborhood (by decide) herr⟩

theorem nextCalls_wildcards (S : WellFormed) {q : QueryType} (hq : q = .exact ∨ q = .contains)
    (p : List Int) (hp : ∀ v ∈ p, v = cgraphNodesAll) (n : StartSymbolNeighborhood) :
    nextCalls S.reader ((k2Row S.reader.matrix (n.nodes 0)).length + 1)
        (startsymbolNeighborhood S.reader q (some p) n) =
      S.withFailures (k2Row S.reader.matrix (n.nodes 0)) ++ [.done] := by
  obtain ⟨hnodes, hrank⟩ := neighborhood_wildcards S.reader q p n hp
  have hrun := nextCalls_candidates S.reader (candidates_row S.reader hq (some p) n)
  have hadj : ∀ e, adjacent S.reader (startsymbolNeighborhood S.reader q (some p) n) e = true := by
    intro e; simp [adjacent, hrank]
  rwa [emitted_startSymbol S _ (fun e h => mem_k2Row h), List.filter_eq_self.mpr (fun e _ => hadj e),
    length_withFailures, hnodes] at hrun

/-- `EXACT` and `CONTAINS` with no node: the call writes no entry of `n->nodes` and seeds the
row iterator with `n->nodes[0]` as it was; as long as no call returns `-1`, the calls return
the edges of that row, none filtered out, and then `0`. -/
theorem neighborhood_next_wildcards (S : WellFormed) {q : QueryType}
    (hq : q = .exact ∨ q = .contains) (p : List Int) (hp : ∀ v ∈ p, v = cgraphNodesAll)
    (n : StartSymbolNeighborhood) {k : Nat}
    (hk : k ≤ (k2Row S.reader.matrix (n.nodes 0)).length + 1)
    (herr : NextResult.error ∉ nextCalls S.reader k (startsymbolNeighborhood S.reader q (some p) n)) :
    (startsymbolNeighborhood S.reader q (some p) n).rank = 0 ∧
      (startsymbolNeighborhood S.reader q (some p) n).it = k2Row S.reader.matrix (n.nodes 0) ∧
      nextCalls S.reader k (startsymbolNeighborhood S.reader q (some p) n) =
        (S.decodedRun (k2Row S.reader.matrix (n.nodes 0))).take k := by
  obtain ⟨hnodes, hrank⟩ := neighborhood_wildcards S.reader q p n hp
  refine ⟨hrank, ?_, nextCalls_until_error S (nextCalls_wildcards S hq p hp n) hk herr⟩
  rw [neighborhood_it S.reader hq, hnodes]

/-- The all-wildcard query reads memory the call never wrote. On the start symbol `twoEdges`
the empty pattern in `EXACT` mode leaves `n->nodes` as an earlier query left it and seeds the
row iterator with the stale `n->nodes[0] = 0`, whose row holds edge `0` only: the calls return
edge `0` and then `0`, where the edge ids `0, 1` in ascending order would return edge `1`
second. -/
theorem wildcard_query_reads_stale_row :
    (startsymbolNeighborhood twoEdges.reader .exact (some []) staleNeighborhood).nodes =
        staleNeighborhood.nodes ∧
      (startsymbolNeighborhood twoEdges.reader .exact (some []) staleNeighborhood).it =
        k2Row twoEdges.reader.matrix (staleNeighborhood.nodes 0) ∧
      NextResult.error ∉ nextCalls twoEdges.reader 2
        (startsymbolNeighborhood twoEdges.reader .exact (some []) staleNeighborhood) ∧
      nextCalls twoEdges.reader 2
          (startsymbolNeighborhood twoEdges.reader .exact (some []) staleNeighborhood) =
        (twoEdges.decodedRun (k2Row twoEdges.reader.matrix (staleNeighborhood.nodes 0))).take 2 ∧
      nextCalls twoEdges.reader 2
          (startsymbolNeighborhood twoEdges.reader .exact (some []) staleNeighborhood) ≠
        (twoEdges.decodedRun (List.range twoEdges.edgeCount)).take 2 := by
  have hrun := nextCalls_wildcards twoEdges (Or.inl rfl) [] (by simp) staleNeighborhood
  rw [show (k2Row twoEdges.reader.matrix (staleNeighborhood.nodes 0)).length + 1 = 2 by decide] at hrun
  obtain ⟨hnodes, -⟩ := neighborhood_wildcards twoEdges.reader .exact [] staleNeighborhood (by simp)
  refine ⟨hnodes, by rw [neighborhood_it twoEdges.reader (Or.inl rfl), hnodes], ?_, ?_, ?_⟩ <;>
    rw [hrun] <;> decide

/-! ## `get_edge` on arbitrary bytes -/

theorem mem_k2ColumnList {m : K2Reader} {c r : Nat} (h : r ∈ k2ColumnList m c) :
    k2Get m r c = true :=
  (List.mem_filter.mp h).2

/-- Past the incidence filter, `get_edge` returns `-1` exactly when `k2_column` fails. With
the column at hand it aborts through `panic` exactly when the decoded index function has
more than `LIMIT_MAX_RANK` entries, whatever the index-function id and the table are; and an
index function of at most `LIMIT_MAX_RANK` entries inside the column fills an edge of that
rank whose nodes are rows of the column. -/
theorem getEdge_adjacent (s : StartSymbolReader) (n : StartSymbolNeighborhood) (e : Nat)
    (h : adjacent s n e = true) :
    (getEdge s n e = .error ↔ s.matrix.columnFails e = true) ∧
      (s.matrix.columnFails e = false →
        (getEdge s n e = .panic ↔ limitMaxRank < (s.ifGet (s.edgeIfs e)).length) ∧
        ((s.ifGet (s.edgeIfs e)).length ≤ limitMaxRank →
          (∀ k ∈ s.ifGet (s.edgeIfs e), 0 ≤ k ∧ k < (k2ColumnList s.matrix e).length) →
          ∃ d, getEdge s n e = .edge d ∧ d.rank = (s.ifGet (s.edgeIfs e)).length ∧
            d.rank ≤ limitMaxRank ∧
            d.nodes = (s.ifGet (s.edgeIfs e)).map (fun k => (k2ColumnList s.matrix e).getD k.toNat 0) ∧
            ∀ r ∈ d.nodes, k2Get s.matrix r e = true)) := by
  cases hfail : s.matrix.columnFails e
  · have hcol : getEdge s n e = fillEdge s e (k2ColumnList s.matrix e) := by
      simp [getEdge, k2Column, h, hfail]
    rw [hcol, fillEdge]
    refine ⟨?_, fun _ => ⟨?_, fun hle hin => ?_⟩⟩
    · split_ifs
      · simp
      · split <;> simp
    · split_ifs with hlt
      · simp [hlt]
      · split <;> simp [hlt]
    · simp only [Nat.not_lt.mpr hle, ↓reduceIte, mapM_columnAt hin]
      refine ⟨_, rfl, rfl, hle, rfl, fun r hr => mem_k2ColumnList ?_⟩
      obtain ⟨k, hk, rfl⟩ := List.mem_map.mp hr
      have := hin k hk
      rw [List.getD_eq_getElem _ _ (by omega)]
      exact List.getElem_mem _
  · simp [getEdge, k2Column, h, hfail]

/-- One node and one edge incident to it. The edge's index-function id `0` lies outside the
empty table; the decoder finds the index function `[0]` there. -/
def idOutsideTable : StartSymbolReader where
  matrix := ⟨1, 1, fun _ _ => true, fun _ => false⟩
  labels := ⟨1, fun _ => 0⟩
  edgeIfs := fun _ => 0
  ifCount := 0
  ifGet := fun _ => [0]

theorem getEdge_adjacent_id_outside_table :
    adjacent idOutsideTable staleNeighborhood 0 = true ∧
      (getEdge idOutsideTable staleNeighborhood 0 = .error ↔
        idOutsideTable.matrix.columnFails 0 = true) ∧
      (idOutsideTable.matrix.columnFails 0 = false →
        (getEdge idOutsideTable staleNeighborhood 0 = .panic ↔
          limitMaxRank < (idOutsideTable.ifGet (idOutsideTable.edgeIfs 0)).length) ∧
        ((idOutsideTable.ifGet (idOutsideTable.edgeIfs 0)).length ≤ limitMaxRank →
          (∀ k ∈ idOutsideTable.ifGet (idOutsideTable.edgeIfs 0),
            0 ≤ k ∧ k < (k2ColumnList idOutsideTable.matrix 0).length) →
          ∃ d, getEdge idOutsideTable staleNeighborhood 0 = .edge d ∧
            d.rank = (idOutsideTable.ifGet (idOutsideTable.edgeIfs 0)).length ∧
            d.rank ≤ limitMaxRank ∧
            d.nodes = (idOutsideTable.ifGet (idOutsideTable.edgeIfs 0)).map
              (fun k => (k2ColumnList idOutsideTable.matrix 0).getD k.toNat 0) ∧
            ∀ r ∈ d.nodes, k2Get idOutsideTable.matrix r 0 = true)) :=
  ⟨by decide, getEdge_adjacent idOutsideTable staleNeighborhood 0 (by decide)⟩

/-- The index-function id of the edge is not below the table's length, and `get_edge`
fills the edge instead of returning `-1`. -/
theorem getEdge_id_outside_table :
    idOutsideTable.ifCount ≤ idOutsideTable.edgeIfs 0 ∧
      getEdge idOutsideTable staleNeighborhood 0 = .edge ⟨0, 1, [0]⟩ := by
  decide

end CGraph.StartSymbol
