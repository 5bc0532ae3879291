import CGraph.Basic

/-!
# The start-symbol reader

`startsymbol.c` answers queries on the start symbol of a compressed hypergraph: an
incidence matrix `M` (node × edge, stored as a k²-tree), the edge labels (an Elias–Fano
sequence), one index-function id per edge and the table of index functions. The
k²-tree, Elias–Fano and bit readers are not among the sources; they enter through their
contracts (spec §4.3, §4.4): a bit matrix, a sequence, and the values the bit decoders
find. The decoders read arbitrary bytes, so nothing ties the decoded values together:
that is the job of `StartSymbol` in `CGraph.Query`.

A query is a `StartSymbolNeighborhood` set up by `startsymbolNeighborhood` and advanced by
`startsymbolNeighborhoodNext`. The node array of the neighborhood is a function, so the
entries a call does not write keep what they held before.
-/
namespace CGraph.StartSymbol

/-- The incidence matrix as the k²-tree reader presents it: `rows × cols` bits, and the
columns for which `k2_column` cannot allocate its buffer. -/
structure K2Reader where
  rows : Nat
  cols : Nat
  bit : Nat → Nat → Bool
  columnFails : Nat → Bool

/-- `k2_get`: the bit at a row and a column. A negative node id is read as an unsigned row,
beyond the matrix. -/
def k2Get (m : K2Reader) (r : Int) (c : Nat) : Bool :=
  decide (0 ≤ r) && decide (r.toNat < m.rows) && decide (c < m.cols) && m.bit r.toNat c

/-- The columns the row iterator of `k2_iter_init_row` yields, ascending. -/
def k2Row (m : K2Reader) (r : Int) : List Nat :=
  (List.range m.cols).filter (k2Get m r)

/-- The rows of a column, ascending. -/
def k2ColumnList (m : K2Reader) (c : Nat) : List Nat :=
  (List.range m.rows).filter (fun r => k2Get m r c)

/-- `k2_column`: the rows of a column in a fresh buffer, or `NULL`. -/
def k2Column (m : K2Reader) (c : Nat) : Option (List Nat) :=
  if m.columnFails c then none else some (k2ColumnList m c)

/-- An Elias–Fano sequence reader: its stored length `n` and `eliasfano_get`. -/
structure EliasFanoReader where
  n : Nat
  get : Nat → Nat

/-- `StartSymbolReader`, as far as the queries read it. `edgeIfs` is `edge_ifs_get`, the
index-function id read for an edge at the stored width; `ifCount` is the length of the
index-function table; `ifGet` is what `if_get` decodes for an id: the Elias–δ payload at
the offset the table gives, whether or not the id is below `ifCount`. -/
structure StartSymbolReader where
  matrix : K2Reader
  labels : EliasFanoReader
  edgeIfs : Nat → Int
  ifCount : Nat
  ifGet : Int → List Int

/-- An edge as `get_edge` fills it. -/
structure StEdge where
  label : Nat
  rank : Nat
  nodes : List Nat
  deriving DecidableEq, Repr

/-- `StartSymbolIterator`, the counter of the decompressing query. -/
structure StartSymbolIterator where
  edgeCount : Nat
  edgeId : Nat
  hasNext : Bool
  deriving DecidableEq, Repr

/-- The return values `1`, `0` and `-1` of the candidate iterators, with the value read. -/
inductive IterResult where
  | next (v : Nat)
  | done
  | error
  deriving DecidableEq, Repr

/-- `StartSymbolNeighborhood`: the deduplicated pattern `nodes[0..rank)`, the query type, the
columns the k²-tree row iterator has still to yield and the decompression counter. -/
structure StartSymbolNeighborhood where
  nodes : Nat → Int
  rank : Int
  queryType : QueryType
  it : List Nat
  dit : StartSymbolIterator

/-- `startsymbol_iter`. -/
def startsymbolIter (edgeCount : Nat) : StartSymbolIterator := ⟨edgeCount, 0, true⟩

/-- `startsymbol_next`: the next edge id while below the count; `0` once, after which the
iterator is finished and answers `-1`. -/
def startsymbolNext (it : StartSymbolIterator) : IterResult × StartSymbolIterator :=
  if it.hasNext then
    if it.edgeId < it.edgeCount then (.next it.edgeId, { it with edgeId := it.edgeId + 1 })
    else (.done, { it with edgeId := it.edgeId + 1, hasNext := false })
  else (.error, it)

/-- `k2_iter_next` on the columns still to yield. -/
def k2IterNext : List Nat → IterResult × List Nat
  | [] => (.done, [])
  | c :: cs => (.next c, cs)

/-- The first loop of `startsymbol_neighborhood`: every entry of the pattern that is no
wildcard is copied to `n->nodes[next++]`. -/
def copyNodes (a : Nat → Int) (next : Nat) : List Int → (Nat → Int) × Nat
  | [] => (a, next)
  | v :: vs =>
      if v ≠ cgraphNodesAll then copyNodes (Function.update a next v) (next + 1) vs
      else copyNodes a next vs

/-- The inner marking loop: over `j ∈ js`, a copy of `n->nodes[i]` becomes a wildcard. -/
def markLater (i : Nat) (a : Nat → Int) (js : List Nat) : Nat → Int :=
  js.foldl (fun a j => if a i = a j then Function.update a j cgraphNodesAll else a) a

/-- One turn `i` of the outer marking loop; an entry already marked is passed over. -/
def markTurn (next : Nat) (a : Nat → Int) (i : Nat) : Nat → Int :=
  if a i ≠ cgraphNodesAll then markLater i a (List.range' (i + 1) (next - (i + 1))) else a

/-- The outer marking loop over `i < next`. -/
def markDuplicates (next : Nat) (a : Nat → Int) : Nat → Int :=
  (List.range next).foldl (markTurn next) a

/-- `startsymbol_neighborhood`. The pattern is `some nodes[0..rank)` or `none` for `NULL`;
`EXACT` and `CONTAINS` seed the row iterator with `n->nodes[0]`, whatever it holds: with no
non-wildcard entry the call writes no entry, and the seed is what the caller's memory held. -/
def startsymbolNeighborhood (s : StartSymbolReader) (q : QueryType) (nodes : Option (List Int))
    (n : StartSymbolNeighborhood) : StartSymbolNeighborhood :=
  let n := match nodes with
    | some p =>
        let (a, next) := copyNodes n.nodes 0 p
        { n with nodes := markDuplicates next a, rank := next }
    | none => { n with rank := cgraphNodesAll }
  match q with
  | .exact | .contains => { n with queryType := q, it := k2Row s.matrix (n.nodes 0) }
  | .decompress => { n with queryType := q, dit := startsymbolIter s.labels.n }

/-- The incidence filter of `get_edge`: every non-wildcard entry of `n->nodes[0..n->rank)`
is a row of column `e`. A negative `n->rank` makes it vacuous. -/
def adjacent (s : StartSymbolReader) (n : StartSymbolNeighborhood) (e : Nat) : Bool :=
  (List.range n.rank.toNat).all fun i => n.nodes i = cgraphNodesAll || k2Get s.matrix (n.nodes i) e

/-- `nodes[k]` of a materialised column, or `none` when `k` lies outside it. -/
def columnAt (col : List Nat) (k : Int) : Option Nat :=
  if 0 ≤ k then col[k.toNat]? else none

/-- What a call of `get_edge` comes to: its return values `0`, `1` (with the filled edge)
and `-1`, the `panic` of `if_get`, or a read outside the materialised column. -/
inductive EdgeResult where
  | skip
  | edge (e : StEdge)
  | error
  | panic
  | outOfBounds
  deriving DecidableEq, Repr

/-- The second half of `get_edge`, once the column is materialised: the index function of
the edge (`edge_ifs_get`, `if_get`, which panics past `LIMIT_MAX_RANK`) picks its nodes. -/
def fillEdge (s : StartSymbolReader) (e : Nat) (col : List Nat) : EdgeResult :=
  let indx := s.ifGet (s.edgeIfs e)
  if limitMaxRank < indx.length then .panic
  else match indx.mapM (columnAt col) with
    | some nodes => .edge ⟨s.labels.get e, indx.length, nodes⟩
    | none => .outOfBounds

/-- `get_edge`. -/
def getEdge (s : StartSymbolReader) (n : StartSymbolNeighborhood) (e : Nat) : EdgeResult :=
  if adjacent s n e then
    match k2Column s.matrix e with
    | none => .error
    | some col => fillEdge s e col
  else .skip

/-- What a call of `startsymbol_neighborhood_next` comes to. -/
inductive NextResult where
  | edge (e : StEdge)
  | done
  | error
  | panic
  | outOfBounds
  deriving DecidableEq, Repr

/-- The result `startsymbol_neighborhood_next` returns for a candidate, `none` to go on. -/
def EdgeResult.emit : EdgeResult → Option NextResult
  | .skip => none
  | .edge e => some (.edge e)
  | .error => some .error
  | .panic => some .panic
  | .outOfBounds => some .outOfBounds

/-- One step of the candidate iterator the query type selects. -/
def sourceNext (n : StartSymbolNeighborhood) : IterResult × StartSymbolNeighborhood :=
  match n.queryType with
  | .exact | .contains => ((k2IterNext n.it).1, { n with it := (k2IterNext n.it).2 })
  | .decompress => ((startsymbolNext n.dit).1, { n with dit := (startsymbolNext n.dit).2 })

/-- Candidates the iterator may still yield; a finished counter yields nothing. -/
def pending (n : StartSymbolNeighborhood) : Nat :=
  match n.queryType with
  | .exact | .contains => n.it.length
  | .decompress => n.dit.edgeCount - n.dit.edgeId

theorem pending_sourceNext {n n' : StartSymbolNeighborhood} {e : Nat}
    (h : sourceNext n = (.next e, n')) : pending n' < pending n := by
  unfold sourceNext at h
  unfold pending
  cases hq : n.queryType <;> simp only [hq] at h
  all_goals first
    | (cases hit : n.it with
        | nil => simp [hit, k2IterNext] at h
        | cons c cs =>
            simp only [hit, k2IterNext, Prod.mk.injEq] at h
            obtain ⟨-, rfl⟩ := h
            simp [hit])
    | (unfold startsymbolNext at h
       split_ifs at h with h₁ h₂ <;> simp only [Prod.mk.injEq, reduceCtorEq, false_and] at h
       obtain ⟨-, rfl⟩ := h
       simp only [hq]
       omega)

/-- `startsymbol_neighborhood_next`: candidates are drawn until `get_edge` accepts one or
fails, or the iterator ends. -/
def startsymbolNeighborhoodNext (s : StartSymbolReader) (n : StartSymbolNeighborhood) :
    NextResult × StartSymbolNeighborhood :=
  match _hn : sourceNext n with
  | (.done, n') => (.done, n')
  | (.error, n') => (.error, n')
  | (.next e, n') =>
      match (getEdge s n' e).emit with
      | some r => (r, n')
      | none => startsymbolNeighborhoodNext s n'
termination_by pending n
decreasing_by exact pending_sourceNext _hn

/-- The results of `k` successive calls of `startsymbol_neighborhood_next`. -/
def nextCalls (s : StartSymbolReader) : Nat → StartSymbolNeighborhood → List NextResult
  | 0, _ => []
  | k + 1, n => (startsymbolNeighborhoodNext s n).1 :: nextCalls s k (startsymbolNeighborhoodNext s n).2


theorem startsymbolNeighborhoodNext_eq (s : StartSymbolReader) (n : StartSymbolNeighborhood) :
    startsymbolNeighborhoodNext s n =
      match sourceNext n with
      | (.done, n') => (.done, n')
      | (.error, n') => (.error, n')
      | (.next e, n') =>
          match (getEdge s n' e).emit with
          | some r => (r, n')
          | none => startsymbolNeighborhoodNext s n' := by
  rw [startsymbolNeighborhoodNext]
  split <;> simp_all

/-! ## Runs of a query -/

/-- The candidates the iterator has still to yield; `none` once the counter is finished. -/
def candidates (n : StartSymbolNeighborhood) : Option (List Nat) :=
  match n.queryType with
  | .exact | .contains => some n.it
  | .decompress =>
      if n.dit.hasNext then some (List.range' n.dit.edgeId (n.dit.edgeCount - n.dit.edgeId))
      else none

/-- The results the calls return while drawing the candidates `cs`, before the final `0`. -/
def emitted (s : StartSymbolReader) (n : StartSymbolNeighborhood) (cs : List Nat) :
    List NextResult :=
  cs.filterMap fun e => (getEdge s n e).emit

theorem getEdge_congr (s : StartSymbolReader) {n n' : StartSymbolNeighborhood} (e : Nat)
    (h₁ : n'.nodes = n.nodes) (h₂ : n'.rank = n.rank) : getEdge s n' e = getEdge s n e := by
  simp only [getEdge, adjacent, h₁, h₂]

theorem emitted_congr (s : StartSymbolReader) {n n' : StartSymbolNeighborhood} (cs : List Nat)
    (h₁ : n'.nodes = n.nodes) (h₂ : n'.rank = n.rank) : emitted s n' cs = emitted s n cs := by
  simp only [emitted, getEdge_congr s _ h₁ h₂]

/-- Drawing a candidate: the iterator yields it and keeps the pattern. -/
theorem sourceNext_cons {n : StartSymbolNeighborhood} {c : Nat} {cs : List Nat}
    (h : candidates n = some (c :: cs)) :
    sourceNext n = (.next c, (sourceNext n).2) ∧ candidates (sourceNext n).2 = some cs ∧
      (sourceNext n).2.nodes = n.nodes ∧ (sourceNext n).2.rank = n.rank := by
  unfold candidates at h
  unfold sourceNext candidates
  cases hq : n.queryType <;> simp only [hq, Option.some.injEq] at h ⊢
  · simp [h, k2IterNext]
  · simp [h, k2IterNext]
  · split_ifs at h with h₁
    simp only [Option.some.injEq] at h
    have h₂ : n.dit.edgeId < n.dit.edgeCount := by
      by_contra h₂
      simp [Nat.sub_eq_zero_of_le (Nat.le_of_not_lt h₂)] at h
    rw [show n.dit.edgeCount - n.dit.edgeId = n.dit.edgeCount - (n.dit.edgeId + 1) + 1 by omega,
      List.range'_succ, List.cons.injEq] at h
    obtain ⟨rfl, rfl⟩ := h
    simp [startsymbolNext, h₁, h₂]

theorem sourceNext_nil {n : StartSymbolNeighborhood} (h : candidates n = some []) :
    sourceNext n = (.done, (sourceNext n).2) := by
  unfold candidates at h
  unfold sourceNext
  cases hq : n.queryType <;> simp only [hq, Option.some.injEq] at h ⊢
  · simp [h, k2IterNext]
  · simp [h, k2IterNext]
  · split_ifs at h with h₁
    simp only [Option.some.injEq, List.range'_eq_nil] at h
    simp [startsymbolNext, h₁, Nat.not_lt.mpr (Nat.le_of_sub_eq_zero h)]

/-- The run lemma: over the candidates `cs`, the calls return the results of the candidates
`get_edge` does not skip, in order, and then `0`. -/
theorem nextCalls_candidates (s : StartSymbolReader) {n : StartSymbolNeighborhood}
    {cs : List Nat} (h : candidates n = some cs) :
    nextCalls s ((emitted s n cs).length + 1) n = emitted s n cs ++ [.done] := by
  induction cs generalizing n with
  | nil =>
      simp only [emitted, List.filterMap_nil, List.length_nil, nextCalls, List.nil_append]
      rw [startsymbolNeighborhoodNext_eq, sourceNext_nil h]
  | cons c cs ih =>
      obtain ⟨hsrc, hcs, hnodes, hrank⟩ := sourceNext_cons h
      have hnext := startsymbolNeighborhoodNext_eq s n
      rw [hsrc] at hnext
      simp only [getEdge_congr s c hnodes hrank] at hnext
      have hrest := emitted_congr s cs hnodes hrank
      cases hemit : (getEdge s n c).emit with
      | none =>
          simp only [hemit] at hnext
          have hstep : ∀ k, nextCalls s (k + 1) n = nextCalls s (k + 1) (sourceNext n).2 := by
            intro k; simp only [nextCalls, hnext]
          simp only [emitted, List.filterMap_cons, hemit] at hrest ⊢
          rw [hstep, ← hrest]
          exact ih hcs
      | some r =>
          simp only [hemit] at hnext
          simp only [emitted, List.filterMap_cons, hemit, List.length_cons, nextCalls, hnext,
            List.cons_append, List.cons.injEq, true_and] at hrest ⊢
          rw [← hrest]
          exact ih hcs

/-- Fewer calls return a prefix of the results of more calls. -/
theorem nextCalls_take (s : StartSymbolReader) (n : StartSymbolNeighborhood) {k m : Nat}
    (h : k ≤ m) : nextCalls s k n = (nextCalls s m n).take k := by
  induction k generalizing n m with
  | zero => rfl
  | succ k ih =>
      obtain ⟨m, rfl⟩ : ∃ m', m = m' + 1 := ⟨m - 1, by omega⟩
      simp only [nextCalls, List.take_succ_cons, ih _ (Nat.le_of_succ_le_succ h)]

end CGraph.StartSymbol
