import CGraph.Basic

/-!
# The reader handle

`cgraphr.c` answers queries through the grammar reader of `grammar.c`, which is not among
the sources. Its neighborhood iterator enters as a parameter: a query sets it up, and each
`grammar_neighborhood_next` answers an `int` (`1` with an edge, `0` at the end, `-1` on a
structural error) and the next state of the iterator. `cgraphr_edge_exists` and
`cgraphr_edges` with `cgraphr_edges_next` are two entry points to the same first answer.
-/
namespace CGraph.ReaderHandle

/-- What `cgraphr.c` uses of the grammar reader: its node count and the neighborhood
iterator over states `ν` (`grammar_neighborhood`, `grammar_neighborhood_next` with the edge
it fills, `grammar_neighborhood_finish`). `neighborhood` sets the iterator up from the query
alone, as the `DECOMPRESS` query and a pattern naming a node do. A pattern of wildcards only
seeds it from memory the query never writes (the local `nb` of `cgraphr_edge_exists`, the
`malloc` block of `cgraphr_edges`), which this model does not follow: the comparison of the
two entry points below is stated for patterns naming a node. -/
structure GrammarReader (ν : Type) where
  nodeCount : Nat
  neighborhood : QueryType → List Int → ν
  next : ν → Int × CGraphEdge × ν
  finish : ν → ν

variable {ν : Type}

/-- The check both entry points make first: some entry is neither a wildcard nor a node. -/
def unknownNode (g : GrammarReader ν) (nodes : List Int) : Bool :=
  nodes.any fun v => v ≠ cgraphNodesAll && (v < 0 || (g.nodeCount : Int) ≤ v)

/-- The query type a flag `exact_query` selects. -/
def queryOf (exact : Bool) : QueryType := if exact then .exact else .contains

/-- `cgraphr_edge_exists(g, rank, nodes, exact_query, _)`: the answer, and whether it calls
`grammar_neighborhood_finish`. The answer of `grammar_neighborhood_next` is tested as a C
truth value. -/
def cgraphrEdgeExists (g : GrammarReader ν) (nodes : List Int) (exact : Bool) : Bool × Bool :=
  if unknownNode g nodes then (false, false)
  else if (g.next (g.neighborhood (queryOf exact) nodes)).1 ≠ 0 then (true, true)
  else (false, false)

/-- `cgraphr_edges(g, rank, nodes, exact_query, _)`: the iterator, or `NULL`. `allocated`
is the `malloc` of the iterator. -/
def cgraphrEdges (g : GrammarReader ν) (nodes : List Int) (exact allocated : Bool) : Option ν :=
  if unknownNode g nodes then none
  else if allocated then some (g.neighborhood (queryOf exact) nodes)
  else none

/-- `cgraphr_edges_next(it, e)`: the answer, the edge copied to `e` and the iterator, finished
unless the answer is `true`. `wanted` tells whether `e` is not `NULL`, `copied` whether the
`malloc` of the copy's nodes succeeds. -/
def cgraphrEdgesNext (g : GrammarReader ν) (it : ν) (wanted copied : Bool) :
    Bool × Option CGraphEdge × ν :=
  match g.next it with
  | (1, t, it') =>
      if wanted then
        if copied then (true, some t, it') else (false, none, g.finish it')
      else (true, none, it')
  | (_, _, it') => (false, none, g.finish it')

/-- The first answer of `grammar_neighborhood_next` for a query. -/
def firstAnswer (g : GrammarReader ν) (nodes : List Int) (exact : Bool) : Int :=
  (g.next (g.neighborhood (queryOf exact) nodes)).1

/-- `cgraphr_edge_exists` answers whether the pattern names only nodes and the first answer
of the query is not `0`. -/
theorem cgraphrEdgeExists_eq (g : GrammarReader ν) (nodes : List Int) (exact : Bool) :
    (cgraphrEdgeExists g nodes exact).1 =
      (!unknownNode g nodes && decide (firstAnswer g nodes exact ≠ 0)) := by
  unfold cgraphrEdgeExists firstAnswer
  split_ifs <;> simp_all

/-- The first `cgraphr_edges_next` of an iterator answers whether its first answer is `1`,
when the copy of the edge, if one is asked for, is allocated. -/
theorem cgraphrEdgesNext_eq (g : GrammarReader ν) (it : ν) (wanted : Bool) :
    (cgraphrEdgesNext g it wanted true).1 = decide ((g.next it).1 = 1) := by
  unfold cgraphrEdgesNext
  split <;> cases wanted <;> simp_all

/-- A grammar reader over one node whose queries find one edge. -/
def oneEdgeGrammar : GrammarReader Unit :=
  ⟨1, fun _ _ => (), fun _ => (1, ⟨1, 1, [0]⟩, ()), id⟩

/-- A grammar reader over one node whose queries meet a structural error at once. -/
def brokenGrammar : GrammarReader Unit :=
  ⟨1, fun _ _ => (), fun _ => (-1, ⟨0, 0, []⟩, ()), id⟩

/-- When the first `grammar_neighborhood_next` of the query answers `-1`, `cgraphr_edge_exists`
reports an edge and calls `grammar_neighborhood_finish`, while the first `cgraphr_edges_next`
of the iterator `cgraphr_edges` returns reports none. -/
theorem edge_exists_on_structural_error :
    firstAnswer brokenGrammar [0] true = -1 ∧
      cgraphrEdgeExists brokenGrammar [0] true = (true, true) ∧
      cgraphrEdges brokenGrammar [0] true true = some () ∧
      (cgraphrEdgesNext brokenGrammar () false true).1 = false := by
  decide

end CGraph.ReaderHandle
