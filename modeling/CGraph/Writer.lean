import CGraph.Basic

/-!
# The writer handle

`cgraphw.c` keeps the graph while it is built and the grammar once it is compressed. The
handle is a state machine with four calls: `cgraphw_add_edge`, `cgraphw_set_params`,
`cgraphw_compress` and `cgraphw_write`. The edge store of `hgraph.c`, RePair and the bit
writers are not among the sources: the store appends an edge or fails, RePair is a
parameter, and what the environment answers to an allocation or to a write is part of the
call. A handle is `compressed` exactly when its union holds the grammar.
-/
namespace CGraph.Writer

/-- The fields of `CGraphCParams` the writer reads. -/
structure CGraphCParams where
  maxRank : Int
  monograms : Bool
  factor : Int
  ntTable : Bool
  deriving DecidableEq, Repr

/-- `HEdge`: a stored edge. -/
structure HEdge where
  rank : Nat
  label : Int
  nodes : List Int
  deriving DecidableEq, Repr

/-- The union of `GraphWriterImpl`: the edges before compression, the grammar after. -/
inductive WriterData (Γ : Type) where
  | edges (es : List HEdge)
  | grammar (g : Γ)
  deriving DecidableEq, Repr

/-- `GraphWriterImpl`, over the grammar type `Γ` of RePair. -/
structure GraphWriterImpl (Γ : Type) where
  params : CGraphCParams
  nodes : Nat
  terminals : Nat
  data : WriterData Γ
  deriving DecidableEq, Repr

variable {Γ : Type}

/-- The flag `compressed`. -/
def GraphWriterImpl.compressed (g : GraphWriterImpl Γ) : Bool :=
  match g.data with
  | .edges _ => false
  | .grammar _ => true

/-- `cgraphw_init`, with `DEFAULT_MAX_RANK`, `DEFAULT_MONOGRAMS`, `DEFAULT_FACTOR` and
`DEFAULT_NT_TABLE`. -/
def cgraphwInit : GraphWriterImpl Γ :=
  ⟨⟨defaultMaxRank, false, defaultFactor, false⟩, 0, 0, .edges []⟩

/-- The counters as `cgraphw_add_edge` raises them for the nodes it reads: `terminals` is
compared in `size_t`, the node maximum in `int64_t`. For a node id `INT64_MAX` the addition
`node + 1` overflows, which is undefined in C; the model reduces it modulo `2^64`, and no
theorem rests on that case: they keep every id below `INT64_MAX`. -/
def raiseCounters (g : GraphWriterImpl Γ) (label : Int) (nodes : List Int) : GraphWriterImpl Γ :=
  { g with
    terminals := max g.terminals (toUInt64 (toInt64 (label + 1)))
    nodes := toUInt64 (nodes.foldl (fun m v => max m (toInt64 (v + 1))) (toInt64 g.nodes)) }

/-- `cgraphw_add_edge(g, rank, label, nodes)`. `nodes` is the caller's array, of which the
call reads `nodes[0..rank)`: that read is defined when `0 ≤ rank ≤ nodes.length`, and the
theorems assume it (a negative rank makes the `size_t` loop run past the array). `allocated` is
the `malloc` of the edge record, `stored` the answer of `hgraph_add_edge`. -/
def cgraphwAddEdge (allocated stored : Bool) (rank label : Int) (nodes : List Int)
    (g : GraphWriterImpl Γ) : Int × GraphWriterImpl Γ :=
  match g.data with
  | .grammar _ => (-1, g)
  | .edges es =>
      if allocated then
        if stored then
          (0, { raiseCounters g label (nodes.take rank.toNat) with
            data := .edges (es ++ [⟨rank.toNat, label, nodes.take rank.toNat⟩]) })
        else (-1, raiseCounters g label (nodes.take rank.toNat))
      else (-1, g)

/-- `cgraphw_set_params`; `none` stands for `NULL`. -/
def cgraphwSetParams (p : Option CGraphCParams) (g : GraphWriterImpl Γ) : GraphWriterImpl Γ :=
  match p with
  | none => g
  | some p =>
      let maxRank := if 0 < p.maxRank then p.maxRank else g.params.maxRank
      { g with params :=
          ⟨if (limitMaxRank : Int) < maxRank then limitMaxRank else maxRank, p.monograms,
            if 0 < p.factor then p.factor else g.params.factor, p.ntTable⟩ }

/-- The order of `hedge_cmp`: by label, then the nodes lexicographically, then the rank.
Modelled from the spec: `hgraph.c` is not among the sources (spec §4.5). -/
def hedgeLe (a b : HEdge) : Bool :=
  decide (a.label < b.label) ||
    (a.label == b.label && (decide (a.nodes < b.nodes) || (a.nodes == b.nodes && decide (a.rank ≤ b.rank))))

/-- `cgraphw_sort_edges`: a sorted copy of the edges, or `NULL` when `copied` is false (an
allocation of the copy failed; the partial copy is destroyed). -/
def cgraphwSortEdges (copied : Bool) (es : List HEdge) : Option (List HEdge) :=
  if copied then some (es.mergeSort hedgeLe) else none

section
variable (repair : List HEdge → Nat → Nat → Int → Bool → Option Γ)

/-- `cgraphw_compress`, with `repair(start_symbol, nodes, terminals, max_rank, monograms)`. -/
def cgraphwCompress (copied : Bool) (g : GraphWriterImpl Γ) : Int × GraphWriterImpl Γ :=
  match g.data with
  | .grammar _ => (-1, g)
  | .edges es =>
      if es.length = 0 then (-1, g)
      else match cgraphwSortEdges copied es with
        | none => (-1, g)
        | some start =>
            match repair start g.nodes g.terminals g.params.maxRank g.params.monograms with
            | none => (-1, g)
            | some gr => (0, { g with data := .grammar gr })

end

/-- `cgraphw_write`: the result and the arguments of its call of `slhr_grammar_write`
(grammar, node count, terminal count, `nt_table`, `factor`). `opened` is `bitwriter_init`
of the path, `written` the answer of the bit writers after it. The handle is not changed. -/
def cgraphwWrite (opened written : Bool) (g : GraphWriterImpl Γ) :
    Int × Option (Γ × Nat × Nat × Bool × Int) :=
  match g.data with
  | .edges _ => (-1, none)
  | .grammar gr =>
      if opened then
        (if written then 0 else -1, some (gr, g.nodes, g.terminals, g.params.ntTable, g.params.factor))
      else (-1, none)

/-- A call on the handle, with what the environment answers to it. -/
inductive WriterCall where
  | addEdge (allocated stored : Bool) (rank label : Int) (nodes : List Int)
  | setParams (p : Option CGraphCParams)
  | compress (copied : Bool)
  | write (opened written : Bool)
  deriving DecidableEq, Repr

def WriterCall.isAddEdge : WriterCall → Bool
  | .addEdge .. => true
  | _ => false

def WriterCall.isCompress : WriterCall → Bool
  | .compress _ => true
  | _ => false

def WriterCall.isWrite : WriterCall → Bool
  | .write .. => true
  | _ => false

section
variable (repair : List HEdge → Nat → Nat → Int → Bool → Option Γ)

/-- One call on the handle; `cgraphw_set_params` returns nothing and counts as `0`. -/
def writerStep (g : GraphWriterImpl Γ) : WriterCall → Int × GraphWriterImpl Γ
  | .addEdge a s rank label nodes => cgraphwAddEdge a s rank label nodes g
  | .setParams p => (0, cgraphwSetParams p g)
  | .compress c => cgraphwCompress repair c g
  | .write o w => ((cgraphwWrite o w g).1, g)

/-- The results of a sequence of calls, and the handle after them. -/
def writerRun (g : GraphWriterImpl Γ) : List WriterCall → List Int × GraphWriterImpl Γ
  | [] => ([], g)
  | c :: cs => ((writerStep repair g c).1 :: (writerRun (writerStep repair g c).2 cs).1,
      (writerRun (writerStep repair g c).2 cs).2)

end

end CGraph.Writer
