import CGraph.CommandLine
import CGraph.WriterRuns

/-!
# The compression pipeline of the command line

`do_compress` refuses an existing output file unless told to overwrite it, then makes a
handle with `cgraphw_init`, sets the parameters, reads the input with
`cornell_hyperedge_parse`, compresses with RePair and writes the grammar. The parser's
`cgraphw_add_edge` is the writer's, with the environment answering its allocation and its
store. With every allocation and store succeeding, RePair receives the lines of the input as
edges, in the order of `hedge_cmp`, each of rank and label its token count.
-/
namespace CGraph.Pipeline

open CGraph.Writer CGraph.Text CGraph.CommandLine

variable {Γ : Type}

/-- `cgraphw_add_edge(g, rank, label, nodes)` as the parser calls it; `env` answers the
allocation of the edge record and `hgraph_add_edge` for the handle and the edge. -/
def parserAddEdge (env : GraphWriterImpl Γ → Int → List Int → Bool × Bool)
    (g : GraphWriterImpl Γ) (rank label : Int) (nodes : List Int) : Int × GraphWriterImpl Γ :=
  cgraphwAddEdge (env g label nodes).1 (env g label nodes).2 rank label nodes g

/-- An environment in which every allocation and every store succeeds. -/
def allSucceed : GraphWriterImpl Γ → Int → List Int → Bool × Bool := fun _ _ _ => (true, true)

section
variable (repair : List HEdge → Nat → Nat → Int → Bool → Option Γ)

/-- `do_compress(input, output, argd)` on the text of the input: the result, and the
arguments of `slhr_grammar_write` when `cgraphw_write` gets that far. `outputExists` is
`access(output, F_OK) == 0`; `copied`, `opened` and `written` are the environment's answers
to `cgraphw_sort_edges`, `bitwriter_init` and the bit writers. -/
def doCompress (env : GraphWriterImpl Γ → Int → List Int → Bool × Bool) (params : CGraphCParams)
    (overwrite outputExists copied opened written : Bool) (text : List Char) :
    Int × Option (Γ × Nat × Nat × Bool × Int) :=
  if !overwrite && outputExists then (-1, none)
  else
    let p := cornellHyperedgeParse (parserAddEdge env) (cgraphwSetParams (some params) cgraphwInit) text
    if p.1 < 0 then (-1, none)
    else
      let c := cgraphwCompress repair copied p.2
      if c.1 < 0 then (-1, none) else cgraphwWrite opened written c.2

end

/-- The edge the parser stores for a buffer. -/
def lineEdge (buf : List Char) : HEdge :=
  ⟨(lineNodes buf).length, (lineNodes buf).length, lineNodes buf⟩

/-- The handle after the parser of `do_compress` has read a text, every allocation and store
succeeding. -/
def parsedHandle (params : CGraphCParams) (text : List Char) : GraphWriterImpl Γ :=
  (cornellHyperedgeParse (parserAddEdge allSucceed) (cgraphwSetParams (some params) cgraphwInit) text).2

/-- Adding the recorded calls one by one to an uncompressed handle, each with the rank of its
nodes, appends their edges and keeps the parameters. -/
theorem foldl_parserAddEdge (calls : List (Int × Int × List Int))
    (hcalls : ∀ c ∈ calls, c.1 = c.2.2.length) (g : GraphWriterImpl Γ) (es : List HEdge)
    (hg : g.data = .edges es) :
    (calls.foldl (fun g c => (parserAddEdge allSucceed g c.1 c.2.1 c.2.2).2) g).data =
        .edges (es ++ calls.map fun c => ⟨c.2.2.length, c.2.1, c.2.2⟩) ∧
      (calls.foldl (fun g c => (parserAddEdge allSucceed g c.1 c.2.1 c.2.2).2) g).params = g.params := by
  induction calls generalizing g es with
  | nil => simp [hg]
  | cons c cs ih =>
      obtain ⟨r, l, n⟩ := c
      obtain rfl : r = n.length := hcalls _ (List.mem_cons_self _ _)
      have hstep := cgraphwAddEdge_stored hg (n.length : Int) l n
      rw [Int.toNat_natCast, List.take_length] at hstep
      obtain ⟨hd, hp⟩ := ih (fun c h => hcalls c (List.mem_cons_of_mem _ h))
        (parserAddEdge allSucceed g n.length l n).2 (es ++ [⟨n.length, l, n⟩])
        (by simp [parserAddEdge, allSucceed, hstep])
      refine ⟨by simpa using hd, by rw [List.foldl_cons, hp]; simp [parserAddEdge, allSucceed, hstep, raiseCounters]⟩

/-- The parser of `do_compress` stores one edge per line up to the first line of
`LIMIT_MAX_RANK` tokens or more, keeps the parameters just set, and returns `0` exactly when
there is no such line. -/
theorem parse_parsedHandle (params : CGraphCParams) (text : List Char) :
    (cornellHyperedgeParse (parserAddEdge allSucceed)
        (cgraphwSetParams (some params) (cgraphwInit : GraphWriterImpl Γ)) text).1 =
        (if (fgetsBuffers maxLineLength [] text).all lineFits then 0 else -1) ∧
      (parsedHandle params text : GraphWriterImpl Γ).data =
        .edges (((fgetsBuffers maxLineLength [] text).takeWhile lineFits).map lineEdge) ∧
      (parsedHandle params text : GraphWriterImpl Γ).params =
        (cgraphwSetParams (some params) (cgraphwInit : GraphWriterImpl Γ)).params := by
  have hrun := parseBuffers_accepting (parserAddEdge (allSucceed : GraphWriterImpl Γ → _))
    (fun g => ∃ es, g.data = .edges es)
    (fun g r l n ⟨es, hes⟩ => by
      rw [parserAddEdge, allSucceed, cgraphwAddEdge_stored hes]
      exact ⟨rfl, _, rfl⟩)
    (fgetsBuffers maxLineLength [] text) (cgraphwSetParams (some params) cgraphwInit) ⟨[], rfl⟩
  obtain ⟨hd, hp⟩ := foldl_parserAddEdge
    (((fgetsBuffers maxLineLength [] text).takeWhile lineFits).map lineCall)
    (fun c hc => by obtain ⟨b, -, rfl⟩ := List.mem_map.mp hc; rfl)
    (cgraphwSetParams (some params) (cgraphwInit : GraphWriterImpl Γ)) [] rfl
  simp only [parsedHandle, cornellHyperedgeParse, hrun]
  refine ⟨trivial, ?_, hp⟩
  rw [hd, List.nil_append, List.map_map]
  rfl

/-- `cgraphw_compress` then `cgraphw_write` on a handle holding edges, the copy and the write
succeeding: RePair gets the edges sorted by `hedge_cmp`, and its grammar is written with the
handle's counters and parameters. -/
theorem compress_then_write (repair : List HEdge → Nat → Nat → Int → Bool → Option Γ)
    (g : GraphWriterImpl Γ) (es : List HEdge) (hg : g.data = .edges es) :
    (if (cgraphwCompress repair true g).1 < 0 then (-1, none)
      else cgraphwWrite true true (cgraphwCompress repair true g).2) =
      if es = [] then (-1, none)
      else match repair (es.mergeSort hedgeLe) g.nodes g.terminals g.params.maxRank g.params.monograms with
        | none => (-1, none)
        | some gr => (0, some (gr, g.nodes, g.terminals, g.params.ntTable, g.params.factor)) := by
  by_cases hne : es = []
  · simp [cgraphwCompress, hg, hne]
  · cases hrep : repair (es.mergeSort hedgeLe) g.nodes g.terminals g.params.maxRank g.params.monograms <;>
      simp [cgraphwCompress, hg, hne, cgraphwSortEdges, hrep, cgraphwWrite]

/-- What `do_compress` does with a writable output, every allocation, store, copy and write
succeeding: it fails with nothing written when a line has `LIMIT_MAX_RANK` tokens or more or
the input has no line; otherwise it hands RePair the edges of the lines sorted by `hedge_cmp`
with the handle's counters and parameters, and writes the grammar RePair returns. -/
theorem doCompress_spec (repair : List HEdge → Nat → Nat → Int → Bool → Option Γ)
    (params : CGraphCParams) (overwrite outputExists : Bool)
    (hout : (!overwrite && outputExists) = false) (text : List Char) :
    doCompress repair allSucceed params overwrite outputExists true true true text =
      if (fgetsBuffers maxLineLength [] text).all lineFits ∧ fgetsBuffers maxLineLength [] text ≠ [] then
        match repair (((fgetsBuffers maxLineLength [] text).map lineEdge).mergeSort hedgeLe)
            (parsedHandle params text : GraphWriterImpl Γ).nodes
            (parsedHandle params text : GraphWriterImpl Γ).terminals
            (parsedHandle params text : GraphWriterImpl Γ).params.maxRank
            (parsedHandle params text : GraphWriterImpl Γ).params.monograms with
        | none => (-1, none)
        | some gr => (0, some (gr, (parsedHandle params text : GraphWriterImpl Γ).nodes,
            (parsedHandle params text : GraphWriterImpl Γ).terminals,
            (parsedHandle params text : GraphWriterImpl Γ).params.ntTable,
            (parsedHandle params text : GraphWriterImpl Γ).params.factor))
      else (-1, none) := by
  obtain ⟨hr, hd, -⟩ := @parse_parsedHandle Γ params text
  simp only [parsedHandle] at hd ⊢
  simp only [doCompress, hout, Bool.false_eq_true, ↓reduceIte, hr]
  by_cases hfit : (fgetsBuffers maxLineLength [] text).all lineFits = true
  · rw [List.takeWhile_eq_self_iff.mpr (List.all_eq_true.mp hfit)] at hd
    rw [compress_then_write repair _ _ hd]
    simp [hfit]
  · simp [hfit]

theorem doCompress_spec_one_line :
    (!true && false) = false ∧
    doCompress (fun _ _ _ _ _ => some ()) allSucceed ⟨256, false, 64, false⟩ true false true true true
        ['5', '\n'] =
      if (fgetsBuffers maxLineLength [] ['5', '\n']).all lineFits ∧
          fgetsBuffers maxLineLength [] ['5', '\n'] ≠ [] then
        match (fun _ _ _ _ _ => some ()) (((fgetsBuffers maxLineLength [] ['5', '\n']).map lineEdge).mergeSort hedgeLe)
            (parsedHandle ⟨256, false, 64, false⟩ ['5', '\n'] : GraphWriterImpl Unit).nodes
            (parsedHandle ⟨256, false, 64, false⟩ ['5', '\n'] : GraphWriterImpl Unit).terminals
            (parsedHandle ⟨256, false, 64, false⟩ ['5', '\n'] : GraphWriterImpl Unit).params.maxRank
            (parsedHandle ⟨256, false, 64, false⟩ ['5', '\n'] : GraphWriterImpl Unit).params.monograms with
        | none => (-1, none)
        | some gr => (0, some (gr, (parsedHandle ⟨256, false, 64, false⟩ ['5', '\n'] : GraphWriterImpl Unit).nodes,
            (parsedHandle ⟨256, false, 64, false⟩ ['5', '\n'] : GraphWriterImpl Unit).terminals,
            (parsedHandle ⟨256, false, 64, false⟩ ['5', '\n'] : GraphWriterImpl Unit).params.ntTable,
            (parsedHandle ⟨256, false, 64, false⟩ ['5', '\n'] : GraphWriterImpl Unit).params.factor))
      else (-1, none) :=
  ⟨rfl, doCompress_spec (fun _ _ _ _ _ => some ()) ⟨256, false, 64, false⟩ true false rfl ['5', '\n']⟩

end CGraph.Pipeline
