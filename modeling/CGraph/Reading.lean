import CGraph.Search
import CGraph.Arguments
import CGraph.CommandLine

/-!
# Reading a compressed graph from the command line

`do_read` opens the graph and runs the commands `parse_args` stored, in order. A command that
goes through sets the result to `0`; a `--hyperedges` whose argument does not parse, or a
`--query-file` that does not exist, is skipped after a message and leaves the result as it was;
a failing `--decompress` (or `CMD_NONE`) ends the loop. `--edges` falls through to
`--hyperedges`, and an argument of more than `LIMIT_MAX_RANK` fields is written past
`arg.nodes`. `perform_search` prints the answer of `do_search`, and `perform_query_file` runs it
on the C string of every buffer `fgets` fills, stopping at the first that does not parse; its
result is not read. On a file of lines that fit the buffer of `fgets`, that is the
`--hyperedges` command on each line in turn: the newline `fgets` keeps changes no query.

`do_decompress` checks the answer of every `printf(",")` and `fprintf` it makes for an edge:
at the first `EOF` it returns `-1`, and its output is what the writes before it wrote.

The environment answers, by the index of the command: the allocations and the writes of
`do_decompress`, whether `errno` is `ERANGE` when an argument is parsed, whether `access` finds
a query file, the allocations of each search and the query file itself. The output modelled is
what goes to standard output.
-/
namespace CGraph.Reading

open CGraph.ReaderHandle CGraph.Search CGraph.Arguments CGraph.HyperedgeArg CGraph.Text
open CGraph.CommandLine (writtenNodes maxLineLength)

variable {ν : Type}

section
variable (g : GrammarReader ν) (qsort : List CGraphEdge → List CGraphEdge) (fuel : Nat)

/-- `perform_search(g, rank, nodes, exist_query, exact_query, sort_result, verbose)`: what it
prints, or the `exit(1)` of `edge_append`. -/
def performSearch (env : SearchEnv) (nodes : List Int)
    (existQuery exactQuery sortResult verbose : Bool) : Outcome (List Char) :=
  (doSearch g qsort env fuel nodes existQuery exactQuery sortResult).map fun r =>
    if existQuery then if r.1 then ['1', '\n'] else ['0', '\n']
    else
      "Found ".toList ++ decimal r.2.length ++ " results\n".toList ++
        if verbose then r.2.flatMap fun e => (writtenNodes e).flatMap fun v => ",\t".toList ++ printLld v
        else []

/-- The loop of `perform_query_file` from the line numbered `cn` on: the result and what it
prints. A buffer `fgets` fills is printed and parsed as the C string it holds. `erange` tells,
by line, whether `errno` is `ERANGE` when the line is parsed, and `env` answers the allocations
of its search. -/
def queryLines (env : Nat → SearchEnv) (erange : Nat → Bool)
    (existQuery exactQuery sortResult verbose : Bool) : Nat → List (List Char) → Outcome (Int × List Char)
  | _, [] => .done (0, [])
  | cn, line :: lines =>
      let header := "Query ".toList ++ decimal cn ++ ": ".toList ++ cString line
      (parseHyperedgeArgInto (erange cn) (cString line)).bind fun p =>
        if p.1 < 0 then .done (-1, header)
        else
          (performSearch g qsort fuel (env cn) p.2 existQuery exactQuery sortResult verbose).bind
            fun out =>
              (queryLines env erange existQuery exactQuery sortResult verbose (cn + 1) lines).map
                fun r => (r.1, header ++ out ++ r.2)

/-- `perform_query_file(g, query_file, exist_query, exact_query, sort_result, verbose)` on the
text of the file; `opened` is whether `fopen` succeeds. -/
def performQueryFile (env : Nat → SearchEnv) (erange : Nat → Bool) (opened : Bool) (text : List Char)
    (existQuery exactQuery sortResult verbose : Bool) : Outcome (Int × List Char) :=
  if opened then
    queryLines g qsort fuel env erange existQuery exactQuery sortResult verbose 0
      (fgetsBuffers maxLineLength [] text)
  else .done (-1, [])

/-- What the environment answers to one `do_decompress`: whether the output file exists, whether
`fopen` succeeds, the `malloc` of the iterator in `cgraphr_edges_all`, by edge the `malloc` of
its copied nodes, and by number the answer of each `printf(",")` and `fprintf` whose result is
checked, `false` for `EOF`. -/
structure DecompressEnv where
  outputExists : Bool
  opened : Bool
  allocated : Bool
  copied : Nat → Bool
  written : Nat → Bool

/-- `cgraphr_edges_all(g)`: the iterator of the decompress query over all labels, or `NULL`. -/
def cgraphrEdgesAll (allocated : Bool) : Option ν :=
  if allocated then some (g.neighborhood .decompress []) else none

end

/-- The checked writes of `do_decompress` for the nodes of an edge, in order: the numeral of each
node to the output file (`true`), after a `printf(",")` to standard output (`false`) for every
node but the first. -/
def nodeWrites : List Int → List (Bool × List Char)
  | [] => []
  | v :: vs => (true, printLld v) :: vs.flatMap fun w => [(false, [',']), (true, printLld w)]

/-- The checked writes for one edge: its nodes, then the line end. -/
def edgeWrites (e : CGraphEdge) : List (Bool × List Char) :=
  nodeWrites (writtenNodes e) ++ [(true, ['\n'])]

/-- What the writes `ws` put in the output file (`true`) or on standard output (`false`). -/
def writtenTo (file : Bool) (ws : List (Bool × List Char)) : List Char :=
  (ws.filter fun w => w.1 == file).flatMap Prod.snd

section
variable (g : GrammarReader ν) (qsort : List CGraphEdge → List CGraphEdge) (fuel : Nat)

/-- The loop `while (cgraphr_edges_next(it, &n))` of `do_decompress` from the edge numbered `k`
and the checked write numbered `w`: the writes that succeed, and the number of edges written,
or `none` where a write returns `EOF` and the loop leaves for `exit_0`. -/
def decompressEdges (copied written : Nat → Bool) :
    Nat → Nat → Nat → ν → Outcome (List (Bool × List Char) × Option Nat)
  | 0, _, _, _ => .outOfFuel
  | fuel + 1, k, w, it =>
      match cgraphrEdgesNext g it true (copied k) with
      | (true, some e, it') =>
          if copiedRun written w (edgeWrites e).length < (edgeWrites e).length then
            .done ((edgeWrites e).take (copiedRun written w (edgeWrites e).length), none)
          else
            (decompressEdges copied written fuel (k + 1) (w + (edgeWrites e).length) it').map
              fun r => (edgeWrites e ++ r.1, r.2.map (· + 1))
      | _ => .done ([], some 0)

/-- `do_decompress(g, output, format, overwrite)`: the result, the text of the output file and what
goes to standard output. `get_format` and `guess_format` always choose the hyperedge syntax; where
`fopen` fails, `fclose(NULL)` follows. The closing `printf` is not checked. -/
def doDecompress (env : DecompressEnv) (overwrite : Bool) : Outcome (Int × List Char × List Char) :=
  if !overwrite && env.outputExists then .done (-1, [], [])
  else if !env.opened then .undefined
  else
    match cgraphrEdgesAll g env.allocated with
    | none => .done (-1, [], [])
    | some it =>
        (decompressEdges g env.copied env.written fuel 0 0 it).map fun r =>
          match r.2 with
          | some n => (0, writtenTo true r.1,
              writtenTo false r.1 ++ "Decompressed ".toList ++ decimal n ++ " edges.\n".toList)
          | none => (-1, writtenTo true r.1, writtenTo false r.1)

/-- What the environment answers to the command numbered `i` of `do_read`. -/
structure ReadEnv where
  decompress : Nat → DecompressEnv
  erange : Nat → Bool
  present : Nat → Bool
  search : Nat → SearchEnv
  queryOpened : Nat → Bool
  queryText : Nat → List Char
  queryErange : Nat → Nat → Bool
  querySearch : Nat → Nat → SearchEnv

/-- How one command of `do_read` ends: it printed `out` and sets the result to `0`, it was skipped
after a message on standard error, or it printed `out` and jumps to `exit`. -/
inductive CmdStep where
  | ok (out : List Char)
  | skipped
  | stop (out : List Char)

/-- One turn of the loop of `do_read`, for the command numbered `i`. `edgeLabelCount` is
`cgraphr_edge_label_count(g)`. -/
def runCommand (edgeLabelCount : Nat) (argd : CGraphArgs) (env : ReadEnv) (i : Nat)
    (c : CGraphCommand) : Outcome CmdStep :=
  match c.cmd with
  | .cmdDecompress =>
      (doDecompress g fuel (env.decompress i) argd.overwrite).map fun r =>
        if r.1 < 0 then .stop r.2.2 else .ok r.2.2
  | .cmdEdges | .cmdHyperedges =>
      (parseHyperedgeArgInto (env.erange i) (c.argStr.getD [])).bind fun p =>
        if p.1 < 0 then .done .skipped
        else
          (performSearch g qsort fuel (env.search i) p.2 argd.params.existQuery
            argd.params.exactQuery argd.params.sortResult argd.verbose).map .ok
  | .cmdQueryFile =>
      if env.present i then
        (performQueryFile g qsort fuel (env.querySearch i) (env.queryErange i) (env.queryOpened i)
          (env.queryText i) argd.params.existQuery argd.params.exactQuery argd.params.sortResult
          argd.verbose).map fun r => .ok r.2
      else .done .skipped
  | .cmdNodeCount => .done (.ok (decimal g.nodeCount ++ ['\n']))
  | .cmdEdgeLabels => .done (.ok (decimal edgeLabelCount ++ ['\n']))
  | .cmdNone => .done (.stop [])

end

/-- The loop of `do_read` over the commands from the one numbered `i` on, with the result `res`
so far: the result and what it prints. -/
def runCommands (run : Nat → CGraphCommand → Outcome CmdStep) :
    Nat → List CGraphCommand → Int → Outcome (Int × List Char)
  | _, [], res => .done (res, [])
  | i, c :: cs, res =>
      match run i c with
      | .done (.ok out) => (runCommands run (i + 1) cs 0).map fun r => (r.1, out ++ r.2)
      | .done .skipped => runCommands run (i + 1) cs res
      | .done (.stop out) => .done (res, out)
      | .exit => .exit
      | .undefined => .undefined
      | .outOfFuel => .outOfFuel

/-- `do_read(input, argd)`: `g` is the graph `cgraphr_init` opens, `none` where it fails. -/
def doRead (g : Option (GrammarReader ν)) (qsort : List CGraphEdge → List CGraphEdge) (fuel : Nat)
    (edgeLabelCount : Nat) (argd : CGraphArgs) (env : ReadEnv) : Outcome (Int × List Char) :=
  match g with
  | none => .done (-1, [])
  | some g =>
      if argd.commands = [] then .done (-1, [])
      else runCommands (runCommand g qsort fuel edgeLabelCount argd env) 0 argd.commands (-1)

/-! ## The loop of `do_read` -/

/-- The turns of the loop for the commands from the one numbered `i` on, each as if reached. -/
def turns (run : Nat → CGraphCommand → Outcome CmdStep) : Nat → List CGraphCommand → List (Outcome CmdStep)
  | _, [] => []
  | i, c :: cs => run i c :: turns run (i + 1) cs

/-- Whether the loop goes on after a turn. -/
def goesOn : Outcome CmdStep → Bool
  | .done (.ok _) | .done .skipped => true
  | _ => false

/-- Whether a turn sets the result to `0`. -/
def setsResult : Outcome CmdStep → Bool
  | .done (.ok _) => true
  | _ => false

/-- What a turn prints. -/
def printed : Outcome CmdStep → List Char
  | .done (.ok out) | .done (.stop out) => out
  | _ => []

section
variable {run : Nat → CGraphCommand → Outcome CmdStep} {i : Nat} {c : CGraphCommand}
  {cs : List CGraphCommand} {res : Int}

theorem runCommands_ok {out : List Char} (h : run i c = .done (.ok out)) :
    runCommands run i (c :: cs) res = (runCommands run (i + 1) cs 0).map fun r => (r.1, out ++ r.2) := by
  simp [runCommands, h]

theorem runCommands_skipped (h : run i c = .done .skipped) :
    runCommands run i (c :: cs) res = runCommands run (i + 1) cs res := by
  simp [runCommands, h]

theorem runCommands_stop {out : List Char} (h : run i c = .done (.stop out)) :
    runCommands run i (c :: cs) res = .done (res, out) := by
  simp [runCommands, h]

theorem runCommands_undefined (h : run i c = .undefined) : runCommands run i (c :: cs) res = .undefined := by
  simp [runCommands, h]

end

/-- `--edges` runs as `--hyperedges`: the argument is parsed into `arg`, and the search runs when
it parses. -/
theorem runCommand_hyperedges (g : GrammarReader ν) (qsort : List CGraphEdge → List CGraphEdge)
    (fuel edgeLabelCount : Nat) (argd : CGraphArgs) (env : ReadEnv) (i : Nat) {c : CGraphCommand}
    (h : c.cmd = .cmdHyperedges ∨ c.cmd = .cmdEdges) :
    runCommand g qsort fuel edgeLabelCount argd env i c =
      (parseHyperedgeArgInto (env.erange i) (c.argStr.getD [])).bind fun p =>
        if p.1 < 0 then .done .skipped
        else
          (performSearch g qsort fuel (env.search i) p.2 argd.params.existQuery
            argd.params.exactQuery argd.params.sortResult argd.verbose).map .ok := by
  rcases h with h | h <;> simp only [runCommand, h]

/-- The loop of `do_read` from any command on: the turns up to the first that ends the loop run;
an `exit(1)` among them ends the program; otherwise the result is `0` exactly when one of them
went through, and the output is theirs in order, that of the turn that ends the loop last. -/
theorem runCommands_eq (run : Nat → CGraphCommand → Outcome CmdStep) (i : Nat)
    (cs : List CGraphCommand) (res : Int) :
    runCommands run i cs res =
      match (turns run i cs).dropWhile goesOn with
      | .exit :: _ => .exit
      | .undefined :: _ => .undefined
      | .outOfFuel :: _ => .outOfFuel
      | rest => .done (if ((turns run i cs).takeWhile goesOn).any setsResult then 0 else res,
          ((turns run i cs).takeWhile goesOn).flatMap printed ++ (rest.take 1).flatMap printed) := by
  induction cs generalizing i res with
  | nil => simp [runCommands, turns]
  | cons c cs ih =>
      simp only [turns, runCommands]
      split
      · rename_i out hrun
        simp only [hrun, ih, List.dropWhile_cons, List.takeWhile_cons, goesOn, if_true,
          List.any_cons, setsResult, Bool.true_or, List.flatMap_cons, printed]
        split <;> simp [Outcome.map]
      all_goals rename_i hrun; simp [hrun, ih, goesOn, setsResult, printed]

/-- A query file that exists but does not open still sets the result to `0`. -/
example : doRead (some countdownGrammar) id 3 0
    ⟨1, true, none, false, queryArgs.params, [⟨.cmdQueryFile, some ['q']⟩], by decide⟩
    ⟨fun _ => ⟨false, true, true, fun _ => true, fun _ => true⟩, fun _ => false, fun _ => true,
      fun _ => searchSucceeds, fun _ => false, fun _ => [], fun _ _ => false, fun _ _ => searchSucceeds⟩ =
    .done (0, []) := by
  decide

/-! ## Decompressing -/

@[simp] theorem writtenTo_append (file : Bool) (ws ws' : List (Bool × List Char)) :
    writtenTo file (ws ++ ws') = writtenTo file ws ++ writtenTo file ws' := by
  simp [writtenTo]

theorem writtenTo_flatMap {α : Type} (file : Bool) (f : α → List (Bool × List Char)) (l : List α) :
    writtenTo file (l.flatMap f) = l.flatMap fun a => writtenTo file (f a) := by
  induction l with
  | nil => rfl
  | cons a l ih => rw [List.flatMap_cons, writtenTo_append, ih, List.flatMap_cons]

theorem writtenTo_commaWrites (vs : List Int) :
    writtenTo true (vs.flatMap fun w => [(false, [',']), (true, printLld w)]) = vs.flatMap printLld ∧
      writtenTo false (vs.flatMap fun w => [(false, [',']), (true, printLld w)]) =
        List.replicate vs.length ',' := by
  induction vs with
  | nil => exact ⟨rfl, rfl⟩
  | cons w vs ih =>
      rw [List.flatMap_cons, writtenTo_append, writtenTo_append, ih.1, ih.2]
      simp [writtenTo, List.replicate_succ]

/-- The writes for the nodes `vs` put their numerals in the file and a comma between each two on
standard output. -/
theorem writtenTo_nodeWrites (vs : List Int) :
    writtenTo true (nodeWrites vs) = vs.flatMap printLld ∧
      writtenTo false (nodeWrites vs) = List.replicate (vs.length - 1) ',' := by
  cases vs with
  | nil => exact ⟨rfl, rfl⟩
  | cons v vs =>
      rw [nodeWrites, ← List.singleton_append, writtenTo_append, writtenTo_append,
        (writtenTo_commaWrites vs).1, (writtenTo_commaWrites vs).2]
      simp [writtenTo]

/-- With every write succeeding, the writes for the edges `es` put in the file and on standard
output what `CommandLine.doDecompress` says, the closing count apart. -/
theorem writtenTo_edgeWrites (es : List CGraphEdge) :
    writtenTo true (es.flatMap edgeWrites) = (CommandLine.doDecompress es).1 ∧
      writtenTo false (es.flatMap edgeWrites) ++ "Decompressed ".toList ++ decimal es.length ++
        " edges.\n".toList = (CommandLine.doDecompress es).2 := by
  simp only [CommandLine.doDecompress, CommandLine.decompressEdge, writtenTo_flatMap, edgeWrites,
    writtenTo_append, (writtenTo_nodeWrites _).1, (writtenTo_nodeWrites _).2]
  exact ⟨rfl, by simp [writtenTo]⟩

/-- What the loop of `do_decompress` makes of the writes `ws` for the `n` edges it reads, from the
write numbered `w` on: the writes before the first `EOF` and no count, or all of them and `n`. -/
def writesUntilEof (written : Nat → Bool) (w : Nat) (ws : List (Bool × List Char)) (n : Nat) :
    List (Bool × List Char) × Option Nat :=
  if copiedRun written w ws.length < ws.length then (ws.take (copiedRun written w ws.length), none)
  else (ws, some n)

theorem writesUntilEof_append (written : Nat → Bool) (w : Nat) (ws ws' : List (Bool × List Char))
    (n : Nat) :
    writesUntilEof written w (ws ++ ws') (n + 1) =
      if copiedRun written w ws.length < ws.length then (ws.take (copiedRun written w ws.length), none)
      else ((ws ++ (writesUntilEof written (w + ws.length) ws' n).1),
        (writesUntilEof written (w + ws.length) ws' n).2.map (· + 1)) := by
  unfold writesUntilEof
  rw [List.length_append, copiedRun_add]
  have hle := copiedRun_le written w ws.length
  by_cases h : copiedRun written w ws.length < ws.length
  · rw [if_pos h, if_pos h, if_pos (by omega), List.take_append_of_le_length h.le]
  · rw [if_neg h, if_neg h]
    by_cases h' : copiedRun written (w + ws.length) ws'.length < ws'.length
    · rw [if_pos (by omega), if_pos h', List.take_append_eq_append_take, List.take_of_length_le (by omega)]
      simp
    · rw [if_neg (by omega), if_neg h']
      rfl

/-- The loop of `do_decompress` over an iterator that yields `es`, given more fuel than edges: it
reads the edges up to the first whose nodes could not be copied, stopping there as at the end of
the iterator, and makes their writes up to the first `EOF`. -/
theorem decompressEdges_yields (g : GrammarReader ν) (copied written : Nat → Bool) {it : ν}
    {es : List CGraphEdge} {last : Int} (hy : Yields g it es last) :
    ∀ k w fuel, es.length < fuel →
      decompressEdges g copied written fuel k w it =
        .done (writesUntilEof written w ((es.take (copiedRun copied k es.length)).flatMap edgeWrites)
          (es.take (copiedRun copied k es.length)).length) := by
  induction hy with
  | stop h =>
      rintro k w (_ | fuel) hfuel
      · exact absurd hfuel (Nat.not_lt_zero _)
      · have hnext := cgraphrEdgesNext_stop h true (copied k)
        simp only [decompressEdges]
        split <;> simp_all [writesUntilEof]
  | @edge it it' e es last hnext _ ih =>
      rintro k w (_ | fuel) hfuel
      · exact absurd hfuel (Nat.not_lt_zero _)
      · rw [List.length_cons, copiedRun_succ]
        simp only [decompressEdges, cgraphrEdgesNext_edge hnext]
        by_cases hc : copied k
        · simp only [hc, if_true, List.take_succ_cons, List.flatMap_cons, List.length_cons,
            writesUntilEof_append]
          split_ifs
          · rfl
          · rw [ih (k + 1) _ fuel (by simp at hfuel; omega)]
            rfl
        · simp [hc, writesUntilEof]

/-- An environment of `do_decompress` in which the output is new and every allocation and write
succeeds. -/
def decompressSucceeds : DecompressEnv := ⟨false, true, true, fun _ => true, fun _ => true⟩

/-- The second write, the first edge's line end, returns `EOF`: the file holds the node `0` and
`do_decompress` returns `-1`. -/
example : doDecompress countdownGrammar 3 { decompressSucceeds with written := fun w => w < 1 } false =
    .done (-1, ['0'], []) := by
  decide

/-! ## Query files -/

/-- What a `--query-file` of the lines `ls` is for, from the line numbered `cn` on: for each
line its header, then what `--hyperedges` with the line as argument prints, up to the first
line that `--hyperedges` would skip, where the result is `-1`. -/
def hyperedgesLines (run : Nat → CGraphCommand → Outcome CmdStep) :
    Nat → List (List Char) → Outcome (Int × List Char)
  | _, [] => .done (0, [])
  | cn, l :: ls =>
      let header := "Query ".toList ++ decimal cn ++ ": ".toList ++ l ++ ['\n']
      match run cn ⟨.cmdHyperedges, some l⟩ with
      | .done (.ok out) => (hyperedgesLines run (cn + 1) ls).map fun r => (r.1, header ++ out ++ r.2)
      | .done _ => .done (-1, header)
      | .exit => .exit
      | .undefined => .undefined
      | .outOfFuel => .outOfFuel

/-- The loop of `perform_query_file` over newline-terminated lines with no NUL is the
`--hyperedges` command on each line, with the answers of `renv` by line. -/
theorem queryLines_hyperedgesLines (g : GrammarReader ν) (qsort : List CGraphEdge → List CGraphEdge)
    (fuel edgeLabelCount : Nat) (argd : CGraphArgs) (renv : ReadEnv) (cn : Nat)
    (ls : List (List Char)) (hls : ∀ l ∈ ls, '\x00' ∉ l) :
    queryLines g qsort fuel renv.search renv.erange argd.params.existQuery argd.params.exactQuery
        argd.params.sortResult argd.verbose cn (ls.map fun l => l ++ ['\n']) =
      hyperedgesLines (runCommand g qsort fuel edgeLabelCount argd renv) cn ls := by
  induction ls generalizing cn with
  | nil => rfl
  | cons l ls ih =>
      have hc : cString (l ++ ['\n']) = l ++ ['\n'] :=
        cString_of_not_mem (by simp [hls l (List.mem_cons_self l ls)])
      simp only [List.map_cons, queryLines, hyperedgesLines, runCommand, Option.getD_some, hc,
        parseHyperedgeArgInto_append_space _ l (show isSpace '\n' = true from rfl)]
      rcases parseHyperedgeArgInto (renv.erange cn) l with p | _ | _ | _ <;> try rfl
      simp only [Outcome.done_bind]
      split_ifs
      · simp [List.append_assoc]
      · rcases performSearch g qsort fuel (renv.search cn) _ _ _ _ _ with out | _ | _ | _ <;>
          simp [Outcome.map, Outcome.bind, ih (cn + 1) fun l h => hls l (List.mem_cons_of_mem _ h)]

/-- An environment of `do_read` in which every file is there and every allocation succeeds. -/
def readSucceeds : ReadEnv :=
  ⟨fun _ => decompressSucceeds, fun _ => false, fun _ => true, fun _ => searchSucceeds,
    fun _ => true, fun _ => [], fun _ _ => false, fun _ _ => searchSucceeds⟩

end CGraph.Reading
