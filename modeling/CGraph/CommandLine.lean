import CGraph.Text

/-!
# The command line: edge files in and out

`do_compress` reads its input with `cornell_hyperedge_parse`, whatever the format flag says
(`get_format` and `guess_format` both answer the syntax of the first table entry), and
`do_decompress` writes every edge of the reader to a text file. The parser cuts each buffer
`fgets` fills into tokens at spaces, commas, tabs and newlines, reads each with
`strtoll(token, NULL, 0)` and passes the line to `cgraphw_add_edge` with rank and label
both the token count. The writer puts the nodes of an edge into the file with `fprintf`,
but the commas between them go to standard output with `printf`.

`cgraphw_add_edge` enters the parser as a parameter `addEdge g rank label nodes`; the calls
the parser makes are observed with `recordCalls`, which accepts every edge.
-/
namespace CGraph.CommandLine

open CGraph.Text

/-- `MAX_LINE_LENGTH`: the size of the parsers' line buffer. -/
def maxLineLength : Nat := 8 * limitMaxRank

/-- The delimiters `" ,\t\n"` of `cornell_hyperedge_parse`. -/
def isCornellDelim (c : Char) : Bool := c = ' ' || c = ',' || c = '\t' || c = '\n'

/-- The values `n[0..cn)` the token loop stores for a buffer. -/
def lineNodes (buf : List Char) : List Int := (strtokTokens isCornellDelim buf).map strtoll

section
variable {σ : Type} (addEdge : σ → Int → Int → List Int → Int × σ)

/-- The loop of `cornell_hyperedge_parse` over the buffers `fgets` fills: a line of
`LIMIT_MAX_RANK` tokens or more returns `-1` at once, any other line is passed to
`cgraphw_add_edge(g, cn, cn, n)`, and a negative answer ends the loop with `-1`. -/
def parseBuffers (g : σ) : List (List Char) → Int × σ
  | [] => (0, g)
  | buf :: rest =>
      if limitMaxRank ≤ (lineNodes buf).length then (-1, g)
      else
        let r := addEdge g (lineNodes buf).length (lineNodes buf).length (lineNodes buf)
        if r.1 < 0 then (-1, r.2) else parseBuffers r.2 rest

/-- `cornell_hyperedge_parse(filename, syntax, g)` on the text of the file. -/
def cornellHyperedgeParse (g : σ) (text : List Char) : Int × σ :=
  parseBuffers addEdge g (fgetsBuffers maxLineLength [] text)

end

/-- A `cgraphw_add_edge` that accepts every edge and records `(rank, label, nodes)`. -/
def recordCalls (calls : List (Int × Int × List Int)) (rank label : Int) (nodes : List Int) :
    Int × List (Int × Int × List Int) :=
  (0, calls ++ [(rank, label, nodes)])

/-- Whether a buffer has fewer than `LIMIT_MAX_RANK` tokens. -/
def lineFits (buf : List Char) : Bool := (lineNodes buf).length < limitMaxRank

/-- The call the parser makes for a buffer. -/
def lineCall (buf : List Char) : Int × Int × List Int :=
  ((lineNodes buf).length, (lineNodes buf).length, lineNodes buf)

/-- With a `cgraphw_add_edge` that answers `0` in every state of an invariant `P` and keeps
`P`, the parser makes the recorded calls one after the other. -/
theorem parseBuffers_accepting {σ : Type} (addEdge : σ → Int → Int → List Int → Int × σ)
    (P : σ → Prop) (hP : ∀ g r l n, P g → (addEdge g r l n).1 = 0 ∧ P (addEdge g r l n).2)
    (bufs : List (List Char)) (g : σ) (hg : P g) :
    parseBuffers addEdge g bufs =
      (if bufs.all lineFits then 0 else -1,
        ((bufs.takeWhile lineFits).map lineCall).foldl (fun g c => (addEdge g c.1 c.2.1 c.2.2).2) g) := by
  induction bufs generalizing g with
  | nil => simp [parseBuffers]
  | cons buf bufs ih =>
      by_cases h : limitMaxRank ≤ (lineNodes buf).length
      · have hf : lineFits buf = false := by simpa [lineFits] using h
        simp [parseBuffers, h, hf]
      · have hf : lineFits buf = true := by simpa [lineFits] using h
        obtain ⟨h0, hP'⟩ := hP g (lineNodes buf).length (lineNodes buf).length (lineNodes buf) hg
        simp [parseBuffers, h, hf, h0, ih _ hP', lineCall]

/-- With every edge accepted, the parser calls `cgraphw_add_edge` once per buffer up to the
first buffer of `LIMIT_MAX_RANK` tokens or more, and returns `0` exactly when there is none. -/
theorem parseBuffers_recordCalls (calls : List (Int × Int × List Int)) (bufs : List (List Char)) :
    parseBuffers recordCalls calls bufs =
      (if bufs.all lineFits then 0 else -1, calls ++ (bufs.takeWhile lineFits).map lineCall) := by
  rw [parseBuffers_accepting recordCalls (fun _ => True) (fun _ _ _ _ _ => ⟨rfl, trivial⟩) bufs calls
    trivial]
  congr 1
  induction (bufs.takeWhile lineFits).map lineCall generalizing calls <;> simp_all [recordCalls]

/-- The whole behaviour of `cornell_hyperedge_parse` on any text, every edge being accepted. -/
theorem cornellHyperedgeParse_spec (text : List Char) :
    cornellHyperedgeParse recordCalls [] text =
      (if (fgetsBuffers maxLineLength [] text).all lineFits then 0 else -1,
        ((fgetsBuffers maxLineLength [] text).takeWhile lineFits).map lineCall) := by
  rw [cornellHyperedgeParse, parseBuffers_recordCalls, List.nil_append]

/-- A blank line is passed on as an edge of rank `0`, a token with a leading `0` is read in
octal, and a token that is no numeral is read as `0`. -/
theorem parse_blank_octal_and_word_lines :
    cornellHyperedgeParse recordCalls [] ['5', '\n', '\n'] = (0, [(1, 1, [5]), (0, 0, [])]) ∧
      cornellHyperedgeParse recordCalls [] ['0', '1', '0', '\n'] = (0, [(1, 1, [8])]) ∧
      cornellHyperedgeParse recordCalls [] ['x', '\n'] = (0, [(1, 1, [0])]) := by
  decide

/-! ## Writing edges out -/

/-- The nodes `do_decompress` writes for an edge: the first `rank`. -/
def writtenNodes (e : CGraphEdge) : List Int := e.nodes.take e.rank.toNat

/-- What `do_decompress` writes for one edge: to the output file every node with
`fprintf(out_fd, "%lld", node)` and then a newline, to standard output a `printf(",")`
before every node but the first. -/
def decompressEdge (e : CGraphEdge) : List Char × List Char :=
  ((writtenNodes e).flatMap printLld ++ ['\n'], List.replicate ((writtenNodes e).length - 1) ',')

/-- `do_decompress` over the edges the `cgraphr_edges_next` calls return, all writes
succeeding: the text of the output file, and what goes to standard output. -/
def doDecompress (es : List CGraphEdge) : List Char × List Char :=
  (es.flatMap fun e => (decompressEdge e).1,
    (es.flatMap fun e => (decompressEdge e).2) ++ "Decompressed ".toList ++ decimal es.length ++
      " edges.\n".toList)

theorem digitChar_not_delim : ∀ d < 10, isCornellDelim (Nat.digitChar d) = false := by
  decide

/-- The characters of a written line are no delimiters, NULs or newlines. -/
theorem flatMap_printLld_chars (vs : List Int) (hvs : ∀ v ∈ vs, -2 ^ 63 ≤ v ∧ v < 2 ^ 63) :
    ∀ c ∈ vs.flatMap printLld, isCornellDelim c = false ∧ c ≠ '\x00' := by
  intro c hc
  obtain ⟨v, hv, hc⟩ := List.mem_flatMap.mp hc
  rcases (printLld_spec v (hvs v hv).1 (hvs v hv).2).1 c hc with rfl | ⟨d, hd, rfl⟩
  · decide
  · exact ⟨digitChar_not_delim d hd, (digitChar_spec d hd).2.2.2.2.1⟩

/-- Reading back the file `do_decompress` writes makes one call per edge: none of its nodes
for an edge of rank `0`, otherwise a single node, the value of all its numerals written
together. -/
theorem parse_decompress (es : List CGraphEdge)
    (hvs : ∀ e ∈ es, ∀ v ∈ e.nodes, -2 ^ 63 ≤ v ∧ v < 2 ^ 63)
    (hlen : ∀ e ∈ es, ((writtenNodes e).flatMap printLld).length < maxLineLength - 1) :
    cornellHyperedgeParse recordCalls [] (doDecompress es).1 =
      (0, es.map fun e =>
        if writtenNodes e = [] then (0, 0, []) else (1, 1, [strtoll ((writtenNodes e).flatMap printLld)])) := by
  have hchars : ∀ e ∈ es, ∀ c ∈ (writtenNodes e).flatMap printLld,
      isCornellDelim c = false ∧ c ≠ '\x00' := fun e he =>
    flatMap_printLld_chars _ fun v hv => hvs e he v (List.mem_of_mem_take hv)
  have hnodes : ∀ e ∈ es, lineNodes ((writtenNodes e).flatMap printLld ++ ['\n']) =
      if writtenNodes e = [] then [] else [strtoll ((writtenNodes e).flatMap printLld)] := by
    intro e he
    rw [lineNodes, strtokTokens_line _ _ (hchars e he) rfl]
    rcases hw : writtenNodes e with _ | ⟨v, vs⟩
    · rfl
    · have hv := hvs e he v (List.mem_of_mem_take (hw ▸ List.mem_cons_self v vs))
      simp [(printLld_spec v hv.1 hv.2).2.1]
  have hfile : (doDecompress es).1 =
      (es.map fun e => (writtenNodes e).flatMap printLld).flatMap fun l => l ++ ['\n'] := by
    simp [doDecompress, decompressEdge, List.flatMap_map]
  have hbufs : fgetsBuffers maxLineLength [] (doDecompress es).1 =
      es.map fun e => (writtenNodes e).flatMap printLld ++ ['\n'] := by
    rw [hfile, fgetsBuffers_lines, List.map_map]
    · rfl
    · simp only [List.mem_map, forall_exists_index, and_imp, forall_apply_eq_imp_iff₂]
      exact fun e he => ⟨fun h => absurd (hchars e he '\n' h).1 (by decide), hlen e he⟩
  have hfits : ∀ e ∈ es, lineFits ((writtenNodes e).flatMap printLld ++ ['\n']) = true := by
    intro e he
    rw [lineFits, hnodes e he]
    split_ifs <;> simp [limitMaxRank]
  have hall : ∀ b ∈ es.map fun e => (writtenNodes e).flatMap printLld ++ ['\n'], lineFits b = true := by
    simpa only [List.mem_map, forall_exists_index, and_imp, forall_apply_eq_imp_iff₂] using hfits
  rw [cornellHyperedgeParse_spec, hbufs, if_pos (List.all_eq_true.mpr hall),
    List.takeWhile_eq_self_iff.mpr hall, List.map_map]
  congr 1
  refine List.map_congr_left fun e he => ?_
  simp only [Function.comp_apply, lineCall, hnodes e he]
  split_ifs <;> rfl

/-- Edges of rank `1` and label `1` come back from writing out and reading in unchanged. -/
theorem decompress_parse_rank_one (es : List CGraphEdge)
    (h : ∀ e ∈ es, e.rank = 1 ∧ e.label = 1 ∧ e.nodes.length = 1 ∧
      ∀ v ∈ e.nodes, -2 ^ 63 ≤ v ∧ v < 2 ^ 63) :
    cornellHyperedgeParse recordCalls [] (doDecompress es).1 =
      (0, es.map fun e => (e.rank, e.label, e.nodes)) := by
  have hone : ∀ e ∈ es, ∃ v, -2 ^ 63 ≤ v ∧ v < 2 ^ 63 ∧ writtenNodes e = [v] ∧ e.nodes = [v] := by
    intro e he
    obtain ⟨hr, -, hl, hv⟩ := h e he
    obtain ⟨v, hnv⟩ := List.length_eq_one.mp hl
    have hv := hv v (by simp [hnv])
    exact ⟨v, hv.1, hv.2, by simp [writtenNodes, hr, hnv], hnv⟩
  rw [parse_decompress es (fun e he => (h e he).2.2.2) fun e he => by
    obtain ⟨v, hv₀, hv₁, hw, -⟩ := hone e he
    have := (printLld_spec v hv₀ hv₁).2.2
    simp only [hw, List.flatMap_cons, List.flatMap_nil, List.append_nil, maxLineLength, limitMaxRank]
    omega]
  congr 1
  refine List.map_congr_left fun e he => ?_
  obtain ⟨v, hv₀, hv₁, hw, hn⟩ := hone e he
  simp [hw, hn, (h e he).1, (h e he).2.1, strtoll_printLld v hv₀ hv₁]

theorem decompress_parse_rank_one_single :
    (∀ e ∈ [(⟨1, 1, [7]⟩ : CGraphEdge)], e.rank = 1 ∧ e.label = 1 ∧ e.nodes.length = 1 ∧
      ∀ v ∈ e.nodes, -2 ^ 63 ≤ v ∧ v < 2 ^ 63) ∧
    cornellHyperedgeParse recordCalls [] (doDecompress [⟨1, 1, [7]⟩]).1 = (0, [(1, 1, [7])]) :=
  ⟨by decide, decompress_parse_rank_one [⟨1, 1, [7]⟩] (by decide)⟩

/-- `do_decompress` writes the two nodes of an edge of rank `2` as one numeral, the comma
between them going to standard output, and the parser reads the line back as one node. -/
theorem decompress_joins_nodes :
    doDecompress [⟨2, 2, [1, 2]⟩] = (['1', '2', '\n'], ',' :: "Decompressed 1 edges.\n".toList) ∧
      cornellHyperedgeParse recordCalls [] (doDecompress [⟨2, 2, [1, 2]⟩]).1 =
        (0, [(1, 1, [12])]) := by
  have h : doDecompress [⟨2, 2, [1, 2]⟩] =
      (['1', '2', '\n'], ',' :: "Decompressed 1 edges.\n".toList) := by
    simp only [doDecompress, decompressEdge, writtenNodes, List.flatMap_cons, List.flatMap_nil,
      show List.take (Int.toNat 2) [(1 : Int), 2] = [1, 2] from rfl, List.length_singleton,
      printLld_of_lt (show (0 : Int) < 1 by decide) (by decide),
      printLld_of_lt (show (0 : Int) < 2 by decide) (by decide),
      decimal_of_lt one_ne_zero (by decide)]
    decide
  exact ⟨h, by rw [h]; decide⟩

end CGraph.CommandLine
