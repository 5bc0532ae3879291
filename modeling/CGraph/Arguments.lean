import CGraph.HyperedgeArg
import CGraph.Writer

/-!
# The arguments of the command line

`parse_args` runs a loop over what `getopt_long` hands it, one option at a time, and fills a
`CGraphArgs`. An option of compression (`--max-rank`, `--monograms`, `--factor`, `--no-table`)
or of reading (the commands and the three query flags) first passes `check_mode`, which refuses
it once an option of the other kind has been seen. The commands are stored in order by the
`add_command_*` macros, up to the 1024 entries of `argd->commands`. `--max-rank` and `--factor`
read their argument with `parse_optarg_int` and store the `uint64_t` into an `int`. After the
loop `mode` is `0`, `1` or `-1` as options of compression, of reading or of neither kind were
seen, and `main` settles `-1` by the number of operands.

`getopt_long` itself is not modelled: its result is the list of options it returns, each with
its argument, and the operands it leaves behind; `?` and `:` are one option, `unknown`.
`errno` is passed through the reads of numbers, as `strtoull` leaves it.
-/
namespace CGraph.Arguments

open CGraph.Text CGraph.HyperedgeArg CGraph.Writer

/-- An option as `getopt_long` returns it (`enum opt`), with `optarg` where it takes one. -/
inductive Opt where
  | help
  | verbose
  | format (arg : List Char)
  | overwrite
  | maxRank (arg : List Char)
  | monograms
  | factor (arg : List Char)
  | noTable
  | decompress (arg : List Char)
  | edges (arg : List Char)
  | hyperedges (arg : List Char)
  | existQuery
  | exactQuery
  | sortResult
  | queryFile (arg : List Char)
  | nodeCount
  | edgeLabels
  | unknown
  deriving DecidableEq, Repr

/-- `CGraphCmd`. -/
inductive CGraphCmd where
  | cmdNone
  | cmdDecompress
  | cmdEdges
  | cmdHyperedges
  | cmdQueryFile
  | cmdNodeCount
  | cmdEdgeLabels
  deriving DecidableEq, Repr

/-- `CGraphCommand`: the command and `arg_str`, which `add_command_none` leaves unset. -/
structure CGraphCommand where
  cmd : CGraphCmd
  argStr : Option (List Char)
  deriving DecidableEq, Repr

/-- `CGraphCParams` as the command line fills it: the writer's fields and the three flags of
the queries. -/
structure CGraphParams extends CGraphCParams where
  existQuery : Bool
  exactQuery : Bool
  sortResult : Bool
  deriving DecidableEq, Repr

/-- The number of entries of `argd->commands`. -/
def maxCommands : Nat := 1024

/-- `CGraphArgs`; `commands` holds the first `command_count` entries of the array. -/
structure CGraphArgs where
  mode : Int
  verbose : Bool
  format : Option (List Char)
  overwrite : Bool
  params : CGraphParams
  commands : List CGraphCommand
  commands_le : commands.length ≤ maxCommands

/-- The state of the loop of `parse_args`: `errno`, `mode_compress`, `mode_read` and `argd`. -/
structure ParseState where
  errno : Bool
  modeCompress : Bool
  modeRead : Bool
  argd : CGraphArgs

/-- How `parse_args`, or one turn of its loop, ends: `exit(0)` after the usage text, `-1` after
a message on standard error (empty where `getopt_long` prints its own), or on with a state. -/
inductive ParseOutcome where
  | usage
  | failed (msg : String)
  | parsed (st : ParseState)

/-- The conversion of a `uint64_t` to `int`: the value modulo `2^32`, less `2^32` from `2^31` on. -/
def toInt32 (v : Nat) : Int := if v % 2 ^ 32 < 2 ^ 31 then (v % 2 ^ 32 : Nat) else (v % 2 ^ 32 : Nat) - 2 ^ 32

/-- `parse_optarg_int(&v)` on `optarg`: the value stored when it returns `0`, and `errno`. -/
def parseOptargInt (errno : Bool) (optarg : List Char) : Option Nat × Bool :=
  match parseInt errno optarg with
  | (some (v, []), errno') => (some v, errno')
  | (_, errno') => (none, errno')

/-- `check_mode(mode_compress, mode_read, compress_expected)` for the option `--name`, then `k`
on the state it leaves. -/
def checkMode (name : String) (compressExpected : Bool) (st : ParseState)
    (k : ParseState → ParseOutcome) : ParseOutcome :=
  if compressExpected then
    if st.modeRead then .failed ("option \x27--" ++ name ++ "\x27 not allowed when compressing\n")
    else k { st with modeCompress := true }
  else if st.modeCompress then
    .failed ("option \x27--" ++ name ++ "\x27 not allowed when reading the compressed graph\n")
  else k { st with modeRead := true }

/-- The message of a full `argd->commands`. -/
def commandsFull : String := "exceeded the maximum number of commands\n"

/-- The `add_command_*` macros: store the command `c` with the argument `arg` after the others,
unless the array is full. -/
def addCommand (c : CGraphCmd) (arg : Option (List Char)) (st : ParseState) : ParseOutcome :=
  if h : st.argd.commands.length = maxCommands then .failed commandsFull
  else
    .parsed { st with argd := { st.argd with
      commands := st.argd.commands ++ [⟨c, arg⟩]
      commands_le := by
        rw [List.length_append, List.length_singleton]
        exact lt_of_le_of_ne st.argd.commands_le h } }

/-- `add_command_str(argd, c)`. -/
def addCommandStr (c : CGraphCmd) (optarg : List Char) (st : ParseState) : ParseOutcome :=
  addCommand c (some optarg) st

/-- `add_command_none(argd, c)`. -/
def addCommandNone (c : CGraphCmd) (st : ParseState) : ParseOutcome :=
  addCommand c none st

/-- A state whose parameters are changed by `f`. -/
def ParseState.setParams (st : ParseState) (f : CGraphParams → CGraphParams) : ParseState :=
  { st with argd := { st.argd with params := f st.argd.params } }

/-- `--max-rank` and `--factor`: `parse_optarg_int`, then the store into the `int` field. -/
def readIntParam (msg : String) (set : CGraphParams → Int → CGraphParams) (optarg : List Char)
    (st : ParseState) : ParseOutcome :=
  match parseOptargInt st.errno optarg with
  | (some v, errno) => .parsed ({ st with errno := errno }.setParams fun p => set p (toInt32 v))
  | (none, _) => .failed msg

/-- One turn of the loop of `parse_args`, for the option `getopt_long` returned. -/
def parseStep (st : ParseState) : Opt → ParseOutcome
  | .help => .usage
  | .verbose => .parsed { st with argd := { st.argd with verbose := true } }
  | .format a => .parsed { st with argd := { st.argd with format := some a } }
  | .overwrite => .parsed { st with argd := { st.argd with overwrite := true } }
  | .maxRank a => checkMode "max-rank" true st <|
      readIntParam "max-rank: expected integer\n" (fun p v => { p with maxRank := v }) a
  | .monograms => checkMode "monograms" true st fun st =>
      .parsed (st.setParams fun p => { p with monograms := true })
  | .factor a => checkMode "factor" true st <|
      readIntParam "factor: expected integer\n" (fun p v => { p with factor := v }) a
  | .noTable => checkMode "no-table" true st fun st =>
      .parsed (st.setParams fun p => { p with ntTable := false })
  | .decompress a => checkMode "decompress" false st <| addCommandStr .cmdDecompress a
  | .edges a => checkMode "edges" false st <| addCommandStr .cmdEdges a
  | .hyperedges a => checkMode "hyperedges" false st <| addCommandStr .cmdHyperedges a
  | .existQuery => checkMode "exist-query" false st fun st =>
      .parsed (st.setParams fun p => { p with existQuery := true })
  | .exactQuery => checkMode "exact-query" false st fun st =>
      .parsed (st.setParams fun p => { p with exactQuery := true })
  | .sortResult => checkMode "sort-result" false st fun st =>
      .parsed (st.setParams fun p => { p with sortResult := true })
  | .queryFile a => checkMode "query-file" false st <| addCommandStr .cmdQueryFile a
  | .nodeCount => checkMode "node-count" false st <| addCommandNone .cmdNodeCount
  | .edgeLabels => checkMode "edge-labels" false st <| addCommandNone .cmdEdgeLabels
  | .unknown => .failed ""

/-- The loop of `parse_args` over the options `getopt_long` returns. -/
def parseOpts : ParseState → List Opt → ParseOutcome
  | st, [] => .parsed st
  | st, o :: os =>
      match parseStep st o with
      | .parsed st' => parseOpts st' os
      | .usage => .usage
      | .failed msg => .failed msg

/-- The fields `parse_args` sets before its loop. -/
def defaultArgs : CGraphArgs :=
  ⟨-1, false, none, false, ⟨⟨defaultMaxRank, false, defaultFactor, false⟩, false, false, false⟩,
    [], Nat.zero_le _⟩

/-- `parse_args(argc, argv, argd)` with `errno` as the program starts. -/
def parseArgs (errno : Bool) (opts : List Opt) : ParseOutcome :=
  match parseOpts ⟨errno, false, false, defaultArgs⟩ opts with
  | .parsed st =>
      .parsed { st with argd := { st.argd with
        mode := if st.modeCompress then 0 else if st.modeRead then 1 else -1 } }
  | .usage => .usage
  | .failed msg => .failed msg

/-! ## What a run of the loop leaves -/

/-- The options `check_mode` takes as options of compression. -/
def Opt.compressOnly : Opt → Bool
  | .maxRank _ | .monograms | .factor _ | .noTable => true
  | _ => false

/-- The options `check_mode` takes as options of reading. -/
def Opt.readOnly : Opt → Bool
  | .decompress _ | .edges _ | .hyperedges _ | .existQuery | .exactQuery | .sortResult
  | .queryFile _ | .nodeCount | .edgeLabels => true
  | _ => false

/-- The command an option stores. -/
def Opt.command : Opt → Option CGraphCommand
  | .decompress a => some ⟨.cmdDecompress, some a⟩
  | .edges a => some ⟨.cmdEdges, some a⟩
  | .hyperedges a => some ⟨.cmdHyperedges, some a⟩
  | .queryFile a => some ⟨.cmdQueryFile, some a⟩
  | .nodeCount => some ⟨.cmdNodeCount, none⟩
  | .edgeLabels => some ⟨.cmdEdgeLabels, none⟩
  | _ => none

/-- The argument of a `--format`. -/
def Opt.formatArg : Opt → Option (List Char)
  | .format a => some a
  | _ => none

/-- The argument of a `--max-rank`. -/
def Opt.maxRankArg : Opt → Option (List Char)
  | .maxRank a => some a
  | _ => none

/-- The argument of a `--factor`. -/
def Opt.factorArg : Opt → Option (List Char)
  | .factor a => some a
  | _ => none

/-- The number `strtoull` reads at the start of a text. -/
def readValue (a : List Char) : Nat := ((strtoull a).map Prod.fst).getD 0

/-- The number the last of `args` reads, stored into an `int`, or `default` when there is none. -/
def lastValue (default : Int) (args : List (List Char)) : Int :=
  args.getLast?.elim default fun a => toInt32 (readValue a)

/-- What `argd` holds after the options `opts`, read off the options: the commands are those of
the options in order, a flag is set when its option was given, `--format`, `--max-rank` and
`--factor` keep the last value, and `nt_table` stays `false`. -/
structure ArgsOf (opts : List Opt) (argd : CGraphArgs) : Prop where
  commands : argd.commands = opts.filterMap Opt.command
  verbose : argd.verbose = decide (Opt.verbose ∈ opts)
  format : argd.format = (opts.filterMap Opt.formatArg).getLast?
  overwrite : argd.overwrite = decide (Opt.overwrite ∈ opts)
  max_rank : argd.params.maxRank = lastValue defaultMaxRank (opts.filterMap Opt.maxRankArg)
  monograms : argd.params.monograms = decide (Opt.monograms ∈ opts)
  factor : argd.params.factor = lastValue defaultFactor (opts.filterMap Opt.factorArg)
  nt_table : argd.params.ntTable = false
  exist_query : argd.params.existQuery = decide (Opt.existQuery ∈ opts)
  exact_query : argd.params.exactQuery = decide (Opt.exactQuery ∈ opts)
  sort_result : argd.params.sortResult = decide (Opt.sortResult ∈ opts)

/-- What the state of the loop holds after the options `opts`: the mode flags record which kinds
of option were seen, never both; there was no `--help` and no unknown option; `mode` is still
`-1`; and `argd` is `ArgsOf opts`. -/
structure Consumed (opts : List Opt) (st : ParseState) : Prop where
  mode_compress : st.modeCompress = opts.any Opt.compressOnly
  mode_read : st.modeRead = opts.any Opt.readOnly
  exclusive : ¬(opts.any Opt.compressOnly = true ∧ opts.any Opt.readOnly = true)
  no_help : Opt.help ∉ opts
  no_unknown : Opt.unknown ∉ opts
  mode : st.argd.mode = -1
  args : ArgsOf opts st.argd

theorem consumed_nil (errno : Bool) : Consumed [] ⟨errno, false, false, defaultArgs⟩ :=
  ⟨rfl, rfl, by simp, List.not_mem_nil _, List.not_mem_nil _, rfl,
    ⟨rfl, rfl, rfl, rfl, rfl, rfl, rfl, rfl, rfl, rfl, rfl⟩⟩

/-- The value `parse_optarg_int` stores is the number `strtoull` reads. -/
theorem parseOptargInt_value {errno errno' : Bool} {a : List Char} {v : Nat}
    (h : parseOptargInt errno a = (some v, errno')) : readValue a = v := by
  unfold parseOptargInt at h
  split at h
  · rename_i rest hp
    cases h
    unfold parseInt at hp
    repeat' split at hp
    all_goals try cases hp
    simp [readValue, ‹strtoull a = some _›]
  · cases h

theorem checkMode_parsed {name : String} {ce : Bool} {st st' : ParseState}
    {k : ParseState → ParseOutcome} (h : checkMode name ce st k = .parsed st') :
    (if ce then st.modeRead = false else st.modeCompress = false) ∧
      k { st with modeCompress := st.modeCompress || ce, modeRead := st.modeRead || !ce } =
        .parsed st' := by
  unfold checkMode at h
  cases ce <;> simp only [if_true, if_false, Bool.false_eq_true] at h ⊢ <;> split at h <;>
    first | cases h | simp_all

theorem addCommand_parsed {c : CGraphCmd} {arg : Option (List Char)} {st st' : ParseState}
    (h : addCommand c arg st = .parsed st') :
    ∃ hle, st' = { st with argd := { st.argd with
      commands := st.argd.commands ++ [⟨c, arg⟩], commands_le := hle } } := by
  unfold addCommand at h
  split at h
  · cases h
  · cases h
    exact ⟨_, rfl⟩

theorem readIntParam_parsed {msg : String} {set : CGraphParams → Int → CGraphParams}
    {a : List Char} {st st' : ParseState} (h : readIntParam msg set a st = .parsed st') :
    ∃ errno, st' = ({ st with errno := errno }.setParams fun p => set p (toInt32 (readValue a))) := by
  unfold readIntParam at h
  split at h
  · rename_i v errno hp
    cases h
    exact ⟨errno, by rw [parseOptargInt_value hp]⟩
  · cases h

/-- What one turn of the loop can do, when it goes on: the option is neither `--help` nor
unknown, and not of the kind opposite to one already seen; it sets its mode flag, appends its
command, sets its flag or its value, and leaves the rest. -/
theorem parseStep_parsed {st st' : ParseState} {o : Opt} (h : parseStep st o = .parsed st') :
    o ≠ .help ∧ o ≠ .unknown ∧
      (o.compressOnly = true → st.modeRead = false) ∧ (o.readOnly = true → st.modeCompress = false) ∧
      st'.modeCompress = (st.modeCompress || o.compressOnly) ∧
      st'.modeRead = (st.modeRead || o.readOnly) ∧
      st'.argd.mode = st.argd.mode ∧
      st'.argd.commands = st.argd.commands ++ o.command.toList ∧
      st'.argd.verbose = (st.argd.verbose || decide (Opt.verbose = o)) ∧
      st'.argd.format = o.formatArg.or st.argd.format ∧
      st'.argd.overwrite = (st.argd.overwrite || decide (Opt.overwrite = o)) ∧
      st'.argd.params.maxRank =
        o.maxRankArg.elim st.argd.params.maxRank (fun a => toInt32 (readValue a)) ∧
      st'.argd.params.monograms = (st.argd.params.monograms || decide (Opt.monograms = o)) ∧
      st'.argd.params.factor =
        o.factorArg.elim st.argd.params.factor (fun a => toInt32 (readValue a)) ∧
      st'.argd.params.ntTable = (st.argd.params.ntTable && !decide (Opt.noTable = o)) ∧
      st'.argd.params.existQuery = (st.argd.params.existQuery || decide (Opt.existQuery = o)) ∧
      st'.argd.params.exactQuery = (st.argd.params.exactQuery || decide (Opt.exactQuery = o)) ∧
      st'.argd.params.sortResult = (st.argd.params.sortResult || decide (Opt.sortResult = o)) := by
  cases o with
  | help | unknown => cases h
  | verbose | format _ | overwrite =>
      cases h
      simp [Opt.compressOnly, Opt.readOnly, Opt.command, Opt.formatArg, Opt.maxRankArg, Opt.factorArg]
  | maxRank a | factor a =>
      rw [parseStep] at h
      obtain ⟨hm, h⟩ := checkMode_parsed h
      obtain ⟨errno, rfl⟩ := readIntParam_parsed h
      simp only [if_true] at hm
      simp [ParseState.setParams, hm, Opt.compressOnly, Opt.readOnly, Opt.command, Opt.formatArg, Opt.maxRankArg, Opt.factorArg]
  | monograms | noTable | existQuery | exactQuery | sortResult =>
      rw [parseStep] at h
      obtain ⟨hm, h⟩ := checkMode_parsed h
      cases h
      simp only [if_true, if_false, Bool.false_eq_true] at hm
      simp [ParseState.setParams, hm, Opt.compressOnly, Opt.readOnly, Opt.command, Opt.formatArg, Opt.maxRankArg, Opt.factorArg]
  | decompress a | edges a | hyperedges a | queryFile a | nodeCount | edgeLabels =>
      rw [parseStep] at h
      obtain ⟨hm, h⟩ := checkMode_parsed h
      obtain ⟨hle, rfl⟩ := addCommand_parsed h
      simp only [if_false, Bool.false_eq_true] at hm
      simp [hm, Opt.compressOnly, Opt.readOnly, Opt.command, Opt.formatArg, Opt.maxRankArg, Opt.factorArg]


theorem Opt.not_compressOnly_and_readOnly (o : Opt) : ¬(o.compressOnly = true ∧ o.readOnly = true) := by
  cases o <;> simp [Opt.compressOnly, Opt.readOnly]

/-- One turn of the loop keeps `Consumed`, with the option added. -/
theorem Consumed.step {opts : List Opt} {st st' : ParseState} {o : Opt} (hc : Consumed opts st)
    (h : parseStep st o = .parsed st') : Consumed (opts ++ [o]) st' := by
  obtain ⟨hhelp, hunk, hc1, hr1, hmc, hmr, hmode, hcmd, hv, hf, ho, hmax, hmono, hfac, hnt, hexist,
    hexact, hsort⟩ := parseStep_parsed h
  obtain ⟨hcmd₀, hv₀, hf₀, ho₀, hmax₀, hmono₀, hfac₀, hnt₀, hexist₀, hexact₀, hsort₀⟩ := hc.args
  refine ⟨?_, ?_, ?_, by simp [hc.no_help, Ne.symm hhelp], by simp [hc.no_unknown, Ne.symm hunk],
    hmode.trans hc.mode, ?_⟩
  · simp [hmc, hc.mode_compress]
  · simp [hmr, hc.mode_read]
  · simp only [List.any_append, List.any_cons, List.any_nil, Bool.or_false, Bool.or_eq_true]
    rintro ⟨hc' | hc', hr' | hr'⟩
    · exact hc.exclusive ⟨hc', hr'⟩
    · simpa [hc.mode_compress, hc'] using hr1 hr'
    · simpa [hc.mode_read, hr'] using hc1 hc'
    · exact o.not_compressOnly_and_readOnly ⟨hc', hr'⟩
  · refine ⟨?_, by simp [hv, hv₀], ?_,
      by simp [ho, ho₀], ?_, by simp [hmono, hmono₀], ?_, by simp [hnt, hnt₀],
      by simp [hexist, hexist₀], by simp [hexact, hexact₀], by simp [hsort, hsort₀]⟩
    · cases hco : o.command <;> simp [hcmd, hcmd₀, hco, List.filterMap_append]
    · cases hfo : o.formatArg <;> simp [hf, hf₀, hfo, List.filterMap_append]
    · cases hmo : o.maxRankArg <;> simp [hmax, hmax₀, hmo, lastValue, List.filterMap_append]
    · cases hfo : o.factorArg <;> simp [hfac, hfac₀, hfo, lastValue, List.filterMap_append]

/-- A run of the loop that goes through keeps `Consumed`, with the options added. -/
theorem parseOpts_consumed {opts os : List Opt} {st st' : ParseState} (hc : Consumed opts st)
    (h : parseOpts st os = .parsed st') : Consumed (opts ++ os) st' := by
  induction os generalizing opts st with
  | nil =>
      cases h
      simpa using hc
  | cons o os ih =>
      simp only [parseOpts] at h
      split at h
      · rename_i st₁ h₁
        simpa using ih (hc.step h₁) h
      · cases h
      · cases h

/-- What `parse_args` returns is the state of a run of its loop from the defaults, with `mode`
set from the two flags. -/
theorem parseArgs_consumed {errno : Bool} {opts : List Opt} {st : ParseState}
    (h : parseArgs errno opts = .parsed st) :
    ∃ st₀, Consumed opts st₀ ∧ st.argd.mode =
      (if opts.any Opt.compressOnly then 0 else if opts.any Opt.readOnly then 1 else -1) ∧
      ArgsOf opts st.argd := by
  unfold parseArgs at h
  split at h
  · rename_i st₀ h₀
    cases h
    have hc := parseOpts_consumed (consumed_nil errno) h₀
    rw [List.nil_append] at hc
    obtain ⟨a1, a2, a3, a4, a5, a6, a7, a8, a9, a10, a11⟩ := hc.args
    exact ⟨st₀, hc, by simp [hc.mode_compress, hc.mode_read],
      ⟨a1, a2, a3, a4, a5, a6, a7, a8, a9, a10, a11⟩⟩
  · cases h
  · cases h

/-- `parse_args` on any stream of options, when it returns: the stream has no `--help`, no unknown
option and not options of both kinds; `mode` is `0`, `1` or `-1` as it has options of compression,
of reading or of neither; and `argd` holds the commands in order, the flags given, the last
`--format`, `--max-rank` and `--factor`, each value narrowed to `int`, and `nt_table` false. -/
theorem parseArgs_parsed {errno : Bool} {opts : List Opt} {st : ParseState}
    (h : parseArgs errno opts = .parsed st) :
    Opt.help ∉ opts ∧ Opt.unknown ∉ opts ∧
      ¬(opts.any Opt.compressOnly = true ∧ opts.any Opt.readOnly = true) ∧
      st.argd.mode =
        (if opts.any Opt.compressOnly then 0 else if opts.any Opt.readOnly then 1 else -1) ∧
      ArgsOf opts st.argd :=
  let ⟨_, hc, hmode, hargs⟩ := parseArgs_consumed h
  ⟨hc.no_help, hc.no_unknown, hc.exclusive, hmode, hargs⟩

/-- The options `--verbose --hyperedges 1,2 --sort-result`. -/
def queryOpts : List Opt := [.verbose, .hyperedges ['1', ',', '2'], .sortResult]

/-- What `parse_args` leaves in `argd` for `queryOpts`. -/
def queryArgs : CGraphArgs :=
  ⟨1, true, none, false, ⟨⟨defaultMaxRank, false, defaultFactor, false⟩, false, false, true⟩,
    [⟨.cmdHyperedges, some ['1', ',', '2']⟩], by decide⟩

theorem parseArgs_parsed_query :
    parseArgs false queryOpts = .parsed ⟨false, false, true, queryArgs⟩ ∧
      (Opt.help ∉ queryOpts ∧ Opt.unknown ∉ queryOpts ∧
        ¬(queryOpts.any Opt.compressOnly = true ∧ queryOpts.any Opt.readOnly = true) ∧
        queryArgs.mode = (if queryOpts.any Opt.compressOnly then 0
          else if queryOpts.any Opt.readOnly then 1 else -1) ∧
        ArgsOf queryOpts queryArgs) :=
  have h : parseArgs false queryOpts = .parsed ⟨false, false, true, queryArgs⟩ := rfl
  ⟨h, parseArgs_parsed h⟩

/-! ## The streams `parse_args` accepts -/

theorem parseOptargInt_decimal (errno : Bool) {n : Nat} (hn : n < 2 ^ 63 - 1) :
    parseOptargInt errno (decimal n) = (some n, errno) := by
  have h := @parseInt_decimal errno n (by omega) [] (by simp)
  rw [List.append_nil, if_neg (by omega)] at h
  simp [parseOptargInt, h]

/-- One turn of the loop goes through on an option that is neither `--help` nor unknown, not
of the kind opposite to one already seen, with room for its command and a decimal argument
below `LONG_MAX`. -/
theorem parseStep_accepts (st : ParseState) (o : Opt) (hh : o ≠ .help) (hu : o ≠ .unknown)
    (hc : o.compressOnly = true → st.modeRead = false)
    (hr : o.readOnly = true → st.modeCompress = false)
    (hcmd : o.command.isSome = true → st.argd.commands.length < maxCommands)
    (hnum : ∀ a, o.maxRankArg = some a ∨ o.factorArg = some a → ∃ n < 2 ^ 63 - 1, a = decimal n) :
    ∃ st', parseStep st o = .parsed st' := by
  cases o with
  | help => exact absurd rfl hh
  | unknown => exact absurd rfl hu
  | verbose | format _ | overwrite => exact ⟨_, rfl⟩
  | maxRank a | factor a =>
      obtain ⟨n, hn, rfl⟩ := hnum a (by simp [Opt.maxRankArg, Opt.factorArg])
      have hm := hc rfl
      simp [parseStep, checkMode, hm, readIntParam, parseOptargInt_decimal _ hn]
  | monograms | noTable =>
      simp [parseStep, checkMode, hc rfl]
  | existQuery | exactQuery | sortResult =>
      simp [parseStep, checkMode, hr rfl]
  | decompress a | edges a | hyperedges a | queryFile a | nodeCount | edgeLabels =>
      have hlt := hcmd rfl
      simp [parseStep, checkMode, hr rfl, addCommandStr, addCommandNone, addCommand, hlt.ne]

/-- From a state that consumed `opts`, the loop goes through the options `os` when `opts ++ os`
has no options of both kinds and at most `1024` commands, and `os` has no `--help`, no unknown
option and decimal arguments below `LONG_MAX`. -/
theorem parseOpts_accepts {opts os : List Opt} {st : ParseState} (hc : Consumed opts st)
    (hhelp : Opt.help ∉ os) (hunk : Opt.unknown ∉ os)
    (hex : ¬((opts ++ os).any Opt.compressOnly = true ∧ (opts ++ os).any Opt.readOnly = true))
    (hcmd : ((opts ++ os).filterMap Opt.command).length ≤ maxCommands)
    (hnum : ∀ o ∈ os, ∀ a, o.maxRankArg = some a ∨ o.factorArg = some a →
      ∃ n < 2 ^ 63 - 1, a = decimal n) :
    ∃ st', parseOpts st os = .parsed st' := by
  induction os generalizing opts st with
  | nil => exact ⟨st, rfl⟩
  | cons o os ih =>
      obtain ⟨st₁, h₁⟩ := parseStep_accepts st o (fun h => hhelp (h ▸ List.mem_cons_self _ _))
        (fun h => hunk (h ▸ List.mem_cons_self _ _))
        (fun ho => by
          rw [hc.mode_read]
          cases hr : opts.any Opt.readOnly
          · rfl
          · exact absurd ⟨by simp [ho], by simp [hr]⟩ hex)
        (fun ho => by
          rw [hc.mode_compress]
          cases hr : opts.any Opt.compressOnly
          · rfl
          · exact absurd ⟨by simp [hr], by simp [ho]⟩ hex)
        (fun ho => by
          obtain ⟨c, hoc⟩ := Option.isSome_iff_exists.mp ho
          simp only [List.filterMap_append, List.filterMap_cons, hoc, List.length_append,
            List.length_cons] at hcmd
          rw [hc.args.commands]
          omega)
        (hnum o (List.mem_cons_self o os))
      obtain ⟨st', h'⟩ := ih (hc.step h₁) (fun h => hhelp (List.mem_cons_of_mem o h))
        (fun h => hunk (List.mem_cons_of_mem o h)) (by simpa using hex) (by simpa using hcmd)
        fun o' h => hnum o' (List.mem_cons_of_mem o h)
      exact ⟨st', by simp [parseOpts, h₁, h']⟩

/-- `parse_args` returns normally on every stream of options without `--help` or an unknown
option, without options of both kinds, with at most `1024` commands, and whose `--max-rank` and
`--factor` arguments are decimal numerals below `LONG_MAX`, whatever `errno` holds. -/
theorem parseArgs_accepts (errno : Bool) (opts : List Opt) (hhelp : Opt.help ∉ opts)
    (hunk : Opt.unknown ∉ opts)
    (hex : ¬(opts.any Opt.compressOnly = true ∧ opts.any Opt.readOnly = true))
    (hcmd : (opts.filterMap Opt.command).length ≤ maxCommands)
    (hnum : ∀ o ∈ opts, ∀ a, o.maxRankArg = some a ∨ o.factorArg = some a →
      ∃ n < 2 ^ 63 - 1, a = decimal n) :
    ∃ st, parseArgs errno opts = .parsed st := by
  obtain ⟨st, h⟩ := parseOpts_accepts (consumed_nil errno) hhelp hunk (by simpa using hex)
    (by simpa using hcmd) hnum
  exact ⟨_, by rw [parseArgs, h]⟩

/-- The options `--max-rank 8 --monograms`. -/
def maxRankOpts : List Opt := [.maxRank (decimal 8), .monograms]

theorem parseArgs_accepts_max_rank :
    Opt.help ∉ maxRankOpts ∧ Opt.unknown ∉ maxRankOpts ∧
      ¬(maxRankOpts.any Opt.compressOnly = true ∧ maxRankOpts.any Opt.readOnly = true) ∧
      (maxRankOpts.filterMap Opt.command).length ≤ maxCommands ∧
      (∀ o ∈ maxRankOpts, ∀ a, o.maxRankArg = some a ∨ o.factorArg = some a →
        ∃ n < 2 ^ 63 - 1, a = decimal n) ∧
      ∃ st, parseArgs false maxRankOpts = .parsed st := by
  have hnum : ∀ o ∈ maxRankOpts, ∀ a, o.maxRankArg = some a ∨ o.factorArg = some a →
      ∃ n < 2 ^ 63 - 1, a = decimal n := by
    intro o ho a ha
    rcases List.mem_pair.mp ho with rfl | rfl <;> simp [Opt.maxRankArg, Opt.factorArg] at ha
    exact ⟨8, by norm_num, ha.symm⟩
  exact ⟨by decide, by decide, by decide, by decide, hnum,
    parseArgs_accepts false maxRankOpts (by decide) (by decide) (by decide) (by decide) hnum⟩

/-! ## `main` -/

/-- What `main` does after its checks: the usage text and `exit(0)` or `EXIT_FAILURE`, a message
and `EXIT_FAILURE`, or the call of `do_compress` or `do_read` whose result gives the status. -/
inductive MainRun where
  | usage (status : Nat)
  | failed (msg : String)
  | compress (input output : List Char) (argd : CGraphArgs)
  | read (input : List Char) (argd : CGraphArgs)

/-- `main(argc, argv)`, with the options `getopt_long` returns and the operands it leaves. -/
def main (errno : Bool) (opts : List Opt) (operands : List (List Char)) : MainRun :=
  if opts = [] ∧ operands = [] then .usage 1
  else
    match parseArgs errno opts with
    | .usage => .usage 0
    | .failed msg => .failed msg
    | .parsed st =>
        let mode := if st.argd.mode = -1 then (if operands.length = 2 then 0 else 1) else st.argd.mode
        let argd := { st.argd with mode := mode }
        if mode = 0 then
          match operands with
          | [input, output] => .compress input output argd
          | _ => .failed "expected 2 parameters when compressing RDF graphs\n"
        else
          match operands with
          | [input] => .read input argd
          | _ => .failed "expected 1 parameter when reading compressed RDF graphs\n"

/-- `main` compresses exactly when `parse_args` returns, no option of reading was given and there
are two operands; it reads exactly when `parse_args` returns, no option of compression was given
and there is one operand. -/
theorem main_compresses_or_reads (errno : Bool) (opts : List Opt) (operands : List (List Char)) :
    ((∃ input output argd, main errno opts operands = .compress input output argd) ↔
        (∃ st, parseArgs errno opts = .parsed st) ∧ opts.any Opt.readOnly = false ∧
          operands.length = 2) ∧
      ((∃ input argd, main errno opts operands = .read input argd) ↔
        (∃ st, parseArgs errno opts = .parsed st) ∧ opts.any Opt.compressOnly = false ∧
          operands.length = 1) := by
  by_cases hnone : opts = [] ∧ operands = []
  · obtain ⟨rfl, rfl⟩ := hnone
    simp [main]
  rcases hp : parseArgs errno opts with _ | msg | st
  · simp [main, hnone, hp]
  · simp [main, hnone, hp]
  · obtain ⟨st₀, hc, hmode, -⟩ := parseArgs_consumed hp
    have hex := hc.exclusive
    simp only [main, hnone, hp, if_false, hmode]
    cases hcm : opts.any Opt.compressOnly <;> cases hrd : opts.any Opt.readOnly <;>
      (try simp [hcm, hrd] at hex) <;>
      rcases operands with _ | ⟨i, _ | ⟨o, _ | ⟨x, rest⟩⟩⟩ <;> simp

/-- The parameters the writer of `do_compress` runs with, after `cgraphw_set_params` with what
`main` passes it: the last `--max-rank` value narrowed to `int` when it is positive, else `256`,
and at most `LIMIT_MAX_RANK`; monograms when `--monograms` was given; the last `--factor` value
narrowed to `int` when it is positive, else `64`; and no table, whatever the options. So
`--max-rank 0`, which the usage text says removes the limit, keeps `256`. -/
theorem main_writer_params {Γ : Type} {errno : Bool} {opts : List Opt}
    {operands : List (List Char)} {input output : List Char} {argd : CGraphArgs}
    (h : main errno opts operands = .compress input output argd) :
    (cgraphwSetParams (some argd.params.toCGraphCParams) (cgraphwInit : GraphWriterImpl Γ)).params =
      ⟨min (if 0 < lastValue defaultMaxRank (opts.filterMap Opt.maxRankArg)
          then lastValue defaultMaxRank (opts.filterMap Opt.maxRankArg) else defaultMaxRank)
          limitMaxRank,
        decide (Opt.monograms ∈ opts),
        if 0 < lastValue defaultFactor (opts.filterMap Opt.factorArg)
          then lastValue defaultFactor (opts.filterMap Opt.factorArg) else defaultFactor,
        false⟩ := by
  by_cases hnone : opts = [] ∧ operands = []
  · simp [main, hnone] at h
  simp only [main, if_neg hnone] at h
  rcases hp : parseArgs errno opts with _ | msg | st <;> rw [hp] at h
  · cases h
  · cases h
  · obtain ⟨-, -, -, hargs⟩ := parseArgs_consumed hp
    have hparams : argd.params = st.argd.params := by
      dsimp only at h
      repeat' split at h
      all_goals cases h <;> rfl
    simp only [cgraphwSetParams, cgraphwInit, hparams, hargs.max_rank, hargs.monograms,
      hargs.factor, hargs.nt_table, min_def]
    congr 1
    split_ifs <;> omega

/-- `--max-rank 0` with an input and an output: the arguments `main` passes to `do_compress`. -/
def maxRankZeroArgs : CGraphArgs :=
  ⟨0, false, none, false, ⟨⟨toInt32 0, false, defaultFactor, false⟩, false, false, false⟩, [],
    by decide⟩

theorem main_writer_params_max_rank_zero :
    main false [.maxRank ['0']] [['i'], ['o']] = .compress ['i'] ['o'] maxRankZeroArgs ∧
      (cgraphwSetParams (some maxRankZeroArgs.params.toCGraphCParams)
          (cgraphwInit : GraphWriterImpl Unit)).params =
        ⟨min (if 0 < lastValue defaultMaxRank ([Opt.maxRank ['0']].filterMap Opt.maxRankArg)
            then lastValue defaultMaxRank ([Opt.maxRank ['0']].filterMap Opt.maxRankArg)
            else defaultMaxRank) limitMaxRank,
          decide (Opt.monograms ∈ [Opt.maxRank ['0']]),
          if 0 < lastValue defaultFactor ([Opt.maxRank ['0']].filterMap Opt.factorArg)
            then lastValue defaultFactor ([Opt.maxRank ['0']].filterMap Opt.factorArg)
            else defaultFactor,
          false⟩ :=
  have h : main false [.maxRank ['0']] [['i'], ['o']] = .compress ['i'] ['o'] maxRankZeroArgs := rfl
  ⟨h, main_writer_params h⟩

end CGraph.Arguments
