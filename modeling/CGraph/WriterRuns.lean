import CGraph.Writer

/-!
# Runs of the writer handle

What each call can do to the handle, one lemma per call, and from them what holds along
every sequence of calls from `cgraphw_init`: `cgraphw_write` refuses to run until a
compression succeeded, a compressed handle is frozen, a failed compression leaves the
handle as it was. The counters `nodes` and `terminals` are `1 +` the largest node id and
label stored as long as every store succeeds and every id lies below `INT64_MAX`; a failed
store breaks that.
-/
namespace CGraph.Writer

variable {Γ : Type} (repair : List HEdge → Nat → Nat → Int → Bool → Option Γ)

theorem compressed_of_data {g : GraphWriterImpl Γ} {gr : Γ} (h : g.data = .grammar gr) :
    g.compressed = true := by
  simp [GraphWriterImpl.compressed, h]

theorem compressed_init : (cgraphwInit : GraphWriterImpl Γ).compressed = false := rfl

/-! ## One lemma per call -/

theorem cgraphwAddEdge_of_compressed {g : GraphWriterImpl Γ} (h : g.compressed = true)
    (a s : Bool) (rank label : Int) (nodes : List Int) :
    cgraphwAddEdge a s rank label nodes g = (-1, g) := by
  unfold GraphWriterImpl.compressed at h
  unfold cgraphwAddEdge
  split <;> simp_all

theorem cgraphwAddEdge_not_allocated (s : Bool) (rank label : Int) (nodes : List Int)
    (g : GraphWriterImpl Γ) : cgraphwAddEdge false s rank label nodes g = (-1, g) := by
  unfold cgraphwAddEdge
  split <;> rfl

/-- A failed store returns `-1` and stores nothing. -/
theorem cgraphwAddEdge_not_stored (a : Bool) (rank label : Int) (nodes : List Int)
    (g : GraphWriterImpl Γ) :
    (cgraphwAddEdge a false rank label nodes g).1 = -1 ∧
      (cgraphwAddEdge a false rank label nodes g).2.data = g.data := by
  unfold cgraphwAddEdge
  split
  · exact ⟨rfl, rfl⟩
  · cases a <;> simp_all [raiseCounters]

/-- An edge allocated and stored is appended with the nodes the call reads, and the counters
are raised for them. -/
theorem cgraphwAddEdge_stored {g : GraphWriterImpl Γ} {es : List HEdge} (hg : g.data = .edges es)
    (rank label : Int) (nodes : List Int) :
    cgraphwAddEdge true true rank label nodes g =
      (0, { raiseCounters g label (nodes.take rank.toNat) with
        data := .edges (es ++ [⟨rank.toNat, label, nodes.take rank.toNat⟩]) }) := by
  simp [cgraphwAddEdge, hg]

/-- `cgraphw_add_edge` never compresses nor uncompresses the handle. -/
theorem compressed_addEdge (a s : Bool) (rank label : Int) (nodes : List Int)
    (g : GraphWriterImpl Γ) : (cgraphwAddEdge a s rank label nodes g).2.compressed = g.compressed := by
  unfold cgraphwAddEdge
  split
  · rfl
  · split_ifs <;> simp_all [GraphWriterImpl.compressed, raiseCounters]

/-- `cgraphw_compress` either fails and leaves the handle, or succeeds and holds a grammar
with the same counters and parameters. -/
theorem cgraphwCompress_cases (c : Bool) (g : GraphWriterImpl Γ) :
    cgraphwCompress repair c g = (-1, g) ∨
      ((cgraphwCompress repair c g).1 = 0 ∧ g.compressed = false ∧
        (cgraphwCompress repair c g).2.compressed = true ∧
        (cgraphwCompress repair c g).2.nodes = g.nodes ∧
        (cgraphwCompress repair c g).2.terminals = g.terminals) := by
  unfold cgraphwCompress
  split
  · exact .inl rfl
  · rename_i es hes
    split_ifs
    · exact .inl rfl
    · split
      · exact .inl rfl
      · split
        · exact .inl rfl
        · exact .inr ⟨rfl, by simp [GraphWriterImpl.compressed, hes], rfl, rfl, rfl⟩

theorem cgraphwCompress_of_compressed {g : GraphWriterImpl Γ} (h : g.compressed = true) (c : Bool) :
    cgraphwCompress repair c g = (-1, g) := by
  unfold GraphWriterImpl.compressed at h
  unfold cgraphwCompress
  split <;> simp_all

theorem cgraphwSetParams_data (p : Option CGraphCParams) (g : GraphWriterImpl Γ) :
    (cgraphwSetParams p g).data = g.data ∧ (cgraphwSetParams p g).nodes = g.nodes ∧
      (cgraphwSetParams p g).terminals = g.terminals := by
  cases p <;> exact ⟨rfl, rfl, rfl⟩

theorem cgraphwWrite_of_not_compressed {g : GraphWriterImpl Γ} (h : g.compressed = false)
    (o w : Bool) : (cgraphwWrite o w g).1 = -1 := by
  unfold GraphWriterImpl.compressed at h
  unfold cgraphwWrite
  split <;> simp_all

/-! ## Every call -/

/-- A step compresses the handle only through a `cgraphw_compress` that returns `0`. -/
theorem compressed_writerStep (g : GraphWriterImpl Γ) (c : WriterCall) :
    (writerStep repair g c).2.compressed = true ↔
      g.compressed = true ∨ (c.isCompress = true ∧ (writerStep repair g c).1 = 0) := by
  cases c with
  | addEdge a s rank label nodes => simp [writerStep, compressed_addEdge, WriterCall.isCompress]
  | setParams p =>
      simp [writerStep, WriterCall.isCompress, GraphWriterImpl.compressed, cgraphwSetParams_data]
  | compress copied =>
      rcases cgraphwCompress_cases repair copied g with h | ⟨h₀, h₁, h₂, -⟩
      · simp [writerStep, h]
      · simp [writerStep, h₀, h₂, WriterCall.isCompress]
  | write o w => simp [writerStep, WriterCall.isCompress]

/-- On a compressed handle no call changes the grammar or the counters, and adding an edge
or compressing again fails without any effect. -/
theorem writerStep_of_compressed {g : GraphWriterImpl Γ} (h : g.compressed = true)
    (c : WriterCall) :
    (writerStep repair g c).2.data = g.data ∧ (writerStep repair g c).2.nodes = g.nodes ∧
      (writerStep repair g c).2.terminals = g.terminals ∧
      (c.isAddEdge = true ∨ c.isCompress = true → writerStep repair g c = (-1, g)) := by
  cases c with
  | addEdge a s rank label nodes =>
      simp [writerStep, cgraphwAddEdge_of_compressed h]
  | setParams p =>
      simpa [writerStep, WriterCall.isAddEdge, WriterCall.isCompress] using cgraphwSetParams_data p g
  | compress copied =>
      simp [writerStep, cgraphwCompress_of_compressed repair h]
  | write o w => simp [writerStep, WriterCall.isAddEdge, WriterCall.isCompress]

/-- A failed `cgraphw_compress` leaves the handle as it was. -/
theorem writerStep_compress_failed (g : GraphWriterImpl Γ) {c : WriterCall}
    (hc : c.isCompress = true) (hr : (writerStep repair g c).1 = -1) :
    (writerStep repair g c).2 = g := by
  cases c with
  | compress copied =>
      rcases cgraphwCompress_cases repair copied g with h | ⟨h₀, -⟩
      · simp [writerStep, h]
      · simp [writerStep] at hr; omega
  | _ => simp [WriterCall.isCompress] at hc

/-- Some `cgraphw_compress` among the calls has returned `0`. -/
def compressedBy (calls : List WriterCall) (results : List Int) : Prop :=
  ∃ p ∈ calls.zip results, p.1.isCompress = true ∧ p.2 = 0

/-- The run lemma: a handle is compressed after a run exactly when it was before or some
compression of the run succeeded. -/
theorem compressed_writerRun (g : GraphWriterImpl Γ) (calls : List WriterCall) :
    (writerRun repair g calls).2.compressed = true ↔
      g.compressed = true ∨ compressedBy calls (writerRun repair g calls).1 := by
  induction calls generalizing g with
  | nil => simp [writerRun, compressedBy]
  | cons c cs ih =>
      have hstep := compressed_writerStep repair g c
      simp only [writerRun, compressedBy, List.zip_cons_cons, List.mem_cons, exists_eq_or_imp]
      rw [ih, hstep]
      exact or_assoc

/-- The life cycle of a writer handle, at every call of every run from `cgraphw_init`:
`cgraphw_write` fails until a compression has succeeded; after that, adding an edge or
compressing fails and keeps the grammar and the counters; and a failed compression leaves
the handle exactly as it was, uncompressed if no compression had succeeded. -/
theorem cgraphw_lifecycle (calls : List WriterCall) (c : WriterCall) :
    (c.isWrite = true → ¬ compressedBy calls (writerRun repair cgraphwInit calls).1 →
      (writerStep repair (writerRun repair cgraphwInit calls).2 c).1 = -1) ∧
    (compressedBy calls (writerRun repair cgraphwInit calls).1 →
      c.isAddEdge = true ∨ c.isCompress = true →
      (writerStep repair (writerRun repair cgraphwInit calls).2 c).1 = -1 ∧
      (writerStep repair (writerRun repair cgraphwInit calls).2 c).2.data =
        (writerRun repair cgraphwInit calls).2.data ∧
      (writerStep repair (writerRun repair cgraphwInit calls).2 c).2.nodes =
        (writerRun repair cgraphwInit calls).2.nodes ∧
      (writerStep repair (writerRun repair cgraphwInit calls).2 c).2.terminals =
        (writerRun repair cgraphwInit calls).2.terminals) ∧
    (c.isCompress = true → (writerStep repair (writerRun repair cgraphwInit calls).2 c).1 = -1 →
      (writerStep repair (writerRun repair cgraphwInit calls).2 c).2 =
        (writerRun repair cgraphwInit calls).2 ∧
      (¬ compressedBy calls (writerRun repair cgraphwInit calls).1 →
        (writerStep repair (writerRun repair cgraphwInit calls).2 c).2.compressed = false)) := by
  set pre := writerRun repair (cgraphwInit : GraphWriterImpl Γ) calls
  have hpre : pre.2.compressed = true ↔ compressedBy calls pre.1 := by
    simpa [compressed_init] using compressed_writerRun repair cgraphwInit calls
  have hnpre : pre.2.compressed = false ↔ ¬ compressedBy calls pre.1 := by
    rw [← hpre, Bool.not_eq_true]
  refine ⟨fun hw hnot => ?_, fun hby hc => ?_, fun hc hr => ?_⟩
  · cases c with
    | write o w =>
        exact cgraphwWrite_of_not_compressed (hnpre.mpr hnot) o w
    | _ => simp [WriterCall.isWrite] at hw
  · obtain ⟨h₁, h₂, h₃, h₄⟩ := writerStep_of_compressed repair (hpre.mpr hby) c
    exact ⟨by rw [h₄ hc], h₁, h₂, h₃⟩
  · have hsame := writerStep_compress_failed repair pre.2 hc hr
    exact ⟨hsame, fun hnot => by rw [hsame]; exact hnpre.mpr hnot⟩

/-- A RePair that returns a grammar for every input. -/
def unitRepair : List HEdge → Nat → Nat → Int → Bool → Option Unit := fun _ _ _ _ _ => some ()

/-- One edge added, then a compression that succeeds. -/
def oneEdgeCompressed : List WriterCall := [.addEdge true true 1 0 [5], .compress true]

/-- After a successful compression of a handle holding an edge, adding an edge fails and
keeps the grammar and the counters. -/
theorem cgraphw_lifecycle_compressed :
    compressedBy oneEdgeCompressed (writerRun unitRepair cgraphwInit oneEdgeCompressed).1 ∧
      (writerStep unitRepair (writerRun unitRepair cgraphwInit oneEdgeCompressed).2
          (.addEdge true true 1 0 [6])).1 = -1 ∧
      (writerStep unitRepair (writerRun unitRepair cgraphwInit oneEdgeCompressed).2
          (.addEdge true true 1 0 [6])).2.nodes =
        (writerRun unitRepair cgraphwInit oneEdgeCompressed).2.nodes := by
  have hby : compressedBy oneEdgeCompressed (writerRun unitRepair cgraphwInit oneEdgeCompressed).1 :=
    ⟨(.compress true, 0), by decide, rfl, rfl⟩
  obtain ⟨hr, -, hn, -⟩ :=
    (cgraphw_lifecycle unitRepair oneEdgeCompressed (.addEdge true true 1 0 [6])).2.1 hby (.inl rfl)
  exact ⟨hby, hr, hn⟩

/-! ## `cgraphw_add_edge` and its counters -/

/-- `cgraphw_add_edge` on an array that holds the `rank` nodes it reads: it fails without any
effect on a compressed handle and when the edge record cannot be allocated, and a failed store
returns `-1` with no edge stored. It checks no rank: with the record allocated and stored, the
edge of `nodes[0..rank)`, which holds `rank` nodes, is appended whatever its rank, and `0`
returned. -/
theorem cgraphwAddEdge_spec (a s : Bool) (rank label : Int) (nodes : List Int)
    (g : GraphWriterImpl Γ) (hrank : 0 ≤ rank ∧ rank ≤ nodes.length) :
    (g.compressed = true → cgraphwAddEdge a s rank label nodes g = (-1, g)) ∧
      (a = false → cgraphwAddEdge a s rank label nodes g = (-1, g)) ∧
      (s = false → (cgraphwAddEdge a s rank label nodes g).1 = -1 ∧
        (cgraphwAddEdge a s rank label nodes g).2.data = g.data) ∧
      (∀ es, g.data = .edges es → a = true → s = true →
        cgraphwAddEdge a s rank label nodes g =
          (0, { raiseCounters g label (nodes.take rank.toNat) with
            data := .edges (es ++ [⟨rank.toNat, label, nodes.take rank.toNat⟩]) }) ∧
        ((nodes.take rank.toNat).length : Int) = rank) := by
  refine ⟨fun h => cgraphwAddEdge_of_compressed h a s rank label nodes, ?_, ?_, ?_⟩
  · rintro rfl
    exact cgraphwAddEdge_not_allocated s rank label nodes g
  · rintro rfl
    exact cgraphwAddEdge_not_stored a rank label nodes g
  · rintro es hes rfl rfl
    exact ⟨cgraphwAddEdge_stored hes rank label nodes, by rw [List.length_take]; omega⟩

theorem cgraphwAddEdge_spec_two_nodes :
    (0 ≤ (2 : Int) ∧ (2 : Int) ≤ ([4, 5] : List Int).length) ∧
      ((cgraphwInit : GraphWriterImpl Unit).compressed = true →
        cgraphwAddEdge true true 2 3 [4, 5] (cgraphwInit : GraphWriterImpl Unit) = (-1, (cgraphwInit : GraphWriterImpl Unit))) ∧
      (true = false → cgraphwAddEdge true true 2 3 [4, 5] (cgraphwInit : GraphWriterImpl Unit) =
        (-1, (cgraphwInit : GraphWriterImpl Unit))) ∧
      (true = false → (cgraphwAddEdge true true 2 3 [4, 5] (cgraphwInit : GraphWriterImpl Unit)).1 = -1 ∧
        (cgraphwAddEdge true true 2 3 [4, 5] (cgraphwInit : GraphWriterImpl Unit)).2.data =
          (cgraphwInit : GraphWriterImpl Unit).data) ∧
      (∀ es, (cgraphwInit : GraphWriterImpl Unit).data = .edges es → true = true → true = true →
        cgraphwAddEdge true true 2 3 [4, 5] (cgraphwInit : GraphWriterImpl Unit) =
          (0, { raiseCounters (cgraphwInit : GraphWriterImpl Unit) 3 ([4, 5].take (2 : Int).toNat) with
            data := .edges (es ++ [⟨(2 : Int).toNat, 3, [4, 5].take (2 : Int).toNat⟩]) }) ∧
        (([4, 5] : List Int).take (2 : Int).toNat).length = (2 : Int)) :=
  ⟨by decide, cgraphwAddEdge_spec true true 2 3 [4, 5] (cgraphwInit : GraphWriterImpl Unit) (by decide)⟩

/-- An edge of rank `0` is added to a fresh handle. -/
theorem add_edge_rank_zero :
    (cgraphwAddEdge true true 0 0 [] (cgraphwInit : GraphWriterImpl Unit)).1 = 0 ∧
      (cgraphwAddEdge true true 0 0 [] (cgraphwInit : GraphWriterImpl Unit)).2.data =
        .edges [⟨0, 0, []⟩] := by
  decide

/-- `1 +` the largest node id of the edges, `0` if there is none. -/
def nodeCount (es : List HEdge) : Nat :=
  es.foldl (fun m e => e.nodes.foldl (fun m v => max m (v + 1).toNat) m) 0

/-- `1 +` the largest label of the edges, `0` if there is none. -/
def terminalCount (es : List HEdge) : Nat :=
  es.foldl (fun m e => max m (e.label + 1).toNat) 0

/-- A store that fails still raises the counters: after a failed `hgraph_add_edge` of the
edge `(rank 1, label 0, nodes [5])` the handle holds no edge but counts six nodes and one
label. -/
theorem add_edge_counts_unstored_edge :
    cgraphwAddEdge true false 1 0 [5] (cgraphwInit : GraphWriterImpl Unit) =
        (-1, { (cgraphwInit : GraphWriterImpl Unit) with nodes := 6, terminals := 1 }) ∧
      nodeCount [] = 0 := by
  decide

/-- A label and node ids as the counters can hold them: non-negative and below `INT64_MAX`. -/
def InRange (label : Int) (nodes : List Int) : Prop :=
  0 ≤ label ∧ label < 2 ^ 63 - 1 ∧ ∀ v ∈ nodes, 0 ≤ v ∧ v < 2 ^ 63 - 1

/-- The handle holds edges in range, and its counters are those of the edges. -/
def CountersExact (g : GraphWriterImpl Γ) : Prop :=
  ∃ es, g.data = .edges es ∧ (∀ e ∈ es, InRange e.label e.nodes) ∧
    g.nodes = nodeCount es ∧ g.terminals = terminalCount es

/-- The node maximum of `cgraphw_add_edge`, computed in `int64_t`, is the mathematical one
while every id stays below `INT64_MAX`. -/
theorem foldl_max_toInt64 {nodes : List Int} (h : ∀ v ∈ nodes, 0 ≤ v ∧ v < 2 ^ 63 - 1)
    {m : Nat} (hm : m < 2 ^ 63) :
    nodes.foldl (fun m v => max m (toInt64 (v + 1))) (m : Int) =
        ((nodes.foldl (fun m v => max m (v + 1).toNat) m : Nat) : Int) ∧
      nodes.foldl (fun m v => max m (v + 1).toNat) m < 2 ^ 63 := by
  induction nodes generalizing m with
  | nil => exact ⟨rfl, hm⟩
  | cons v vs ih =>
      obtain ⟨h₀, h₁⟩ := h v (List.mem_cons_self v vs)
      have hmax : max (m : Int) (toInt64 (v + 1)) = ((max m (v + 1).toNat : Nat) : Int) := by
        rw [toInt64_of_lt (by omega) (by omega)]
        omega
      simp only [List.foldl_cons, hmax]
      exact ih (fun w hw => h w (List.mem_cons_of_mem v hw)) (by omega)

theorem nodeCount_lt {es : List HEdge} (h : ∀ e ∈ es, InRange e.label e.nodes) :
    nodeCount es < 2 ^ 63 := by
  suffices ∀ m < 2 ^ 63, es.foldl (fun m e => e.nodes.foldl (fun m v => max m (v + 1).toNat) m) m < 2 ^ 63 from
    this 0 (by norm_num)
  induction es with
  | nil => exact fun m hm => hm
  | cons e es ih =>
      intro m hm
      exact ih (fun e' he' => h e' (List.mem_cons_of_mem e he')) _
        (foldl_max_toInt64 (h e (List.mem_cons_self e es)).2.2 hm).2

/-- One stored edge in range, passed with its rank, keeps the counters exact; a failed
allocation changes nothing. -/
theorem countersExact_addEdge {g : GraphWriterImpl Γ} (hg : CountersExact g) (a : Bool)
    {label : Int} {nodes : List Int} (hr : InRange label nodes) :
    CountersExact (cgraphwAddEdge a true nodes.length label nodes g).2 := by
  obtain ⟨es, hdata, hin, hn, ht⟩ := hg
  cases a with
  | false =>
      rw [cgraphwAddEdge_not_allocated]
      exact ⟨es, hdata, hin, hn, ht⟩
  | true =>
      rw [cgraphwAddEdge_stored hdata, Int.toNat_natCast, List.take_length]
      obtain ⟨hl₀, hl₁, hv⟩ := hr
      have hlt := nodeCount_lt hin
      obtain ⟨hfold, hfold_lt⟩ := foldl_max_toInt64 hv hlt
      refine ⟨es ++ [⟨nodes.length, label, nodes⟩], rfl, ?_, ?_, ?_⟩
      · simpa [List.mem_append, List.mem_singleton, or_imp, forall_and] using
          And.intro hin ⟨hl₀, hl₁, hv⟩
      · show toUInt64 (nodes.foldl (fun m v => max m (toInt64 (v + 1))) (toInt64 g.nodes)) = _
        rw [hn, toInt64_of_lt (by omega) (by omega), hfold,
          toUInt64_natCast (lt_trans hfold_lt (by norm_num))]
        simp [nodeCount, List.foldl_append]
      · show max g.terminals (toUInt64 (toInt64 (label + 1))) = _
        rw [ht, toInt64_of_lt (by omega) (by omega), toUInt64_of_lt (by omega) (by omega)]
        simp [terminalCount, List.foldl_append]

/-- Along every run of `cgraphw_add_edge` calls from `cgraphw_init` in which no store fails
(allocations may) and every label and node id lies in `[0, INT64_MAX)`, `gi->nodes` is `1 +`
the largest node id and `gi->terminals` is `1 +` the largest label of the stored edges. -/
theorem countersExact_of_stored (calls : List WriterCall)
    (hcalls : ∀ c ∈ calls, ∃ a label nodes,
      c = .addEdge a true nodes.length label nodes ∧ InRange label nodes) :
    CountersExact (writerRun repair (cgraphwInit : GraphWriterImpl Γ) calls).2 := by
  suffices ∀ g : GraphWriterImpl Γ, CountersExact g → CountersExact (writerRun repair g calls).2 from
    this _ ⟨[], rfl, by simp, rfl, rfl⟩
  induction calls with
  | nil => exact fun g hg => hg
  | cons c cs ih =>
      intro g hg
      obtain ⟨a, label, nodes, rfl, hr⟩ := hcalls c (List.mem_cons_self c cs)
      exact ih (fun c' h' => hcalls c' (List.mem_cons_of_mem _ h')) _ (countersExact_addEdge hg a hr)

theorem countersExact_of_stored_two_calls :
    (∀ c ∈ [WriterCall.addEdge false true 1 9 [9], .addEdge true true 2 2 [0, 3]],
      ∃ a label nodes, c = .addEdge a true nodes.length label nodes ∧ InRange label nodes) ∧
    CountersExact (writerRun (fun _ _ _ _ _ => (none : Option Unit)) cgraphwInit
      [.addEdge false true 1 9 [9], .addEdge true true 2 2 [0, 3]]).2 := by
  have hcalls : ∀ c ∈ [WriterCall.addEdge false true 1 9 [9], .addEdge true true 2 2 [0, 3]],
      ∃ a label nodes, c = .addEdge a true nodes.length label nodes ∧ InRange label nodes := by
    simp only [List.mem_cons, List.mem_singleton, List.not_mem_nil, or_false]
    rintro c (rfl | rfl)
    · exact ⟨false, 9, [9], rfl, by unfold InRange; decide⟩
    · exact ⟨true, 2, [0, 3], rfl, by unfold InRange; decide⟩
  exact ⟨hcalls, countersExact_of_stored _ _ hcalls⟩

end CGraph.Writer
