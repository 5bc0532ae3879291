import Mathlib.Data.List.Lex
import Mathlib.Data.List.Sort
import CGraph.ReaderHandle
import CGraph.EdgeList

/-!
# Searching from the command line

`perform_search` answers a query edge with `do_search`: with `--exist-query` it asks
`cgraphr_edge_exists`; otherwise it drains the iterator of `cgraphr_edges` into a growable
`EdgeList` with `edge_append` and, with `--sort-result`, sorts it with `qsort` and
`cmp_edge`. `cmp_edge` subtracts labels, nodes and ranks in `int64_t`; on the edges a graph
hands out, whose labels and nodes lie in `[0, 2^63)`, no subtraction overflows and it is the
lexicographic order on the label followed by the nodes, so the sorted listing is the same
whatever order `qsort` visits the entries in: ascending, the lowest label first.

The grammar iterator is the parameter of `CGraph.ReaderHandle`; an iterator run is described
by the edges it answers before it ends (`Yields`). The loop over it runs on fuel.
-/
namespace CGraph.Search

open CGraph.ReaderHandle CGraph.Collections

variable {ν : Type}

/-! ## `cmp_edge` -/

/-- `a - b` in `int64_t`: `none` where the difference overflows, which is undefined
behaviour. -/
def sub64 (a b : Int) : Option Int :=
  if -2 ^ 63 ≤ a - b ∧ a - b < 2 ^ 63 then some (a - b) else none

/-- The loop of `cmp_edge` over the node positions below both ranks: the sign of the first
difference, `0` if there is none. -/
def cmpNodes : List Int → List Int → Option Int
  | a :: as, b :: bs => (sub64 a b).bind fun d => if d ≠ 0 then some d.sign else cmpNodes as bs
  | _, _ => some 0

/-- `cmp_edge(e1, e2)`: by label, then by the nodes at the positions below both ranks, then by
rank; `none` where a subtraction overflows. -/
def cmpEdge (e1 e2 : CGraphEdge) : Option Int :=
  (sub64 e1.label e2.label).bind fun d =>
    if d ≠ 0 then some d.sign
    else
      (cmpNodes (e1.nodes.take (min e1.rank e2.rank).toNat)
          (e2.nodes.take (min e1.rank e2.rank).toNat)).bind fun c =>
        if c ≠ 0 then some c else (sub64 e1.rank e2.rank).map Int.sign

/-- The key of an edge in a sorted listing: its label, then its nodes. -/
def edgeKey (e : CGraphEdge) : List Int := e.label :: e.nodes

/-- The lexicographic comparison of two integer lists: `-1`, `0` or `1`. -/
def lexSign : List Int → List Int → Int
  | [], [] => 0
  | [], _ :: _ => -1
  | _ :: _, [] => 1
  | a :: as, b :: bs => if a < b then -1 else if b < a then 1 else lexSign as bs

/-- An edge as `cgraphr_edges_next` hands it out: `rank` nodes, a rank of at most
`LIMIT_MAX_RANK`, and a label and nodes in `[0, 2^63)`. -/
structure FoundEdge (e : CGraphEdge) : Prop where
  rank_range : 0 ≤ e.rank ∧ e.rank ≤ limitMaxRank
  length_nodes : e.nodes.length = e.rank.toNat
  key_range : ∀ v ∈ edgeKey e, 0 ≤ v ∧ v < 2 ^ 63

theorem FoundEdge.rank_lt {e : CGraphEdge} (h : FoundEdge e) : 0 ≤ e.rank ∧ e.rank < 2 ^ 63 := by
  have := h.rank_range
  simp only [limitMaxRank, Nat.cast_ofNat] at this
  omega

/-- What `qsort(base, n, size, cmp_edge)` may leave of the entries `es`: a permutation in
which no entry compares greater than a later one. -/
def QsortResult (es l : List CGraphEdge) : Prop :=
  l.Perm es ∧ l.Pairwise fun a b => ∃ c, cmpEdge a b = some c ∧ c ≤ 0

theorem lexSign_cases (a b : List Int) :
    (lexSign a b = -1 ∧ a < b) ∨ (lexSign a b = 0 ∧ a = b) ∨ (lexSign a b = 1 ∧ b < a) := by
  induction a generalizing b with
  | nil => cases b <;> simp [lexSign, List.nil_lt_cons]
  | cons x xs ih =>
      cases b with
      | nil => simp [lexSign, List.nil_lt_cons]
      | cons y ys =>
          simp only [lexSign]
          rcases lt_trichotomy x y with hxy | rfl | hyx
          · exact .inl ⟨if_pos hxy, List.Lex.rel hxy⟩
          · rw [if_neg (lt_irrefl x), if_neg (lt_irrefl x)]
            rcases ih ys with ⟨h, hl⟩ | ⟨h, rfl⟩ | ⟨h, hl⟩
            · exact .inl ⟨h, List.Lex.cons hl⟩
            · exact .inr (.inl ⟨h, rfl⟩)
            · exact .inr (.inr ⟨h, List.Lex.cons hl⟩)
          · exact .inr (.inr ⟨by rw [if_neg hyx.not_lt, if_pos hyx], List.Lex.rel hyx⟩)

theorem lexSign_nonpos_iff (a b : List Int) : lexSign a b ≤ 0 ↔ a ≤ b := by
  rcases lexSign_cases a b with ⟨h, hl⟩ | ⟨h, rfl⟩ | ⟨h, hl⟩
  · simp [h, hl.le]
  · simp [h]
  · simp [h, not_le.mpr hl]

theorem sub64_of_range {a b : Int} (ha : 0 ≤ a ∧ a < 2 ^ 63) (hb : 0 ≤ b ∧ b < 2 ^ 63) :
    sub64 a b = some (a - b) :=
  if_pos ⟨by omega, by omega⟩

/-- On nodes in `[0, 2^63)` the node loop, followed by the comparison of the lengths, is the
lexicographic comparison. -/
theorem cmpNodes_lexSign (as bs : List Int) (ha : ∀ v ∈ as, 0 ≤ v ∧ v < 2 ^ 63)
    (hb : ∀ v ∈ bs, 0 ≤ v ∧ v < 2 ^ 63) :
    ((cmpNodes (as.take (min as.length bs.length)) (bs.take (min as.length bs.length))).bind
      fun c => if c ≠ 0 then some c else some ((as.length : Int) - bs.length).sign) =
      some (lexSign as bs) := by
  induction as generalizing bs with
  | nil =>
      cases bs with
      | nil => rfl
      | cons b bs => simpa [cmpNodes, lexSign] using Int.sign_eq_neg_one_of_neg (by omega)
  | cons a as ih =>
      cases bs with
      | nil => simp [cmpNodes, lexSign]
      | cons b bs =>
          have hab := sub64_of_range (ha a (List.mem_cons_self a as)) (hb b (List.mem_cons_self b bs))
          simp only [List.length_cons, Nat.add_min_add_right, List.take_succ_cons, cmpNodes, hab,
            Option.some_bind, lexSign]
          rcases lt_trichotomy a b with hlt | rfl | hgt
          · rw [if_pos (by omega), if_pos hlt, Option.some_bind, Int.sign_eq_neg_one_of_neg (by omega)]
            rfl
          · rw [if_neg (by omega), if_neg (lt_irrefl a), if_neg (lt_irrefl a), ← ih bs
              (fun v hv => ha v (List.mem_cons_of_mem a hv)) (fun v hv => hb v (List.mem_cons_of_mem a hv))]
            push_cast
            ring_nf
          · rw [if_pos (by omega), if_neg hgt.not_lt, if_pos hgt, Option.some_bind,
              Int.sign_eq_one_of_pos (by omega)]
            rfl

/-- On found edges `cmp_edge` never overflows and is the lexicographic comparison of the
keys: the ranks equal the node counts, so comparing them after the common positions puts a
prefix first. -/
theorem cmpEdge_found {e₁ e₂ : CGraphEdge} (h₁ : FoundEdge e₁) (h₂ : FoundEdge e₂) :
    cmpEdge e₁ e₂ = some (lexSign (edgeKey e₁) (edgeKey e₂)) := by
  have hl₁ := h₁.key_range e₁.label (List.mem_cons_self _ _)
  have hl₂ := h₂.key_range e₂.label (List.mem_cons_self _ _)
  have hr₁ := h₁.rank_lt
  have hr₂ := h₂.rank_lt
  have hmin : (min e₁.rank e₂.rank).toNat = min e₁.nodes.length e₂.nodes.length := by
    rw [h₁.length_nodes, h₂.length_nodes]; omega
  have hrank : sub64 e₁.rank e₂.rank = some ((e₁.nodes.length : Int) - e₂.nodes.length) := by
    rw [sub64_of_range hr₁ hr₂, h₁.length_nodes, h₂.length_nodes]
    congr 1; omega
  rw [cmpEdge, sub64_of_range hl₁ hl₂, Option.some_bind, edgeKey, edgeKey, lexSign]
  rcases lt_trichotomy e₁.label e₂.label with hlt | heq | hgt
  · rw [if_pos (by omega), if_pos hlt, Int.sign_eq_neg_one_of_neg (by omega)]
  · rw [if_neg (by omega), if_neg heq.not_lt, if_neg heq.symm.not_lt, hmin, ← cmpNodes_lexSign _ _
      (fun v hv => h₁.key_range v (List.mem_cons_of_mem _ hv))
      (fun v hv => h₂.key_range v (List.mem_cons_of_mem _ hv))]
    simp only [hrank, Option.map_some']
  · rw [if_pos (by omega), if_neg hgt.not_lt, if_pos hgt, Int.sign_eq_one_of_pos (by omega)]

/-- A found edge is determined by its key: the rank is the number of nodes. -/
theorem edgeKey_inj {a b : CGraphEdge} (ha : FoundEdge a) (hb : FoundEdge b)
    (h : edgeKey a = edgeKey b) : a = b := by
  obtain ⟨hl, hn⟩ := List.cons.inj h
  have hra := ha.rank_range
  have hrb := hb.rank_range
  have hr : a.rank = b.rank := by
    have h₁ := ha.length_nodes
    rw [hn, hb.length_nodes] at h₁
    omega
  cases a; cases b
  simp_all

theorem eq_of_map_edgeKey {l₁ l₂ : List CGraphEdge} (h₁ : ∀ e ∈ l₁, FoundEdge e)
    (h₂ : ∀ e ∈ l₂, FoundEdge e) (h : l₁.map edgeKey = l₂.map edgeKey) : l₁ = l₂ := by
  induction l₁ generalizing l₂ with
  | nil => exact (List.map_eq_nil_iff.mp h.symm).symm
  | cons a l₁ ih =>
      cases l₂ with
      | nil => simp at h
      | cons b l₂ =>
          simp only [List.map_cons, List.cons.injEq] at h
          rw [edgeKey_inj (h₁ a (List.mem_cons_self a l₁)) (h₂ b (List.mem_cons_self b l₂)) h.1,
            ih (fun e he => h₁ e (List.mem_cons_of_mem a he))
              (fun e he => h₂ e (List.mem_cons_of_mem b he)) h.2]

/-- Among found edges, `cmp_edge(a, b) <= 0` is the order of the keys. -/
theorem pairwise_cmpEdge_iff {l : List CGraphEdge} (hl : ∀ e ∈ l, FoundEdge e) :
    (l.Pairwise fun a b => ∃ c, cmpEdge a b = some c ∧ c ≤ 0) ↔
      (l.map edgeKey).Pairwise (· ≤ ·) := by
  rw [List.pairwise_map]
  refine List.Pairwise.iff_of_mem fun ha hb => ?_
  rw [cmpEdge_found (hl _ ha) (hl _ hb), ← lexSign_nonpos_iff]
  simp

/-- Whether `a` may precede `b` in a sorted listing: its key is not greater. -/
def keyLe (a b : CGraphEdge) : Bool := decide (edgeKey a ≤ edgeKey b)

/-- `mergeSort` by key leaves an arrangement `qsort` may leave. -/
theorem qsortResult_mergeSort {es : List CGraphEdge} (hes : ∀ e ∈ es, FoundEdge e) :
    QsortResult es (es.mergeSort keyLe) := by
  have hperm := List.mergeSort_perm es keyLe
  refine ⟨hperm, (pairwise_cmpEdge_iff fun e he => hes e (hperm.subset he)).mpr ?_⟩
  rw [List.pairwise_map]
  refine (@List.sorted_mergeSort CGraphEdge keyLe (fun a b c hab hbc => ?_) (fun a b => ?_) es).imp
    fun h => by simpa [keyLe] using h
  · simp only [keyLe, decide_eq_true_eq] at *
    exact le_trans hab hbc
  · simpa [keyLe] using le_total (edgeKey a) (edgeKey b)

/-- Among found edges, every arrangement `qsort` may leave is the one `mergeSort` gives. -/
theorem eq_mergeSort_of_qsortResult {es l : List CGraphEdge} (hes : ∀ e ∈ es, FoundEdge e)
    (hl : QsortResult es l) : l = es.mergeSort keyLe := by
  have hperm := List.mergeSort_perm es keyLe
  have hlf : ∀ e ∈ l, FoundEdge e := fun e he => hes e (hl.1.subset he)
  have hmf : ∀ e ∈ es.mergeSort keyLe, FoundEdge e := fun e he => hes e (hperm.subset he)
  exact eq_of_map_edgeKey hlf hmf (List.eq_of_perm_of_sorted ((hl.1.trans hperm.symm).map edgeKey)
    ((pairwise_cmpEdge_iff hlf).mp hl.2) ((pairwise_cmpEdge_iff hmf).mp (qsortResult_mergeSort hes).2))

/-- Two edges of different labels, the second of rank two. -/
def twoEdges : List CGraphEdge := [⟨1, 4, [3]⟩, ⟨2, 4, [2, 5]⟩]

/-- The `EdgeList` of `cmd/cgraph.c` that `do_search` fills: its entries and its capacity.
It starts as `{0}` and grows only from a full list, so its capacity is never `1` and the store
of `edge_append` lies inside the block. -/
structure ResultList where
  entries : List CGraphEdge
  cap : Nat
  len_le : entries.length ≤ cap
  cap_ne_one : cap ≠ 1

/-- `EdgeList ls = {0}`. -/
def ResultList.empty : ResultList := ⟨[], 0, le_rfl, by decide⟩

@[simp] theorem ResultList.empty_entries : ResultList.empty.entries = [] := rfl

theorem lt_grownCap {cap : Nat} (h : cap ≠ 1) : cap < grownCap cap := by
  unfold grownCap; split_ifs <;> omega

theorem grownCap_ne_one {cap : Nat} (h : cap ≠ 1) : grownCap cap ≠ 1 := by
  unfold grownCap; split_ifs <;> omega

/-- `edge_append(l, e)`: `none` where `realloc` fails and the program calls `exit(1)`; `grown`
is whether `realloc` succeeds when the list is full. -/
def edgeAppend (grown : Bool) (e : CGraphEdge) (l : ResultList) : Option ResultList :=
  if h : l.cap = l.entries.length then
    if grown then
      some ⟨l.entries ++ [e], grownCap l.cap,
        by rw [List.length_append, List.length_singleton, ← h]; exact lt_grownCap l.cap_ne_one,
        grownCap_ne_one l.cap_ne_one⟩
    else none
  else
    some ⟨l.entries ++ [e], l.cap,
      by rw [List.length_append, List.length_singleton]; exact lt_of_le_of_ne l.len_le (Ne.symm h),
      l.cap_ne_one⟩

/-- The capacity of the result list after `j` appends from `{0}`. -/
def capAfter : Nat → Nat
  | 0 => 0
  | j + 1 => if capAfter j = j then grownCap (capAfter j) else capAfter j

/-- One `edge_append` on a list reached from `{0}`: it exits exactly when the list is full and
`realloc` fails; otherwise it appends the edge and the list is again one reached from `{0}`. -/
theorem edgeAppend_cases (grown : Bool) (e : CGraphEdge) {l : ResultList}
    (hcap : l.cap = capAfter l.entries.length) :
    capAfter l.entries.length = l.entries.length ∧ grown = false ∧ edgeAppend grown e l = none ∨
      ¬(capAfter l.entries.length = l.entries.length ∧ grown = false) ∧
        ∃ l', edgeAppend grown e l = some l' ∧ l'.entries = l.entries ++ [e] ∧
          l'.cap = capAfter l'.entries.length := by
  by_cases hfull : l.cap = l.entries.length
  · cases grown
    · exact .inl ⟨hcap ▸ hfull, rfl, by simp [edgeAppend, hfull]⟩
    · simp only [edgeAppend, dif_pos hfull, if_true]
      refine .inr ⟨by simp, _, rfl, rfl, ?_⟩
      simp [capAfter, ← hcap, hfull]
  · simp only [edgeAppend, dif_neg hfull]
    refine .inr ⟨fun h => hfull (hcap ▸ h.1), _, rfl, rfl, ?_⟩
    simp [capAfter, ← hcap, hfull]

/-! ## The search loop -/

/-- What the environment answers during one search: the `malloc` of the iterator in
`cgraphr_edges`; and, by the number of entries the result list holds at the time, the `malloc`
of the copied nodes in `cgraphr_edges_next` and the `realloc` of a full list in `edge_append`. -/
structure SearchEnv where
  allocated : Bool
  copied : Nat → Bool
  grown : Nat → Bool

/-- `while(cgraphr_edges_next(it, &n)) edge_append(result, &n);`, on `fuel`. -/
def drainEdges (g : GrammarReader ν) (env : SearchEnv) : Nat → ν → ResultList → Outcome ResultList
  | 0, _, _ => .outOfFuel
  | fuel + 1, it, l =>
      match cgraphrEdgesNext g it true (env.copied l.entries.length) with
      | (true, some e, it') =>
          match edgeAppend (env.grown l.entries.length) e l with
          | some l' => drainEdges g env fuel it' l'
          | none => .exit
      | _ => .done l

/-- `do_search(g, rank, nodes, exist_query, exact_query, sort_result, result)` on a list
`{0}`: its answer and the entries it leaves in `result`. `qsort` is the C library's sort with
`cmp_edge`. -/
def doSearch (g : GrammarReader ν) (qsort : List CGraphEdge → List CGraphEdge) (env : SearchEnv)
    (fuel : Nat) (nodes : List Int) (existQuery exactQuery sortResult : Bool) :
    Outcome (Bool × List CGraphEdge) :=
  if existQuery then .done ((cgraphrEdgeExists g nodes exactQuery).1, [])
  else
    match cgraphrEdges g nodes exactQuery env.allocated with
    | none => .done (false, [])
    | some it =>
        (drainEdges g env fuel it ResultList.empty).map fun l =>
          (decide (0 < l.entries.length), if sortResult then qsort l.entries else l.entries)

/-- `Yields g it es last`: from `it`, `grammar_neighborhood_next` answers `1` with the edges
`es`, in order, and then `last`, which is not `1`. -/
inductive Yields (g : GrammarReader ν) : ν → List CGraphEdge → Int → Prop
  | stop {it : ν} : (g.next it).1 ≠ 1 → Yields g it [] (g.next it).1
  | edge {it it' : ν} {e : CGraphEdge} {es : List CGraphEdge} {last : Int} :
      g.next it = (1, e, it') → Yields g it' es last → Yields g it (e :: es) last

/-- How many of the `n` edges from entry `i` on get their nodes copied before the first failed
`malloc`. -/
def copiedRun (copied : Nat → Bool) (i n : Nat) : Nat := ((List.range' i n).takeWhile copied).length

/-- Whether `realloc` fails in `edge_append` while entries `i` to `i + n - 1` are appended. -/
def reallocFails (env : SearchEnv) (i n : Nat) : Bool :=
  (List.range' i n).any fun j => capAfter j == j && !env.grown j

@[simp] theorem copiedRun_zero (copied : Nat → Bool) (i : Nat) : copiedRun copied i 0 = 0 := rfl

theorem copiedRun_succ (copied : Nat → Bool) (i n : Nat) :
    copiedRun copied i (n + 1) = if copied i then copiedRun copied (i + 1) n + 1 else 0 := by
  unfold copiedRun
  rw [List.range'_succ, List.takeWhile_cons]
  split <;> simp

theorem copiedRun_le (copied : Nat → Bool) (i n : Nat) : copiedRun copied i n ≤ n :=
  (List.takeWhile_sublist _).length_le.trans (List.length_range' i 1 n).le

/-- A run over `a + b` entries stops inside the first `a`, or covers them and goes on. -/
theorem copiedRun_add (copied : Nat → Bool) (i a b : Nat) :
    copiedRun copied i (a + b) =
      if copiedRun copied i a < a then copiedRun copied i a else a + copiedRun copied (i + a) b := by
  induction a generalizing i with
  | zero => simp
  | succ a ih =>
      rw [Nat.succ_add, copiedRun_succ, copiedRun_succ, ih (i + 1), show i + 1 + a = i + (a + 1) by omega]
      by_cases hc : copied i
      · simp only [hc, if_true]
        split_ifs <;> omega
      · simp [hc]

@[simp] theorem reallocFails_zero (env : SearchEnv) (i : Nat) : reallocFails env i 0 = false := rfl

theorem reallocFails_succ (env : SearchEnv) (i n : Nat) :
    reallocFails env i (n + 1) =
      ((capAfter i == i && !env.grown i) || reallocFails env (i + 1) n) := by
  simp [reallocFails, List.range'_succ]

/-- The first `cgraphr_edges_next` with an edge to copy into, when the grammar answers `1`. -/
theorem cgraphrEdgesNext_edge {g : GrammarReader ν} {it it' : ν} {e : CGraphEdge}
    (h : g.next it = (1, e, it')) (copied : Bool) :
    cgraphrEdgesNext g it true copied =
      if copied then (true, some e, it') else (false, none, g.finish it') := by
  cases copied <;> simp [cgraphrEdgesNext, h]

theorem cgraphrEdgesNext_stop {g : GrammarReader ν} {it : ν} (h : (g.next it).1 ≠ 1)
    (wanted copied : Bool) : (cgraphrEdgesNext g it wanted copied).1 = false := by
  unfold cgraphrEdgesNext
  split <;> simp_all

theorem drainEdges_done {g : GrammarReader ν} {env : SearchEnv} {it : ν} {l : ResultList}
    (fuel : Nat) (h : (cgraphrEdgesNext g it true (env.copied l.entries.length)).1 = false) :
    drainEdges g env (fuel + 1) it l = .done l := by
  simp only [drainEdges]
  split <;> simp_all

theorem drainEdges_append {g : GrammarReader ν} {env : SearchEnv} {it it' : ν} {l : ResultList}
    {e : CGraphEdge} (fuel : Nat)
    (h : cgraphrEdgesNext g it true (env.copied l.entries.length) = (true, some e, it')) :
    drainEdges g env (fuel + 1) it l =
      match edgeAppend (env.grown l.entries.length) e l with
      | some l' => drainEdges g env fuel it' l'
      | none => .exit := by
  simp only [drainEdges, h]

/-- The loop of `do_search` over an iterator that yields `es`, from a result list reached
from `{0}` with `i` entries, given more fuel than edges: with `n` the number of edges whose
nodes are copied before the first failed `malloc`, it exits when a `realloc` fails among the
`n` appends; otherwise the list ends with the first `n` edges, in order. -/
theorem drainEdges_yields (g : GrammarReader ν) (env : SearchEnv) {it : ν}
    {es : List CGraphEdge} {last : Int} (hy : Yields g it es last) :
    ∀ (l : ResultList) (fuel : Nat), l.cap = capAfter l.entries.length → es.length < fuel →
      (drainEdges g env fuel it l).map ResultList.entries =
        if reallocFails env l.entries.length (copiedRun env.copied l.entries.length es.length) then .exit
        else .done (l.entries ++ es.take (copiedRun env.copied l.entries.length es.length)) := by
  induction hy with
  | stop h =>
      rintro l (_ | fuel) _ hfuel
      · exact absurd hfuel (Nat.not_lt_zero _)
      · simp [drainEdges_done _ (cgraphrEdgesNext_stop h _ _), Outcome.map]
  | @edge it it' e es last hnext _ ih =>
      rintro l (_ | fuel) hcap hfuel
      · exact absurd hfuel (Nat.not_lt_zero _)
      have hnext' := cgraphrEdgesNext_edge hnext (env.copied l.entries.length)
      rw [List.length_cons, copiedRun_succ]
      by_cases hc : env.copied l.entries.length
      · rw [if_pos hc] at hnext' ⊢
        rw [drainEdges_append _ hnext', reallocFails_succ]
        rcases edgeAppend_cases (env.grown l.entries.length) e hcap with
          ⟨hfull, hgrown, hnone⟩ | ⟨hok, l', hsome, hentries, hcap'⟩
        · rw [hnone]
          simp [hfull, hgrown, Outcome.map]
        · have hlen : l'.entries.length = l.entries.length + 1 := by simp [hentries]
          simp only [hsome]
          rw [ih l' fuel hcap' (by simpa using hfuel), hlen, hentries]
          have hstep : (capAfter l.entries.length == l.entries.length &&
              !env.grown l.entries.length) = false := by
            simpa using hok
          simp [hstep]
      · rw [if_neg hc] at hnext' ⊢
        simp [drainEdges_done _ (by rw [hnext']), Outcome.map]

/-- The first answer of an iterator that yields `es` and then `last` is not `0` exactly when it
yields an edge or stops on an answer other than `0`. -/
theorem Yields.first_ne_zero {g : GrammarReader ν} {it : ν} {es : List CGraphEdge} {last : Int}
    (hy : Yields g it es last) : (g.next it).1 ≠ 0 ↔ es ≠ [] ∨ last ≠ 0 := by
  cases hy with
  | stop h => simp
  | edge hnext _ => simp [hnext]

/-- `do_search` on a pattern whose query yields `es` and then `last`, given more fuel than
edges. The exist query answers whether every entry is a node or the wildcard and the query
yields an edge or stops on an answer other than `0`; it leaves the list empty. The listing
answers `false` with an empty list when an entry names no node or the iterator is not
allocated. Otherwise, with `n` the number of edges copied before the first failed `malloc`, it
exits when a `realloc` fails among the `n` appends, and else leaves the first `n` edges, passed
through `qsort` when asked, and answers whether `n` is positive. -/
theorem doSearch_spec (g : GrammarReader ν) (qsort : List CGraphEdge → List CGraphEdge)
    (env : SearchEnv) (nodes : List Int) (exactQuery sortResult : Bool) {es : List CGraphEdge}
    {last : Int} (hy : Yields g (g.neighborhood (queryOf exactQuery) nodes) es last) (fuel : Nat)
    (hfuel : es.length < fuel) :
    doSearch g qsort env fuel nodes true exactQuery sortResult =
        .done (!unknownNode g nodes && decide (es ≠ [] ∨ last ≠ 0), []) ∧
      doSearch g qsort env fuel nodes false exactQuery sortResult =
        if unknownNode g nodes || !env.allocated then .done (false, [])
        else if reallocFails env 0 (copiedRun env.copied 0 es.length) then .exit
        else .done (decide (0 < copiedRun env.copied 0 es.length),
          if sortResult then qsort (es.take (copiedRun env.copied 0 es.length))
          else es.take (copiedRun env.copied 0 es.length)) := by
  constructor
  · simp only [doSearch, if_true, cgraphrEdgeExists_eq, firstAnswer, ne_eq, ← hy.first_ne_zero]
  · by_cases hu : unknownNode g nodes
    · simp [doSearch, cgraphrEdges, hu]
    · cases ha : env.allocated
      · simp [doSearch, cgraphrEdges, hu, ha]
      · have hdrain := congrArg (Outcome.map fun l : List CGraphEdge =>
          (decide (0 < l.length), if sortResult then qsort l else l))
          (drainEdges_yields g env hy ResultList.empty fuel rfl hfuel)
        simp only [Outcome.map_map, Function.comp_def, ResultList.empty_entries, List.length_nil,
          List.nil_append] at hdrain
        simp only [doSearch, cgraphrEdges, hu, ha, if_false, if_true, Bool.false_eq_true, hdrain]
        by_cases hr : reallocFails env 0 (copiedRun env.copied 0 es.length) <;>
          simp [hr, Outcome.map, Nat.min_eq_left (copiedRun_le env.copied 0 es.length)]

/-- A grammar reader over two nodes whose iterator, a count, yields `⟨1, k, [0]⟩` for `k` from
the count down to `1` and then answers `0`. -/
def countdownGrammar : GrammarReader Nat :=
  ⟨2, fun _ _ => 2, fun k => if k = 0 then (0, ⟨0, 0, []⟩, 0) else (1, ⟨1, k, [0]⟩, k - 1), id⟩

/-- The edges a query of `countdownGrammar` yields. -/
def countdownEdges : List CGraphEdge := [⟨1, 2, [0]⟩, ⟨1, 1, [0]⟩]

/-- An environment in which every allocation succeeds. -/
def searchSucceeds : SearchEnv := ⟨true, fun _ => true, fun _ => true⟩

theorem doSearch_spec_countdown :
    Yields countdownGrammar (countdownGrammar.neighborhood (queryOf true) [0]) countdownEdges 0 ∧
      countdownEdges.length < 3 ∧
      (doSearch countdownGrammar id searchSucceeds 3 [0] true true false =
          .done (!unknownNode countdownGrammar [0] && decide (countdownEdges ≠ [] ∨ (0 : Int) ≠ 0),
            []) ∧
        doSearch countdownGrammar id searchSucceeds 3 [0] false true false =
          if unknownNode countdownGrammar [0] || !searchSucceeds.allocated then .done (false, [])
          else if reallocFails searchSucceeds 0 (copiedRun searchSucceeds.copied 0 countdownEdges.length)
          then .exit
          else .done (decide (0 < copiedRun searchSucceeds.copied 0 countdownEdges.length),
            if false then id (countdownEdges.take (copiedRun searchSucceeds.copied 0 countdownEdges.length))
            else countdownEdges.take (copiedRun searchSucceeds.copied 0 countdownEdges.length))) := by
  have hy : Yields countdownGrammar (countdownGrammar.neighborhood (queryOf true) [0])
      countdownEdges 0 := .edge rfl (.edge rfl (.stop (by decide)))
  exact ⟨hy, by decide, doSearch_spec countdownGrammar id searchSucceeds [0] true false hy 3 (by decide)⟩

example : doSearch countdownGrammar id searchSucceeds 3 [0] false true false =
    .done (true, countdownEdges) := by
  decide

end CGraph.Search
