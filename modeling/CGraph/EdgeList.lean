import CGraph.Writer

/-!
# The edge list

`EdgeList` is a growable array of `HEdge` records. `edgelist_append` grows a full list with
`realloc`, to 8 entries and then by half its capacity, and stores the edge at index `len`.
An `HEdge` keeps its nodes in a trailing array (`cgraphw_add_edge` allocates
`hedge_sizeof(rank)` bytes for one), so the store `l->data[l->len++] = *e` copies the rank
and the label and leaves the nodes behind. `edgelist_init` allocates two words, room for
`len` and `cap` but not for `data`, which it never sets: on a list it returns, every
`edgelist_append` reads `data` past the allocation.

A list whose `data` is a block (`NULL` being the empty one) with `len ≤ cap` stays so under
every sequence of appends, and `edgelist_get` then gives, after the entries it had, the
headers of the edges whose append returned `0`, in order.
-/
namespace CGraph.Collections

open CGraph.Writer

/-- The part of an `HEdge` that a struct copy carries: its rank and its label. -/
structure HEdgeHeader where
  rank : Nat
  label : Int
  deriving DecidableEq, Repr

/-- The header of an edge. -/
def header (e : HEdge) : HEdgeHeader := ⟨e.rank, e.label⟩

/-- The `data` field of an `EdgeList` as `edgelist_append` reads it: past the allocation of
the list, or a block, each entry of which holds a header or was never written. -/
inductive DataField where
  | unallocated
  | block (entry : Nat → Option HEdgeHeader)

/-- `EdgeList`: `len`, `cap` and `data`. -/
structure EdgeList where
  len : Nat
  cap : Nat
  data : DataField

/-- `edgelist_init()`: `none` when `malloc` fails. -/
def edgelistInit (allocated : Bool) : Option EdgeList :=
  if allocated then some ⟨0, 0, .unallocated⟩ else none

/-- What a call of `edgelist_append` does: its result and the list after it, or undefined
behaviour. -/
inductive AppendOutcome where
  | ok (result : Int) (l : EdgeList)
  | undefined

/-- The capacity a full list grows to: `!cap ? 8 : (cap + (cap >> 1))`. -/
def grownCap (cap : Nat) : Nat := if cap = 0 then 8 else cap + cap / 2

/-- `edgelist_append(l, e)`; `grown` is whether `realloc` succeeds when the list is full. The
new block keeps the first `cap` entries; the store at index `len` must lie inside the block. -/
def edgelistAppend (grown : Bool) (e : HEdge) (l : EdgeList) : AppendOutcome :=
  match l.data with
  | .unallocated => .undefined
  | .block entry =>
      if l.cap = l.len ∧ grown = false then .ok (-1) l
      else
        let cap := if l.cap = l.len then grownCap l.cap else l.cap
        let entry := if l.cap = l.len then fun i => if i < l.cap then entry i else none else entry
        if l.len < cap then .ok 0 ⟨l.len + 1, cap, .block (Function.update entry l.len (some (header e)))⟩
        else .undefined

/-- `*edgelist_get(l, i)`: the entry at index `i`, `none` where there is no header to read. -/
def edgelistGet (l : EdgeList) (i : Nat) : Option HEdgeHeader :=
  match l.data with
  | .block entry => if i < l.cap then entry i else none
  | .unallocated => none

/-- What `edgelist_get` gives for the indices below `len`. -/
def stored (l : EdgeList) : List (Option HEdgeHeader) := (List.range l.len).map (edgelistGet l)

/-- A sequence of `edgelist_append` calls, each with the answer `realloc` gives if the list is
full: the results and the list after them, or `none` once a call has undefined behaviour. -/
def edgelistRun : List (Bool × HEdge) → EdgeList → Option (List Int × EdgeList)
  | [], l => some ([], l)
  | (grown, e) :: calls, l =>
      match edgelistAppend grown e l with
      | .ok r l' => (edgelistRun calls l').map fun (rs, l'') => (r :: rs, l'')
      | .undefined => none

/-- The headers stored by the calls that returned `0`, in order. -/
def appendedHeaders (calls : List (Bool × HEdge)) (rs : List Int) : List (Option HEdgeHeader) :=
  ((calls.zip rs).filter fun c => c.2 = 0).map fun c => some (header c.1.2)

/-- A list `edgelist_append` works on: `data` is a block, `len ≤ cap`, and growing a full list
makes room (`cap ≠ 1`). -/
structure Valid (l : EdgeList) : Prop where
  block : ∃ entry, l.data = .block entry
  len_le : l.len ≤ l.cap
  cap_ne_one : l.cap ≠ 1

/-- An `EdgeList` of zeros: `data` is `NULL`. -/
def zeroedList : EdgeList := ⟨0, 0, .block fun _ => none⟩

theorem zeroedList_valid : Valid zeroedList := ⟨⟨_, rfl⟩, le_rfl, by decide⟩

/-! ## One call -/

/-- Storing a header at index `len` of a block that agrees with the list below `len`. -/
theorem stored_store {l : EdgeList} {cap : Nat} {f : Nat → Option HEdgeHeader} {h : HEdgeHeader}
    (hlen : l.len < cap) (hf : ∀ i < l.len, f i = edgelistGet l i) :
    stored ⟨l.len + 1, cap, .block (Function.update f l.len (some h))⟩ = stored l ++ [some h] := by
  rw [stored, List.range_succ, List.map_append, List.map_singleton, stored]
  congr 1
  · refine List.map_congr_left fun i hi => ?_
    have hi := List.mem_range.mp hi
    simp [edgelistGet, Function.update_noteq (Nat.ne_of_lt hi), hf i hi, show i < cap by omega]
  · simp [edgelistGet, hlen]

/-- One call on a valid list: `-1` exactly when the list is full and `realloc` fails, with
the list unchanged; otherwise `0`, with the header of the edge stored after the entries. -/
theorem edgelistAppend_valid (grown : Bool) (e : HEdge) {l : EdgeList} (hl : Valid l) :
    ∃ r l', edgelistAppend grown e l = .ok r l' ∧ Valid l' ∧
      (r = -1 ∧ l' = l ∧ l.cap = l.len ∧ grown = false ∨
        r = 0 ∧ l'.len = l.len + 1 ∧ stored l' = stored l ++ [some (header e)]) := by
  obtain ⟨⟨entry, hdata⟩, hle, hcap⟩ := hl
  by_cases hfail : l.cap = l.len ∧ grown = false
  · exact ⟨-1, l, by rw [edgelistAppend, hdata]; exact if_pos hfail, ⟨⟨entry, hdata⟩, hle, hcap⟩,
      .inl ⟨rfl, rfl, hfail⟩⟩
  · by_cases hfull : l.cap = l.len
    · -- `realloc` succeeds: the entries below `len` move to a block of the grown capacity
      have hgrow : l.len < grownCap l.cap ∧ grownCap l.cap ≠ 1 := by
        unfold grownCap; split_ifs <;> omega
      have happ : edgelistAppend grown e l = .ok 0 ⟨l.len + 1, grownCap l.cap,
          .block (Function.update (fun i => if i < l.cap then entry i else none) l.len
            (some (header e)))⟩ := by
        simp only [edgelistAppend, hdata, if_neg hfail, if_pos hfull, if_pos hgrow.1]
      refine ⟨0, _, happ, ⟨⟨_, rfl⟩, hgrow.1, hgrow.2⟩,
        .inr ⟨rfl, rfl, stored_store hgrow.1 fun i hi => ?_⟩⟩
      simp [edgelistGet, hdata, show i < l.cap by omega]
    · have hlt : l.len < l.cap := by omega
      have happ : edgelistAppend grown e l = .ok 0 ⟨l.len + 1, l.cap,
          .block (Function.update entry l.len (some (header e)))⟩ := by
        simp only [edgelistAppend, hdata, if_neg hfail, if_neg hfull, if_pos hlt]
      refine ⟨0, _, happ, ⟨⟨_, rfl⟩, hlt, hcap⟩,
        .inr ⟨rfl, rfl, stored_store hlt fun i hi => ?_⟩⟩
      simp [edgelistGet, hdata, show i < l.cap by omega]

/-! ## Runs -/

/-- From a valid list every sequence of appends is defined and keeps the list valid, so
`len ≤ cap` after every call. Each call returns `0` or `-1`, and below `len` `edgelist_get`
then gives the entries there were and after them the headers of the edges whose call
returned `0`, in order. -/
theorem edgelistRun_valid (calls : List (Bool × HEdge)) {l : EdgeList} (hl : Valid l) :
    ∃ rs l', edgelistRun calls l = some (rs, l') ∧ Valid l' ∧ rs.length = calls.length ∧
      (∀ r ∈ rs, r = 0 ∨ r = -1) ∧ stored l' = stored l ++ appendedHeaders calls rs := by
  induction calls generalizing l with
  | nil => exact ⟨[], l, rfl, hl, rfl, by simp, by simp [appendedHeaders]⟩
  | cons c calls ih =>
      obtain ⟨grown, e⟩ := c
      obtain ⟨r, l₁, happ, hl₁, hstep⟩ := edgelistAppend_valid grown e hl
      obtain ⟨rs, l', hrun, hl', hlen, hrs, hst⟩ := ih hl₁
      refine ⟨r :: rs, l', by simp [edgelistRun, happ, hrun], hl', by simp [hlen], ?_, ?_⟩
      · rcases hstep with ⟨rfl, -⟩ | ⟨rfl, -⟩ <;> simpa using hrs
      · rcases hstep with ⟨rfl, rfl, -⟩ | ⟨rfl, -, hs⟩
        · simpa [appendedHeaders] using hst
        · simpa [appendedHeaders, hs] using hst

theorem edgelistRun_zeroed :
    Valid zeroedList ∧
      ∃ rs l', edgelistRun [(true, ⟨1, 0, [5]⟩), (false, ⟨2, 3, [6, 7]⟩)] zeroedList = some (rs, l') ∧
        Valid l' ∧ rs.length = [(true, (⟨1, 0, [5]⟩ : HEdge)), (false, ⟨2, 3, [6, 7]⟩)].length ∧
        (∀ r ∈ rs, r = 0 ∨ r = -1) ∧
        stored l' = stored zeroedList ++
          appendedHeaders [(true, ⟨1, 0, [5]⟩), (false, ⟨2, 3, [6, 7]⟩)] rs :=
  ⟨zeroedList_valid, edgelistRun_valid _ zeroedList_valid⟩

/-- On a list from `edgelist_init` every `edgelist_append` has undefined behaviour. Appending
to a zeroed list two edges that differ only in their nodes leaves the same list, so nothing
read from the list gives back the nodes of both. -/
theorem edgelist_append_after_init :
    (∀ grown e l, edgelistInit true = some l → edgelistAppend grown e l = .undefined) ∧
      ∀ readNodes : EdgeList → List Int, ∀ l₅ l₇,
        edgelistAppend true ⟨1, 0, [5]⟩ zeroedList = .ok 0 l₅ →
        edgelistAppend true ⟨1, 0, [7]⟩ zeroedList = .ok 0 l₇ →
        readNodes l₅ ≠ [5] ∨ readNodes l₇ ≠ [7] := by
  refine ⟨fun grown e l h => ?_, fun readNodes l₅ l₇ h₅ h₇ => ?_⟩
  · cases Option.some.inj h
    rfl
  · have hsame : edgelistAppend true ⟨1, 0, [5]⟩ zeroedList =
        edgelistAppend true ⟨1, 0, [7]⟩ zeroedList := rfl
    rw [hsame, h₇] at h₅
    cases h₅
    by_cases h : readNodes l₅ = [5]
    · exact .inr (by rw [h]; decide)
    · exact .inl h

end CGraph.Collections
