import CGraph.StartSymbol

/-!
# The pattern loops of `startsymbol_neighborhood`

The first loop copies the non-wildcard entries of a query pattern to the front of
`n->nodes`; the nested second loop turns later copies of a value into wildcards, so that
each value stands once, at its first occurrence (`markDuplicates_eq`). Neither changes which
values the pattern asks for, and neither writes `n->nodes[0]` after the copy: so the
incidence filter of `get_edge` tests exactly the pattern's nodes, and the row iterator is
seeded with the first of them.
-/
namespace CGraph.StartSymbol

/-- The non-wildcard entries of a pattern, in order. -/
def nonWildcards (p : List Int) : List Int := p.filter fun v => v ≠ cgraphNodesAll

theorem mem_nonWildcards {p : List Int} {v : Int} :
    v ∈ nonWildcards p ↔ v ∈ p ∧ v ≠ cgraphNodesAll := by
  simp [nonWildcards]

/-- `a` and `b` hold the same non-wildcard values at the positions below `next`. -/
def SameValues (next : Nat) (a b : Nat → Int) : Prop :=
  ∀ v, v ≠ cgraphNodesAll → ((∃ k < next, a k = v) ↔ (∃ k < next, b k = v))

/-- The copy loop writes the non-wildcard entries at `next, next + 1, …` and nothing else. -/
theorem copyNodes_eq (a : Nat → Int) (next : Nat) (p : List Int) :
    copyNodes a next p =
      (fun k => if next ≤ k ∧ k < next + (nonWildcards p).length
        then (nonWildcards p).getD (k - next) 0 else a k,
       next + (nonWildcards p).length) := by
  unfold nonWildcards
  induction p generalizing a next with
  | nil =>
      simp only [copyNodes, List.filter_nil, List.length_nil, Nat.add_zero, Prod.mk.injEq, and_true]
      funext k
      rw [if_neg (by omega)]
  | cons v vs ih =>
      by_cases hv : v = cgraphNodesAll
      · simp [copyNodes, hv, ih]
      · simp only [copyNodes, ne_eq, hv, not_false_eq_true, ↓reduceIte, ih,
          List.filter_cons, decide_True, List.length_cons, Prod.mk.injEq]
        refine ⟨funext fun k => ?_, by omega⟩
        rcases Nat.lt_trichotomy k next with hk | rfl | hk
        · simp [Function.update_noteq (Nat.ne_of_lt hk), show ¬ next ≤ k by omega,
            show ¬ next + 1 ≤ k by omega]
        · simp
        · obtain ⟨d, rfl⟩ : ∃ d, k = next + 1 + d := ⟨k - (next + 1), by omega⟩
          simp only [Function.update_noteq (by omega : next + 1 + d ≠ next),
            show next + 1 + d - next = d + 1 by omega, show next + 1 + d - (next + 1) = d by omega,
            List.getD_cons_succ]
          congr 1
          simp only [eq_iff_iff]
          omega

theorem copyNodes_zero (a : Nat → Int) (p : List Int) (k : Nat) :
    (copyNodes a 0 p).1 k = (if k < (nonWildcards p).length then (nonWildcards p).getD k 0 else a k) ∧
      (copyNodes a 0 p).2 = (nonWildcards p).length := by
  simp [copyNodes_eq]

/-- The inner loop marks exactly the later copies of `n->nodes[i]` among `js`. -/
theorem markLater_eq {i : Nat} {a : Nat → Int} {js : List Nat} (hi : i ∉ js) (hnd : js.Nodup)
    (k : Nat) : markLater i a js k = if k ∈ js ∧ a i = a k then cgraphNodesAll else a k := by
  induction js generalizing a with
  | nil => simp [markLater]
  | cons j js ih =>
      rw [List.nodup_cons] at hnd
      have hij : i ≠ j := fun h => hi (h ▸ List.mem_cons_self j js)
      rw [markLater, List.foldl_cons, ← markLater, ih (fun h => hi (List.mem_cons_of_mem j h)) hnd.2]
      by_cases hkj : k = j
      · subst hkj
        split_ifs <;> simp_all [Function.update_noteq hij]
      · split_ifs <;> simp_all [Function.update_noteq hij, Function.update_noteq hkj]

/-- One turn of the outer loop: entry `k` is marked when it is a later copy of a live entry `m`. -/
theorem markTurn_apply {next m k : Nat} (a : Nat → Int) (hk : k < next) :
    markTurn next a m k = if m < k ∧ a m ≠ cgraphNodesAll ∧ a m = a k then cgraphNodesAll else a k := by
  by_cases hm : a m = cgraphNodesAll
  · rw [markTurn, if_neg (not_not.mpr hm), if_neg fun h => h.2.1 hm]
  · rw [markTurn, if_pos hm, markLater_eq (by simp) (List.nodup_range' _ _) k]
    refine if_congr ⟨fun ⟨hkm, hv⟩ => ?_, fun ⟨hmk, _, hv⟩ => ⟨?_, hv⟩⟩ rfl rfl
    · exact ⟨by have := List.mem_range'_1.mp hkm; omega, hm, hv⟩
    · exact List.mem_range'_1.mpr ⟨hmk, by omega⟩

/-- After the turns `0 … m - 1` of the outer loop, an entry below `next` is a wildcard exactly
when an entry before it and before `m` holds its value. -/
theorem foldl_markTurn {next m : Nat} (hm : m ≤ next) (a : Nat → Int) {k : Nat} (hk : k < next) :
    (List.range m).foldl (markTurn next) a k =
      if ∃ i < m, i < k ∧ a i = a k then cgraphNodesAll else a k := by
  induction m generalizing k with
  | zero => simp
  | succ m ih =>
      rw [List.range_succ, List.foldl_append, List.foldl_cons, List.foldl_nil, markTurn_apply _ hk,
        ih (by omega) hk, ih (by omega) (by omega : m < next)]
      simp only [show ∀ i, i < m + 1 ↔ i < m ∨ i = m from fun i => by omega, or_and_right,
        exists_or, exists_eq_left]
      by_cases hD : ∃ i < m, i < k ∧ a i = a k
      · simp [hD]
      · -- entry `k` is marked in turn `m` or not at all
        have hfirst : m < k → a m = a k → ¬∃ i < m, i < m ∧ a i = a m :=
          fun hmk hv ⟨i, hi, _, hi'⟩ => hD ⟨i, hi, by omega, hi'.trans hv⟩
        rw [if_neg hD]
        by_cases hmk : m < k ∧ a m = a k
        · rw [if_neg (hfirst hmk.1 hmk.2), if_pos (Or.inr hmk)]
          by_cases ham : a m = cgraphNodesAll
          · rw [if_neg fun h => h.2.1 ham, ← hmk.2, ham]
          · rw [if_pos ⟨hmk.1, ham, hmk.2⟩]
        · refine (if_neg fun ⟨hlt, hne, heq⟩ => hmk ⟨hlt, ?_⟩).trans (if_neg (not_or.mpr ⟨hD, hmk⟩)).symm
          split_ifs at hne heq
          exacts [absurd rfl hne, heq]

/-- No turn of the outer loop writes an entry from `next` on. -/
theorem foldl_markTurn_of_le {next k : Nat} (m : Nat) (a : Nat → Int) (hk : next ≤ k) :
    (List.range m).foldl (markTurn next) a k = a k := by
  induction m with
  | zero => rfl
  | succ m ih =>
      rw [List.range_succ, List.foldl_append, List.foldl_cons, List.foldl_nil, markTurn]
      split_ifs
      · rw [markLater_eq (by simp) (List.nodup_range' _ _) k, if_neg fun h => by
          have := List.mem_range'_1.mp h.1; omega, ih]
      · exact ih

/-- The marking loops keep the first occurrence of every value below `next` and mark the later
ones. -/
theorem markDuplicates_eq (next : Nat) (a : Nat → Int) {k : Nat} (hk : k < next) :
    markDuplicates next a k = if ∃ i < k, a i = a k then cgraphNodesAll else a k := by
  rw [markDuplicates, foldl_markTurn le_rfl a hk]
  exact if_congr ⟨fun ⟨i, _, hik, h⟩ => ⟨i, hik, h⟩, fun ⟨i, hik, h⟩ => ⟨i, by omega, hik, h⟩⟩
    rfl rfl

/-- After the marking loops no live entry below `next` is repeated later. -/
theorem markDuplicates_ne {next : Nat} {a : Nat → Int} {i j : Nat} (hij : i < j) (hj : j < next)
    (hi : markDuplicates next a i ≠ cgraphNodesAll) :
    markDuplicates next a i ≠ markDuplicates next a j := by
  rw [markDuplicates_eq next a (hij.trans hj)] at hi ⊢
  have hfirst : ¬∃ i' < i, a i' = a i := fun h => hi (if_pos h)
  rw [if_neg hfirst] at hi ⊢
  rw [markDuplicates_eq next a hj]
  split_ifs with hdup
  · exact hi
  · exact fun h => hdup ⟨i, hij, h⟩

/-- The outer loop keeps the values, `n->nodes[0]` and every entry from `next` on. -/
theorem markDuplicates_spec (next : Nat) (a : Nat → Int) :
    SameValues next (markDuplicates next a) a ∧ markDuplicates next a 0 = a 0 ∧
      ∀ k, next ≤ k → markDuplicates next a k = a k := by
  refine ⟨fun v hv => ⟨?_, ?_⟩, ?_, fun k hk => foldl_markTurn_of_le next a hk⟩
  · -- a live entry is not marked, so it holds its own value
    rintro ⟨k, hk, rfl⟩
    refine ⟨k, hk, ?_⟩
    rw [markDuplicates_eq next a hk] at hv ⊢
    exact (if_neg fun h => hv (if_pos h)).symm
  · -- the first occurrence of a value is kept
    rintro ⟨k, hk, rfl⟩
    induction k using Nat.strong_induction_on with
    | _ k ih =>
        by_cases hfirst : ∃ i < k, a i = a k
        · obtain ⟨i, hi, hia⟩ := hfirst
          obtain ⟨j, hj, hja⟩ := ih i hi (by omega) (hia ▸ hv)
          exact ⟨j, hj, hja.trans hia⟩
        · exact ⟨k, hk, by rw [markDuplicates_eq next a hk, if_neg hfirst]⟩
  · rcases Nat.eq_zero_or_pos next with h0 | hpos
    · exact foldl_markTurn_of_le next a h0.le
    · rw [markDuplicates_eq next a hpos, if_neg (by simp)]

end CGraph.StartSymbol
