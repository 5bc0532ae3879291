import CGraph.Text

/-!
# Query edges on the command line

`--hyperedges` and each line of `--query-file` give a query edge as text, which
`parse_hyperedge_arg` reads into a `HyperedgeArg`. It fills `arg->nodes` with `-1`, reads the
first field with `parse_int`, and while the text after a field goes on with `,` reads the
next field into the next entry of `arg->nodes`, with no bound on the index. `parse_int`
refuses a leading minus sign, lets `strtoull` choose the base, and refuses `LONG_MIN` and
`LONG_MAX` when `errno` is `ERANGE`; the text after the numeral is left to its caller.
`strtoull` sets `errno` on overflow and nothing clears it, so `errno` is passed through the
calls.

Decimal numerals below `2^63` joined by commas, with or without a line end, are read back
as written. Other texts are not all refused: a `?` is, but trailing text, octal,
hexadecimal and signed numerals and numerals past `ULLONG_MAX` are read, and every field is
written to `arg->nodes`, however many there are: a field past its `LIMIT_MAX_RANK` entries is
written out of bounds, which the caller's view `parseHyperedgeArgInto` makes undefined.
-/
namespace CGraph.HyperedgeArg

open CGraph.Text

/-- `parse_int(s, &value)`: `none` where it returns `NULL`, else the value it stores and the
text it returns; with the `errno` it leaves. -/
def parseInt (errno : Bool) (s : List Char) : Option (Nat × List Char) × Bool :=
  if s.head? = some '-' then (none, errno)
  else
    match strtoull s with
    | none => (none, errno)
    | some (v, erange, rest) =>
        if (v = 2 ^ 63 ∨ v = 2 ^ 63 - 1) ∧ (errno || erange) = true then (none, errno || erange)
        else (some (v, rest), errno || erange)

/-- `parse_int` returns a pointer into its text. -/
theorem parseInt_rest_length {errno errno' : Bool} {s rest : List Char} {v : Nat}
    (h : parseInt errno s = (some (v, rest), errno')) : rest.length ≤ s.length := by
  unfold parseInt at h
  split at h
  · simp at h
  · split at h
    · simp at h
    · rename_i hs
      split_ifs at h
      · simp at h
      · simp only [Prod.mk.injEq, Option.some.injEq] at h
        rw [← h.1.2]
        exact strtoull_rest_length hs

/-- The loop of `parse_hyperedge_arg` after the first field: while the text goes on with `,`,
the field after it is read into the next entry of `arg->nodes`. `stored` holds the values
written so far, in order. -/
def hyperedgeFields (errno : Bool) (stored : List Int) : List Char → Int × List Int
  | ',' :: t =>
      match h : parseInt errno t with
      | (some (v, rest), errno') =>
          have _hlt : rest.length < t.length + 1 := Nat.lt_succ_of_le (parseInt_rest_length h)
          hyperedgeFields errno' (stored ++ [toInt64 v]) rest
      | (none, _) => (-1, stored)
  | _ => (0, stored)
termination_by s => s.length
decreasing_by exact _hlt

/-- `parse_hyperedge_arg(s, arg)`: the result and the values written to `arg->nodes[0]`,
`arg->nodes[1]`, … in order. `arg->rank` is their number and the entries not written hold
`-1`; an entry from `LIMIT_MAX_RANK` on lies past the array. -/
def parseHyperedgeArg (errno : Bool) (s : List Char) : Int × List Int :=
  match parseInt errno s with
  | (some (v, rest), errno') => hyperedgeFields errno' [toInt64 v] rest
  | (none, _) => (-1, [])

/-- `parse_hyperedge_arg(s, &arg)` on the caller's `HyperedgeArg`, whose `nodes` hold
`LIMIT_MAX_RANK` entries: a field past them is written out of bounds, which is undefined;
otherwise the result and the values written. -/
def parseHyperedgeArgInto (errno : Bool) (s : List Char) : Outcome (Int × List Int) :=
  if limitMaxRank < (parseHyperedgeArg errno s).2.length then .undefined
  else .done (parseHyperedgeArg errno s)

/-! ## One field after another -/

theorem hyperedgeFields_comma {errno errno' : Bool} {stored : List Int} {t rest : List Char}
    {v : Nat} (h : parseInt errno t = (some (v, rest), errno')) :
    hyperedgeFields errno stored (',' :: t) = hyperedgeFields errno' (stored ++ [toInt64 v]) rest := by
  rw [hyperedgeFields]
  split <;> simp_all

theorem hyperedgeFields_end (errno : Bool) (stored : List Int) {s : List Char}
    (hs : ∀ c ∈ s.head?, c ≠ ',') : hyperedgeFields errno stored s = (0, stored) := by
  unfold hyperedgeFields
  split
  · exact absurd rfl (hs ',' rfl)
  · rfl

theorem parseHyperedgeArg_first {errno errno' : Bool} {s rest : List Char} {v : Nat}
    (h : parseInt errno s = (some (v, rest), errno')) :
    parseHyperedgeArg errno s = hyperedgeFields errno' [toInt64 v] rest := by
  rw [parseHyperedgeArg, h]

/-- A field not followed by a comma is the whole query edge, whatever text comes after it. -/
theorem parseHyperedgeArg_one_field {errno errno' : Bool} {s rest : List Char} {v : Nat}
    (h : parseInt errno s = (some (v, rest), errno')) (hr : ∀ c ∈ rest.head?, c ≠ ',') :
    parseHyperedgeArg errno s = (0, [toInt64 v]) := by
  rw [parseHyperedgeArg_first h, hyperedgeFields_end _ _ hr]

/-! ## White space after the argument -/

theorem hyperedgeFields_comma_none {errno : Bool} {stored : List Int} {t : List Char}
    (h : (parseInt errno t).1 = none) : hyperedgeFields errno stored (',' :: t) = (-1, stored) := by
  rw [hyperedgeFields]
  split <;> simp_all

theorem parseInt_append_space (errno : Bool) (s : List Char) {c : Char} (hc : isSpace c = true) :
    parseInt errno (s ++ [c]) =
      ((parseInt errno s).1.map fun r => (r.1, r.2 ++ [c]), (parseInt errno s).2) := by
  have hhead : (s ++ [c]).head? = some '-' ↔ s.head? = some '-' := by
    rcases s with _ | ⟨a, s⟩ <;> simp
    rintro rfl
    simp [isSpace] at hc
  unfold parseInt
  simp only [hhead, strtoull_append_space s hc]
  split_ifs
  · rfl
  · rcases strtoull s with _ | ⟨v, erange, rest⟩
    · rfl
    · simp only [Option.map_some']
      split_ifs <;> rfl

theorem hyperedgeFields_append_space (errno : Bool) (stored : List Int) (s : List Char) {c : Char}
    (hc : isSpace c = true) :
    hyperedgeFields errno stored (s ++ [c]) = hyperedgeFields errno stored s := by
  induction errno, stored, s using hyperedgeFields.induct with
  | case1 errno stored t v rest errno' h _ ih =>
      rw [List.cons_append, @hyperedgeFields_comma errno errno' stored (t ++ [c]) (rest ++ [c]) v
        (by simp [parseInt_append_space errno t hc, h]), ih, hyperedgeFields_comma h]
  | case2 errno stored t e hnone =>
      rw [List.cons_append,
        hyperedgeFields_comma_none (by simp [parseInt_append_space errno t hc, hnone]),
        hyperedgeFields_comma_none (by simp [hnone])]
  | case3 errno stored s hs =>
      have hc' : c ≠ ',' := by rintro rfl; simp [isSpace] at hc
      cases s with
      | nil => rw [List.nil_append, hyperedgeFields_end _ _ (by simpa using hc'),
          hyperedgeFields_end _ _ (by simp)]
      | cons a s =>
          have ha : a ≠ ',' := by rintro rfl; exact hs s rfl
          rw [List.cons_append, hyperedgeFields_end _ _ (by simpa using ha),
            hyperedgeFields_end _ _ (by simpa using ha)]

/-- White space after a query edge, such as the newline `fgets` keeps, changes nothing
`parse_hyperedge_arg` reads. -/
theorem parseHyperedgeArg_append_space (errno : Bool) (s : List Char) {c : Char}
    (hc : isSpace c = true) : parseHyperedgeArg errno (s ++ [c]) = parseHyperedgeArg errno s := by
  unfold parseHyperedgeArg
  rw [parseInt_append_space errno s hc]
  rcases parseInt errno s with ⟨_ | ⟨v, rest⟩, e⟩
  · rfl
  · exact hyperedgeFields_append_space e _ rest hc

theorem parseHyperedgeArgInto_append_space (errno : Bool) (s : List Char) {c : Char}
    (hc : isSpace c = true) : parseHyperedgeArgInto errno (s ++ [c]) = parseHyperedgeArgInto errno s := by
  simp only [parseHyperedgeArgInto, parseHyperedgeArg_append_space errno s hc]

/-! ## Decimal numerals -/

/-- `parse_int` reads a decimal numeral below `2^63` back; it refuses only `LONG_MAX`, and only
when `errno` is already `ERANGE`. -/
theorem parseInt_decimal (errno : Bool) {n : Nat} (hn : n < 2 ^ 63) {r : List Char}
    (hr : ∀ c ∈ r.head?, c = ',' ∨ c = '\n') :
    parseInt errno (decimal n ++ r) =
      (if errno ∧ n = 2 ^ 63 - 1 then none else some (n, r), errno) := by
  obtain ⟨hdig, c, t, hct, -⟩ := decimal_spec n
  obtain ⟨d, hd, rfl⟩ := hdig c (by simp [hct])
  have hminus : (decimal n ++ r).head? ≠ some '-' := by
    simpa [hct] using (digitChar_spec d hd).2.2.1
  rw [parseInt, if_neg hminus,
    strtoull_decimal n (by omega) fun c hc => by rcases hr c hc with rfl | rfl <;> decide]
  have h63 : n ≠ 2 ^ 63 := by omega
  simp only [h63, false_or, Bool.or_false]
  split_ifs <;> simp_all

/-- The fields after a field start with a comma, or the text ends or goes on with a line end. -/
theorem head_fields (ns : List Nat) {r : List Char} (hr : ∀ c ∈ r.head?, c = '\n') :
    ∀ c ∈ ((ns.flatMap fun n => ',' :: decimal n) ++ r).head?, c = ',' ∨ c = '\n' := by
  cases ns with
  | nil => simpa using fun c hc => Or.inr (hr c hc)
  | cons m ms => simp

theorem parseInt_numeral_fields (n : Nat) (ns : List Nat) (r : List Char) (hn : n < 2 ^ 63)
    (hr : ∀ c ∈ r.head?, c = '\n') :
    parseInt false (decimal n ++ ((ns.flatMap fun m => ',' :: decimal m) ++ r)) =
      (some (n, (ns.flatMap fun m => ',' :: decimal m) ++ r), false) := by
  rw [parseInt_decimal false hn (head_fields ns hr)]
  simp

/-- The loop reads decimal numerals below `2^63`, each after a comma, into the next entries of
`arg->nodes`, up to a line end or the end of the text. -/
theorem hyperedgeFields_decimals (stored : List Int) (ns : List Nat) (hns : ∀ n ∈ ns, n < 2 ^ 63)
    {r : List Char} (hr : ∀ c ∈ r.head?, c = '\n') :
    hyperedgeFields false stored ((ns.flatMap fun n => ',' :: decimal n) ++ r) =
      (0, stored ++ ns.map fun n : Nat => (n : Int)) := by
  induction ns generalizing stored with
  | nil => simpa using hyperedgeFields_end false stored fun c hc => by rw [hr c hc]; decide
  | cons n ns ih =>
      have hn := hns n (List.mem_cons_self n ns)
      simp only [List.flatMap_cons, List.cons_append, List.append_assoc]
      rw [hyperedgeFields_comma (parseInt_numeral_fields n ns r hn hr),
        ih _ fun m hm => hns m (List.mem_cons_of_mem n hm), toInt64_of_lt (by omega) (by omega)]
      simp

/-- `parse_hyperedge_arg` reads back decimal numerals below `2^63` joined by commas, with or
without a line end, when `errno` is not `ERANGE`: `arg->nodes` holds the numbers in order. -/
theorem parseHyperedgeArg_decimals (n : Nat) (ns : List Nat) (r : List Char)
    (hns : ∀ m ∈ n :: ns, m < 2 ^ 63) (hr : r = [] ∨ r = ['\n']) :
    parseHyperedgeArg false (decimal n ++ (ns.flatMap fun m => ',' :: decimal m) ++ r) =
      (0, (n :: ns).map fun m : Nat => (m : Int)) := by
  have hr' : ∀ c ∈ r.head?, c = '\n' := by rcases hr with rfl | rfl <;> simp
  have hn := hns n (List.mem_cons_self n ns)
  rw [List.append_assoc, parseHyperedgeArg_first (parseInt_numeral_fields n ns r hn hr'),
    hyperedgeFields_decimals _ ns (fun m hm => hns m (List.mem_cons_of_mem n hm)) hr',
    toInt64_of_lt (by omega) (by omega)]
  rfl

/-- At most `LIMIT_MAX_RANK` such numerals stay inside `arg->nodes`: the call is defined and
returns `0` with the numbers in order. -/
theorem parseHyperedgeArgInto_decimals (n : Nat) (ns : List Nat) (r : List Char)
    (hns : ∀ m ∈ n :: ns, m < 2 ^ 63) (hlen : (n :: ns).length ≤ limitMaxRank)
    (hr : r = [] ∨ r = ['\n']) :
    parseHyperedgeArgInto false (decimal n ++ (ns.flatMap fun m => ',' :: decimal m) ++ r) =
      .done (0, (n :: ns).map fun m : Nat => (m : Int)) := by
  rw [parseHyperedgeArgInto, parseHyperedgeArg_decimals n ns r hns hr, List.length_map,
    if_neg (Nat.not_lt.mpr hlen)]

theorem parseHyperedgeArgInto_decimals_line :
    (∀ m ∈ [5, 7], m < 2 ^ 63) ∧ [5, 7].length ≤ limitMaxRank ∧ (['\n'] = [] ∨ ['\n'] = ['\n']) ∧
      parseHyperedgeArgInto false (decimal 5 ++ ([7].flatMap fun m => ',' :: decimal m) ++ ['\n']) =
        .done (0, [5, 7].map fun m : Nat => (m : Int)) :=
  ⟨by decide, by decide, .inr rfl,
    parseHyperedgeArgInto_decimals 5 [7] ['\n'] (by decide) (by decide) (.inr rfl)⟩

/-- Where `parse_hyperedge_arg` departs from a reading of exactly `1` to `LIMIT_MAX_RANK` fields,
each `?` or a decimal numeral below `2^63`: it refuses `?`; it accepts text after a numeral,
octal numerals, a numeral past `ULLONG_MAX` as the wildcard and a minus sign after white space;
`LONG_MAX` is refused when `errno` is already `ERANGE`; and `LIMIT_MAX_RANK + 1` fields write
`arg->nodes[LIMIT_MAX_RANK]`, past the array. -/
theorem parse_hyperedge_arg_divergences :
    parseHyperedgeArg false ['?'] = (-1, []) ∧
      parseHyperedgeArg false ['1', 'x'] = (0, [1]) ∧
      parseHyperedgeArg false ['0', '1', '0'] = (0, [8]) ∧
      parseHyperedgeArg false ("18446744073709551616".toList) = (0, [cgraphNodesAll]) ∧
      parseHyperedgeArg false [' ', '-', '5'] = (0, [-5]) ∧
      parseHyperedgeArg true ("9223372036854775807".toList) = (-1, []) ∧
      (parseHyperedgeArg false
        (decimal 0 ++ (List.replicate limitMaxRank 0).flatMap fun m => ',' :: decimal m)).2.length =
          limitMaxRank + 1 := by
  have hlim := parseHyperedgeArg_first
    (parseInt_numeral_fields 0 (List.replicate limitMaxRank 0) [] (by norm_num) (by simp))
  rw [hyperedgeFields_decimals _ _ (by simp) (by simp), List.append_nil] at hlim
  refine ⟨by decide, ?_, ?_, ?_, ?_, by decide, by simp [hlim]⟩
  · rw [parseHyperedgeArg_one_field
      (show parseInt false ['1', 'x'] = (some (1, ['x']), false) by decide) (by decide)]
    decide
  · rw [parseHyperedgeArg_one_field
      (show parseInt false ['0', '1', '0'] = (some (8, []), false) by decide) (by decide)]
    decide
  · rw [parseHyperedgeArg_one_field (show parseInt false ("18446744073709551616".toList) =
      (some (2 ^ 64 - 1, []), true) by decide) (by decide)]
    decide
  · rw [parseHyperedgeArg_one_field
      (show parseInt false [' ', '-', '5'] = (some (2 ^ 64 - 5, []), false) by decide) (by decide)]
    decide

end CGraph.HyperedgeArg
