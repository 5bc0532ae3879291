import Mathlib.Data.Nat.Digits
import Mathlib.Data.List.Basic
import CGraph.Basic

/-!
# The C library's text functions

The command line reads edge files with `fgets`, `strtok` and `strtoll`, its query arguments
with `strtoull`, and writes edges with `printf` and `fprintf`. Texts are lists of characters.
`fgets` fills a buffer of `size` bytes: at most `size - 1` characters, up to and including a
newline. `strtok` cuts the C string in a buffer, which ends at the first NUL, into the
maximal runs of non-delimiters. `strtoll` and `strtoull` with base `0` read white space, a
sign, a base prefix and the longest run of digits; `strtoll` clamps the value to
`long long`, `strtoull` saturates at `ULLONG_MAX` and negates modulo `2^64`, and also tells
where the digits end. `printf("%lld")` writes the decimal numeral.
-/
namespace CGraph.Text

/-- The white space of `isspace` in the C locale. -/
def isSpace (c : Char) : Bool :=
  c = ' ' || c = '\t' || c = '\n' || c = '\x0b' || c = '\x0c' || c = '\r'

/-- The value of a digit in bases up to 16, either case. -/
def digitValue (c : Char) : Option Nat :=
  if '0' ≤ c ∧ c ≤ '9' then some (c.toNat - '0'.toNat)
  else if 'a' ≤ c ∧ c ≤ 'f' then some (c.toNat - 'a'.toNat + 10)
  else if 'A' ≤ c ∧ c ≤ 'F' then some (c.toNat - 'A'.toNat + 10)
  else none

/-- The sign `strtoll` reads: whether it is a minus, and the text after it. -/
def readSign : List Char → Bool × List Char
  | c :: t => if c = '-' then (true, t) else if c = '+' then (false, t) else (false, c :: t)
  | [] => (false, [])

/-- The base `strtoll(s, NULL, 0)` takes from the prefix, and the text its digits start:
`0x` or `0X` before a hexadecimal digit gives 16, any other leading `0` gives 8 (the `0`
being a digit), any other text 10. -/
def readBase (s : List Char) : Nat × List Char :=
  match s with
  | c :: x :: d :: t =>
      if c = '0' ∧ (x = 'x' ∨ x = 'X') ∧ (digitValue d).isSome then (16, d :: t)
      else (if c = '0' then 8 else 10, s)
  | c :: _ => (if c = '0' then 8 else 10, s)
  | [] => (10, [])

/-- The value of the longest run of base-`b` digits at the front of a text, `acc` being
the value read so far. -/
def readDigits (b acc : Nat) : List Char → Nat
  | [] => acc
  | c :: cs =>
      match digitValue c with
      | some d => if d < b then readDigits b (acc * b + d) cs else acc
      | none => acc

/-- The value `strtoll` returns for a number out of range: `LLONG_MIN` or `LLONG_MAX`. -/
def clampLongLong (v : Int) : Int := max (-2 ^ 63) (min v (2 ^ 63 - 1))

/-- `strtoll(s, NULL, 0)`. -/
def strtoll (s : List Char) : Int :=
  let (neg, s) := readSign (s.dropWhile isSpace)
  let (b, s) := readBase s
  let v : Int := readDigits b 0 s
  clampLongLong (if neg then -v else v)

/-- Whether a character is a digit of base `b`. -/
def isDigitOf (b : Nat) (c : Char) : Bool := (digitValue c).any (· < b)

/-- `strtoull(s, &end, 0)`: `none` when it reads no digit, so that `end == s`; otherwise the
value, whether it set `errno` to `ERANGE`, and the text at `end`. A value past
`ULLONG_MAX` gives `ULLONG_MAX` and `ERANGE`; after a minus sign the value is negated modulo
`2^64`. -/
def strtoull (s : List Char) : Option (Nat × Bool × List Char) :=
  let (neg, t) := readSign (s.dropWhile isSpace)
  let (b, t) := readBase t
  if t.takeWhile (isDigitOf b) = [] then none
  else
    let v := readDigits b 0 t
    let rest := t.dropWhile (isDigitOf b)
    if 2 ^ 64 ≤ v then some (2 ^ 64 - 1, true, rest)
    else some (if neg then (2 ^ 64 - v) % 2 ^ 64 else v, false, rest)

/-- The buffers successive `fgets(line, size, f)` fill from the rest of a file, `buf` being
what the current call has read so far. -/
def fgetsBuffers (size : Nat) (buf : List Char) : List Char → List (List Char)
  | [] => if buf = [] then [] else [buf]
  | c :: cs =>
      if c = '\n' ∨ size - 1 ≤ buf.length + 1 then (buf ++ [c]) :: fgetsBuffers size [] cs
      else fgetsBuffers size (buf ++ [c]) cs

/-- The C string a buffer holds: its characters up to the first NUL. -/
def cString (buf : List Char) : List Char := buf.takeWhile fun c => c != '\x00'

/-- The tokens `strtok(line, delims)` and the calls `strtok(NULL, delims)` after it return. -/
def strtokTokens (delim : Char → Bool) (buf : List Char) : List (List Char) :=
  ((cString buf).splitOnP delim).filter fun t => !t.isEmpty

/-- The decimal numeral `printf` writes for a natural number: most significant digit first,
`0` for zero. -/
def decimal (n : Nat) : List Char :=
  if n = 0 then ['0'] else (Nat.digits 10 n).reverse.map Nat.digitChar

/-- `printf("%lld", v)`. -/
def printLld (v : Int) : List Char :=
  if v < 0 then '-' :: decimal v.natAbs else decimal v.toNat

theorem decimal_of_lt {n : Nat} (h₀ : n ≠ 0) (h : n < 10) : decimal n = [Nat.digitChar n] := by
  rw [decimal, if_neg h₀, Nat.digits_of_lt 10 n h₀ h]
  rfl

theorem printLld_of_lt {v : Int} (h₀ : 0 < v) (h : v < 10) :
    printLld v = [Nat.digitChar v.toNat] := by
  rw [printLld, if_neg (by omega), decimal_of_lt (by omega) (by omega)]

/-! ## Reading numerals back -/

theorem digitChar_spec : ∀ d < 10, digitValue (Nat.digitChar d) = some d ∧
    isSpace (Nat.digitChar d) = false ∧ Nat.digitChar d ≠ '-' ∧ Nat.digitChar d ≠ '+' ∧
    Nat.digitChar d ≠ '\x00' ∧ Nat.digitChar d ≠ '\n' ∧ (Nat.digitChar d = '0' ↔ d = 0) := by
  decide

theorem readDigits_map_digitChar (acc : Nat) (ds : List Nat) (hds : ∀ d ∈ ds, d < 10) :
    readDigits 10 acc (ds.map Nat.digitChar) = ds.foldl (fun a d => a * 10 + d) acc := by
  induction ds generalizing acc with
  | nil => rfl
  | cons d ds ih =>
      have hd := hds d (List.mem_cons_self d ds)
      simp only [List.map_cons, readDigits, (digitChar_spec d hd).1, hd, ↓reduceIte, List.foldl_cons]
      exact ih _ fun d' h' => hds d' (List.mem_cons_of_mem d h')

theorem foldl_reverse_digits (b acc : Nat) (L : List Nat) :
    L.reverse.foldl (fun a d => a * b + d) acc = Nat.ofDigits b L + acc * b ^ L.length := by
  induction L generalizing acc with
  | nil => simp [Nat.ofDigits]
  | cons d L ih =>
      rw [List.reverse_cons, List.foldl_append, ih, List.foldl_cons, List.foldl_nil, Nat.ofDigits_cons,
        List.length_cons, pow_succ]
      ring

/-- The characters of a decimal numeral are decimal digits, and only the numeral of zero
starts with `0`. -/
theorem decimal_spec (n : Nat) : (∀ c ∈ decimal n, ∃ d < 10, c = Nat.digitChar d) ∧
    ∃ c t, decimal n = c :: t ∧ (c = '0' ↔ n = 0) := by
  unfold decimal
  split_ifs with hn
  · exact ⟨fun c hc => ⟨0, by norm_num, List.mem_singleton.mp hc⟩, '0', [], rfl, by simp [hn]⟩
  · refine ⟨fun c hc => ?_, ?_⟩
    · obtain ⟨d, hd, rfl⟩ := List.mem_map.mp hc
      exact ⟨d, Nat.digits_lt_base (by norm_num) (List.mem_reverse.mp hd), rfl⟩
    · have hne : Nat.digits 10 n ≠ [] := Nat.digits_ne_nil_iff_ne_zero.mpr hn
      obtain ⟨t, d, ht⟩ := List.eq_nil_or_concat (Nat.digits 10 n) |>.resolve_left hne
      have hlast : d ≠ 0 := by
        simpa [ht] using Nat.getLast_digit_ne_zero 10 hn
      have hd : d < 10 := @Nat.digits_lt_base 10 n d (by norm_num) (by simp [ht])
      refine ⟨Nat.digitChar d, (t.reverse.map Nat.digitChar), by simp [ht], ?_⟩
      exact iff_of_false (fun h => hlast ((digitChar_spec d hd).2.2.2.2.2.2.mp h)) hn

theorem readDigits_decimal (n : Nat) : readDigits 10 0 (decimal n) = n := by
  by_cases hn : n = 0
  · subst hn; rfl
  · have hds : ∀ d ∈ (Nat.digits 10 n).reverse, d < 10 :=
      fun d hd => Nat.digits_lt_base (by norm_num) (List.mem_reverse.mp hd)
    rw [decimal, if_neg hn, readDigits_map_digitChar 0 _ hds, foldl_reverse_digits,
      Nat.ofDigits_digits, zero_mul, add_zero]

/-- A numeral of a positive number has no white space, sign or base prefix in front of its
digits, whatever follows it. -/
theorem readBase_decimal_append (n : Nat) (hn : n ≠ 0) (r : List Char) :
    readSign ((decimal n ++ r).dropWhile isSpace) = (false, decimal n ++ r) ∧
      readBase (decimal n ++ r) = (10, decimal n ++ r) := by
  obtain ⟨hdig, c, t, hct, hc⟩ := decimal_spec n
  obtain ⟨d, hd, rfl⟩ := hdig c (by simp [hct])
  obtain ⟨-, hsp, hm, hp, -, -, -⟩ := digitChar_spec d hd
  have h0 : Nat.digitChar d ≠ '0' := fun h => hn (hc.mp h)
  rw [hct, List.cons_append, List.dropWhile_cons_of_neg (by simp [hsp])]
  refine ⟨by simp [readSign, hm, hp], ?_⟩
  rcases t ++ r with _ | ⟨x, _ | ⟨y, t⟩⟩ <;> simp [readBase, h0]

/-- A numeral has no white space, sign or base prefix in front of its digits. -/
theorem readBase_decimal (n : Nat) (hn : n ≠ 0) :
    readSign ((decimal n).dropWhile isSpace) = (false, decimal n) ∧
      readBase (decimal n) = (10, decimal n) := by
  simpa using readBase_decimal_append n hn []

theorem strtoll_decimal (n : Nat) (h : n < 2 ^ 63) : strtoll (decimal n) = n := by
  by_cases hn : n = 0
  · subst hn; rfl
  · obtain ⟨hsign, hbase⟩ := readBase_decimal n hn
    simp only [strtoll, hsign, hbase, readDigits_decimal, Bool.false_eq_true, ↓reduceIte,
      clampLongLong]
    omega

theorem strtoll_neg_decimal (n : Nat) (hn : n ≠ 0) (h : n ≤ 2 ^ 63) :
    strtoll ('-' :: decimal n) = -n := by
  obtain ⟨-, hbase⟩ := readBase_decimal n hn
  simp only [strtoll, List.dropWhile_cons_of_neg (show ¬isSpace '-' = true by decide), readSign,
    ↓reduceIte, hbase, readDigits_decimal, clampLongLong]
  omega

/-- `strtoll` reads back the numeral `printf("%lld")` writes for any `long long`. -/
theorem strtoll_printLld (v : Int) (h₀ : -2 ^ 63 ≤ v) (h₁ : v < 2 ^ 63) :
    strtoll (printLld v) = v := by
  unfold printLld
  split_ifs with hv
  · rw [strtoll_neg_decimal _ (by omega) (by omega)]
    omega
  · rw [strtoll_decimal _ (by omega)]
    omega

theorem readSign_length (s : List Char) : (readSign s).2.length ≤ s.length := by
  rcases s with _ | ⟨c, t⟩ <;> simp only [readSign] <;> (try split_ifs) <;> simp

theorem readBase_length (s : List Char) : (readBase s).2.length ≤ s.length := by
  rcases s with _ | ⟨c, _ | ⟨x, _ | ⟨d, t⟩⟩⟩ <;> simp only [readBase] <;> (try split_ifs) <;> simp

/-- `strtoull` leaves `end` inside the text. -/
theorem strtoull_rest_length {s rest : List Char} {v : Nat} {e : Bool}
    (h : strtoull s = some (v, e, rest)) : rest.length ≤ s.length := by
  have hsign := readSign_length (s.dropWhile isSpace)
  have hbase := readBase_length (readSign (s.dropWhile isSpace)).2
  have hdrop := (List.dropWhile_suffix isSpace (l := s)).length_le
  have hdig := (List.dropWhile_suffix (isDigitOf (readBase (readSign (s.dropWhile isSpace)).2).1)
    (l := (readBase (readSign (s.dropWhile isSpace)).2).2)).length_le
  simp only [strtoull] at h
  split_ifs at h <;> cases h <;> omega

theorem readDigits_append (b acc : Nat) {l : List Char} (hl : ∀ c ∈ l, isDigitOf b c)
    (r : List Char) : readDigits b acc (l ++ r) = readDigits b (readDigits b acc l) r := by
  induction l generalizing acc with
  | nil => rfl
  | cons c l ih =>
      have hc := hl c (List.mem_cons_self c l)
      cases hd : digitValue c with
      | none => simp [isDigitOf, hd] at hc
      | some d =>
          simp only [isDigitOf, hd, Option.any_some, decide_eq_true_eq] at hc
          simp only [List.cons_append, readDigits, hd, hc, ↓reduceIte]
          exact ih _ fun c' h' => hl c' (List.mem_cons_of_mem c h')

theorem readDigits_stop (b acc : Nat) {r : List Char}
    (hr : ∀ c ∈ r.head?, isDigitOf b c = false) : readDigits b acc r = acc := by
  cases r with
  | nil => rfl
  | cons c r =>
      have hc := hr c rfl
      cases hd : digitValue c with
      | none => simp [readDigits, hd]
      | some d => simp_all [readDigits, isDigitOf]

/-- `strtoull` on a run of base-`b` digits that `readBase` leaves whole: the value of the run,
and `end` right after it. -/
theorem strtoull_digits {b : Nat} {l r : List Char} (hl : ∀ c ∈ l, isDigitOf b c) (hne : l ≠ [])
    (hr : ∀ c ∈ r.head?, isDigitOf b c = false)
    (hsign : readSign ((l ++ r).dropWhile isSpace) = (false, l ++ r))
    (hbase : readBase (l ++ r) = (b, l ++ r)) (hv : readDigits b 0 l < 2 ^ 64) :
    strtoull (l ++ r) = some (readDigits b 0 l, false, r) := by
  have hstop : r.takeWhile (isDigitOf b) = [] ∧ r.dropWhile (isDigitOf b) = r := by
    cases r with
    | nil => exact ⟨rfl, rfl⟩
    | cons c r => simp [hr c rfl]
  simp only [strtoull, hsign, hbase, List.takeWhile_append_of_pos hl, hstop.1, List.append_nil,
    hne, ↓reduceIte, readDigits_append b 0 hl, readDigits_stop b _ hr,
    List.dropWhile_append_of_pos hl, hstop.2, not_le.mpr hv, Bool.false_eq_true]

/-- `strtoull` reads a decimal numeral back, `end` pointing right after it, when the text
after it does not go on with a digit or an `x`. -/
theorem strtoull_decimal (n : Nat) (hn : n < 2 ^ 64) {r : List Char}
    (hr : ∀ c ∈ r.head?, digitValue c = none ∧ c ≠ 'x' ∧ c ≠ 'X') :
    strtoull (decimal n ++ r) = some (n, false, r) := by
  have hstop : ∀ b, ∀ c ∈ r.head?, isDigitOf b c = false :=
    fun b c hc => by simp [isDigitOf, (hr c hc).1]
  by_cases h0 : n = 0
  · -- the numeral `0` is read in base 8
    subst h0
    have hbase : readBase (['0'] ++ r) = (8, ['0'] ++ r) := by
      rcases r with _ | ⟨x, _ | ⟨y, t⟩⟩
      · rfl
      · rfl
      · simp [readBase, (hr x rfl).2]
    exact @strtoull_digits 8 ['0'] r (by decide) (by simp) (hstop 8) rfl hbase (by decide)
  · obtain ⟨hsign, hbase⟩ := readBase_decimal_append n h0 r
    have hl : ∀ c ∈ decimal n, isDigitOf 10 c := fun c hc => by
      obtain ⟨d, hd, rfl⟩ := (decimal_spec n).1 c hc
      simp [isDigitOf, (digitChar_spec d hd).1, hd]
    have hne : decimal n ≠ [] := by
      obtain ⟨-, c, t, h, -⟩ := decimal_spec n
      simp [h]
    have h := strtoull_digits hl hne (hstop 10) hsign hbase (by rwa [readDigits_decimal])
    rwa [readDigits_decimal] at h

/-- A number up to `2^63` has at most 19 decimal digits. -/
theorem decimal_length_le (n : Nat) (h : n ≤ 2 ^ 63) : (decimal n).length ≤ 19 := by
  unfold decimal
  split_ifs with h0
  · simp
  · rw [List.length_map, List.length_reverse, Nat.digits_len 10 n (by norm_num) h0]
    have : Nat.log 10 n < 19 := Nat.log_lt_of_lt_pow h0 (lt_of_le_of_lt h (by norm_num))
    omega

/-- The numeral of a `long long` is a minus sign and digits, at least one and at most 19. -/
theorem printLld_spec (v : Int) (h₀ : -2 ^ 63 ≤ v) (h₁ : v < 2 ^ 63) :
    (∀ c ∈ printLld v, c = '-' ∨ ∃ d < 10, c = Nat.digitChar d) ∧ printLld v ≠ [] ∧
      (printLld v).length ≤ 20 := by
  unfold printLld
  split_ifs with hv
  · obtain ⟨hd, -⟩ := decimal_spec v.natAbs
    have := decimal_length_le v.natAbs (by omega)
    refine ⟨fun c hc => ?_, List.cons_ne_nil _ _, by simp only [List.length_cons]; omega⟩
    rcases List.mem_cons.mp hc with rfl | hc
    exacts [.inl rfl, .inr (hd c hc)]
  · obtain ⟨hd, c, t, hct, -⟩ := decimal_spec v.toNat
    exact ⟨fun c hc => .inr (hd c hc), by simp [hct],
      (decimal_length_le _ (by omega)).trans (by norm_num)⟩

/-! ## White space after a number -/

theorem digitValue_of_isSpace {c : Char} (hc : isSpace c = true) : digitValue c = none := by
  simp only [isSpace, Bool.or_eq_true, decide_eq_true_eq] at hc
  rcases hc with ((((rfl | rfl) | rfl) | rfl) | rfl) | rfl <;> rfl

theorem takeWhile_append_stop {α : Type} {p : α → Bool} {c : α} (hc : p c = false)
    (u r : List α) : (u ++ c :: r).takeWhile p = u.takeWhile p := by
  induction u with
  | nil => simp [hc]
  | cons a u ih => simp only [List.cons_append, List.takeWhile_cons, ih]

theorem dropWhile_append_stop {α : Type} {p : α → Bool} {c : α} (hc : p c = false)
    (u r : List α) : (u ++ c :: r).dropWhile p = u.dropWhile p ++ c :: r := by
  induction u with
  | nil => simp [hc]
  | cons a u ih => cases h : p a <;> simp [List.dropWhile_cons, h, ih]

theorem readDigits_append_stop (b acc : Nat) {c : Char} (hc : digitValue c = none)
    (u r : List Char) : readDigits b acc (u ++ c :: r) = readDigits b acc u := by
  induction u generalizing acc with
  | nil => simp [readDigits, hc]
  | cons a u ih =>
      simp only [List.cons_append, readDigits]
      split <;> (try split) <;> simp_all

theorem readSign_append {t : List Char} (ht : t ≠ []) (r : List Char) :
    readSign (t ++ r) = ((readSign t).1, (readSign t).2 ++ r) := by
  obtain ⟨a, t, rfl⟩ := List.exists_cons_of_ne_nil ht
  simp only [List.cons_append, readSign]
  split_ifs <;> rfl

/-- A blank after the text never completes a `0x` prefix. -/
theorem readBase_append_space {c : Char} (hc : isSpace c = true) (t : List Char) :
    readBase (t ++ [c]) = ((readBase t).1, (readBase t).2 ++ [c]) := by
  have hd := digitValue_of_isSpace hc
  have h0 : c ≠ '0' := by rintro rfl; simp [isSpace] at hc
  rcases t with _ | ⟨a, _ | ⟨x, _ | ⟨d, t⟩⟩⟩
  · simp [readBase, h0]
  · simp [readBase]
  · simp [readBase, hd]
  · simp only [List.cons_append, readBase]
    split_ifs <;> rfl

/-- White space after a text changes nothing `strtoull` reads, although it skips white space
before the number: a text of blanks and a sign alone still reads no digit. `end` keeps the
blank. -/
theorem strtoull_append_space (s : List Char) {c : Char} (hc : isSpace c = true) :
    strtoull (s ++ [c]) = (strtoull s).map fun r => (r.1, r.2.1, r.2.2 ++ [c]) := by
  have hd := digitValue_of_isSpace hc
  have hstop : ∀ b, isDigitOf b c = false := fun b => by simp [isDigitOf, hd]
  rw [strtoull, List.dropWhile_append]
  by_cases h : (s.dropWhile isSpace).isEmpty
  · rw [if_pos h]
    simp [List.dropWhile_cons, hc, readSign, readBase, strtoull, List.isEmpty_iff.mp h]
  · rw [if_neg h, readSign_append (by simpa using h), strtoull]
    rcases readSign (s.dropWhile isSpace) with ⟨neg, t⟩
    simp only [readBase_append_space hc]
    rcases readBase t with ⟨b, u⟩
    simp only [takeWhile_append_stop (hstop b), dropWhile_append_stop (hstop b),
      readDigits_append_stop b 0 hd]
    split_ifs <;> simp

/-! ## Files of short lines -/

/-- A buffer with no NUL holds its whole text as a C string. -/
theorem cString_of_not_mem {buf : List Char} (h : '\x00' ∉ buf) : cString buf = buf :=
  List.takeWhile_eq_self_iff.mpr fun _ hc => bne_iff_ne.mpr fun hc0 => h (hc0 ▸ hc)

/-- `fgets` reads a line that fits its buffer, with its newline, in one call. -/
theorem fgetsBuffers_line (size : Nat) (buf l rest : List Char) (hl : '\n' ∉ l)
    (hlen : buf.length + l.length < size - 1) :
    fgetsBuffers size buf (l ++ '\n' :: rest) = (buf ++ l ++ ['\n']) :: fgetsBuffers size [] rest := by
  induction l generalizing buf with
  | nil => simp [fgetsBuffers]
  | cons c l ih =>
      have hc : c ≠ '\n' := fun h => hl (h ▸ List.mem_cons_self c l)
      simp only [List.length_cons] at hlen
      rw [List.cons_append, fgetsBuffers, if_neg (not_or.mpr ⟨hc, by omega⟩),
        ih (buf ++ [c]) (fun h => hl (List.mem_cons_of_mem c h)) (by simp; omega)]
      simp

/-- A file of lines that fit the buffer is read one line per `fgets`. -/
theorem fgetsBuffers_lines (size : Nat) (ls : List (List Char))
    (h : ∀ l ∈ ls, '\n' ∉ l ∧ l.length < size - 1) :
    fgetsBuffers size [] (ls.flatMap fun l => l ++ ['\n']) = ls.map fun l => l ++ ['\n'] := by
  induction ls with
  | nil => simp [fgetsBuffers]
  | cons l ls ih =>
      obtain ⟨hl, hlen⟩ := h l (List.mem_cons_self l ls)
      rw [List.flatMap_cons, List.append_assoc, List.singleton_append,
        fgetsBuffers_line size [] l _ hl (by simpa using hlen),
        ih fun l' h' => h l' (List.mem_cons_of_mem l h')]
      simp

/-- `strtok` finds one token in a line of non-delimiters, none in an empty line. -/
theorem strtokTokens_line (delim : Char → Bool) (l : List Char)
    (hl : ∀ c ∈ l, delim c = false ∧ c ≠ '\x00') (hnl : delim '\n' = true) :
    strtokTokens delim (l ++ ['\n']) = if l = [] then [] else [l] := by
  have htake : cString (l ++ ['\n']) = l ++ ['\n'] :=
    cString_of_not_mem fun h => by
      rcases List.mem_append.mp h with h | h
      · exact (hl _ h).2 rfl
      · simp at h
  rw [strtokTokens, htake,
    List.splitOnP_first delim l (fun c hc => by simp [(hl c hc).1]) '\n' hnl []]
  cases l <;> simp

end CGraph.Text
