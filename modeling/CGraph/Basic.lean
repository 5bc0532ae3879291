import Mathlib

/-!
# Constants, machine integers and edge records of libcgraph

The numbers of `constants.h` and `cgraph.h` that the reader, the writer and the command
line share, and the conversions C performs between `int64_t` (the type of `CGraphNode`,
`CGraphEdgeLabel` and `CGraphRank`) and `size_t`. Integers are Lean integers; where the
code converts or overflows, the conversion is written out (two's complement wrap-around
for `int64_t`, reduction modulo `2^64` for `size_t`).
-/
namespace CGraph

/-- `LIMIT_MAX_RANK`: no edge of a grammar or of an index function has a larger rank. -/
def limitMaxRank : Nat := 16348

/-- `DEFAULT_MAX_RANK`. -/
def defaultMaxRank : Int := 256

/-- `DEFAULT_FACTOR`. -/
def defaultFactor : Int := 64

/-- `CGRAPH_NODES_ALL`: the wildcard `(CGraphNode) -1` of a query pattern. -/
def cgraphNodesAll : Int := -1

/-- The conversion of an integer to `int64_t`, modulo `2^64` as on two's-complement targets.
An arithmetic overflow of `int64_t` is undefined in C instead; no theorem rests on one. -/
def toInt64 (x : Int) : Int := (x + 2 ^ 63) % 2 ^ 64 - 2 ^ 63

/-- The `size_t` (`uint64_t`) C converts an integer to. -/
def toUInt64 (x : Int) : Nat := (x % 2 ^ 64).toNat

theorem toInt64_of_lt {x : Int} (h₀ : -2 ^ 63 ≤ x) (h₁ : x < 2 ^ 63) : toInt64 x = x := by
  unfold toInt64
  rw [Int.emod_eq_of_lt (by omega) (by omega)]
  omega

theorem toUInt64_of_lt {x : Int} (h₀ : 0 ≤ x) (h₁ : x < 2 ^ 64) : toUInt64 x = x.toNat := by
  rw [toUInt64, Int.emod_eq_of_lt h₀ h₁]

theorem toUInt64_natCast {n : Nat} (h : n < 2 ^ 64) : toUInt64 n = n := by
  rw [toUInt64_of_lt (Int.ofNat_nonneg n) (by omega), Int.toNat_ofNat]

/-- The reduction takes `2^63` to `INT64_MIN`. -/
example : toInt64 (2 ^ 63 - 1 + 1) = -2 ^ 63 := by decide

/-- Query modes of the reader: `CGRAPH_EXACT_QUERY`, `CGRAPH_CONTAINS_QUERY` and
`CGRAPH_DECOMPRESS_QUERY`. Every other value takes the decompressing branch of the
`switch` statements, so it is not a mode of its own. -/
inductive QueryType where
  | exact
  | contains
  | decompress
  deriving DecidableEq, Repr

/-- `CGraphEdge`: an edge as the library hands it to a caller. -/
structure CGraphEdge where
  rank : Int
  label : Int
  nodes : List Int
  deriving DecidableEq, Repr

/-- How a run of C code ends: with a value, at `exit(1)`, in undefined behaviour, or out of
fuel. -/
inductive Outcome (α : Type) where
  | done (a : α)
  | exit
  | undefined
  | outOfFuel
  deriving DecidableEq, Repr

/-- The value of a run, changed by `f`. -/
def Outcome.map {α β : Type} (f : α → β) : Outcome α → Outcome β
  | .done a => .done (f a)
  | .exit => .exit
  | .undefined => .undefined
  | .outOfFuel => .outOfFuel

/-- A run that goes on as `f` from its value. -/
def Outcome.bind {α β : Type} : Outcome α → (α → Outcome β) → Outcome β
  | .done a, f => f a
  | .exit, _ => .exit
  | .undefined, _ => .undefined
  | .outOfFuel, _ => .outOfFuel

@[simp] theorem Outcome.map_map {α β γ : Type} (f : α → β) (h : β → γ) (o : Outcome α) :
    (o.map f).map h = o.map (h ∘ f) := by
  cases o <;> rfl

@[simp] theorem Outcome.done_bind {α β : Type} (a : α) (f : α → Outcome β) :
    (Outcome.done a).bind f = f a := rfl

@[simp] theorem Outcome.undefined_bind {α β : Type} (f : α → Outcome β) :
    (Outcome.undefined : Outcome α).bind f = .undefined := rfl

end CGraph
