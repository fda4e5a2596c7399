import TsStack.Lib.MixedBlocks
import TsStack.Lib.SwapPool
import Mathlib.Algebra.Order.Ring.Nat

/-
  Which source blocks a part of an air-gap stream mixes.
-/

-- Random Draws

open List

namespace TsStack.AirGap

abbrev Bytes :=
  List UInt8

/- The state of xorshift32, which is never zero. -/
def makeRng (seed : UInt32) : UInt32 :=
  if seed = 0 then 0x6d2b79f5 else seed

def nextRng (state : UInt32) : UInt32 :=
  let x := state ^^^ (state <<< 13)
  let x := x ^^^ (x >>> 17)
  x ^^^ (x <<< 5)

def draw23 (state : UInt32) : Nat × UInt32 :=
  let next := nextRng state
  ((next >>> 9).toNat, next)

theorem draw23_lt (state : UInt32) : (draw23 state).1 < 2 ^ 23 := by
  have hBound := (nextRng state).toNat_lt
  unfold draw23
  simp only [UInt32.toNat_shiftRight, Nat.shiftRight_eq_div_pow]
  have hNine : (9 : UInt32).toNat % 32 = 9 := by decide
  rw [hNine]
  omega

-- Blocks of a Part

open SwapPool

def partDegree (r k : Nat) : Nat :=
  let degree := (2 ^ 23 + r) / (r + 1)
  if k < degree then 1 else degree

/- The place that a draw swaps with place `i`. -/
def swapPlace (r k i : Nat) : Nat :=
  i + r * (k - i) / 2 ^ 23

/- The swaps of the shuffle from place `i` on. -/
def swapPlaces (k : Nat) :
  Nat → Nat → UInt32 → List (Nat × Nat)
| 0, _, _ => []
| count + 1, i, rng =>
  let (r, rng) := draw23 rng
  (i, swapPlace r k i) :: swapPlaces k count (i + 1) rng

def shuffleSparse (k : Nat) :
  Nat → Nat → UInt32 → Sparse → Sparse
| 0, _, _, pool => pool
| count + 1, i, rng, pool =>
  let (r, rng) := draw23 rng
  shuffleSparse k count (i + 1) rng (pool.swap i (swapPlace r k i))

def shuffleFull (k : Nat) :
  Nat → Nat → UInt32 → List Nat → List Nat
| 0, _, _, pool => pool
| count + 1, i, rng, pool =>
  let (r, rng) := draw23 rng
  shuffleFull k count (i + 1) rng (swapItems pool i (swapPlace r k i))

def partSeed (seq : Nat) : UInt32 :=
  UInt32.ofNat seq * 0x9e3779b1

/-
  The indices of part `seq` of `k` blocks, none above a maximum degree.  Every place below the
  degree was written by a swap.
-/
def blocksForPart (seq k maximumDegree : Nat) : List Nat :=
  let (r, rng) := draw23 (makeRng (partSeed seq))
  let degree := partDegree r k
  if maximumDegree < degree then []
  else (List.range degree).map (shuffleSparse k degree 0 rng Sparse.empty).get

def fullBlocksForPart (seq k : Nat) : List Nat :=
  let (r, rng) := draw23 (makeRng (partSeed seq))
  let degree := partDegree r k
  (shuffleFull k degree 0 rng (List.range k)).take degree

theorem partDegree_le {r k : Nat} (hBlocks : 1 ≤ k) : partDegree r k ≤ k := by
  unfold partDegree
  simp only
  split
  · exact hBlocks
  · omega

theorem swapPlace_lt {r k i : Nat} (hR : r < 2 ^ 23) (hI : i < k) : swapPlace r k i < k := by
  have hMul : r * (k - i) < 2 ^ 23 * (k - i) := Nat.mul_lt_mul_of_pos_right hR (by omega)
  have hDiv : r * (k - i) / 2 ^ 23 < k - i := Nat.div_lt_of_lt_mul hMul
  unfold swapPlace
  omega

theorem shuffleSparse_eq (k count i : Nat) (rng : UInt32) (pool : Sparse) :
  shuffleSparse k count i rng pool = pool.swaps (swapPlaces k count i rng) := by
  induction count generalizing i rng pool with
  | zero => rfl
  | succ count ih =>
    rw [shuffleSparse, swapPlaces]
    exact ih _ _ _

theorem shuffleFull_eq (k count i : Nat) (rng : UInt32) (pool : List Nat) :
  shuffleFull k count i rng pool = swaps (swapPlaces k count i rng) pool := by
  induction count generalizing i rng pool with
  | zero => rfl
  | succ count ih =>
    rw [shuffleFull, swapPlaces]
    exact ih _ _ _

theorem swapPlaces_lt {k count i : Nat} (hCount : i + count ≤ k) {rng : UInt32} {place : Nat × Nat}
  (hPlace : place ∈ swapPlaces k count i rng) : place.1 < k ∧ place.2 < k := by
  induction count generalizing i rng with
  | zero => cases hPlace
  | succ count ih =>
    rw [swapPlaces] at hPlace
    rcases mem_cons.mp hPlace with hEq | hTail
    · rw [hEq]
      have hI : i < k := by omega
      exact ⟨hI, swapPlace_lt (draw23_lt rng) hI⟩
    · exact ih (by omega) hTail

variable {seq k : Nat}

def degreeForPart (seq k : Nat) : Nat :=
  partDegree (draw23 (makeRng (partSeed seq))).1 k

theorem degreeForPart_le (seq : Nat) (hBlocks : 1 ≤ k) : degreeForPart seq k ≤ k :=
  partDegree_le hBlocks

/- The sparse shuffle picks what the whole one does. -/
theorem blocksForPart_eq_full
  (hBlocks : 1 ≤ k) {maximumDegree : Nat} (hDegree : degreeForPart seq k ≤ maximumDegree) :
  blocksForPart seq k maximumDegree = fullBlocksForPart seq k := by
  have hLe := degreeForPart_le seq hBlocks
  have hPlaces : ∀ place ∈ swapPlaces k (degreeForPart seq k) 0 (draw23 (makeRng (partSeed seq))).2,
        place.1 < (range k).length ∧ place.2 < (range k).length := by
    intro place hPlace
    rw [length_range]
    exact swapPlaces_lt (by omega) hPlace
  unfold blocksForPart fullBlocksForPart
  unfold degreeForPart at hDegree hLe hPlaces
  simp only
  rw [if_neg (by omega), shuffleSparse_eq, shuffleFull_eq]
  apply map_get_eq_take
  · exact (represents_range k).swaps hPlaces
  · rw [length_swaps, length_range]
    exact hLe

theorem blocksForPart_eq_nil {maximumDegree : Nat} (hDegree : maximumDegree < degreeForPart seq k) :
  blocksForPart seq k maximumDegree = [] := by
  unfold blocksForPart
  unfold degreeForPart at hDegree
  simp only
  rw [if_pos hDegree]

theorem fullBlocksForPart_perm (seq : Nat) (hBlocks : 1 ≤ k) :
  ∃ pool : List Nat, pool.Perm (range k) ∧
      fullBlocksForPart seq k = pool.take (degreeForPart seq k) := by
  have hLe := degreeForPart_le seq hBlocks
  refine ⟨_, ?_, rfl⟩
  have hSum : 0 + degreeForPart seq k ≤ k := by omega
  rw [shuffleFull_eq]
  apply swaps_perm
  intro place hPlace
  rw [length_range]
  unfold degreeForPart at hSum
  exact swapPlaces_lt hSum hPlace

theorem fullBlocksForPart_nodup (hBlocks : 1 ≤ k) : (fullBlocksForPart seq k).Nodup := by
  rcases fullBlocksForPart_perm seq hBlocks with ⟨pool, hPerm, hEq⟩
  rw [hEq]
  have hPool : pool.Nodup := hPerm.nodup_iff.mpr nodup_range
  exact hPool.sublist (take_sublist _ pool)

theorem fullBlocksForPart_lt
  (hBlocks : 1 ≤ k) {index : Nat} (hIdx : index ∈ fullBlocksForPart seq k) : index < k := by
  rcases fullBlocksForPart_perm seq hBlocks with ⟨pool, hPerm, hEq⟩
  rw [hEq] at hIdx
  exact mem_range.mp (hPerm.mem_iff.mp (mem_of_mem_take hIdx))

-- Mixing Blocks

/- The bytes of `source` mixed into those of `target`. -/
def xorInto : Bytes → Bytes → Bytes
| [], _ => []
| target, [] => target
| byte :: target, other :: source => (byte ^^^ other) :: xorInto target source

@[simp] theorem length_xorInto (target source : Bytes) :
  (xorInto target source).length = target.length := by
  fun_induction xorInto target source with
  | case1 => rfl
  | case2 => rfl
  | case3 byte target other source ih => rw [length_cons, length_cons, ih]

theorem xorInto_nil (target : Bytes) : xorInto target [] = target := by
  cases target with
  | nil => rfl
  | cons byte target => rfl

/- Blocks may be mixed in any order and taken out again. -/
theorem xorInto_laws : MixLaws xorInto := by
  constructor
  case right_comm =>
    intro value
    induction value with
    | nil =>
      intro left right
      rfl
    | cons byte value ih =>
      intro left right
      cases left with
      | nil => rw [xorInto_nil, xorInto_nil]
      | cons first left =>
        cases right with
        | nil => rw [xorInto_nil, xorInto_nil]
        | cons second right =>
          simp only [xorInto]
          rw [ih, UInt8.xor_assoc, UInt8.xor_assoc, UInt8.xor_comm first]
  case cancel =>
    intro value
    induction value with
    | nil =>
      intro block
      rfl
    | cons byte value ih =>
      intro block
      cases block with
      | nil => rw [xorInto_nil, xorInto_nil]
      | cons other block =>
        simp only [xorInto]
        rw [ih, UInt8.xor_assoc, UInt8.xor_self, UInt8.xor_zero]

theorem xorInto_zeros (block : Bytes) : xorInto (replicate block.length 0) block = block := by
  induction block with
  | nil => rfl
  | cons byte block ih => rw [length_cons, replicate_succ, xorInto, ih, UInt8.zero_xor]

theorem length_mixed (block : Nat → Bytes) (indices : List Nat) (start : Bytes) :
  (mixed xorInto block indices start).length =
    start.length := by
  induction indices generalizing start with
  | nil => rfl
  | cons index indices ih => rw [mixed_cons, ih, length_xorInto]

end TsStack.AirGap
