import Ideep.SumArray
import Mathlib.Logic.Function.Iterate
import Mathlib.Tactic.Ring

namespace Ideep
namespace SumArray

/-!
# The loops of `sum_array`

Three kinds of loop recur in the kernels of `sum_array`, and each gets its run
lemma here once: the walk of the axis kernel, whose invariant (`WalkInv`) says
that after `k` rounds the first `k` elements of the workspace hold their sums;
the loops that read through pointers and so can fault (`foldlM_invariant`,
and `foldlM_of_ok` for those that cannot); and the read-modify-write loops
over distinct positions (`foldl_modify`).

The split of `m` items over `nthr` threads, used for the batch and for the
allreduce phases, gives consecutive shares that end at `m`, so every item lies
in some thread's share (`split_cover`) and summing over the shares sums over
the items (`sum_shares`).
-/

variable {β : Type} [AddCommMonoid β]

/-! ## The kernel sums along one axis -/

section Kernel

variable (D tail : Nat) (curSrc : Nat -> β)

/-- What the kernel is for: element `(f, t)` of the sum of a row-major
`fore × D × tail` block along its middle index. -/
def alongSum (f t : Nat) : β :=
  ((List.range D).map fun d => curSrc ((f * D + d) * tail + t)).sum

/-- The walk after `k` rounds: `w` is `k`, `off` is element `(k / tail, k %
tail)` of the first layer of the block, and the first `k` elements of the
workspace hold their sums. -/
structure WalkInv (k : Nat) (s : Walk β) : Prop where
  w_eq : s.w = k
  base_eq : s.base = k / tail * tail * D
  off_eq : s.off = s.base + k % tail
  ws_eq : ∀ j, s.ws j = if j < k then alongSum D tail curSrc (j / tail) (j % tail) else 0

theorem foldl_update_add (w : Nat) (g : Nat -> β) (ws : Nat -> β) :
    ∀ n, (List.range n).foldl (fun ws t => Function.update ws w (ws w + g t)) ws =
      Function.update ws w (ws w + ((List.range n).map g).sum)
  | 0 => by simp
  | n + 1 => by
      rw [List.range_succ, List.foldl_append, foldl_update_add w g ws n]
      simp [add_assoc]

theorem walkStep_eq (s : Walk β) :
    walkStep D tail curSrc s =
      ⟨s.w + 1, if (s.w + 1) % tail = 0 then s.base + tail * D else s.base,
        if (s.w + 1) % tail = 0 then s.base + tail * D else s.off + 1,
        Function.update s.ws s.w (s.ws s.w + ((List.range D).map fun t => curSrc (s.off + t * tail)).sum)⟩ := by
  unfold walkStep
  rw [foldl_update_add]
  split <;> rfl

/-- Step lemma: one round of the walk fills the next element of the
workspace with its sum and moves `off` to the element after it. -/
theorem walkStep_inv {k : Nat} {s : Walk β} (inv : WalkInv D tail curSrc k s) :
    WalkInv D tail curSrc (k + 1) (walkStep D tail curSrc s) := by
  obtain ⟨w_eq, base_eq, off_eq, ws_eq⟩ := inv
  have whole := Nat.div_add_mod k tail
  have whole' := Nat.div_add_mod (k + 1) tail
  rw [walkStep_eq, w_eq]
  refine ⟨rfl, ?_, ?_, fun j => ?_⟩ <;> dsimp only
  · split
    case isTrue wraps =>
      rw [base_eq, Nat.succ_div_of_dvd (Nat.dvd_of_mod_eq_zero wraps)]
      ring
    case isFalse inside =>
      rw [base_eq, Nat.succ_div_of_not_dvd (mt Nat.mod_eq_zero_of_dvd inside)]
  · split
    case isTrue wraps => rw [wraps, Nat.add_zero]
    case isFalse inside =>
      rw [Nat.succ_div_of_not_dvd (mt Nat.mod_eq_zero_of_dvd inside)] at whole'
      rw [off_eq]
      omega
  · by_cases same : j = k
    · subst same
      rw [Function.update_same, ws_eq, if_neg (Nat.lt_irrefl j), zero_add, if_pos (Nat.lt_succ_self j),
        alongSum, off_eq, base_eq]
      congr 1
      refine List.map_congr_left fun d _ => congrArg curSrc ?_
      ring
    · rw [Function.update_noteq same, ws_eq]
      split_ifs <;> first | rfl | omega

/-- Run lemma: `k` rounds from the zeroed workspace. -/
theorem iterate_walkStep_inv (k : Nat) :
    WalkInv D tail curSrc k ((walkStep D tail curSrc)^[k] ⟨0, 0, 0, fun _ => 0⟩) := by
  induction k with
  | zero => exact ⟨rfl, by simp, by simp, fun j => by simp⟩
  | succ k ih =>
      rw [Function.iterate_succ_apply']
      exact walkStep_inv D tail curSrc ih

end Kernel

/-- The kernel leaves at element `(f, t)` of its workspace the sum along
`cur_dims[ax]` of the elements of the image with those outer and inner
indices. -/
theorem kernel_apply {curDims : List Nat} {ax f t : Nat} (curSrc : Nat -> β)
    (outer : f < curFore curDims ax) (inner : t < curTail curDims ax) :
    kernel curDims ax curSrc (f * curTail curDims ax + t) =
      alongSum (curDims.getD ax 0) (curTail curDims ax) curSrc f t := by
  have tail_pos : 0 < curTail curDims ax := by omega
  have inside : f * curTail curDims ax + t < curFore curDims ax * curTail curDims ax :=
    calc f * curTail curDims ax + t < (f + 1) * curTail curDims ax := by rw [Nat.succ_mul]; omega
      _ ≤ curFore curDims ax * curTail curDims ax := Nat.mul_le_mul_right _ outer
  unfold kernel
  rw [(iterate_walkStep_inv _ _ curSrc _).ws_eq, if_pos inside, Nat.mul_comm,
    Nat.mul_add_div tail_pos, Nat.mul_add_mod, Nat.div_eq_of_lt inner, Nat.mod_eq_of_lt inner, Nat.add_zero]

/-! ## Loops that can fault -/

section Faults

variable {σ τ ι : Type}

/-- The result of a loop that stops only with the fault `e` and otherwise
ends in a state satisfying `P`. -/
def FaultsOr (e : Fault) (P : σ -> Prop) : Except Fault σ -> Prop
  | .error e' => e' = e
  | .ok s => P s

theorem FaultsOr.bind {e : Fault} {P : σ -> Prop} {Q : τ -> Prop} {x : Except Fault σ}
    {g : σ -> Except Fault τ} (first : FaultsOr e P x) (next : ∀ s, P s -> FaultsOr e Q (g s)) :
    FaultsOr e Q (x >>= g) := by
  cases x with
  | error e' => exact first
  | ok s => exact next s first

theorem FaultsOr.eq_error {e : Fault} {x : Except Fault σ} (faults : FaultsOr e (fun _ => False) x) :
    x = .error e := by
  cases x with
  | error e' => exact congrArg _ faults
  | ok s => exact faults.elim

/-- Run lemma: a loop each of whose steps keeps `FaultsOr e P` keeps it over
the whole run. -/
theorem foldlM_invariant {e : Fault} (P : σ -> Prop) {f : σ -> ι -> Except Fault σ}
    (step : ∀ s i, P s -> FaultsOr e P (f s i)) :
    ∀ (l : List ι) (s : σ), P s -> FaultsOr e P (l.foldlM f s)
  | [], _, holds => holds
  | i :: l, s, holds => by
      rw [List.foldlM_cons]
      exact (step s i holds).bind fun s' holds' => foldlM_invariant P step l s' holds'

/-- Run lemma for loops that cannot fault: a loop whose steps from states `e s`
succeed with `e (g s i)` runs as the pure loop of `g`. -/
theorem foldlM_of_ok {f : τ -> ι -> Except Fault τ} (e : σ -> τ) {g : σ -> ι -> σ} (l : List ι)
    (step : ∀ s, ∀ i ∈ l, f (e s) i = .ok (e (g s i))) (s : σ) :
    l.foldlM f (e s) = .ok (e (l.foldl g s)) := by
  induction l generalizing s with
  | nil => rfl
  | cons i l ih =>
      rw [List.foldlM_cons, step s i (List.mem_cons_self i l)]
      exact ih (fun s j member => step s j (List.mem_cons_of_mem i member)) _

theorem foldlM_pure {f : σ -> ι -> Except Fault σ} {g : σ -> ι -> σ} (l : List ι)
    (step : ∀ s, ∀ i ∈ l, f s i = .ok (g s i)) (s : σ) : l.foldlM f s = .ok (l.foldl g s) :=
  foldlM_of_ok id l step s

/-- The read-modify-write loops: over distinct positions `π k`, each position
of the loop is modified once. -/
theorem foldl_modify {α : Type} (φ : Nat -> α -> α) (π : Nat -> Nat) :
    ∀ (l : List Nat), (l.map π).Nodup -> ∀ f : Nat -> α,
      l.foldl (fun f k => Function.update f (π k) (φ (π k) (f (π k)))) f =
        fun c => if c ∈ l.map π then φ c (f c) else f c
  | [], _, f => by simp
  | k :: l, distinct, f => by
      obtain ⟨fresh, distinct⟩ := List.nodup_cons.mp distinct
      rw [List.foldl_cons, foldl_modify φ π l distinct]
      funext c
      by_cases same : c = π k
      · subst same
        simp [fresh]
      · by_cases later : c ∈ l.map π <;> simp [later, same, Function.update_noteq same]

/-- The positions `start + k`, `k < len`, of a share. -/
@[simp] theorem mem_shift_range {start len c : Nat} :
    c ∈ (List.range len).map (start + ·) ↔ start ≤ c ∧ c < start + len := by
  rw [List.range_eq_range', List.map_add_range', Nat.add_zero, List.mem_range'_1]

end Faults

/-! ## The split over threads, first thread -/

theorem splitThreads_pos {m nthr : Nat} (items : 1 ≤ m) (threads : 1 ≤ nthr) :
    1 ≤ splitThreads m nthr := by
  unfold splitThreads
  split <;> omega

theorem splitLength_first_pos {m : Nat} (items : 1 ≤ m) (nthr : Nat) :
    1 ≤ splitLength m nthr 0 := by
  unfold splitLength
  split
  · exact Nat.le_add_left 1 _
  · have whole := Nat.div_add_mod m nthr
    rcases Nat.eq_zero_or_pos (m / nthr) with none | some
    · rw [none, Nat.mul_zero] at whole
      omega
    · exact some

theorem splitStart_zero (m nthr : Nat) : splitStart m nthr 0 = 0 := by
  simp [splitStart]

/-- The threads' shares are consecutive: each starts where the one before it
ends. -/
theorem splitStart_succ (m nthr i : Nat) :
    splitStart m nthr (i + 1) = splitStart m nthr i + splitLength m nthr i := by
  unfold splitStart splitLength
  generalize m / nthr = q
  generalize m % nthr = r
  rcases Nat.lt_trichotomy i r with before | rfl | after
  · rw [if_pos (by omega : i + 1 ≤ r), if_pos before.le, if_pos before]
    ring
  · rw [if_neg (by omega : ¬ i + 1 ≤ i), if_pos (Nat.le_refl i), if_neg (Nat.lt_irrefl i),
      Nat.add_sub_cancel_left, Nat.one_mul]
    ring
  · rw [if_neg (by omega : ¬ i + 1 ≤ r), if_neg (by omega : ¬ i ≤ r), if_neg (by omega : ¬ i < r),
      show i + 1 - r = i - r + 1 by omega, Nat.succ_mul]
    ring

/-- The last share ends at `m`. -/
theorem splitStart_splitThreads {m nthr : Nat} (threads : 1 ≤ nthr) :
    splitStart m nthr (splitThreads m nthr) = m := by
  have whole := Nat.div_add_mod m nthr
  have below := Nat.mod_lt m threads
  unfold splitThreads splitStart
  split
  case isTrue none =>
    rw [none, Nat.mul_zero, Nat.zero_add] at whole
    rw [none, if_pos whole.ge, Nat.zero_add, Nat.one_mul]
  case isFalse some =>
    rw [if_neg (by omega)]
    generalize m / nthr = q at whole
    generalize m % nthr = r at whole below
    obtain ⟨s, rfl⟩ : ∃ s, nthr = r + s := ⟨nthr - r, by omega⟩
    rw [Nat.add_sub_cancel_left, ← whole]
    ring

/-- Every item before the start of share `k` lies in an earlier share. -/
theorem split_cover (m nthr : Nat) {b : Nat} :
    ∀ k, b < splitStart m nthr k ->
      ∃ i < k, splitStart m nthr i ≤ b ∧ b < splitStart m nthr i + splitLength m nthr i
  | 0, below => absurd below (by rw [splitStart_zero]; exact Nat.not_lt_zero b)
  | k + 1, below => by
      by_cases earlier : b < splitStart m nthr k
      · obtain ⟨i, lt, first, last⟩ := split_cover m nthr k earlier
        exact ⟨i, by omega, first, last⟩
      · rw [splitStart_succ] at below
        exact ⟨k, by omega, by omega, below⟩

/-- Every thread of the split gets a non-empty share. -/
theorem splitLength_pos {m nthr i : Nat} (share : i < splitThreads m nthr) : 1 ≤ splitLength m nthr i := by
  have whole := Nat.div_add_mod m nthr
  unfold splitThreads at share
  unfold splitLength
  by_cases early : i < m % nthr
  · rw [if_pos early]
    exact Nat.le_add_left 1 _
  · rw [if_neg early]
    by_cases none : m / nthr = 0
    · rw [if_pos none] at share
      rw [none, Nat.mul_zero, Nat.zero_add] at whole
      omega
    · exact Nat.pos_of_ne_zero none

/-- Summing over the threads' shares sums over the items they cover. -/
theorem sum_shares (m nthr : Nat) (F : Nat -> β) : ∀ k,
    ((List.range k).map fun i =>
      ((List.range (splitLength m nthr i)).map fun j => F (splitStart m nthr i + j)).sum).sum =
        ((List.range (splitStart m nthr k)).map F).sum
  | 0 => by simp [splitStart_zero]
  | k + 1 => by
      rw [List.range_succ, List.map_append, List.sum_append, sum_shares m nthr F k, splitStart_succ,
        List.range_add, List.map_append, List.sum_append, List.map_map]
      simp [Function.comp_def]

/-! ## The split is a partition -/

/-- Shares start in thread order. -/
theorem splitStart_mono (m nthr : Nat) {i j : Nat} (order : i ≤ j) : splitStart m nthr i ≤ splitStart m nthr j := by
  induction order with
  | refl => exact Nat.le_refl _
  | step _ earlier => rw [splitStart_succ]; omega

/-- An item of share `i` lies before every later share. -/
theorem lt_splitStart_of_share (m nthr : Nat) {i j b : Nat} (order : i < j)
    (last : b < splitStart m nthr i + splitLength m nthr i) : b < splitStart m nthr j := by
  rw [← splitStart_succ] at last
  exact Nat.lt_of_lt_of_le last (splitStart_mono m nthr order)

/-- What the split of `m` items over `nthr` threads is meant to be: its
`splitThreads m nthr` shares are non-empty, the first starts at `0`, each
starts where the one before it ends, no item is in two of them, and together
they hold exactly the items below `m`. -/
structure SplitPartition (m nthr : Nat) : Prop where
  nonempty : ∀ i < splitThreads m nthr, 1 ≤ splitLength m nthr i
  first : splitStart m nthr 0 = 0
  consecutive : ∀ i, splitStart m nthr (i + 1) = splitStart m nthr i + splitLength m nthr i
  disjoint : ∀ i j b, i < splitThreads m nthr -> j < splitThreads m nthr ->
    splitStart m nthr i ≤ b -> b < splitStart m nthr i + splitLength m nthr i ->
    splitStart m nthr j ≤ b -> b < splitStart m nthr j + splitLength m nthr j -> i = j
  union : ∀ b, b < m ↔
    ∃ i < splitThreads m nthr, splitStart m nthr i ≤ b ∧ b < splitStart m nthr i + splitLength m nthr i

theorem split_partition (m : Nat) {nthr : Nat} (threads : 1 ≤ nthr) : SplitPartition m nthr where
  nonempty _ share := splitLength_pos share
  first := splitStart_zero m nthr
  consecutive := splitStart_succ m nthr
  disjoint i j b _ _ firstI lastI firstJ lastJ := by
    rcases Nat.lt_trichotomy i j with before | same | after
    · exact absurd (lt_splitStart_of_share m nthr before lastI) (Nat.not_lt.mpr firstJ)
    · exact same
    · exact absurd (lt_splitStart_of_share m nthr after lastJ) (Nat.not_lt.mpr firstI)
  union b := by
    constructor
    · intro below
      exact split_cover m nthr _ (by rwa [splitStart_splitThreads threads])
    · rintro ⟨i, share, -, last⟩
      have ends := lt_splitStart_of_share m nthr share last
      rwa [splitStart_splitThreads threads] at ends

theorem split_partition_seven_over_three : 1 ≤ 3 ∧ SplitPartition 7 3 :=
  ⟨by decide, split_partition 7 (by decide)⟩

end SumArray
end Ideep
