import Ideep.Buffer
import Ideep.Descriptor
import Mathlib.Algebra.BigOperators.Group.Finset
import Mathlib.Algebra.Order.Group.MinMax
import Mathlib.Tactic.Positivity

namespace Ideep
namespace Dropout

/-!
# The Bernoulli draws of dropout

`dropout_forward::bernoulli_generate(n, p, r)` fills `r[0, n)` with Bernoulli
draws, split over `nthr` threads: thread `ithr` takes `avg_amount =
ceil(n / nthr)` elements from `my_offset = ithr * avg_amount`, cut at `n`, and
draws them from its own stream of the same seed, skipped ahead by `my_offset`.
`do_compute` then stores `mask[i] = r[i] * scale` and `dst[i] = mask[i] *
src[i]` for every `i` below the tensor's size.

The streams are MKL VSL's, outside this source, and are modelled by their
contract: a stream is the sequence of uniforms its generator gives for its
seed, `vslSkipAheadStream` drops that many of them, and `viRngBernoulli` with
the ICDF method turns each uniform into one draw (`draw`, for the call's `p`).
The seed is the value `17 + rand() % 4096` the call picks.  The region runs
with the `nthr` threads it asks for, one after another, as everywhere in this
model.

The chunks of the threads store every element below `n` once
(`storesOnce_bernoulliWrites`), and each thread draws the uniforms at its
elements' own positions in the sequence, so `r` is the first `n` draws of one
stream whatever the number of threads (`bernoulliGenerate_eq`).

The entry points `dropout_forward::compute` and `dropout_backward::compute`
refuse the one type their switch has no case for, reinitialize their outputs
to the descriptor of `src` (of `gy`), and run `do_compute`.  The backward
loop stores `gx[i] = mask[i] * gy[i]` over the elements of `mask`; on the
mask the forward pass drew, it is the forward pass's adjoint.
-/

/-- A VSL stream: the uniforms it still has to give, in order. -/
structure Stream (U : Type) where
  uniforms : Nat -> U

variable {U : Type}

/-- `vslNewStream(&stream, VSL_BRNG_MCG31, seed)`. -/
def vslNewStream (generator : Int -> Nat -> U) (seed : Int) : Stream U := ⟨generator seed⟩

/-- `vslSkipAheadStream(stream, nskip)`. -/
def vslSkipAheadStream (stream : Stream U) (nskip : Nat) : Stream U := ⟨fun k => stream.uniforms (nskip + k)⟩

/-- `viRngBernoulli(VSL_RNG_METHOD_BERNOULLI_ICDF, stream, n, r + offset, p)`:
the `n` stores from `r + offset`, the `k`-th of them the draw of the stream's
`k`-th uniform. -/
def viRngBernoulli (draw : U -> Int) (stream : Stream U) (n offset : Nat) : Write Nat (Option Int) :=
  ⟨fun i => decide (offset ≤ i ∧ i < offset + n), fun i => some (draw (stream.uniforms (i - offset)))⟩

/-- `avg_amount = (n + nthr - 1) / nthr`, in `long`. -/
def avgAmount (n : Int) (nthr : Nat) : Int := (n + nthr - 1).tdiv nthr

/-- `my_offset = ithr * avg_amount`. -/
def myOffset (n : Int) (nthr ithr : Nat) : Int := ithr * avgAmount n nthr

/-- `my_amount = std::min(my_offset + avg_amount, n) - my_offset`. -/
def myAmount (n : Int) (nthr ithr : Nat) : Int := min (myOffset n nthr ithr + avgAmount n nthr) n - myOffset n nthr ithr

/-- The stores of thread `ithr`: its chunk, when it is not empty, drawn from a
new stream of `seed` skipped ahead by `my_offset`. -/
def generateThread (generator : Int -> Nat -> U) (draw : U -> Int) (seed n : Int) (nthr ithr : Nat) :
    List (Write Nat (Option Int)) :=
  if myAmount n nthr ithr > 0 then
    [viRngBernoulli draw (vslSkipAheadStream (vslNewStream generator seed) (myOffset n nthr ithr).toNat)
      (myAmount n nthr ithr).toNat (myOffset n nthr ithr).toNat]
  else []

/-- The stores of all the threads of `bernoulli_generate`. -/
def bernoulliWrites (generator : Int -> Nat -> U) (draw : U -> Int) (seed n : Int) (nthr : Nat) :
    List (Write Nat (Option Int)) :=
  (List.range nthr).flatMap (generateThread generator draw seed n nthr)

/-- `bernoulli_generate(n, p, r)`, with the seed it picks and `nthr =
omp_get_max_threads()`. -/
def bernoulliGenerate (generator : Int -> Nat -> U) (draw : U -> Int) (seed : Int) (nthr : Nat) (n : Int)
    (r : Nat -> Option Int) : Nat -> Option Int :=
  runWrites (bernoulliWrites generator draw seed n nthr) r

section Compute

variable {β : Type} [Ring β]

/-- Iteration `i` of the loop of `do_compute` on `mask`: `mask[i] =
bernouli_nums[i] * scale`. -/
def maskStore (nums : Nat -> Option Int) (scale : β) (i : Nat) : Write Nat (Option β) :=
  Write.single i ((nums i).map fun b => (b : β) * scale)

/-- Iteration `i` on `dst`: `dst[i] = mask[i] * src[i]`, reading the `mask[i]`
the same iteration stored. -/
def dstStore (nums : Nat -> Option Int) (scale : β) (src : Nat -> β) (i : Nat) : Write Nat (Option β) :=
  Write.single i ((nums i).map fun b => (b : β) * scale * src i)

/-- `do_compute(src, dst, mask)` on a source of `size` elements, with `scale =
1 / (1 - ratio)`: the new `mask` and `dst`. -/
def doCompute (generator : Int -> Nat -> U) (draw : U -> Int) (seed : Int) (nthr : Nat) (scale : β)
    (src : Nat -> β) (size : Nat) (mask dst : Nat -> Option β) : (Nat -> Option β) × (Nat -> Option β) :=
  let nums := bernoulliGenerate generator draw seed nthr size fun _ => none
  (runWrites ((List.range size).map (maskStore nums scale)) mask,
    runWrites ((List.range size).map (dstStore nums scale src)) dst)

/-- `get_nelems()`: the elements of a tensor of this descriptor. -/
def nelems (desc : Descriptor) : Nat := desc.dims.prod

/-- `dropout_forward::compute(src, ratio, dst, mask)`, with `scale = 1.0 /
(1.0 - ratio)`: `dst` and `mask`, both reinitialized to the descriptor of
`src`, filled by `do_compute` for the types it is instantiated at. -/
def DropoutForward.compute (generator : Int -> Nat -> U) (draw : U -> Int) (seed : Int) (nthr : Nat)
    (scale : β) (src : Tensor β) : Except Fault (Tensor (Option β) × Tensor (Option β)) :=
  if src.desc.dataType = .undef then .error (.runtime "Unsupported mkldnn data type!")
  else
    let computed := doCompute generator draw seed nthr scale src.data (nelems src.desc)
      (fun _ => none) fun _ => none
    .ok (⟨src.desc, computed.2⟩, ⟨src.desc, computed.1⟩)

/-- Iteration `i` of the loop of `dropout_backward::do_compute`: `gx[i] =
mask[i] * gy[i]`. -/
def gxStore (mask : Nat -> Option β) (gy : Nat -> β) (i : Nat) : Write Nat (Option β) :=
  Write.single i ((mask i).map (· * gy i))

/-- `dropout_backward::do_compute(mask, gy, gx)`, over the elements of
`mask`. -/
def DropoutBackward.doCompute (mask : Tensor (Option β)) (gy : Tensor β) (gx : Nat -> Option β) :
    Nat -> Option β :=
  runWrites ((List.range (nelems mask.desc)).map (gxStore mask.data gy.data)) gx

/-- `dropout_backward::compute(mask, gy, gx)`: `gx`, reinitialized to the
descriptor of `gy`, filled by `do_compute` for the types it is instantiated
at. -/
def DropoutBackward.compute (mask : Tensor (Option β)) (gy : Tensor β) : Except Fault (Tensor (Option β)) :=
  if gy.desc.dataType = .undef then .error (.runtime "Unsupported mkldnn data type!")
  else .ok ⟨gy.desc, DropoutBackward.doCompute mask gy fun _ => none⟩

end Compute

/-! ## The chunks of the threads

With `n ≥ 0` and `a = ceil(n / nthr)`, thread `ithr` stores the positions `p <
n` with `p / a = ithr`, and `p / a < nthr` for every such `p`, since `nthr * a
≥ n`.
-/

section Chunks

variable (generator : Int -> Nat -> U) (draw : U -> Int) (seed : Int)

theorem avgAmount_of_nat (n : Nat) {nthr : Nat} (threads : 1 ≤ nthr) :
    avgAmount n nthr = ((n + nthr - 1) / nthr : Nat) := by
  have lifted : (n : Int) + nthr - 1 = ((n + nthr - 1 : Nat) : Int) := by omega
  rw [avgAmount, lifted]
  rfl

theorem div_eq_iff_band {p a i : Nat} (positive : 0 < a) : p / a = i ↔ i * a ≤ p ∧ p < i * a + a := by
  constructor
  · rintro rfl
    exact ⟨Nat.div_mul_le_self p a, Nat.lt_div_mul_add positive⟩
  · rintro ⟨low, high⟩
    exact Nat.div_eq_of_lt_le low (by rw [Nat.succ_mul]; exact high)

theorem avgAmount_covers (n : Nat) {nthr : Nat} (threads : 1 ≤ nthr) :
    n ≤ nthr * ((n + nthr - 1) / nthr) := by
  have split := Nat.div_add_mod (n + nthr - 1) nthr
  have rest := Nat.mod_lt (n + nthr - 1) (by omega : nthr > 0)
  omega

/-- Thread `ithr` stores `p` once if `p < n` and `p / a = ithr`, and not
otherwise. -/
theorem generateThread_filter_length (n : Nat) {nthr : Nat} (threads : 1 ≤ nthr) (ithr p : Nat) :
    ((generateThread generator draw seed n nthr ithr).filter fun write => write.covers p).length =
      if p < n ∧ p / ((n + nthr - 1) / nthr) = ithr then 1 else 0 := by
  have empty : (n + nthr - 1) / nthr = 0 -> n = 0 := fun zero => by
    rw [Nat.div_eq_zero_iff (by omega)] at zero; omega
  simp only [generateThread, myAmount, myOffset, avgAmount_of_nat n threads]
  generalize (n + nthr - 1) / nthr = a at empty ⊢
  rcases Nat.eq_zero_or_pos a with zero | positive
  · subst zero; simp [empty rfl]
  · simp only [div_eq_iff_band positive]
    have start : 0 ≤ (ithr : Int) * a := by positivity
    split
    · simp only [List.filter_cons, List.filter_nil, viRngBernoulli, decide_eq_true_eq]
      split_ifs <;> simp <;> omega
    · simp only [List.filter_nil, List.length_nil]
      split_ifs <;> omega

/-- The first `m` threads store `p` once if `p < n` and its owner `p / a` is
one of them. -/
theorem threads_filter_length (n : Nat) {nthr : Nat} (threads : 1 ≤ nthr) (p m : Nat) :
    (((List.range m).flatMap (generateThread generator draw seed n nthr)).filter
        fun write => write.covers p).length =
      if p < n ∧ p / ((n + nthr - 1) / nthr) < m then 1 else 0 := by
  induction m with
  | zero => simp
  | succ m ih =>
      rw [List.range_succ, List.flatMap_append, List.filter_append, List.length_append, ih,
        List.flatMap_singleton, generateThread_filter_length generator draw seed n threads]
      split_ifs <;> omega

theorem storesOnce_bernoulliWrites (n : Nat) {nthr : Nat} (threads : 1 ≤ nthr) :
    StoresOnce (bernoulliWrites generator draw seed n nthr) n := by
  intro p
  rw [bernoulliWrites, threads_filter_length generator draw seed n threads]
  by_cases inside : p < n
  · have positive : 0 < (n + nthr - 1) / nthr := Nat.div_pos (by omega) (by omega)
    have owner : p / ((n + nthr - 1) / nthr) < nthr :=
      (Nat.div_lt_iff_lt_mul positive).mpr (Nat.lt_of_lt_of_le inside (avgAmount_covers n threads))
    rw [if_pos ⟨inside, owner⟩, if_pos inside]
  · rw [if_neg fun both => inside both.1, if_neg inside]

/-- A stream skipped ahead by the offset it stores from draws, at every
position, the uniform of that position. -/
theorem skipAhead_value (m offset p : Nat)
    (covered : (viRngBernoulli draw (vslSkipAheadStream (vslNewStream generator seed) offset) m offset).covers p) :
    (viRngBernoulli draw (vslSkipAheadStream (vslNewStream generator seed) offset) m offset).value p =
      some (draw (generator seed p)) := by
  simp only [viRngBernoulli, decide_eq_true_eq] at covered
  simp only [viRngBernoulli, vslSkipAheadStream, vslNewStream, Nat.add_sub_cancel' covered.1]

theorem bernoulliWrites_value (n : Int) (nthr : Nat) (write : Write Nat (Option Int))
    (member : write ∈ bernoulliWrites generator draw seed n nthr) (p : Nat) (covered : write.covers p = true) :
    write.value p = some (draw (generator seed p)) := by
  obtain ⟨ithr, -, chunk⟩ := List.mem_flatMap.mp member
  unfold generateThread at chunk
  split at chunk
  · rw [List.mem_singleton.mp chunk] at covered ⊢
    exact skipAhead_value generator draw seed _ _ p covered
  · simp at chunk

/-- `bernoulli_generate` leaves the draws of the seed's uniforms `0, ..., n -
1` in `r[0, n)`, and `r` as it was from `n` on. -/
theorem bernoulliGenerate_eq (n : Nat) {nthr : Nat} (threads : 1 ≤ nthr) (r : Nat -> Option Int) :
    bernoulliGenerate generator draw seed nthr n r =
      fun p => if p < n then some (draw (generator seed p)) else r p :=
  runWrites_of_storesOnce (storesOnce_bernoulliWrites generator draw seed n threads) _
    (bernoulliWrites_value generator draw seed n nthr) r

/-- One call of `viRngBernoulli` from the start of `r`. -/
theorem runWrites_viRngBernoulli (stream : Stream U) (n : Nat) (r : Nat -> Option Int) :
    runWrites [viRngBernoulli draw stream n 0] r =
      fun p => if p < n then some (draw (stream.uniforms p)) else r p := by
  funext p
  by_cases inside : p < n <;> simp [Write.apply, viRngBernoulli, inside]

/-- `do_compute` leaves `mask[i] = r_i * scale` and `dst[i] = r_i * scale *
src[i]` below the size, with `r_i` the draw of the seed's `i`-th uniform, and
both buffers as they were beyond it. -/
theorem doCompute_eq {nthr : Nat} (threads : 1 ≤ nthr) {β : Type} [Ring β] (scale : β) (src : Nat -> β)
    (size : Nat) (mask dst : Nat -> Option β) :
    doCompute generator draw seed nthr scale src size mask dst =
      (fun p => if p < size then some ((draw (generator seed p) : β) * scale) else mask p,
        fun p => if p < size then some ((draw (generator seed p) : β) * scale * src p) else dst p) := by
  simp only [doCompute, bernoulliGenerate_eq generator draw seed size threads]
  refine Prod.ext ((runWrites_singles _ size mask).trans (funext fun p => ?_))
    ((runWrites_singles _ size dst).trans (funext fun p => ?_)) <;>
  by_cases inside : p < size <;> simp [inside]

/-- The threads' chunks store each element below `n` once, `r[0, n)` is what
one sequential stream of the seed draws, for every thread count, and
`do_compute` therefore assigns every element of `mask` and `dst` below the size
from that stream's draw and leaves the rest as it was. -/
theorem bernoulli_chunks_sequential {nthr : Nat} (threads : 1 ≤ nthr) (n : Nat) (r : Nat -> Option Int)
    {β : Type} [Ring β] (scale : β) (src : Nat -> β) (size : Nat) (mask dst : Nat -> Option β) :
    StoresOnce (bernoulliWrites generator draw seed n nthr) n ∧
      bernoulliGenerate generator draw seed nthr n r =
        runWrites [viRngBernoulli draw (vslNewStream generator seed) n 0] r ∧
      doCompute generator draw seed nthr scale src size mask dst =
        (fun p => if p < size then some ((draw (generator seed p) : β) * scale) else mask p,
          fun p => if p < size then some ((draw (generator seed p) : β) * scale * src p) else dst p) := by
  refine ⟨storesOnce_bernoulliWrites generator draw seed n threads, ?_,
    doCompute_eq generator draw seed threads scale src size mask dst⟩
  rw [bernoulliGenerate_eq generator draw seed n threads, runWrites_viRngBernoulli]
  rfl

theorem bernoulli_chunks_sequential_seven_over_three :
    1 ≤ 3 ∧ StoresOnce (bernoulliWrites (fun _ k => k) (fun u => (u % 2 : Int)) 17 7 3) 7 ∧
      bernoulliGenerate (fun _ k => k) (fun u => (u % 2 : Int)) 17 3 7 (fun _ => none) =
        runWrites [viRngBernoulli (fun u => (u % 2 : Int)) (vslNewStream (fun _ k => k) 17) 7 0]
          (fun _ => none) ∧
      doCompute (fun _ k => k) (fun u => (u % 2 : Int)) 17 3 (2 : Int) (fun i => (i : Int)) 4
          (fun _ => none) (fun _ => none) =
        (fun p : Nat => if p < 4 then some ((p : Int) % 2 * 2) else none,
          fun p : Nat => if p < 4 then some ((p : Int) % 2 * 2 * p) else none) :=
  ⟨by decide, bernoulli_chunks_sequential (fun _ k => k) (fun u => (u % 2 : Int)) 17 (by decide) 7
    (fun _ => none) (2 : Int) (fun i => (i : Int)) 4 (fun _ => none) (fun _ => none)⟩

/-- `dropout_forward::compute` on a tensor of a supported type: `mask[i] =
r_i * scale` and `dst[i] = r_i * scale * src[i]` at every element, with `r_i`
the draw of the seed's `i`-th uniform, and nothing stored beyond. -/
theorem forward_compute_eq {nthr : Nat} (threads : 1 ≤ nthr) {β : Type} [Ring β] (scale : β)
    (src : Tensor β) (supported : src.desc.dataType ≠ .undef) :
    DropoutForward.compute generator draw seed nthr scale src =
      .ok (⟨src.desc, fun p => if p < nelems src.desc then
          some ((draw (generator seed p) : β) * scale * src.data p) else none⟩,
        ⟨src.desc, fun p => if p < nelems src.desc then some ((draw (generator seed p) : β) * scale)
          else none⟩) := by
  simp only [DropoutForward.compute, if_neg supported, doCompute_eq generator draw seed threads]

/-- `dropout_backward::do_compute` stores `mask[i] * gy[i]` at every element
of `mask` and leaves `gx` as it was beyond. -/
theorem backward_doCompute_eq {β : Type} [Ring β] (mask : Tensor (Option β)) (gy : Tensor β)
    (gx : Nat -> Option β) :
    DropoutBackward.doCompute mask gy gx =
      fun p => if p < nelems mask.desc then (mask.data p).map (· * gy.data p) else gx p :=
  runWrites_singles (fun i => (mask.data i).map (· * gy.data i)) _ gx

/-- `dropout_backward::compute` on the mask `dropout_forward::compute` drew is
the adjoint of the forward pass, for every thread count: `gx` is assigned
exactly at the elements, and pairs with any source as `gy` pairs with the
`dst` the forward pass computes from it. -/
theorem backward_adjoint {nthr : Nat} (threads : 1 ≤ nthr) {β : Type} [CommRing β] (scale : β)
    (src gy : Tensor β) (supported : src.desc.dataType ≠ .undef) (sameDesc : gy.desc = src.desc) :
    ∃ dst mask gx, DropoutForward.compute generator draw seed nthr scale src = .ok (dst, mask) ∧
      DropoutBackward.compute mask gy = .ok gx ∧ gx.desc = gy.desc ∧
      (∀ p, (gx.data p).isSome ↔ p < nelems src.desc) ∧
      ∑ p ∈ Finset.range (nelems src.desc), (gx.data p).getD 0 * src.data p =
        ∑ p ∈ Finset.range (nelems src.desc), gy.data p * (dst.data p).getD 0 := by
  refine ⟨_, _, ⟨gy.desc, DropoutBackward.doCompute ⟨src.desc, fun p => if p < nelems src.desc then
      some ((draw (generator seed p) : β) * scale) else none⟩ gy fun _ => none⟩,
    forward_compute_eq generator draw seed threads scale src supported, ?_, rfl, ?_, ?_⟩
  · simp only [DropoutBackward.compute, sameDesc, if_neg supported]
  · intro p
    by_cases inside : p < nelems src.desc <;> simp [backward_doCompute_eq, inside]
  · refine Finset.sum_congr rfl fun p member => ?_
    have inside : p < nelems src.desc := Finset.mem_range.mp member
    simp only [backward_doCompute_eq, if_pos inside, Option.map_some', Option.getD_some]
    ring

/-- Two threads over a `2 × 3` tensor. -/
theorem backward_adjoint_two_threads :
    ∃ dst mask gx, DropoutForward.compute (fun _ k => k) (fun u => (u % 2 : Int)) 17 2 (2 : Int)
        ⟨⟨[2, 3], .f32, .nc⟩, fun i => (i : Int)⟩ = .ok (dst, mask) ∧
      DropoutBackward.compute mask ⟨⟨[2, 3], .f32, .nc⟩, fun i => (i : Int) + 1⟩ = .ok gx ∧
      gx.desc = ⟨[2, 3], .f32, .nc⟩ ∧ (∀ p, (gx.data p).isSome ↔ p < 6) ∧
      ∑ p ∈ Finset.range 6, (gx.data p).getD 0 * (p : Int) =
        ∑ p ∈ Finset.range 6, ((p : Int) + 1) * (dst.data p).getD 0 :=
  backward_adjoint (fun _ k => k) (fun u => (u % 2 : Int)) 17 (by decide) (2 : Int)
    ⟨⟨[2, 3], .f32, .nc⟩, fun i => (i : Int)⟩ ⟨⟨[2, 3], .f32, .nc⟩, fun i => (i : Int) + 1⟩
    (by decide) (by decide)

end Chunks

end Dropout
end Ideep
