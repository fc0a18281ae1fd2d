import Ideep.Descriptor
import Mathlib.Algebra.BigOperators.Ring
import Mathlib.Algebra.Order.Field.Basic
import Mathlib.Tactic.Ring
import Mathlib.Data.Real.Sqrt
import Mathlib.Algebra.EuclideanDomain.Field

namespace Ideep
namespace Folding

/-!
# Folding a batch norm into convolution weights

`convolution_forward::bn_folding` absorbs a following batch-norm inference into
the weights and bias of the convolution before it:

1. `factor = scale / sqrt(var + epsilon)`, by `cblas_saxpy`, `vsSqrt` and `vsDiv`;
2. the weights, reordered to their public format, scaled row by row:
   `cblas_sscal(blk, factor[o], w + o * blk)` for `o < dims[0]`, with
   `blk = dims[1] * dims[2] * dims[3]`;
3. `bias' = factor * (bias - mean) + shift`, by two `sum::compute` and `vsMul`.

Values live in any field `R`; the engine's square root is a parameter, and
the batch norm it is compared with uses the same one.  The weights are kept
as their elements in row-major order, which is the public format the loop
runs over.

For 4-D `oihw` weights the row of output channel `o` is exactly the block the
loop scales, so the folded convolution is the convolution followed by the
batch norm.  For the 5-D `goihw` weights of a grouped convolution the loop
still takes `dims[0]` rows of `dims[1] * dims[2] * dims[3]` elements: it runs
over groups instead of output channels and leaves the tail unscaled.

`conv_bn_folding` keeps the first fold it computes in the `opts` side channel
of the weights and returns it for every later request whose scale tensor has
the same buffer, whatever the other statistics, the shift or epsilon are.
-/

variable {R : Type}

/-- A weights tensor: its descriptor and its elements in row-major order. -/
structure Weights (R : Type) where
  desc : Descriptor
  data : Nat -> R

/-- A statistics tensor of a batch norm: the buffer behind it and its values. -/
structure Stat (R : Type) where
  handle : Nat
  values : Nat -> R

instance [Zero R] : Inhabited (Stat R) := ⟨⟨0, fun _ => 0⟩⟩

/-! ## The fold -/

section Fold

variable [Field R] (sqrt : R -> R)

/-- `factor[o] = scale[o] / sqrt(var[o] + epsilon)`. -/
def foldFactor (var scale : Nat -> R) (epsilon : R) : Nat -> R :=
  fun o => scale o / sqrt (var o + epsilon)

/-- The `cblas_sscal` loop: row `o < rows` of `blk` elements scaled by
`factor[o]`. -/
def scaleRows (rows blk : Nat) (factor w : Nat -> R) : Nat -> R :=
  (List.range rows).foldl
    (fun w o j => if o * blk ≤ j ∧ j < o * blk + blk then factor o * w j else w j) w

theorem scaleRows_apply (rows blk : Nat) (factor w : Nat -> R) (j : Nat) :
    scaleRows rows blk factor w j = if j < rows * blk then factor (j / blk) * w j else w j := by
  induction rows generalizing j with
  | zero => simp [scaleRows]
  | succ k ih =>
      have previous := ih
      simp only [scaleRows] at previous ⊢
      rw [List.range_succ, List.foldl_append, List.foldl_cons, List.foldl_nil]
      by_cases block : k * blk ≤ j ∧ j < k * blk + blk
      · have quotient : j / blk = k := Nat.div_eq_of_lt_le block.1 (by rw [Nat.succ_mul]; omega)
        have before : ¬ j < k * blk := by omega
        simp only [block, and_self, if_true, previous, before, if_false, quotient]
        rw [if_pos (by rw [Nat.succ_mul]; omega)]
      · simp only [block, if_false, previous]
        by_cases earlier : j < k * blk
        · rw [if_pos earlier, if_pos (by rw [Nat.succ_mul]; omega)]
        · rw [if_neg earlier, if_neg (by rw [Nat.succ_mul]; omega)]

theorem scaleRows_row {rows blk o r : Nat} (factor w : Nat -> R) (row : o < rows)
    (element : r < blk) : scaleRows rows blk factor w (o * blk + r) = factor o * w (o * blk + r) := by
  have quotient : (o * blk + r) / blk = o := Nat.div_eq_of_lt_le (by omega) (by rw [Nat.succ_mul]; omega)
  have inside : o * blk + r < rows * blk :=
    calc o * blk + r < (o + 1) * blk := by rw [Nat.succ_mul]; omega
      _ ≤ rows * blk := Nat.mul_le_mul_right blk row
  rw [scaleRows_apply, if_pos inside, quotient]

/-- `bn_folding(weights, bn_attrs, epsilon)`: the factor and the scaled
weights, in the weights' own descriptor.  `bn_attrs` is mean, variance, scale,
shift. -/
def ConvolutionForward.bnFolding (weights : Weights R) (bnAttrs : List (Stat R))
    (epsilon : R) : (Nat -> R) × Weights R :=
  let factor := foldFactor sqrt (bnAttrs.getD 1 default).values (bnAttrs.getD 2 default).values
    epsilon
  let dims := weights.desc.dims
  (factor, { weights with
    data := scaleRows (dims.getD 0 0) (dims.getD 1 0 * dims.getD 2 0 * dims.getD 3 0) factor
      weights.data })

/-- What `bn_folding(weights, bias, bn_attrs, epsilon)` returns. -/
structure Folded (R : Type) where
  factor : Nat -> R
  weights : Weights R
  bias : Nat -> R

/-- `bn_folding(weights, bias, bn_attrs, epsilon)`: the weights fold, then
`bias' = factor * (bias - mean) + shift`. -/
def ConvolutionForward.bnFoldingBias (weights : Weights R) (bias : Nat -> R)
    (bnAttrs : List (Stat R)) (epsilon : R) : Folded R :=
  let folded := ConvolutionForward.bnFolding sqrt weights bnAttrs epsilon
  { factor := folded.1, weights := folded.2,
    bias := fun o => folded.1 o * (bias o - (bnAttrs.getD 0 default).values o) +
      (bnAttrs.getD 3 default).values o }

end Fold

/-! ## The folded convolution -/

section Convolution

variable [Field R] (sqrt : R -> R)

/-- A convolution's output at channel `o` and position `p`, for weights whose
output channels are rows of `blk` elements: row `o` against the input patch
under `p`, plus the bias.  How the patch is taken (strides, padding,
dilation) is the engine's and does not matter here. -/
def convolutionAt (blk : Nat) (w bias : Nat -> R) (patch : Nat -> Nat -> R) (o p : Nat) : R :=
  (Finset.range blk).sum (fun r => w (o * blk + r) * patch p r) + bias o

/-- Batch-norm inference of a value `y` of channel `o`. -/
def batchNormValue (mean var scale shift : Nat -> R) (epsilon : R) (o : Nat) (y : R) : R :=
  scale o * (y - mean o) / sqrt (var o + epsilon) + shift o

/-- On 4-D `oihw` weights the fold is the batch norm: every output channel's
row is scaled by its factor, the bias is shifted, and the folded convolution
equals the convolution followed by the batch norm on every input. -/
theorem bnFoldingBias_oihw (O I H W : Nat) (weights : Weights R)
    (oihw : weights.desc.dims = [O, I, H, W]) (bias : Nat -> R) (mean var scale shift : Stat R)
    (epsilon : R) :
    let folded := ConvolutionForward.bnFoldingBias sqrt weights bias [mean, var, scale, shift] epsilon
    folded.weights.desc = weights.desc ∧
      (forall o, folded.factor o = scale.values o / sqrt (var.values o + epsilon)) ∧
      (forall o r, o < O -> r < I * H * W ->
        folded.weights.data (o * (I * H * W) + r) = folded.factor o * weights.data (o * (I * H * W) + r)) ∧
      (forall o, folded.bias o = folded.factor o * (bias o - mean.values o) + shift.values o) ∧
      (forall patch o p, o < O ->
        convolutionAt (I * H * W) folded.weights.data folded.bias patch o p =
          batchNormValue sqrt mean.values var.values scale.values shift.values epsilon o
            (convolutionAt (I * H * W) weights.data bias patch o p)) := by
  intro folded
  have rows : forall o r, o < O -> r < I * H * W ->
      folded.weights.data (o * (I * H * W) + r) = folded.factor o * weights.data (o * (I * H * W) + r) := by
    intro o r row element
    simp only [folded, ConvolutionForward.bnFoldingBias, ConvolutionForward.bnFolding, oihw]
    exact scaleRows_row _ _ row (by simpa [Nat.mul_assoc] using element)
  refine ⟨rfl, fun o => rfl, rows, fun o => rfl, fun patch o p row => ?_⟩
  have scaled : (Finset.range (I * H * W)).sum (fun r => folded.weights.data (o * (I * H * W) + r) * patch p r) =
      folded.factor o * (Finset.range (I * H * W)).sum (fun r => weights.data (o * (I * H * W) + r) * patch p r) := by
    rw [Finset.mul_sum]
    refine Finset.sum_congr rfl fun r member => ?_
    rw [rows o r row (Finset.mem_range.mp member), mul_assoc]
  simp only [convolutionAt, batchNormValue, scaled]
  simp only [folded, ConvolutionForward.bnFoldingBias, ConvolutionForward.bnFolding, foldFactor,
    List.getD_cons_zero, List.getD_cons_succ]
  ring

theorem bnFoldingBias_oihw_two_channels :
    let weights : Weights ℝ := ⟨⟨[2, 1, 1, 1], .f32, .oihw⟩, fun _ => 1⟩
    let mean : Stat ℝ := ⟨0, fun _ => 1⟩
    let var : Stat ℝ := ⟨1, fun _ => 3⟩
    let scale : Stat ℝ := ⟨2, fun o => if o = 0 then 2 else 3⟩
    let shift : Stat ℝ := ⟨3, fun _ => 1⟩
    weights.desc.dims = [2, 1, 1, 1] ∧
      let folded := ConvolutionForward.bnFoldingBias Real.sqrt weights (fun _ => 0) [mean, var, scale, shift] 1
      folded.weights.desc = weights.desc ∧
        (forall o, folded.factor o = scale.values o / Real.sqrt (var.values o + 1)) ∧
        (forall o r, o < 2 -> r < 1 * 1 * 1 ->
          folded.weights.data (o * (1 * 1 * 1) + r) = folded.factor o * weights.data (o * (1 * 1 * 1) + r)) ∧
        (forall o, folded.bias o = folded.factor o * (0 - mean.values o) + shift.values o) ∧
        (forall patch o p, o < 2 ->
          convolutionAt (1 * 1 * 1) folded.weights.data folded.bias patch o p =
            batchNormValue Real.sqrt mean.values var.values scale.values shift.values 1 o
              (convolutionAt (1 * 1 * 1) weights.data (fun _ => 0) patch o p)) :=
  ⟨rfl, bnFoldingBias_oihw Real.sqrt 2 1 1 1 _ rfl _ _ _ _ _ _⟩

end Convolution

/-- Grouped weights `goihw` of dims `(2, 1, 1, 1, 2)`, all ones, folded with
scales `(2, 3)`, zero variance and `epsilon = 1`: element 1 belongs to output
channel 0 but is scaled by the factor of channel 1, and element 2, of channel
1, is not scaled at all. -/
theorem bnFolding_goihw_misscales :
    let weights : Weights ℝ := ⟨⟨[2, 1, 1, 1, 2], .f32, .goihw⟩, fun _ => 1⟩
    let scale : Stat ℝ := ⟨2, fun o => if o = 0 then 2 else 3⟩
    let folded := ConvolutionForward.bnFoldingBias Real.sqrt weights (fun _ => 0)
      [⟨0, fun _ => 0⟩, ⟨1, fun _ => 0⟩, scale, ⟨3, fun _ => 0⟩] 1
    folded.weights.data 1 = 3 ∧ folded.factor 0 * weights.data 1 = 2 ∧
      folded.weights.data 2 = 1 ∧ folded.factor 1 * weights.data 2 = 3 := by
  simp [ConvolutionForward.bnFoldingBias, ConvolutionForward.bnFolding, scaleRows_apply, foldFactor]

/-! ## The fold memo of `conv_bn_folding` -/

section Memo

variable [Field R] (sqrt : R -> R) (weights : Weights R) (bias : Nat -> R)

/-- One fold recorded in the `opts` of the weights: the folded weights, the
folded bias and the scale tensor (`deps[2]`), entries 0, 1 and 2 of its three. -/
structure Memo (R : Type) where
  weights : Weights R
  bias : Nat -> R
  scale : Stat R

/-- A fold request: the batch norm's mean, variance, scale and shift, and its
epsilon. -/
structure Request (R : Type) where
  deps : List (Stat R)
  epsilon : R

/-- The folded weights and bias `bn_folding` computes for a request. -/
def foldOf (request : Request R) : Weights R × (Nat -> R) :=
  let folded := ConvolutionForward.bnFoldingBias sqrt weights bias request.deps request.epsilon
  (folded.weights, folded.bias)

/-- The miss branch: fold, and record the result with `set_opts` three times. -/
def ConvBnFolding.miss (opts : List (Memo R)) (request : Request R) :
    (Weights R × (Nat -> R)) × List (Memo R) :=
  let folded := foldOf sqrt weights bias request
  (folded, opts ++ [⟨folded.1, folded.2, request.deps.getD 2 default⟩])

/-- `conv_bn_folding` on one request: when the weights have `opts` and the
buffer of `opts[2]` is that of `deps[2]`, reuse `opts[0]` and `opts[1]`. -/
def ConvBnFolding.step (opts : List (Memo R)) (request : Request R) :
    (Weights R × (Nat -> R)) × List (Memo R) :=
  match opts with
  | memo :: _ =>
      if memo.scale.handle = (request.deps.getD 2 default).handle then ((memo.weights, memo.bias), opts)
      else ConvBnFolding.miss sqrt weights bias opts request
  | [] => ConvBnFolding.miss sqrt weights bias opts request

/-- A sequence of requests served by one closure, with the folds they use. -/
def ConvBnFolding.run : List (Memo R) -> List (Request R) -> List (Weights R × (Nat -> R))
  | _, [] => []
  | opts, request :: later =>
      (ConvBnFolding.step sqrt weights bias opts request).1 ::
        ConvBnFolding.run (ConvBnFolding.step sqrt weights bias opts request).2 later

/-- Once the first fold is recorded it answers every request on its scale
buffer. -/
theorem run_of_recorded (first : Request R) (tail : List (Memo R)) (later : List (Request R)) :
    ConvBnFolding.run sqrt weights bias
        (⟨(foldOf sqrt weights bias first).1, (foldOf sqrt weights bias first).2,
          first.deps.getD 2 default⟩ :: tail) later =
      later.map fun request =>
        if (request.deps.getD 2 default).handle = (first.deps.getD 2 default).handle then
          foldOf sqrt weights bias first
        else foldOf sqrt weights bias request := by
  induction later generalizing tail with
  | nil => rfl
  | cons request later ih =>
      by_cases same : (first.deps.getD 2 default).handle = (request.deps.getD 2 default).handle
      · simp only [ConvBnFolding.run, ConvBnFolding.step, same, if_true, List.map_cons, ih]
      · simp only [ConvBnFolding.run, ConvBnFolding.step, same, if_false, Ne.symm same,
          ConvBnFolding.miss, List.cons_append, List.map_cons, ih]

/-- From weights without `opts`, every request gets the fold of the first
request when its scale tensor shares the first one's buffer, and the fold of
its own arguments otherwise. -/
theorem convBnFolding_uses_first_fold (first : Request R) (later : List (Request R)) :
    ConvBnFolding.run sqrt weights bias [] (first :: later) =
      (first :: later).map fun request =>
        if (request.deps.getD 2 default).handle = (first.deps.getD 2 default).handle then
          foldOf sqrt weights bias first
        else foldOf sqrt weights bias request := by
  simp only [ConvBnFolding.run, ConvBnFolding.step, ConvBnFolding.miss, List.nil_append,
    List.map_cons, if_true]
  exact congrArg _ (run_of_recorded sqrt weights bias first [] later)

end Memo

/-- Two requests on the same scale buffer that differ only in the shift: the
second is served the first one's bias, `0` at channel 0, where its own fold
gives `1`. -/
theorem convBnFolding_stale_shift :
    let weights : Weights ℝ := ⟨⟨[1, 1, 1, 1], .f32, .oihw⟩, fun _ => 1⟩
    let stat := fun (handle : Nat) (value : ℝ) => (⟨handle, fun _ => value⟩ : Stat ℝ)
    let first : Request ℝ := ⟨[stat 0 0, stat 1 0, stat 2 1, stat 3 0], 1⟩
    let second : Request ℝ := ⟨[stat 0 0, stat 1 0, stat 2 1, stat 4 1], 1⟩
    ((ConvBnFolding.run Real.sqrt weights (fun _ => 0) [] [first, second]).getD 1
        (foldOf Real.sqrt weights (fun _ => 0) first)).2 0 = 0 ∧
      (foldOf Real.sqrt weights (fun _ => 0) second).2 0 = 1 := by
  simp [ConvBnFolding.run, ConvBnFolding.step, ConvBnFolding.miss, run_of_recorded, foldOf,
    ConvolutionForward.bnFoldingBias]

end Folding
end Ideep
