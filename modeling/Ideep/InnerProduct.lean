import Ideep.Buffer
import Ideep.Descriptor
import Mathlib.Algebra.BigOperators.Ring
import Mathlib.Algebra.BigOperators.Intervals

namespace Ideep
namespace InnerProduct

open Finset

/-!
# Inner products of tensors of different ranks

`inner_product_forward::compute(src, weights[, bias], dst)` lets `src` and
`weights` differ in rank.  Before it builds the engine's inner product it
reshapes one of them: a `src` in a public format takes the rank of `weights`
(the dims of `weights` with the batch dim in front), otherwise the weights
take the rank of `src` (the dims of `src` with the output dim in front).
`inner_product_backward_data::compute` reshapes the weights to the rank of the
`gradx_dims` it is asked for, and `inner_product_backward_weights::compute`
sizes `gradw` from `x`, whatever the rank of the weights of the forward pass.

The engine's inner products take tensors of one rank with the same dims after
the first; `dst[n][o]` is the sum over those dims of `src[n, ...] *
weights[o, ...]`, plus `bias[o]`.  Tensors are taken by their logical
elements in row-major order: `reshape` keeps that order (its contract in
`tensor.hpp`), and so do the reorders into the engine's layouts, so the sum
over the dims after the first is the sum over one row of that order.

Whatever the ranks, as long as a row of `src` and a row of `weights` hold as
many elements, the forward pass computes the inner product of the row-major
flattenings of the two, and its `IDEEP_ENFORCE` on the ranks never fails.
The two backward passes are its adjoints: `gradx` against any `src`, and
`gradw` with `gradb` against any weights and bias, pair with `grady` as the
forward pass's result does.
-/

/-- A result of an inner product: its dims, its element type and its elements
in row-major order.  Its memory format is the one the engine picks
(`expected_dst_descriptor()` and the like) and is not modelled. -/
structure Result (α : Type) where
  dims : List Nat
  dataType : DataType
  data : Nat -> α

variable {α : Type}

/-- The elements in one row of a tensor: the product of its dims after the
first. -/
def rowSize (t : Tensor α) : Nat := (t.desc.dims.drop 1).prod

/-- `src_in` and `weights_in` after the reshapes at the top of
`inner_product_forward::compute`. -/
def reconcile (src weights : Tensor α) : Tensor α × Tensor α :=
  if src.desc.ndims ≠ weights.desc.ndims then
    let ndims := if src.desc.format.isPublic then weights.desc.ndims else src.desc.ndims
    if ndims ≠ src.desc.ndims then (src.reshape (weights.desc.dims.set 0 (src.dim 0)), weights)
    else if ndims ≠ weights.desc.ndims then (src, weights.reshape (src.desc.dims.set 0 (weights.dim 0)))
    else (src, weights)
  else (src, weights)

/-- `weights_in` of `inner_product_backward_data::compute`: the weights
reshaped to the rank of `gradx_dims`, with their output dim in front. -/
def InnerProductBackwardData.weightsIn (weights : Tensor α) (gradxDims : List Nat) : Tensor α :=
  if gradxDims.length ≠ weights.desc.ndims then weights.reshape (gradxDims.set 0 (weights.dim 0))
  else weights

/-- Dims the engine pairs row by row: one rank, the same dims after the
first. -/
def RowsAgree (a b : List Nat) : Prop := a.length = b.length ∧ a.drop 1 = b.drop 1

instance (a b : List Nat) : Decidable (RowsAgree a b) := inferInstanceAs (Decidable (_ ∧ _))

theorem RowsAgree.symm {a b : List Nat} (agree : RowsAgree a b) : RowsAgree b a :=
  ⟨agree.1.symm, agree.2.symm⟩

/-! ## The reshapes -/

section Reshapes

theorem drop_one_set_zero (dims : List Nat) (d : Nat) : (dims.set 0 d).drop 1 = dims.drop 1 := by
  cases dims <;> rfl

theorem getD_set_zero {dims : List Nat} (rows : dims ≠ []) (d : Nat) : (dims.set 0 d).getD 0 0 = d := by
  cases dims with
  | nil => exact absurd rfl rows
  | cons _ _ => rfl

/-- Dims with the first one replaced pair row by row with the dims they came
from. -/
theorem rowsAgree_set_zero (dims : List Nat) (d : Nat) : RowsAgree dims (dims.set 0 d) :=
  ⟨(List.length_set _ _ _).symm, (drop_one_set_zero _ _).symm⟩

/-- The reshapes always leave `src_in` and `weights_in` of one rank. -/
theorem reconcile_ndims (src weights : Tensor α) :
    (reconcile src weights).1.desc.ndims = (reconcile src weights).2.desc.ndims := by
  simp only [reconcile]
  split_ifs <;> simp_all [Descriptor.ndims]

/-- The reshapes change dims only: each tensor keeps its first dim, and when
a row of `src` and a row of `weights` hold as many elements, `src_in` keeps
the length of its rows and pairs with `weights_in` row by row, unless `src`
and `weights` had one rank to begin with and differ after the first dim. -/
theorem reconcile_eq {src weights : Tensor α} (srcRows : src.desc.dims ≠ [])
    (weightsRows : weights.desc.dims ≠ []) (rows : rowSize src = rowSize weights)
    (sameRank : src.desc.ndims = weights.desc.ndims -> src.desc.dims.drop 1 = weights.desc.dims.drop 1) :
    ∃ srcDims weightsDims, reconcile src weights = (src.reshape srcDims, weights.reshape weightsDims) ∧
      RowsAgree srcDims weightsDims ∧ srcDims.getD 0 0 = src.dim 0 ∧
      weightsDims.getD 0 0 = weights.dim 0 ∧ (srcDims.drop 1).prod = rowSize src := by
  by_cases ranks : src.desc.ndims = weights.desc.ndims
  · exact ⟨src.desc.dims, weights.desc.dims, by simp [reconcile, ranks, Tensor.reshape_self],
      ⟨ranks, sameRank ranks⟩, rfl, rfl, rfl⟩
  · by_cases public : src.desc.format.isPublic = true
    · refine ⟨weights.desc.dims.set 0 (src.dim 0), weights.desc.dims, ?_,
        (rowsAgree_set_zero _ _).symm, getD_set_zero weightsRows _, rfl, ?_⟩
      · simp [reconcile, ranks, public, Ne.symm ranks, Tensor.reshape_self]
      · rw [drop_one_set_zero, rows]; rfl
    · refine ⟨src.desc.dims, src.desc.dims.set 0 (weights.dim 0), ?_, rowsAgree_set_zero _ _, rfl,
        getD_set_zero srcRows _, rfl⟩
      simp [reconcile, ranks, public, Tensor.reshape_self]

/-- The reshape of the backward data pass leaves the weights of the rank of
`gradx_dims`; it changes dims only, keeps the output dim, and keeps the row
length when a row of `gradx_dims` holds as many elements as a row of the
weights. -/
theorem weightsIn_eq {weights : Tensor α} {gradxDims : List Nat} (gradxRows : gradxDims ≠ [])
    (rows : (gradxDims.drop 1).prod = rowSize weights)
    (sameRank : gradxDims.length = weights.desc.ndims -> gradxDims.drop 1 = weights.desc.dims.drop 1) :
    ∃ weightsDims, InnerProductBackwardData.weightsIn weights gradxDims = weights.reshape weightsDims ∧
      RowsAgree gradxDims weightsDims ∧ weightsDims.getD 0 0 = weights.dim 0 ∧
      (weightsDims.drop 1).prod = rowSize weights := by
  by_cases ranks : gradxDims.length = weights.desc.ndims
  · exact ⟨weights.desc.dims, by simp [InnerProductBackwardData.weightsIn, ranks, Tensor.reshape_self],
      ⟨ranks, sameRank ranks⟩, rfl, rfl⟩
  · exact ⟨gradxDims.set 0 (weights.dim 0), by simp [InnerProductBackwardData.weightsIn, ranks],
      rowsAgree_set_zero _ _, getD_set_zero gradxRows _, by rw [drop_one_set_zero, rows]⟩

theorem weightsIn_ndims (weights : Tensor α) (gradxDims : List Nat) :
    (InnerProductBackwardData.weightsIn weights gradxDims).desc.ndims = gradxDims.length := by
  unfold InnerProductBackwardData.weightsIn
  split_ifs with ranks
  · simp [Descriptor.ndims]
  · exact (not_not.mp ranks).symm

end Reshapes

/-! ## The engine's primitives and what they compute -/

section Engine

variable [CommSemiring α]

/-- Entry `[n][o]` of the inner product of two row-major arrays whose rows
hold `rows` elements. -/
def dot (rows : Nat) (x w : Nat -> α) (n o : Nat) : α :=
  ∑ k ∈ range rows, x (n * rows + k) * w (o * rows + k)

/-- The inner product of the row-major flattenings of `src` and `weights`, of
dims `{src[0], weights[0]}`, plus an optional bias. -/
def flatForward (src weights : Tensor α) (bias : Option (Tensor α)) : Result α :=
  ⟨[src.dim 0, weights.dim 0], src.desc.dataType, fun p =>
    dot (rowSize src) src.data weights.data (p / weights.dim 0) (p % weights.dim 0) +
      (bias.map fun b => b.data (p % weights.dim 0)).getD 0⟩

/-- `gradx` of dims `gradx_dims` for the flattened weights: `gradx[n, k]` is the
sum over `o` of `grady[n][o] * weights[o, k]`. -/
def flatBackwardData (gradxDims : List Nat) (dataType : DataType) (weights grady : Tensor α) :
    Result α :=
  ⟨gradxDims, dataType, fun p =>
    ∑ o ∈ range (weights.dim 0), grady.data (p / rowSize weights * weights.dim 0 + o) *
      weights.data (o * rowSize weights + p % rowSize weights)⟩

/-- `gradw` of dims `gradw_dims` and `gradb` for the flattened `x`: `gradw[o, k]`
is the sum over `n` of `grady[n][o] * x[n, k]`, `gradb[o]` that of
`grady[n][o]`. -/
def flatBackwardWeights (x : Tensor α) (gradwDims : List Nat) (dataType : DataType)
    (grady : Tensor α) : Result α × Result α :=
  (⟨gradwDims, dataType, fun p => ∑ n ∈ range (x.dim 0),
      grady.data (n * gradwDims.getD 0 0 + p / rowSize x) * x.data (n * rowSize x + p % rowSize x)⟩,
    ⟨[gradwDims.getD 0 0], dataType, fun o => ∑ n ∈ range (x.dim 0), grady.data (n * gradwDims.getD 0 0 + o)⟩)

/-- The engine's forward inner product on `src_in`, `weights_in`, an optional
bias and `dst_dims`, refusing descriptors that do not fit. -/
def primitiveForward (src weights : Tensor α) (bias : Option (Tensor α)) (dstDims : List Nat) :
    Except Fault (Result α) :=
  if RowsAgree src.desc.dims weights.desc.dims ∧ dstDims = [src.dim 0, weights.dim 0] ∧
      bias.all (fun b => b.desc.dims == [weights.dim 0]) = true then
    .ok (flatForward src weights bias)
  else .error (.runtime "could not create a inner product forward descriptor")

/-- The engine's backward-data inner product on `gradx_desc`, `weights_in` and
`grady`. -/
def primitiveBackwardData (gradxDims : List Nat) (dataType : DataType) (weights grady : Tensor α) :
    Except Fault (Result α) :=
  if RowsAgree gradxDims weights.desc.dims ∧ grady.desc.dims = [gradxDims.getD 0 0, weights.dim 0] then
    .ok (flatBackwardData gradxDims dataType weights grady)
  else .error (.runtime "could not create a inner product backward data descriptor")

/-- The engine's backward-weights inner product on `x`, `gradw_desc` and
`grady`, giving `gradw` and `gradb`. -/
def primitiveBackwardWeights (x : Tensor α) (gradwDims : List Nat) (dataType : DataType)
    (grady : Tensor α) : Except Fault (Result α × Result α) :=
  if RowsAgree x.desc.dims gradwDims ∧ grady.desc.dims = [x.dim 0, gradwDims.getD 0 0] then
    .ok (flatBackwardWeights x gradwDims dataType grady)
  else .error (.runtime "could not create a inner product backward weights descriptor")

namespace InnerProductForward

/-- `inner_product_forward::compute(src, weights, bias, dst)`. -/
def computeWithBias (src weights bias : Tensor α) : Except Fault (Result α) :=
  let srcIn := (reconcile src weights).1
  let weightsIn := (reconcile src weights).2
  if srcIn.desc.ndims = weightsIn.desc.ndims then
    primitiveForward srcIn weightsIn (some bias) [src.dim 0, weightsIn.dim 0]
  else .error (.enforce "Invalid dims in src or weights")

/-- `inner_product_forward::compute(src, weights, dst)`. -/
def compute (src weights : Tensor α) : Except Fault (Result α) :=
  let srcIn := (reconcile src weights).1
  let weightsIn := (reconcile src weights).2
  if srcIn.desc.ndims = weightsIn.desc.ndims then
    primitiveForward srcIn weightsIn none [srcIn.dim 0, weightsIn.dim 0]
  else .error (.enforce "Invalid dims in src or weights")

end InnerProductForward

namespace InnerProductBackwardData

/-- `inner_product_backward_data::compute(grady, weights, gradx_dims, gradx)`. -/
def compute (grady weights : Tensor α) (gradxDims : List Nat) : Except Fault (Result α) :=
  if gradxDims.length = (weightsIn weights gradxDims).desc.ndims then
    primitiveBackwardData gradxDims grady.desc.dataType (weightsIn weights gradxDims) grady
  else .error (.enforce "Invalid dims in src or weights")

end InnerProductBackwardData

namespace InnerProductBackwardWeights

/-- `gradw_dims` of `inner_product_backward_weights::compute`: the dims of `x`
with the outputs of `grady` in front. -/
def gradwDims (x grady : Tensor α) : List Nat := x.desc.dims.set 0 (grady.dim 1)

/-- `inner_product_backward_weights::compute(x, grady, gradw)`. -/
def compute (x grady : Tensor α) : Except Fault (Result α) :=
  (primitiveBackwardWeights x (gradwDims x grady) grady.desc.dataType grady).map Prod.fst

/-- `inner_product_backward_weights::compute(x, grady, gradw, gradb)`. -/
def computeWithBias (x grady : Tensor α) : Except Fault (Result α × Result α) :=
  primitiveBackwardWeights x (gradwDims x grady) x.desc.dataType grady

end InnerProductBackwardWeights

/-! ## What the entry points compute -/

/-- The flattened inner product reads elements, first dims and row lengths
only, which the reshapes keep. -/
theorem flatForward_reshape {src weights : Tensor α} {srcDims weightsDims : List Nat}
    (bias : Option (Tensor α)) (first : srcDims.getD 0 0 = src.dim 0)
    (first' : weightsDims.getD 0 0 = weights.dim 0) (row : (srcDims.drop 1).prod = rowSize src) :
    flatForward (src.reshape srcDims) (weights.reshape weightsDims) bias = flatForward src weights bias := by
  have batch : (src.reshape srcDims).dim 0 = src.dim 0 := first
  have outputs : (weights.reshape weightsDims).dim 0 = weights.dim 0 := first'
  have width : rowSize (src.reshape srcDims) = rowSize src := row
  simp only [flatForward, batch, outputs, width, Tensor.reshape_data, Tensor.reshape_dataType]

/-- The forward pass with a bias computes the inner product of the
flattenings when rows on both sides hold as many elements. -/
theorem computeWithBias_eq {src weights bias : Tensor α} (srcRows : src.desc.dims ≠ [])
    (weightsRows : weights.desc.dims ≠ []) (rows : rowSize src = rowSize weights)
    (sameRank : src.desc.ndims = weights.desc.ndims -> src.desc.dims.drop 1 = weights.desc.dims.drop 1)
    (biasDims : bias.desc.dims = [weights.dim 0]) :
    InnerProductForward.computeWithBias src weights bias = .ok (flatForward src weights (some bias)) := by
  obtain ⟨srcDims, weightsDims, reconciled, agree, first, first', row⟩ :=
    reconcile_eq srcRows weightsRows rows sameRank
  have batch : (src.reshape srcDims).dim 0 = src.dim 0 := first
  have outputs : (weights.reshape weightsDims).dim 0 = weights.dim 0 := first'
  simp only [InnerProductForward.computeWithBias, reconciled, primitiveForward, Descriptor.ndims,
    Tensor.reshape_dims, if_pos agree.1]
  rw [if_pos ⟨agree, by rw [batch], by simp [outputs, biasDims]⟩, flatForward_reshape _ first first' row]

/-- The forward pass without a bias computes the inner product of the
flattenings when rows on both sides hold as many elements. -/
theorem compute_eq {src weights : Tensor α} (srcRows : src.desc.dims ≠ [])
    (weightsRows : weights.desc.dims ≠ []) (rows : rowSize src = rowSize weights)
    (sameRank : src.desc.ndims = weights.desc.ndims -> src.desc.dims.drop 1 = weights.desc.dims.drop 1) :
    InnerProductForward.compute src weights = .ok (flatForward src weights none) := by
  obtain ⟨srcDims, weightsDims, reconciled, agree, first, first', row⟩ :=
    reconcile_eq srcRows weightsRows rows sameRank
  simp only [InnerProductForward.compute, reconciled, primitiveForward, Descriptor.ndims, Tensor.reshape_dims,
    if_pos agree.1]
  rw [if_pos ⟨agree, trivial, rfl⟩, flatForward_reshape _ first first' row]

/-- The flattened backward data pass reads elements, the output dim and row
lengths of the weights only, which the reshape keeps. -/
theorem flatBackwardData_reshape {weights grady : Tensor α} {gradxDims weightsDims : List Nat}
    (dataType : DataType) (first : weightsDims.getD 0 0 = weights.dim 0)
    (row : (weightsDims.drop 1).prod = rowSize weights) :
    flatBackwardData gradxDims dataType (weights.reshape weightsDims) grady =
      flatBackwardData gradxDims dataType weights grady := by
  have outputs : (weights.reshape weightsDims).dim 0 = weights.dim 0 := first
  have width : rowSize (weights.reshape weightsDims) = rowSize weights := row
  simp only [flatBackwardData, outputs, width, Tensor.reshape_data]

/-- The backward data pass computes `gradx` from the flattened weights when a
row of `gradx_dims` holds as many elements as a row of the weights. -/
theorem backwardData_eq {grady weights : Tensor α} {gradxDims : List Nat} (gradxRows : gradxDims ≠ [])
    (rows : (gradxDims.drop 1).prod = rowSize weights)
    (sameRank : gradxDims.length = weights.desc.ndims -> gradxDims.drop 1 = weights.desc.dims.drop 1)
    (gradyDims : grady.desc.dims = [gradxDims.getD 0 0, weights.dim 0]) :
    InnerProductBackwardData.compute grady weights gradxDims =
      .ok (flatBackwardData gradxDims grady.desc.dataType weights grady) := by
  obtain ⟨weightsDims, reshaped, agree, first, row⟩ := weightsIn_eq gradxRows rows sameRank
  have outputs : (weights.reshape weightsDims).dim 0 = weights.dim 0 := first
  simp only [InnerProductBackwardData.compute, reshaped, primitiveBackwardData, Descriptor.ndims,
    Tensor.reshape_dims, outputs, if_pos agree.1]
  rw [if_pos ⟨agree, gradyDims⟩, flatBackwardData_reshape _ first row]

/-- The backward weights passes compute `gradw`, of the dims of `x` with the
outputs in front, and `gradb` from the flattened `x`. -/
theorem backwardWeights_eq {x grady : Tensor α} {outputs : Nat} (xRows : x.desc.dims ≠ [])
    (gradyDims : grady.desc.dims = [x.dim 0, outputs]) :
    InnerProductBackwardWeights.computeWithBias x grady =
        .ok (flatBackwardWeights x (x.desc.dims.set 0 outputs) x.desc.dataType grady) ∧
      InnerProductBackwardWeights.compute x grady =
        .ok (flatBackwardWeights x (x.desc.dims.set 0 outputs) grady.desc.dataType grady).1 := by
  have gradw : InnerProductBackwardWeights.gradwDims x grady = x.desc.dims.set 0 outputs := by
    simp [InnerProductBackwardWeights.gradwDims, Tensor.dim, gradyDims]
  have fits : RowsAgree x.desc.dims (x.desc.dims.set 0 outputs) ∧
      grady.desc.dims = [x.dim 0, (x.desc.dims.set 0 outputs).getD 0 0] :=
    ⟨rowsAgree_set_zero _ _, by rw [getD_set_zero xRows, gradyDims]⟩
  simp only [InnerProductBackwardWeights.computeWithBias, InnerProductBackwardWeights.compute, gradw,
    primitiveBackwardWeights, if_pos fits, Except.map, and_self]

/-- The `IDEEP_ENFORCE` on the ranks after the reshapes never fails, in both
forward passes and in the backward data pass, whatever the tensors: the
reshapes always leave one rank on both sides. -/
theorem rank_check_never_fails (src weights bias grady : Tensor α) (gradxDims : List Nat) :
    InnerProductForward.computeWithBias src weights bias ≠ .error (.enforce "Invalid dims in src or weights") ∧
      InnerProductForward.compute src weights ≠ .error (.enforce "Invalid dims in src or weights") ∧
      InnerProductBackwardData.compute grady weights gradxDims ≠
        .error (.enforce "Invalid dims in src or weights") := by
  refine ⟨?_, ?_, ?_⟩
  · simp only [InnerProductForward.computeWithBias, if_pos (reconcile_ndims src weights), primitiveForward]
    split <;> simp
  · simp only [InnerProductForward.compute, if_pos (reconcile_ndims src weights), primitiveForward]
    split <;> simp
  · simp only [InnerProductBackwardData.compute, weightsIn_ndims, if_true, primitiveBackwardData]
    split <;> simp

/-! ## The backward passes are the adjoints of the forward pass -/

/-- A sum over a row-major array of `count` rows of `rows` elements, row by
row. -/
theorem sum_rows {M : Type} [AddCommMonoid M] (f : Nat -> M) (count rows : Nat) :
    ∑ p ∈ range (count * rows), f p = ∑ n ∈ range count, ∑ k ∈ range rows, f (n * rows + k) := by
  induction count with
  | zero => simp
  | succ count ih => rw [Nat.succ_mul, sum_range_add, ih, sum_range_succ]

theorem flatForward_data (src weights : Tensor α) (bias : Option (Tensor α)) {n o : Nat}
    (inside : o < weights.dim 0) :
    (flatForward src weights bias).data (n * weights.dim 0 + o) =
      dot (rowSize src) src.data weights.data n o + (bias.map fun b => b.data o).getD 0 := by
  obtain ⟨quot, rest⟩ := digits_div_mod (j := n) inside
  simp only [flatForward, quot, rest]

theorem flatBackwardData_data (gradxDims : List Nat) (dataType : DataType) (weights grady : Tensor α)
    {n k : Nat} (inside : k < rowSize weights) :
    (flatBackwardData gradxDims dataType weights grady).data (n * rowSize weights + k) =
      ∑ o ∈ range (weights.dim 0), grady.data (n * weights.dim 0 + o) * weights.data (o * rowSize weights + k) := by
  obtain ⟨quot, rest⟩ := digits_div_mod (j := n) inside
  simp only [flatBackwardData, quot, rest]

theorem flatBackwardWeights_data (x : Tensor α) (gradwDims : List Nat) (dataType : DataType)
    (grady : Tensor α) {o k : Nat} (inside : k < rowSize x) :
    (flatBackwardWeights x gradwDims dataType grady).1.data (o * rowSize x + k) =
      ∑ n ∈ range (x.dim 0), grady.data (n * gradwDims.getD 0 0 + o) * x.data (n * rowSize x + k) := by
  obtain ⟨quot, rest⟩ := digits_div_mod (j := o) inside
  simp only [flatBackwardWeights, quot, rest]

/-- Whatever the ranks of `src` and `weights`, the forward pass, with a bias
or without, computes the inner product of their row-major flattenings, as
long as their rows hold as many elements and, for tensors of one rank, the
dims after the first agree. -/
theorem forward_flattened {src weights bias : Tensor α} (srcRows : src.desc.dims ≠ [])
    (weightsRows : weights.desc.dims ≠ []) (rows : rowSize src = rowSize weights)
    (sameRank : src.desc.ndims = weights.desc.ndims -> src.desc.dims.drop 1 = weights.desc.dims.drop 1)
    (biasDims : bias.desc.dims = [weights.dim 0]) :
    InnerProductForward.computeWithBias src weights bias = .ok (flatForward src weights (some bias)) ∧
      InnerProductForward.compute src weights = .ok (flatForward src weights none) :=
  ⟨computeWithBias_eq srcRows weightsRows rows sameRank biasDims,
    compute_eq srcRows weightsRows rows sameRank⟩

/-- A 2-D `src` in `nc` against 4-D `oihw` weights: `src` is reshaped. -/
theorem forward_flattened_reshaped_src :
    InnerProductForward.computeWithBias (⟨⟨[2, 6], .f32, .nc⟩, fun i => (i : Int)⟩ : Tensor Int)
        ⟨⟨[3, 1, 2, 3], .f32, .oihw⟩, fun i => (i : Int)⟩ ⟨⟨[3], .f32, .x⟩, fun i => (i : Int)⟩ =
      .ok (flatForward ⟨⟨[2, 6], .f32, .nc⟩, fun i => (i : Int)⟩ ⟨⟨[3, 1, 2, 3], .f32, .oihw⟩, fun i => (i : Int)⟩
        (some ⟨⟨[3], .f32, .x⟩, fun i => (i : Int)⟩)) ∧
      InnerProductForward.compute (⟨⟨[2, 6], .f32, .nc⟩, fun i => (i : Int)⟩ : Tensor Int)
        ⟨⟨[3, 1, 2, 3], .f32, .oihw⟩, fun i => (i : Int)⟩ =
      .ok (flatForward ⟨⟨[2, 6], .f32, .nc⟩, fun i => (i : Int)⟩ ⟨⟨[3, 1, 2, 3], .f32, .oihw⟩, fun i => (i : Int)⟩
        none) :=
  forward_flattened (by decide) (by decide) (by decide) (by decide) (by decide)

/-- `inner_product_backward_data::compute` is the adjoint of the forward pass
for the same weights: whatever the ranks of `x` and the weights, `gradx`
asked for with the dims of `x` pairs with `x` as `grady` pairs with the
forward pass's result on `x`. -/
theorem backwardData_adjoint {x weights grady : Tensor α} (xRows : x.desc.dims ≠ [])
    (weightsRows : weights.desc.dims ≠ []) (rows : rowSize x = rowSize weights)
    (sameRank : x.desc.ndims = weights.desc.ndims -> x.desc.dims.drop 1 = weights.desc.dims.drop 1)
    (gradyDims : grady.desc.dims = [x.dim 0, weights.dim 0]) :
    ∃ y gradx, InnerProductForward.compute x weights = .ok y ∧
      InnerProductBackwardData.compute grady weights x.desc.dims = .ok gradx ∧ gradx.dims = x.desc.dims ∧
      ∑ p ∈ range (x.dim 0 * rowSize x), gradx.data p * x.data p =
        ∑ q ∈ range (x.dim 0 * weights.dim 0), grady.data q * y.data q := by
  refine ⟨_, _, compute_eq xRows weightsRows rows sameRank,
    backwardData_eq xRows rows sameRank gradyDims, rfl, ?_⟩
  rw [sum_rows, sum_rows, rows]
  refine sum_congr rfl fun n _ => ?_
  calc ∑ k ∈ range (rowSize weights),
          (flatBackwardData x.desc.dims grady.desc.dataType weights grady).data (n * rowSize weights + k) *
            x.data (n * rowSize weights + k)
      = ∑ k ∈ range (rowSize weights), ∑ o ∈ range (weights.dim 0),
          grady.data (n * weights.dim 0 + o) * (weights.data (o * rowSize weights + k) *
            x.data (n * rowSize weights + k)) := sum_congr rfl fun k inside => by
        rw [flatBackwardData_data _ _ _ _ (mem_range.mp inside), sum_mul]
        exact sum_congr rfl fun o _ => mul_assoc _ _ _
    _ = ∑ o ∈ range (weights.dim 0), grady.data (n * weights.dim 0 + o) *
          dot (rowSize x) x.data weights.data n o := by
        rw [sum_comm, rows]
        exact sum_congr rfl fun o _ => by rw [dot, mul_sum]; exact sum_congr rfl fun k _ => by ring
    _ = ∑ o ∈ range (weights.dim 0), grady.data (n * weights.dim 0 + o) *
          (flatForward x weights none).data (n * weights.dim 0 + o) := sum_congr rfl fun o inside => by
        rw [flatForward_data _ _ _ (mem_range.mp inside), Option.map_none', Option.getD_none, add_zero]

/-- A 2-D `x` in `nc` against 4-D `oihw` weights. -/
theorem backwardData_adjoint_reshaped_weights :
    ∃ y gradx, InnerProductForward.compute (⟨⟨[2, 6], .f32, .nc⟩, fun i => (i : Int)⟩ : Tensor Int)
        ⟨⟨[3, 1, 2, 3], .f32, .oihw⟩, fun i => (i : Int)⟩ = .ok y ∧
      InnerProductBackwardData.compute ⟨⟨[2, 3], .f32, .nc⟩, fun i => (i : Int)⟩
        ⟨⟨[3, 1, 2, 3], .f32, .oihw⟩, fun i => (i : Int)⟩ [2, 6] = .ok gradx ∧ gradx.dims = [2, 6] ∧
      ∑ p ∈ range (2 * 6), gradx.data p * (p : Int) = ∑ q ∈ range (2 * 3), (q : Int) * y.data q :=
  backwardData_adjoint (by decide) (by decide) (by decide) (by decide) (by decide)

/-- `inner_product_backward_weights::compute` with `gradb` is the adjoint of
the forward pass with a bias for the same `x`: whatever the rank of the
weights, `gradw` comes with the dims of `x` and the outputs in front, and
`gradw` and `gradb` pair with any weights and bias as `grady` pairs with the
forward pass's result for them. -/
theorem backwardWeights_adjoint {x weights bias grady : Tensor α} (xRows : x.desc.dims ≠ [])
    (weightsRows : weights.desc.dims ≠ []) (rows : rowSize x = rowSize weights)
    (sameRank : x.desc.ndims = weights.desc.ndims -> x.desc.dims.drop 1 = weights.desc.dims.drop 1)
    (biasDims : bias.desc.dims = [weights.dim 0]) (gradyDims : grady.desc.dims = [x.dim 0, weights.dim 0]) :
    ∃ y gradw gradb, InnerProductForward.computeWithBias x weights bias = .ok y ∧
      InnerProductBackwardWeights.computeWithBias x grady = .ok (gradw, gradb) ∧
      gradw.dims = x.desc.dims.set 0 (weights.dim 0) ∧ gradb.dims = [weights.dim 0] ∧
      ∑ p ∈ range (weights.dim 0 * rowSize weights), gradw.data p * weights.data p +
          ∑ o ∈ range (weights.dim 0), gradb.data o * bias.data o =
        ∑ q ∈ range (x.dim 0 * weights.dim 0), grady.data q * y.data q := by
  have outputs : (x.desc.dims.set 0 (weights.dim 0)).getD 0 0 = weights.dim 0 := getD_set_zero xRows _
  refine ⟨_, (flatBackwardWeights x (x.desc.dims.set 0 (weights.dim 0)) x.desc.dataType grady).1,
    (flatBackwardWeights x (x.desc.dims.set 0 (weights.dim 0)) x.desc.dataType grady).2,
    computeWithBias_eq xRows weightsRows rows sameRank biasDims, (backwardWeights_eq xRows gradyDims).1, rfl,
    by simp only [flatBackwardWeights, outputs], ?_⟩
  have weightsSide : ∑ p ∈ range (weights.dim 0 * rowSize weights),
      (flatBackwardWeights x (x.desc.dims.set 0 (weights.dim 0)) x.desc.dataType grady).1.data p *
        weights.data p =
      ∑ o ∈ range (weights.dim 0), ∑ n ∈ range (x.dim 0),
        grady.data (n * weights.dim 0 + o) * dot (rowSize x) x.data weights.data n o := by
    rw [sum_rows, ← rows]
    refine sum_congr rfl fun o _ => ?_
    simp only [dot, mul_sum]
    rw [sum_comm]
    refine sum_congr rfl fun k inside => ?_
    rw [flatBackwardWeights_data _ _ _ _ (mem_range.mp inside), outputs, sum_mul]
    exact sum_congr rfl fun n _ => by ring
  have biasSide : ∑ o ∈ range (weights.dim 0),
      (flatBackwardWeights x (x.desc.dims.set 0 (weights.dim 0)) x.desc.dataType grady).2.data o * bias.data o =
      ∑ o ∈ range (weights.dim 0), ∑ n ∈ range (x.dim 0), grady.data (n * weights.dim 0 + o) * bias.data o := by
    simp only [flatBackwardWeights, outputs, sum_mul]
  rw [weightsSide, biasSide, ← sum_add_distrib, sum_rows, sum_comm]
  refine sum_congr rfl fun o inside => ?_
  rw [← sum_add_distrib]
  refine sum_congr rfl fun n _ => ?_
  rw [flatForward_data _ _ _ (mem_range.mp inside), mul_add]
  rfl

/-- A 2-D `x` in `nc` against 4-D `oihw` weights: `gradw` comes out 2-D. -/
theorem backwardWeights_adjoint_reshaped_weights :
    ∃ y gradw gradb, InnerProductForward.computeWithBias (⟨⟨[2, 6], .f32, .nc⟩, fun i => (i : Int)⟩ : Tensor Int)
        ⟨⟨[3, 1, 2, 3], .f32, .oihw⟩, fun i => (i : Int)⟩ ⟨⟨[3], .f32, .x⟩, fun i => (i : Int)⟩ = .ok y ∧
      InnerProductBackwardWeights.computeWithBias (⟨⟨[2, 6], .f32, .nc⟩, fun i => (i : Int)⟩ : Tensor Int)
        ⟨⟨[2, 3], .f32, .nc⟩, fun i => (i : Int)⟩ = .ok (gradw, gradb) ∧
      gradw.dims = [3, 6] ∧ gradb.dims = [3] ∧
      ∑ p ∈ range (3 * 6), gradw.data p * (p : Int) + ∑ o ∈ range 3, gradb.data o * (o : Int) =
        ∑ q ∈ range (2 * 3), (q : Int) * y.data q :=
  backwardWeights_adjoint (by decide) (by decide) (by decide) (by decide) (by decide) (by decide)

end Engine

end InnerProduct
end Ideep
