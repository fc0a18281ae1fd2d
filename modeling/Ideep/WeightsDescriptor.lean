import Ideep.Descriptor
import Mathlib.Tactic.Ring
import Mathlib.Tactic.Positivity

namespace Ideep
namespace WeightsDescriptor

/-!
# The dummy problems of `expected_weights_descriptor`

`convolution_forward::expected_weights_descriptor(weights_dims, ...)` and its
transposed counterpart answer which layout the engine wants for a weights
tensor before any input is known.  They build a dummy problem around the
weights, with a fixed input of `h = 2 * kh` by `w = 4 * kw` (forward) or
`4 * kh` by `4 * kw` (transposed), derive its output size from the strides,
paddings and dilations, and construct the engine's convolution on it.

The engine builds a convolution only when, along every spatial dim, the
dilated kernel fits the padded input and the output is not empty (`Fits`).
The dummy's fixed input does not always satisfy that for weights that some
convolution does use: a dilated kernel can reach past `2 * kh`, and paddings
can leave the transposed dummy without output.  For undilated kernels the forward dummy always fits
(`forwardDummy_fits_undilated`).

The grouped overloads of `convolution_backward_weights::compute` use the same
`tensor::group_dims` to ask the engine for a grouped gradient, then check it
and reshape it back.  Of their three checks only the second can fail, exactly
when the group does not divide the output channels, and by then the engine
has run on truncated groups.

Dims, strides, paddings and dilations are the `int`s of `tensor::dims`.  The
helpers of `tensor.hpp` that this source calls, `IDEEP_IS_GROUPED_4DIMS`,
`tensor::group_dims`, `IDEEP_STD_ANY_LE` and `IDEEP_STD_EACH_SUB`, are modelled
from their use here.
-/

/-- `IDEEP_IS_GROUPED_4DIMS(dims)`: weights of five dims, group first. -/
def isGrouped4Dims (dims : List Int) : Bool := dims.length == 5

/-- `tensor::group_dims(dims, group)`: put the group first and divide the
output channels by it. -/
def groupDims (dims : List Int) (group : Int) : Except Fault (List Int) := do
  let oc ← divide (dims.getD 0 0) group
  return group :: dims.set 0 oc

/-- The dilations the engine takes: `IDEEP_STD_EACH_SUB(dilates, 1)` when no
dilation is at most zero, `{0, 0}` otherwise. -/
def dilatesIn (dilates : List Int) : List Int :=
  if !dilates.isEmpty && !dilates.any (· ≤ 0) then dilates.map (· - 1) else [0, 0]

/-- A dummy problem: the dims of its input, weights and output. -/
structure Problem where
  src : List Int
  weights : List Int
  dst : List Int
  deriving DecidableEq, Repr

/-- The output extent of a convolution along one dim, as the source computes
`oh` and `ow`: `(src - ((ker - 1) * (dil + 1) + 1) + (padL + padR)) / stride + 1`. -/
def outputExtent (src ker dil padL padR stride : Int) : Except Fault Int := do
  let q ← divide (src - ((ker - 1) * (dil + 1) + 1) + (padL + padR)) stride
  return q + 1

/-- The dummy problem of `convolution_forward::expected_weights_descriptor`. -/
def forwardDummy (weightsDims strides paddingL paddingR dilates : List Int) (group : Int) :
    Except Fault Problem := do
  let dimsIn ← if group > 1 && !isGrouped4Dims weightsDims then groupDims weightsDims group
    else pure weightsDims
  let ndims := dimsIn.length
  let grouped := isGrouped4Dims dimsIn
  let g := if grouped then dimsIn.getD 0 0 else 1
  let dil := dilatesIn dilates
  let ic := g * dimsIn.getD (1 + grouped.toNat) 0
  let oc := g * dimsIn.getD (0 + grouped.toNat) 0
  let kh := dimsIn.getD (ndims - 2) 0
  let kw := dimsIn.getD (ndims - 1) 0
  let h := 2 * kh
  let w := 4 * kw
  let oh ← outputExtent h kh (dil.getD 0 0) (paddingL.getD 0 0) (paddingR.getD 0 0) (strides.getD 0 0)
  let ow ← outputExtent w kw (dil.getD 1 0) (paddingL.getD 1 0) (paddingR.getD 1 0) (strides.getD 1 0)
  return ⟨[1, ic, h, w], dimsIn, [1, oc, oh, ow]⟩

/-- The output extent of a transposed convolution along one dim:
`(src - 1) * stride + ker - padL - padR`. -/
def transposedExtent (src ker padL padR stride : Int) : Int := (src - 1) * stride + ker - padL - padR

/-- The dummy problem of `convolution_transpose_forward::expected_weights_descriptor`. -/
def transposeDummy (weightsDims strides paddingL paddingR : List Int) : Problem :=
  let ndims := weightsDims.length
  let ic := weightsDims.getD 1 0
  let oc := weightsDims.getD 0 0
  let kh := weightsDims.getD (ndims - 2) 0
  let kw := weightsDims.getD (ndims - 1) 0
  let h := 4 * kh
  let w := 4 * kw
  let oh := transposedExtent h kh (paddingL.getD 0 0) (paddingR.getD 0 0) (strides.getD 0 0)
  let ow := transposedExtent w kw (paddingL.getD 1 0) (paddingR.getD 1 0) (strides.getD 1 0)
  ⟨[1, ic, h, w], weightsDims, [1, oc, oh, ow]⟩

/-- What the engine needs of a convolution along one spatial dim: the kernel,
dilated by `dil` in the engine's convention, fits the padded input, and the
output is not empty. -/
def Fits (src ker dil padL padR dst : Int) : Prop :=
  (ker - 1) * (dil + 1) + 1 ≤ src + padL + padR ∧ 1 ≤ dst

instance (src ker dil padL padR dst : Int) : Decidable (Fits src ker dil padL padR dst) :=
  inferInstanceAs (Decidable (_ ∧ _))

/-! ## The forward dummy -/

theorem dilatesIn_of_pos {d e : Int} (first : 0 < d) (second : 0 < e) : dilatesIn [d, e] = [d - 1, e - 1] := by
  simp [dilatesIn, Int.not_le.mpr first, Int.not_le.mpr second]

theorem outputExtent_of_stride_one (src ker dil padL padR : Int) :
    outputExtent src ker dil padL padR 1 = .ok (src - ((ker - 1) * (dil + 1) + 1) + (padL + padR) + 1) := by
  simp [outputExtent, divide, bind, Except.bind, pure, Except.pure]

/-- Spec lemma of the forward dummy for ungrouped weights `(oc, ic, kh, kw)`
with positive dilations. -/
theorem forwardDummy_oihw (oc ic kh kw : Int) (strides paddingL paddingR : List Int) (dh dw : Int)
    (positiveH : 0 < dh) (positiveW : 0 < dw) {group : Int} (single : group ≤ 1) :
    forwardDummy [oc, ic, kh, kw] strides paddingL paddingR [dh, dw] group = (do
      let oh ← outputExtent (2 * kh) kh (dh - 1) (paddingL.getD 0 0) (paddingR.getD 0 0) (strides.getD 0 0)
      let ow ← outputExtent (4 * kw) kw (dw - 1) (paddingL.getD 1 0) (paddingR.getD 1 0) (strides.getD 1 0)
      return ⟨[1, ic, 2 * kh, 4 * kw], [oc, ic, kh, kw], [1, oc, oh, ow]⟩) := by
  simp [forwardDummy, isGrouped4Dims, dilatesIn_of_pos positiveH positiveW, Int.not_lt.mpr single,
    bind, Except.bind, pure, Except.pure]

/-- Without dilation a dummy input that covers the kernel fits: with a
positive stride and non-negative paddings it has an output row. -/
theorem outputExtent_fits_undilated {src ker padL padR stride : Int} (covers : ker ≤ src)
    (paddedL : 0 ≤ padL) (paddedR : 0 ≤ padR) (positive : 0 < stride) :
    ∃ out, outputExtent src ker 0 padL padR stride = .ok out ∧ Fits src ker 0 padL padR out := by
  have quotient := Int.tdiv_nonneg (show 0 ≤ src - ((ker - 1) * (0 + 1) + 1) + (padL + padR) by omega)
    positive.le
  refine ⟨(src - ((ker - 1) * (0 + 1) + 1) + (padL + padR)).tdiv stride + 1, ?_, by omega, by omega⟩
  simp only [outputExtent, divide, if_neg positive.ne', bind, Except.bind, pure, Except.pure]

/-- The forward dummy of ungrouped, undilated weights fits along both spatial
dims, for every positive stride and non-negative padding. -/
theorem forwardDummy_fits_undilated (oc ic : Int) {kh kw : Int} (rows : 1 ≤ kh) (columns : 1 ≤ kw)
    {sh sw lh lw rh rw : Int} (strideH : 0 < sh) (strideW : 0 < sw) (leftH : 0 ≤ lh) (leftW : 0 ≤ lw)
    (rightH : 0 ≤ rh) (rightW : 0 ≤ rw) :
    ∃ dummy, forwardDummy [oc, ic, kh, kw] [sh, sw] [lh, lw] [rh, rw] [1, 1] 1 = .ok dummy ∧
      Fits (dummy.src.getD 2 0) kh 0 lh rh (dummy.dst.getD 2 0) ∧
      Fits (dummy.src.getD 3 0) kw 0 lw rw (dummy.dst.getD 3 0) := by
  obtain ⟨oh, runH, fitsH⟩ := outputExtent_fits_undilated (show kh ≤ 2 * kh by omega) leftH rightH strideH
  obtain ⟨ow, runW, fitsW⟩ := outputExtent_fits_undilated (show kw ≤ 4 * kw by omega) leftW rightW strideW
  have run := forwardDummy_oihw oc ic kh kw [sh, sw] [lh, lw] [rh, rw] 1 1 Int.one_pos Int.one_pos (le_refl 1)
  simp only [List.getD_cons_zero, List.getD_cons_succ, sub_self, runH, runW, bind, Except.bind, pure,
    Except.pure] at run
  exact ⟨_, run, fitsH, fitsW⟩

theorem forwardDummy_fits_undilated_strided :
    (1 : Int) ≤ 3 ∧ (1 : Int) ≤ 3 ∧ (0 : Int) < 1 ∧ (0 : Int) < 2 ∧ (0 : Int) ≤ 0 ∧ (0 : Int) ≤ 1 ∧
      (0 : Int) ≤ 0 ∧ (0 : Int) ≤ 1 ∧
      ∃ dummy, forwardDummy [8, 4, 3, 3] [1, 2] [0, 1] [0, 1] [1, 1] 1 = .ok dummy ∧
        Fits (dummy.src.getD 2 0) 3 0 0 0 (dummy.dst.getD 2 0) ∧ Fits (dummy.src.getD 3 0) 3 0 1 1 (dummy.dst.getD 3 0) :=
  ⟨by decide, by decide, by decide, by decide, by decide, by decide, by decide, by decide,
    forwardDummy_fits_undilated 8 4 (by decide) (by decide) (by decide) (by decide) (by decide) (by decide)
      (by decide) (by decide)⟩

/-! ## Where the dummies do not fit -/

/-- A square kernel of side `k + 3` dilated by `d = e + 3` spans
`(k + 2) * (e + 3) + 1` elements along each dim, more than the dummy's
`2 * kh` rows: the forward dummy neither fits nor has an output row, although
the convolution of a square input of that side is valid, with one output
element.  A square kernel of side `k + 1` under paddings of `3 * (k + 1)` on
every side leaves the transposed dummy no output row, although the transposed
convolution of a square input of side `6 * (k + 1) + 1` has outputs of side
`k + 1`. -/
theorem dummy_misfits_dilated_or_padded (oc ic : Int) (k e : Nat) :
    (∃ dummy, forwardDummy [oc, ic, k + 3, k + 3] [1, 1] [0, 0] [0, 0] [e + 3, e + 3] 1 = .ok dummy ∧
      ¬ Fits (dummy.src.getD 2 0) (k + 3) (e + 2) 0 0 (dummy.dst.getD 2 0) ∧ dummy.dst.getD 2 0 < 1) ∧
    outputExtent ((k + 2) * (e + 3) + 1) (k + 3) (e + 2) 0 0 1 = .ok 1 ∧
      Fits ((k + 2) * (e + 3) + 1) (k + 3) (e + 2) 0 0 1 ∧
    (transposeDummy [oc, ic, k + 1, k + 1] [1, 1] [3 * (k + 1), 3 * (k + 1)] [3 * (k + 1), 3 * (k + 1)]).dst.getD 2 0 < 1 ∧
      transposedExtent (6 * (k + 1) + 1) (k + 1) (3 * (k + 1)) (3 * (k + 1)) 1 = k + 1 := by
  have spread : (0 : Int) ≤ k * e := by positivity
  have run := forwardDummy_oihw oc ic (k + 3) (k + 3) [1, 1] [0, 0] [0, 0] (e + 3) (e + 3) (by omega) (by omega)
    (le_refl 1)
  simp only [List.getD_cons_zero, List.getD_cons_succ, outputExtent_of_stride_one, bind, Except.bind, pure,
    Except.pure] at run
  refine ⟨⟨_, run, ?_, ?_⟩, by rw [outputExtent_of_stride_one]; congr 1; ring, ⟨?_, le_refl 1⟩, ?_, ?_⟩
  · simp only [Fits, List.getD_cons_zero, List.getD_cons_succ, not_and, Int.not_le]
    intro
    ring_nf
    omega
  · simp only [List.getD_cons_zero, List.getD_cons_succ]
    ring_nf
    omega
  · ring_nf
    omega
  · simp only [transposeDummy, transposedExtent, List.getD_cons_zero, List.getD_cons_succ, List.length_cons,
      List.length_nil]
    omega
  · simp only [transposedExtent]
    ring

/-! ## The grouped weight gradient

The grouped overloads of `convolution_backward_weights::compute` ask the
engine for the gradient of the grouped dims `tensor::group_dims(gradw_dims,
group)`, and when they did group them they check the result and reshape it
back to `gradw_dims`.  The engine's gradient has the dims it is asked for (its
`expected_gradw_descriptor()` keeps the dims of the descriptor the primitive
is built from); what `compute_impl` computes is a parameter.
-/

section Grouped

variable {α : Type}

/-- `gw_dims_in`: `gradw_dims`, grouped when `group > 1` and they are not
grouped already. -/
def gwDimsIn (gradwDims : List Int) (group : Int) : Except Fault (List Int) :=
  if group > 1 && !isGrouped4Dims gradwDims then groupDims gradwDims group else pure gradwDims

/-- The checks and the reshape that follow `compute_impl` in the grouped
`convolution_backward_weights::compute`. -/
def ungroup (gradwDims : List Int) (group : Int) (gradw : Tensor α) : Except Fault (Tensor α) :=
  if group > 1 && !isGrouped4Dims gradwDims then
    if group ≠ (gradw.dim 0 : Int) then .error (.enforce "invalid dim 0 in grouped gradw")
    else if gradwDims.getD 0 0 ≠ group * (gradw.dim 1 : Int) then
      .error (.enforce "invalid dim 1 in grouped gradw")
    else if (gradwDims.length : Int) ≠ (gradw.desc.ndims : Int) - 1 then
      .error (.enforce "invalid ndim in grouped gradw")
    else .ok (gradw.reshape (gradwDims.map Int.toNat))
  else .ok gradw

/-- `convolution_backward_weights::compute(src, grady, gradw_dims, gradw, ...,
group, ...)`, with `compute_impl` on the dims it is handed. -/
def ConvolutionBackwardWeights.computeGrouped (computeImpl : List Int -> Except Fault (Tensor α))
    (gradwDims : List Int) (group : Int) : Except Fault (Tensor α) := do
  let gwDims ← gwDimsIn gradwDims group
  let gradw ← computeImpl gwDims
  ungroup gradwDims group gradw

/-- `convolution_backward_weights::compute(src, grady, gradw_dims, gradw,
gradb, ..., group, ...)`, with `compute_impl` on the dims it is handed. -/
def ConvolutionBackwardWeights.computeGroupedWithBias
    (computeImpl : List Int -> Except Fault (Tensor α × Tensor α)) (gradwDims : List Int) (group : Int) :
    Except Fault (Tensor α × Tensor α) := do
  let gwDims ← gwDimsIn gradwDims group
  let (gradw, gradb) ← computeImpl gwDims
  let gradw ← ungroup gradwDims group gradw
  return (gradw, gradb)

theorem gwDimsIn_of_grouping {gradwDims : List Int} {group : Int} (grouping : 1 < group)
    (ungrouped : gradwDims.length ≠ 5) :
    gwDimsIn gradwDims group = .ok (group :: gradwDims.set 0 ((gradwDims.getD 0 0).tdiv group)) := by
  have nonzero : group ≠ 0 := by omega
  rw [gwDimsIn, if_pos (by simp [isGrouped4Dims, grouping, ungrouped])]
  simp only [groupDims, divide, if_neg nonzero, bind, Except.bind, pure, Except.pure]

/-- On the engine's gradient of the grouped dims, the first and the last
check pass; the second passes exactly when `group` divides the output
channels, and then the gradient is reshaped to `gradw_dims`. -/
theorem ungroup_eq {gradwDims : List Int} {group : Int} (grouping : 1 < group) (ungrouped : gradwDims.length ≠ 5)
    (outputs : 0 ≤ gradwDims.getD 0 0) {gradw : Tensor α}
    (asked : gradw.desc.dims = (group :: gradwDims.set 0 ((gradwDims.getD 0 0).tdiv group)).map Int.toNat) :
    ungroup gradwDims group gradw =
      if group ∣ gradwDims.getD 0 0 then .ok (gradw.reshape (gradwDims.map Int.toNat))
      else .error (.enforce "invalid dim 1 in grouped gradw") := by
  have first : (gradw.dim 0 : Int) = group := by
    simp only [Tensor.dim, asked, List.map_cons, List.getD_cons_zero]
    omega
  have second : (gradw.dim 1 : Int) = gradwDims.getD 0 0 / group := by
    rw [Tensor.dim, asked, ← Int.tdiv_eq_ediv outputs (by omega)]
    cases gradwDims with
    | nil => simp
    | cons d rest =>
        simp only [List.map_cons, List.set_cons_zero, List.getD_cons_succ, List.getD_cons_zero]
        exact Int.toNat_of_nonneg (Int.tdiv_nonneg outputs (by omega))
  have ranks : (gradw.desc.ndims : Int) - 1 = gradwDims.length := by
    simp [Descriptor.ndims, asked]
  rw [ungroup, if_pos (by simp [isGrouped4Dims, grouping, ungrouped]), if_neg (by rw [first]; exact not_not.mpr rfl),
    second]
  by_cases divides : group ∣ gradwDims.getD 0 0
  · rw [Int.mul_ediv_cancel' divides, if_neg (not_not.mpr rfl), if_neg (by rw [ranks]; exact not_not.mpr rfl),
      if_pos divides]
  · rw [if_pos fun same => divides (Dvd.intro _ same.symm), if_neg divides]

/-- Of the three checks after the grouped computation, with or without a
bias gradient, the first and the last never fail; the second fails exactly
when `group` does not divide the output channels of `gradw_dims`, after the
engine has run on the truncated groups, and otherwise the gradient comes back
with the dims `gradw_dims` and the engine's elements in row-major order. -/
theorem computeGrouped_checks {gradwDims : List Int} {group : Int} (grouping : 1 < group)
    (ungrouped : gradwDims.length ≠ 5) (outputs : 0 ≤ gradwDims.getD 0 0)
    (computeImpl : List Int -> Except Fault (Tensor α)) {gradw : Tensor α}
    (engine : computeImpl (group :: gradwDims.set 0 ((gradwDims.getD 0 0).tdiv group)) = .ok gradw)
    (computeImpl' : List Int -> Except Fault (Tensor α × Tensor α)) {gradb : Tensor α}
    (engine' : computeImpl' (group :: gradwDims.set 0 ((gradwDims.getD 0 0).tdiv group)) = .ok (gradw, gradb))
    (asked : gradw.desc.dims = (group :: gradwDims.set 0 ((gradwDims.getD 0 0).tdiv group)).map Int.toNat) :
    ConvolutionBackwardWeights.computeGrouped computeImpl gradwDims group =
        (if group ∣ gradwDims.getD 0 0 then .ok (gradw.reshape (gradwDims.map Int.toNat))
        else .error (.enforce "invalid dim 1 in grouped gradw")) ∧
      ConvolutionBackwardWeights.computeGroupedWithBias computeImpl' gradwDims group =
        (if group ∣ gradwDims.getD 0 0 then .ok (gradw.reshape (gradwDims.map Int.toNat), gradb)
        else .error (.enforce "invalid dim 1 in grouped gradw")) := by
  have checked := ungroup_eq grouping ungrouped outputs asked
  refine ⟨by simp only [ConvolutionBackwardWeights.computeGrouped, gwDimsIn_of_grouping grouping ungrouped,
    engine, checked, bind, Except.bind], ?_⟩
  simp only [ConvolutionBackwardWeights.computeGroupedWithBias, gwDimsIn_of_grouping grouping ungrouped,
    engine', checked, bind, Except.bind]
  split_ifs <;> rfl

/-- Four groups over six output channels: the second check fails. -/
theorem computeGrouped_checks_four_over_six :
    ConvolutionBackwardWeights.computeGrouped
        (fun dims => .ok ⟨⟨dims.map Int.toNat, .f32, .goihw⟩, fun i => (i : Int)⟩) [6, 3, 3, 3] 4 =
        (if (4 : Int) ∣ 6 then .ok (Tensor.reshape ⟨⟨[4, 1, 3, 3, 3], .f32, .goihw⟩, fun i => (i : Int)⟩ [6, 3, 3, 3])
        else .error (.enforce "invalid dim 1 in grouped gradw")) ∧
      ConvolutionBackwardWeights.computeGroupedWithBias
        (fun dims => .ok (⟨⟨dims.map Int.toNat, .f32, .goihw⟩, fun i => (i : Int)⟩, ⟨⟨[6], .f32, .x⟩, fun _ => 0⟩))
        [6, 3, 3, 3] 4 =
        (if (4 : Int) ∣ 6 then
          .ok (Tensor.reshape ⟨⟨[4, 1, 3, 3, 3], .f32, .goihw⟩, fun i => (i : Int)⟩ [6, 3, 3, 3],
            ⟨⟨[6], .f32, .x⟩, fun _ => 0⟩)
        else .error (.enforce "invalid dim 1 in grouped gradw")) :=
  computeGrouped_checks (by decide) (by decide) (by decide) _ rfl _ rfl rfl

end Grouped

end WeightsDescriptor
end Ideep
