import Ideep.Attr
import Ideep.Computation
import Mathlib

namespace Ideep

/-!
# Fusing a later operator into a pending convolution

With web optimization on, `convolution_forward::compute` enqueues a node for
the convolution instead of running it, built with the `attr` of the request.
`init_web_opt_fusion` stores `conv_fuse`, which rebuilds that convolution with
a new attribute from what it captures: the source, weights, bias, destination
dims, strides, dilates, paddings, algorithm, propagation and padding kinds.
The pending attribute is not among them.

An operator whose input is a pending convolution's output enqueues a node
carrying a `fusion_attr_t`, and `convolution_forward::fuse_if_necessary`
reads it:

* `CN_FUSION_RELU {alpha, beta}`, from `eltwise_forward::compute` with
  `eltwise_relu`: the convolution is rebuilt with `attr_t::fuse_relu(1.0,
  alpha, beta)`;
* `CN_FUSION_SUM {scales[0]}`: if the destination is materialized, the
  convolution is rebuilt with `attr_t::fuse_sum(scales[0])`;
* `CN_FUSION_BN`, from `batch_normalization_forward_inference::compute`: the
  batch norm is folded into the weights (`Ideep.Folding`).

Which pending node the web offers to which later node is decided by
`utils::computation_web`, which is not part of this source; the results here
hold for every pair it could offer.

`sum::compute` is the only producer of `CN_FUSION_SUM`, and it attaches it only
when its output is its first input and no input shares the output's buffer.
The first input does, so no node of this source carries a sum fusion
(`Sum.node_never_fuses`): such a sum runs at once.

The engine's meaning of an attribute is not part of this source; it is
modelled from the engine's contract, per output element: the plain result `y`
is multiplied by the element's output scale, then each post-op in turn either
adds `scale` times the destination's previous value (sum) or replaces the
result `r` by `scale * f(r)` (eltwise).  `eltwise_relu` is `r` above zero and
`alpha * r` otherwise; the other eltwise formulas are a parameter.  Values are
exact, so the rounding mode, which only applies to integer outputs, plays no
part.

The relu rewrite replaces the pending attribute by `fuse_relu(1.0, alpha,
beta)`: the pending convolution's own post-ops and output scales are lost.
-/

/-- `fusion_type_t`. -/
inductive FusionType where
  | na | relu | sum | bn
  deriving DecidableEq, Repr

/-- `fusion_attr_t`: the kind of fusion, its float parameters, and the tensors
a batch-norm fold needs (mean, variance, scale, shift). -/
structure FusionAttr (T : Type) where
  ftype : FusionType
  fattrs : List ℚ
  deps : List T
  deriving DecidableEq, Repr

namespace FusionAttr

variable {T : Type}

/-- `fusion_attr_t{ CN_FUSION_NA, {}, {} }`. -/
def none : FusionAttr T := ⟨.na, [], []⟩

/-- The attribute `eltwise_forward::compute` puts on its node. -/
def ofEltwiseForward (alg : Algorithm) (alpha beta : ℚ) : FusionAttr T :=
  if alg = .eltwiseRelu then ⟨.relu, [alpha, beta], []⟩ else none

/-- The attribute `batch_normalization_forward_inference::compute` puts on
its node. -/
def ofBatchNorm (epsilon : ℚ) (mean variance scale shift : T) : FusionAttr T :=
  ⟨.bn, [epsilon], [mean, variance, scale, shift]⟩

end FusionAttr

/-! ## The node of `sum::compute` -/

namespace Sum

open Computation

/-- `inplace`: some input's data handle is the output's. -/
def inplace (inputs : List Bound) (output : Bound) : Bool :=
  inputs.any fun input => input.buffer == output.buffer

/-- The fusion attribute of the node `sum::compute<alloc, web_opt>(scales,
inputs, output)` creates, or `none` when it creates no node and sums at once.
Both branches create a node only under `web_opt && !inplace`; when the output
is not the first input the node is created without a fusion attribute, which
is `CN_FUSION_NA`.  An empty input list, where the source reads past the
vector, goes to that first branch. -/
def node (webOpt : Bool) (scales : List ℚ) (inputs : List Bound) (output : Bound) :
    Option (FusionAttr Bound) :=
  if inputs.head? ≠ some output then
    if webOpt && !inplace inputs output then some FusionAttr.none else none
  else if webOpt && !inplace inputs output then
    some (if inputs.length = 2 then ⟨.sum, [scales.getD 0 0], []⟩ else FusionAttr.none)
  else none

@[simp] theorem inplace_cons_self (output : Bound) (rest : List Bound) :
    inplace (output :: rest) output = true := by
  simp [inplace]

/-- A sum into its first input is always in place, so it creates no node. -/
theorem node_cons_self (webOpt : Bool) (scales : List ℚ) (output : Bound) (rest : List Bound) :
    node webOpt scales (output :: rest) output = none := by
  simp [node]

/-- Every node `sum::compute` creates carries `CN_FUSION_NA`. -/
theorem node_eq_none_attr {webOpt : Bool} {scales : List ℚ} {inputs : List Bound} {output : Bound}
    {fattr : FusionAttr Bound} (made : node webOpt scales inputs output = some fattr) :
    fattr = FusionAttr.none := by
  cases inputs with
  | nil =>
      simp only [node, List.head?_nil, ne_eq, reduceCtorEq, not_false_eq_true, if_true] at made
      split at made <;> simp_all
  | cons first rest =>
      by_cases same : first = output
      · rw [same, node_cons_self] at made
        cases made
      · simp only [node, List.head?_cons, ne_eq, Option.some.injEq, same, not_false_eq_true,
          if_true] at made
        split at made <;> simp_all

end Sum

/-! ## The pending convolution and `fuse_if_necessary` -/

/-- A pending `convolution_forward` node: what `conv_fuse` captures,
`operands`, and the attribute the convolution was created with. -/
structure ConvolutionForward (C : Type) where
  operands : C
  attr : Attr

/-- What `fuse_if_necessary` returns: a rebuilt convolution (`conv_fuse`), a
batch-norm fold (`conv_bn_folding`) with its epsilon and dependencies, or no
fused node. -/
inductive Rewrite (C T : Type) where
  | fuse (conv : ConvolutionForward C)
  | fold (epsilon : ℚ) (deps : List T)
  | keep

namespace ConvolutionForward

variable {C T : Type}

/-- `conv_fuse(dst, attr)`: the convolution rebuilt from the captured operands
with `attr`. -/
def convFuse (conv : ConvolutionForward C) (attr : Attr) : ConvolutionForward C :=
  ⟨conv.operands, attr⟩

/-- `convolution_forward::fuse_if_necessary`, given whether the destination
`dst` is materialized. -/
def fuseIfNecessary (conv : ConvolutionForward C) (tarAttr : FusionAttr T)
    (dstMaterialized : Bool) : Rewrite C T :=
  match tarAttr.ftype with
  | .relu => .fuse (conv.convFuse (Attr.fuseRelu 1 (tarAttr.fattrs.getD 0 0) (tarAttr.fattrs.getD 1 0)))
  | .sum =>
      if dstMaterialized then .fuse (conv.convFuse (Attr.fuseSum (tarAttr.fattrs.getD 0 0))) else .keep
  | .bn => .fold (tarAttr.fattrs.getD 0 0) tarAttr.deps
  | .na => .keep

/-- A relu node rebuilds the convolution with `fuse_relu(1.0, alpha, beta)`
in place of its own attribute. -/
theorem fuseIfNecessary_relu (conv : ConvolutionForward C) (alpha beta : ℚ) (dstMaterialized : Bool) :
    conv.fuseIfNecessary (FusionAttr.ofEltwiseForward .eltwiseRelu alpha beta : FusionAttr T)
      dstMaterialized = .fuse ⟨conv.operands, Attr.fuseRelu 1 alpha beta⟩ := rfl

@[simp] theorem fuseIfNecessary_none (conv : ConvolutionForward C) (dstMaterialized : Bool) :
    conv.fuseIfNecessary (FusionAttr.none : FusionAttr T) dstMaterialized = .keep := rfl

end ConvolutionForward

/-- No node of `sum::compute` makes `fuse_if_necessary` rebuild a pending
convolution: a sum into its first input creates no node, and every node it
creates carries `CN_FUSION_NA`, which every pending convolution keeps. -/
theorem Sum.node_never_fuses {C : Type} (webOpt : Bool) (scales : List ℚ)
    (inputs : List Computation.Bound) (output : Computation.Bound) :
    Sum.node webOpt scales (output :: inputs) output = none ∧
      ∀ fattr ∈ Sum.node webOpt scales inputs output, fattr.ftype = .na ∧
        ∀ (conv : ConvolutionForward C) (dstMaterialized : Bool),
          conv.fuseIfNecessary fattr dstMaterialized = .keep := by
  refine ⟨Sum.node_cons_self webOpt scales output inputs, fun fattr made => ?_⟩
  rw [Sum.node_eq_none_attr made]
  exact ⟨rfl, fun conv dstMaterialized => conv.fuseIfNecessary_none dstMaterialized⟩

/-! ## Values of one output element -/

section Values

variable {R : Type} [LinearOrderedField R] (others : Algorithm -> R -> R -> R -> R)

/-- The output scale of an element: the one scale when `mask` is zero,
otherwise the scale at the element's position `index` along the masked
dimensions. -/
def Attr.outputScaleAt (attr : Attr) (index : Nat) : ℚ :=
  if attr.mask = 0 then attr.outputScales.getD 0 1 else attr.outputScales.getD index 1

/-- The engine's eltwise formula for `alg`. -/
def eltwiseValue (alg : Algorithm) (alpha beta x : R) : R :=
  match alg with
  | .eltwiseRelu => if 0 < x then x else alpha * x
  | _ => others alg alpha beta x

/-- One post-op over the result so far, with `prev` the destination's value
before the primitive ran. -/
def postOpValue (prev : R) (acc : R) : PostOp -> R
  | .sum scale => acc + scale * prev
  | .eltwise scale alg alpha beta => scale * eltwiseValue others alg alpha beta acc

/-- The element a convolution built with `attr` writes where its plain result
is `y`, its output scale is the one at `index`, and the destination held
`prev`. -/
def convolutionValue (attr : Attr) (index : Nat) (prev y : R) : R :=
  attr.postOps.foldl (postOpValue others prev) ((attr.outputScaleAt index : R) * y)

/-- The element `sum::compute(scales, {a, b}, out)` writes. -/
def sumValue (scales : List ℚ) (a b : R) : R :=
  (scales.getD 0 0 : R) * a + (scales.getD 1 0 : R) * b

theorem convolutionValue_fuseRelu (index : Nat) (prev y : R) (alpha beta : ℚ) :
    convolutionValue others (Attr.fuseRelu 1 alpha beta) index prev y =
      eltwiseValue others .eltwiseRelu alpha beta y := by
  simp [convolutionValue, Attr.fuseRelu, Attr.default, Attr.outputScaleAt, postOpValue]

theorem convolutionValue_fuseSum (index : Nat) (prev y : R) (scale : ℚ) :
    convolutionValue others (Attr.fuseSum scale) index prev y = y + scale * prev := by
  simp [convolutionValue, Attr.fuseSum, Attr.default, Attr.outputScaleAt, postOpValue]

/-- A convolution created with `fuse_sum(1.0)`, whose plain result at an
element is `-1` over a destination holding `2`, followed by a relu with `alpha
= beta = 0`: the pair writes `relu(-1 + 2) = 1`, the rebuilt convolution
`relu(-1) = 0`. -/
theorem reluFusion_drops_pending_attr {C : Type} (operands : C) (dstMaterialized : Bool)
    (index : Nat) :
    exists fused, (⟨operands, Attr.fuseSum 1⟩ : ConvolutionForward C).fuseIfNecessary
        (FusionAttr.ofEltwiseForward .eltwiseRelu 0 0 : FusionAttr Computation.Bound) dstMaterialized = .fuse fused ∧
      convolutionValue others fused.attr index (2 : R) (-1) = 0 ∧
      eltwiseValue others .eltwiseRelu 0 0 (convolutionValue others (Attr.fuseSum 1) index (2 : R) (-1)) = 1 := by
  refine ⟨_, ConvolutionForward.fuseIfNecessary_relu _ 0 0 dstMaterialized, ?_, ?_⟩
  · rw [convolutionValue_fuseRelu]
    norm_num [eltwiseValue]
  · rw [convolutionValue_fuseSum]
    norm_num [eltwiseValue]

end Values

end Ideep
