import Mathlib.Data.Rat.Defs

namespace Ideep

/-!
# Primitive attributes and their key bytes

A `descriptor_group::attr_t` carries the post-ops a primitive applies to its
result, the output scales with their mask, and the rounding mode of integer
outputs.  Its `to_bytes` is the piece of a cache key that stands for the whole
attribute: reorders and convolutions pass `attr` to `utils::create_key`.

`to_bytes` serializes the post-op sequence item by item and then the output
scales and the mask.  The scalar encodings themselves come from
`utils::to_bytes`, which is not part of this source, so they are a parameter
(`ByteEncoding`); what is decided here is what `to_bytes` reads.  The rounding
mode is not among it, so two attributes that differ in the rounding mode alone
get the same bytes under every encoding.

Floats of the engine are kept as exact rationals.
-/

/-- The primitive kinds a post-op entry reports through `op_kind`. -/
inductive Kind where
  | sum | eltwise
  deriving DecidableEq, Repr

/-- The eltwise algorithms of `mkldnn::algorithm`. -/
inductive Algorithm where
  | eltwiseRelu | eltwiseTanh | eltwiseElu | eltwiseSquare | eltwiseAbs | eltwiseSqrt
  | eltwiseLinear | eltwiseBoundedRelu | eltwiseSoftRelu | eltwiseLogistic
  deriving DecidableEq, Repr

/-- `round_mode`. -/
inductive RoundMode where
  | roundNearest | roundDown
  deriving DecidableEq, Repr

/-- One entry of a `post_ops` sequence.  `append` adds an entry only for the
sum and eltwise kinds, so these are all the entries a sequence can hold. -/
inductive PostOp where
  | sum (scale : ℚ)
  | eltwise (scale : ℚ) (alg : Algorithm) (alpha beta : ℚ)
  deriving DecidableEq, Repr

/-- `attr_t`: post-ops, output scales and their mask, integer rounding mode. -/
structure Attr where
  postOps : List PostOp
  outputScales : List ℚ
  mask : Int
  roundMode : RoundMode
  deriving DecidableEq, Repr

namespace PostOp

/-- `op_kind(index)`. -/
def kind : PostOp -> Kind
  | sum _ => .sum
  | eltwise .. => .eltwise

end PostOp

namespace Attr

/-- `attr_t()`: the engine's fresh attribute, no post-ops, the single unit
output scale with mask zero, rounding to nearest. -/
def default : Attr := ⟨[], [1], 0, .roundNearest⟩

/-- `attr_t::fuse_sum(scale)`, through `post_ops::sum`. -/
def fuseSum (scale : ℚ) : Attr := { default with postOps := [.sum scale] }

/-- `attr_t::fuse_relu(scale, alpha, beta)`, through `post_ops::relu`. -/
def fuseRelu (scale alpha beta : ℚ) : Attr :=
  { default with postOps := [.eltwise scale .eltwiseRelu alpha beta] }

/-- `attr_t::residual(scale, alpha, beta)`: a sum, then a relu. -/
def residual (scale alpha beta : ℚ) : Attr :=
  { default with postOps := [.sum scale, .eltwise scale .eltwiseRelu alpha beta] }

end Attr

/-- The encodings `utils::to_bytes` gives each scalar, which this source does
not define. -/
structure ByteEncoding where
  kind : Kind -> List Char
  float : ℚ -> List Char
  algorithm : Algorithm -> List Char
  floats : List ℚ -> List Char
  int : Int -> List Char

namespace PostOp

/-- The bytes of one entry in `post_ops::to_bytes`: the kind and the scale for a
sum; kind, scale, alpha, beta and algorithm for an eltwise, dot separated. -/
def toBytes (enc : ByteEncoding) : PostOp -> List Char
  | sum scale => enc.kind .sum ++ ['.'] ++ enc.float scale
  | eltwise scale alg alpha beta =>
      enc.kind .eltwise ++ ['.'] ++ enc.float scale ++ ['.'] ++ enc.float alpha ++ ['.'] ++
        enc.float beta ++ ['.'] ++ enc.algorithm alg

end PostOp

/-- `post_ops::to_bytes`: the entries' bytes in order, with no count. -/
def postOpsToBytes (enc : ByteEncoding) (ops : List PostOp) : List Char :=
  ops.foldl (fun ret op => ret ++ op.toBytes enc) []

/-- `attr_t::to_bytes`: the post-ops, then the output scales and the mask. -/
def Attr.toBytes (enc : ByteEncoding) (attr : Attr) : List Char :=
  postOpsToBytes enc attr.postOps ++ enc.floats attr.outputScales ++ enc.int attr.mask

/-- The key bytes do not read the rounding mode. -/
theorem Attr.toBytes_roundMode (enc : ByteEncoding) (attr : Attr) (mode : RoundMode) :
    Attr.toBytes enc { attr with roundMode := mode } = Attr.toBytes enc attr := rfl

/-- Two fresh attributes, one switched to rounding down, are distinct
configurations with the same key bytes under every encoding. -/
theorem attr_toBytes_collides_on_roundMode :
    Attr.default ≠ { Attr.default with roundMode := .roundDown } ∧
      forall enc : ByteEncoding,
        Attr.toBytes enc Attr.default = Attr.toBytes enc { Attr.default with roundMode := .roundDown } :=
  ⟨by decide, fun enc => (Attr.toBytes_roundMode enc Attr.default .roundDown).symm⟩

end Ideep
