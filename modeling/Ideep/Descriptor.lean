import Mathlib.Data.List.Basic

namespace Ideep

/-!
# Tensor descriptors, tensors and faults

A `tensor::descriptor` of the library fixes the dims, the element type and the
physical memory format of a buffer.  Two descriptors are equal exactly when all
three agree, which is what the derived equality below decides.  Dims are the
positive `int`s of `tensor::dims`; they are kept as `Nat` since no modelled
operator builds a negative dim.  The operators compute element counts and
offsets from them in `int` as well, and in `Nat` here: the two agree while a
tensor has fewer than `2^31` elements, past which the source's arithmetic
overflows and its behaviour is undefined.  A tensor is a descriptor with the elements of
its buffer, and every modelled operator either returns or stops with a
`Fault`.
-/

/-- The element types of `tensor::data_type`. -/
inductive DataType where
  | undef | f32 | s32 | s16 | s8 | u8
  deriving DecidableEq, Repr, Inhabited

/-- The memory formats the modelled operators name, by their engine names.
Every other format of the engine is one of the `other` codes. -/
inductive Format where
  | x | nc | oi | ncw | nchw | nhwc | oihw | goihw
  | nChw8c | nChw16c
  | OIhw8i8o | OIhw16i16o | OIhw8i16o2i | OIhw8o16i2o | OIhw8o8i | OIhw16o16i
  | Oihw8o | Oihw16o
  | other (code : Nat)
  deriving DecidableEq, Repr, Inhabited

namespace Format

/-- Plain (row-major) formats, those `is_public_format` accepts. -/
def isPublic : Format -> Bool
  | x | nc | oi | ncw | nchw | nhwc | oihw | goihw => true
  | _ => false

/-- `sum_array::optimized_format`: the blocked formats routed to the fast
channel reduction. -/
def optimized : Format -> Bool
  | nChw16c | nChw8c | OIhw8i8o | OIhw16i16o | OIhw8i16o2i | OIhw8o16i2o
  | OIhw8o8i | OIhw16o16i | Oihw8o | Oihw16o => true
  | _ => false

end Format

/-- A `tensor::descriptor`: dims, element type and memory format. -/
structure Descriptor where
  dims : List Nat
  dataType : DataType
  format : Format
  deriving DecidableEq, Repr, Inhabited

namespace Descriptor

/-- `ndims()`. -/
def ndims (desc : Descriptor) : Nat := desc.dims.length

end Descriptor

/-- A tensor as the kernels of this source read it: its descriptor and the
elements behind `get_data_handle()`, by flat offset. -/
structure Tensor (α : Type) where
  desc : Descriptor
  data : Nat -> α

/-- `get_dim(i)`. -/
def Tensor.dim {α : Type} (t : Tensor α) (i : Nat) : Nat := t.desc.dims.getD i 0

namespace Tensor

variable {α : Type}

/-- `tensor::reshape(new_dims)`, from its contract in `tensor.hpp`: the dims
change and the buffer, in row-major order, stays. -/
def reshape (t : Tensor α) (newDims : List Nat) : Tensor α :=
  ⟨{ t.desc with dims := newDims }, t.data⟩

@[simp] theorem reshape_data (t : Tensor α) (newDims : List Nat) : (t.reshape newDims).data = t.data :=
  rfl

@[simp] theorem reshape_dims (t : Tensor α) (newDims : List Nat) : (t.reshape newDims).desc.dims = newDims :=
  rfl

@[simp] theorem reshape_dataType (t : Tensor α) (newDims : List Nat) :
    (t.reshape newDims).desc.dataType = t.desc.dataType :=
  rfl

theorem reshape_self (t : Tensor α) : t.reshape t.desc.dims = t := rfl

end Tensor

/-- How an operator of this source stops: an `IDEEP_ENFORCE` with its
message, a runtime error with its message, an `assert`, `std::vector::at` out
of range, or an operation C++ leaves undefined: an integer division by zero,
the first element of an empty vector, or a read through a pointer never
assigned. -/
inductive Fault where
  | enforce (message : String)
  | runtime (message : String)
  | assertion
  | outOfRange
  | divisionByZero
  | frontOfEmpty
  | uninitializedPointer
  deriving DecidableEq, Repr

/-- C++ `int` division, which truncates and is undefined for a zero divisor. -/
def divide (a b : Int) : Except Fault Int :=
  if b = 0 then .error .divisionByZero else .ok (a.tdiv b)

/-- C++ `int` remainder, with the sign of the dividend. -/
def remainder (a b : Int) : Except Fault Int :=
  if b = 0 then .error .divisionByZero else .ok (a.tmod b)

end Ideep
