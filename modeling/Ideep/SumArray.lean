import Ideep.Descriptor
import Mathlib.Algebra.BigOperators.Group.List
import Mathlib.Logic.Function.Basic
import Mathlib.Algebra.Order.Ring.Nat

namespace Ideep
namespace SumArray

/-!
# Reducing a tensor along axes

`sum_array::compute(src, axis, err)` sums `src` over the listed axes.  It
rejects data types outside `f32`, `s32`, `s16`, `s8` and `u8`.  A source in one
of the blocked formats of `optimized_format` goes to `sum_fast_along_axis`,
which takes only a 4-D `nChw8c` or `nChw16c` source reduced over `[0, 2, 3]`;
every other source goes to `sum_common_along_axis`, which takes any non-empty
axis list that leaves 1, 2 or 4 dims.  Both set `err` to `NOERR`, size the
destination and run `do_compute`.

The kernels split the batch (and, in their allreduce phases, the outputs) over
`omp_get_max_threads()` threads, `nthr` here.  The threads write disjoint parts
of their outputs, so they are run one after another.  Elements are those of an
additive commutative monoid: the integer types wrap, and floats are kept exact.
A buffer element the C++ never assigned is `none`, and arithmetic on it stays
`none`; reading through a pointer that was never assigned stops the model with
`uninitializedPointer`.  The channel kernel is modelled by its scalar loop;
its assembly branches on aligned buffers (`vaddps`) add `f32` lanes, which is
the scalar loop's sum for `f32` sources only, so its sums are stated for `f32`.

Dims, offsets and loop bounds are `int` in the source and `Nat` here: the two
agree while a tensor has fewer than `2^31` elements, and past that the
source's arithmetic overflows, which C++ leaves undefined.  The results for
every dims are about that range.

`sum_along_axis` reduces each image over the non-batch axes of the list, and
assigns the workspace `loc_ws[b - bstart]` only in the last pass of that loop.
`Ideep.SumArray.Loops` proves what its loops compute; `Ideep.SumArray.Reduction`
derives from it that the reductions keeping the batch, and those reducing the
batch along with other axes, are the sums they are meant to be; and
`Ideep.SumArray.BatchOnly` shows the one request that passes the checks and
reads a workspace that was never assigned.  `Ideep.SumArray.Axes` states what
the loop over `cur_axis` is for, the row-major sum over the listed axes, and
proves that it computes it for every list of distinct axes after the batch,
in any order.  `Ideep.SumArray.Channel` does the
same for `sum_nChwXC_along_channel`: the per-channel sums when the channels
fill whole blocks, and unassigned channels when they do not.
-/

/-- `err_num_t`, by the codes `compute` stores in `err`. -/
inductive ErrNum where
  | noerr
  | unsupportAxisCommonSum
  | unsupportAxisFastSum
  | unsupportDataType
  deriving DecidableEq, Repr

/-- The value of a code; the checks store a failure's value negated. -/
def ErrNum.value : ErrNum -> Int
  | .noerr => 0
  | .unsupportAxisCommonSum => 1
  | .unsupportAxisFastSum => 2
  | .unsupportDataType => 3

/-! ## The split over threads -/

/-- `blk_nthr` after `if (!blk_len) blk_nthr = mb`: the threads that get a
share of `m` items. -/
def splitThreads (m nthr : Nat) : Nat := if m / nthr = 0 then m else nthr

/-- `blen` of thread `ithr`. -/
def splitLength (m nthr ithr : Nat) : Nat := if ithr < m % nthr then m / nthr + 1 else m / nthr

/-- `bstart` of thread `ithr`. -/
def splitStart (m nthr ithr : Nat) : Nat :=
  if ithr ≤ m % nthr then (m / nthr + 1) * ithr
  else m % nthr * (m / nthr + 1) + (ithr - m % nthr) * (m / nthr)

variable {β : Type} [AddCommMonoid β]

/-- Reading `p[o]` through a pointer `p` that may never have been assigned. -/
def deref (p : Option (Nat -> β)) (o : Nat) : Except Fault β :=
  match p with
  | some f => .ok (f o)
  | none => .error .uninitializedPointer

/-! ## One image of `sum_along_axis` -/

/-- `cur_fore`: the product of `cur_dims[1 .. ax)`. -/
def curFore (curDims : List Nat) (ax : Nat) : Nat := ((curDims.take ax).drop 1).prod

/-- `cur_tail`: the product of `cur_dims[ax + 1 ..)`. -/
def curTail (curDims : List Nat) (ax : Nat) : Nat := (curDims.drop (ax + 1)).prod

/-- The state of the kernel's walk: `w`, `base`, `off` and the workspace. -/
structure Walk (β : Type) where
  w : Nat
  base : Nat
  off : Nat
  ws : Nat -> β

/-- One round of the kernel: `ws[w] += cur_src[off + t * cur_tail]` for `t`
below `D`, then `w++` and the advance of `off` and `base`. -/
def walkStep (D tail : Nat) (curSrc : Nat -> β) (s : Walk β) : Walk β :=
  let ws := (List.range D).foldl
    (fun ws t => Function.update ws s.w (ws s.w + curSrc (s.off + t * tail))) s.ws
  if (s.w + 1) % tail = 0 then ⟨s.w + 1, s.base + tail * D, s.base + tail * D, ws⟩
  else ⟨s.w + 1, s.base, s.off + 1, ws⟩

/-- The kernel: a zeroed workspace of `cur_fore * cur_tail` elements, filled
by that many rounds of the walk along `cur_dims[ax]`. -/
def kernel (curDims : List Nat) (ax : Nat) (curSrc : Nat -> β) : Nat -> β :=
  (Nat.iterate (walkStep (curDims.getD ax 0) (curTail curDims ax) curSrc)
    (curFore curDims ax * curTail curDims ax) ⟨0, 0, 0, fun _ => 0⟩).ws

/-- The state of the loop over `cur_axis` for one image. -/
structure Image (β : Type) where
  curDims : List Nat
  curAxis : List Nat
  curSrc : Nat -> β
  locWs : Option (Nat -> β)

/-- Pass `a` of `passes`: sum along `cur_axis[a]`, erase that dim, decrement
the later entries above it, and assign `loc_ws` in the last pass. -/
def imagePass (passes : Nat) (s : Image β) (a : Nat) : Image β :=
  let ax := s.curAxis.getD a 0
  let ws := kernel s.curDims ax s.curSrc
  ⟨s.curDims.eraseIdx ax, s.curAxis.mapIdx fun i c => if a < i ∧ ax < c then c - 1 else c, ws,
    if a = passes - 1 then some ws else s.locWs⟩

/-- `cur_axis`: the non-batch entries of `axis`, each inserted at the front. -/
def curAxisOf (axis : List Nat) : List Nat :=
  axis.foldl (fun acc a => if a ≠ 0 then a :: acc else acc) []

/-- The loop for one image, whose elements are `image`: what `loc_ws[b -
bstart]` holds after it, from the value `unset` it held before. -/
def reduceImage (dims axis : List Nat) (image : Nat -> β) (unset : Option (Nat -> β)) :
    Option (Nat -> β) :=
  let curAxis := curAxisOf axis
  ((List.range curAxis.length).foldl (imagePass curAxis.length) ⟨dims, curAxis, image, unset⟩).locWs

/-! ## `sum_along_axis` -/

/-- `loc_ws` of a thread after the loop over its images `bstart + j`, `j`
below `blen`; the array starts unassigned. -/
def localWorkspaces (dims axis : List Nat) (src : Nat -> β) (tail bstart blen : Nat) :
    Nat -> Option (Nat -> β) :=
  (List.range blen).foldl (fun locWs j => Function.update locWs j
    (reduceImage dims axis (fun i => src ((bstart + j) * tail + i)) (locWs j))) fun _ => none

/-- The special case's `loc_ws[0]`: a zeroed buffer of `tail` elements plus
each row of the thread. -/
def rowSum (src : Nat -> β) (tail bstart blen : Nat) : Nat -> β :=
  (List.range blen).foldl (fun acc j o => if o < tail then acc o + src ((bstart + j) * tail + o) else acc o)
    fun _ => 0

/-- The local allreduce: `loc_ws[0][o] += loc_ws[b][o]` for `b` from 1 and
`o` below `gbl_ws_size`. -/
def localAllreduce (gbl blen : Nat) (locWs : Nat -> Option (Nat -> β)) :
    Except Fault (Option (Nat -> β)) :=
  ((List.range blen).drop 1).foldlM (fun acc b =>
    (List.range gbl).foldlM (fun acc o => do
      let x ← deref acc o
      let y ← deref (locWs b) o
      pure (acc.map fun f => Function.update f o (x + y))) acc) (locWs 0)

/-- The copy to `dst`: `dst[b * gbl_ws_size + o] = loc_ws[b - bstart][o]`. -/
def copyToDst (gbl bstart blen : Nat) (locWs : Nat -> Option (Nat -> β)) (dst : Nat -> Option β) :
    Except Fault (Nat -> Option β) :=
  (List.range blen).foldlM (fun dst j =>
    (List.range gbl).foldlM (fun dst o => do
      let v ← deref (locWs j) o
      pure (Function.update dst ((bstart + j) * gbl + o) (some v))) dst) dst

/-- `dst[c] += loc_buf[c]` for the `clen` elements from `cstart`, `loc_buf`
being the workspace `ws` of a batch thread. -/
def addShare (cstart clen : Nat) (ws : Option (Nat -> β)) (dst : Nat -> Option β) :
    Except Fault (Nat -> Option β) :=
  (List.range clen).foldlM (fun dst k => do
    let v ← deref ws (cstart + k)
    pure (Function.update dst (cstart + k) ((dst (cstart + k)).map (· + v)))) dst

/-- Thread `ithr` of the global allreduce: zero its share of `dst`, then add
`gbl_ws[i]` of every batch thread `i`. -/
def reduceThread (nthr gbl blkNthr : Nat) (gblWs : Nat -> Option (Nat -> β)) (dst : Nat -> Option β)
    (ithr : Nat) : Except Fault (Nat -> Option β) :=
  let cstart := splitStart gbl nthr ithr
  let clen := splitLength gbl nthr ithr
  (List.range blkNthr).foldlM (fun dst i => addShare cstart clen (gblWs i) dst)
    fun c => if cstart ≤ c ∧ c < cstart + clen then some 0 else dst c

/-- The global allreduce, over the threads of the split of `gbl_ws_size`. -/
def globalAllreduce (nthr gbl blkNthr : Nat) (gblWs : Nat -> Option (Nat -> β))
    (dst : Nat -> Option β) : Except Fault (Nat -> Option β) :=
  (List.range (splitThreads gbl nthr)).foldlM (reduceThread nthr gbl blkNthr gblWs) dst

/-- `gbl_ws_size`: the product of the dims after the batch that are not
reduced. -/
def gblWsSize (dims axis : List Nat) : Nat :=
  (((List.range dims.length).filter fun d => decide (1 ≤ d ∧ d ∉ axis)).map (dims.getD · 0)).prod

/-- Thread `ithr` of the region over the batch: reduce its images, then either
publish `loc_ws[0]` as `gbl_ws[ithr]` after the local allreduce, or copy the
workspace of each image to `dst`. -/
def batchThread (nthr : Nat) (src : Nat -> β) (srcDesc : Descriptor) (axis : List Nat)
    (acc : (Nat -> Option (Nat -> β)) × (Nat -> Option β)) (ithr : Nat) :
    Except Fault ((Nat -> Option (Nat -> β)) × (Nat -> Option β)) := do
  let dims := srcDesc.dims
  let tail := (dims.drop 1).prod
  let gbl := gblWsSize dims axis
  let mb := dims.getD 0 0
  let blen := splitLength mb nthr ithr
  let bstart := splitStart mb nthr ithr
  let locWs := localWorkspaces dims axis src tail bstart blen
  if 0 ∈ axis then
    let loc0 ← if srcDesc.ndims = 2 ∧ axis = [0] then pure (some (rowSum src tail bstart blen))
      else localAllreduce gbl blen locWs
    pure (Function.update acc.1 ithr loc0, acc.2)
  else
    let dst ← copyToDst gbl bstart blen locWs acc.2
    pure (acc.1, dst)

/-- `sum_along_axis(src, src_desc, axis, dst)`: the region over the batch, and
the global allreduce when the batch is reduced. -/
def sumAlongAxis (nthr : Nat) (src : Nat -> β) (srcDesc : Descriptor) (axis : List Nat)
    (dst : Nat -> Option β) : Except Fault (Nat -> Option β) := do
  let blkNthr := splitThreads (srcDesc.dims.getD 0 0) nthr
  let (gblWs, dst) ← (List.range blkNthr).foldlM (batchThread nthr src srcDesc axis) (fun _ => none, dst)
  if 0 ∈ axis then globalAllreduce nthr (gblWsSize srcDesc.dims axis) blkNthr gblWs dst else pure dst

/-! ## `sum_nChwXC_along_channel` -/

/-- The state of a thread of the channel kernel: `loc_src` as an offset, and
`buf`. -/
structure Channel (β : Type) where
  locSrc : Nat
  buf : Nat -> Option β

/-- `cg`: 16 channels a block in `nChw16c`, 8 otherwise. -/
def channelGroup (format : Format) : Nat := if format = .nChw16c then 16 else 8

/-- One pixel of the block at `block` of `buf`: `loc_buf[o] += loc_src[o]` for
every `o < cg`, then `loc_src += cg`. -/
def channelPixel (src : Nat -> β) (cg block : Nat) (s : Channel β) : Channel β :=
  ⟨s.locSrc + cg, fun p => if block ≤ p ∧ p < block + cg then
    (s.buf p).map (· + src (s.locSrc + (p - block))) else s.buf p⟩

/-- Block `c` of image `b` of thread `ithr`, at `loc_buf = buf + ithr * ic +
c * cg`: zeroed on the thread's first image, then added every pixel. -/
def channelBlock (src : Nat -> β) (ic pixels cg ithr bstart b : Nat) (s : Channel β) (c : Nat) :
    Channel β :=
  let block := ithr * ic + c * cg
  let zeroed : Nat -> Option β :=
    if b = bstart then fun p => if block ≤ p ∧ p < block + cg then some 0 else s.buf p else s.buf
  Nat.iterate (channelPixel src cg block) pixels ⟨s.locSrc, zeroed⟩

/-- One image `b` of thread `ithr`: its `cn` blocks of `cg` channels. -/
def channelImage (src : Nat -> β) (ic pixels cg cn ithr bstart : Nat) (s : Channel β) (b : Nat) :
    Channel β :=
  (List.range cn).foldl (channelBlock src ic pixels cg ithr bstart b) s

/-- Thread `ithr` of the pass over the batch: its images `[bstart, bend)`, with
`loc_src = src + bstart * ic * ih * iw`. -/
def channelThread (src : Nat -> β) (mb ic pixels cg cn nthr : Nat) (buf : Nat -> Option β) (ithr : Nat) :
    Nat -> Option β :=
  let bstart := splitStart mb nthr ithr
  ((List.range (splitLength mb nthr ithr)).foldl
    (fun s j => channelImage src ic pixels cg cn ithr bstart s (bstart + j)) ⟨bstart * ic * pixels, buf⟩).buf

/-- Thread `ithr` of the allreduce: `dst[c] = 0` over its share of the
channels, then `dst[c] += loc_buf[c]` with `loc_buf = buf + i * ic` for every
batch thread `i`. -/
def channelReduceThread (nthr ic blkNthr : Nat) (buf dst : Nat -> Option β) (ithr : Nat) :
    Nat -> Option β :=
  let cstart := splitStart ic nthr ithr
  let clen := splitLength ic nthr ithr
  (List.range blkNthr).foldl (fun dst i =>
      (List.range clen).foldl (fun dst k =>
        Function.update dst (cstart + k)
          ((dst (cstart + k)).bind fun d => (buf (i * ic + (cstart + k))).map (d + ·))) dst)
    fun c => if cstart ≤ c ∧ c < cstart + clen then some 0 else dst c

/-- `sum_nChwXC_along_channel(src, src_desc, axis, dst)`, by its scalar
loop, which its aligned `vaddps` branches equal for `f32` sources. -/
def sumNChwXCAlongChannel (nthr : Nat) (src : Nat -> β) (srcDesc : Descriptor) (dst : Nat -> Option β) :
    Nat -> Option β :=
  let mb := srcDesc.dims.getD 0 0
  let ic := srcDesc.dims.getD 1 0
  let pixels := srcDesc.dims.getD 2 0 * srcDesc.dims.getD 3 0
  let cg := channelGroup srcDesc.format
  let blkNthr := splitThreads mb nthr
  let buf := (List.range blkNthr).foldl (channelThread src mb ic pixels cg (ic / cg) nthr) fun _ => none
  (List.range (splitThreads ic nthr)).foldl (channelReduceThread nthr ic blkNthr buf) dst

/-! ## The entry points -/

/-- `get_dst_dims(src_dims, axis)`: the dims not listed. -/
def getDstDims (srcDims axis : List Nat) : List Nat :=
  ((List.range srcDims.length).filter fun d => decide (d ∉ axis)).map (srcDims.getD · 0)

/-- `engine::default_format(ndims)` for the ranks a reduction leaves. -/
def defaultFormat : Nat -> Format
  | 1 => .x
  | 2 => .nc
  | 4 => .nchw
  | _ => .other 0

/-- `do_compute(src, dst)`: the channel kernel for an optimized format, the
axis kernel otherwise. -/
def doCompute (nthr : Nat) (axis : List Nat) (src : Tensor β) (dst : Nat -> Option β) :
    Except Fault (Nat -> Option β) :=
  if src.desc.dataType = .undef then .ok dst
  else if src.desc.format.optimized then .ok (sumNChwXCAlongChannel nthr src.data src.desc dst)
  else sumAlongAxis nthr src.data src.desc axis dst

/-- The check of `sum_common_along_axis`: a non-empty axis list leaving 1, 2
or 4 dims. -/
def commonCheck (ndims : Nat) (axis : List Nat) : ErrNum :=
  let dstNdims : Int := (ndims : Int) - axis.length
  if (dstNdims ≠ 1 ∧ dstNdims ≠ 2 ∧ dstNdims ≠ 4) ∨ axis.length = 0 then .unsupportAxisCommonSum
  else .noerr

/-- `sum_common_along_axis(src, axis, err)`, eager: the destination, or
`tensor()` for `none`, and the value left in `err`. -/
def sumCommonAlongAxis (nthr : Nat) (src : Tensor β) (axis : List Nat) :
    Except Fault (Option (Tensor (Option β)) × Int) :=
  match commonCheck src.desc.ndims axis with
  | .noerr =>
      let dstDesc : Descriptor := ⟨getDstDims src.desc.dims axis, src.desc.dataType,
        defaultFormat (src.desc.ndims - axis.length)⟩
      (doCompute nthr axis src fun _ => none).map fun data => (some ⟨dstDesc, data⟩, ErrNum.noerr.value)
  | err => .ok (none, -err.value)

/-- The check of `sum_fast_along_axis`: a 4-D `nChw8c` or `nChw16c` source
reduced over `[0, 2, 3]`. -/
def fastCheck (src : Descriptor) (axis : List Nat) : ErrNum :=
  if src.ndims ≠ 4 ∨ axis.length ≠ 3 then .unsupportAxisFastSum
  else match src.format with
    | .nChw8c | .nChw16c => if axis = [0, 2, 3] then .noerr else .unsupportAxisFastSum
    | _ => .unsupportAxisFastSum

/-- `sum_fast_along_axis(src, axis, err)`, eager. -/
def sumFastAlongAxis (nthr : Nat) (src : Tensor β) (axis : List Nat) :
    Except Fault (Option (Tensor (Option β)) × Int) :=
  match fastCheck src.desc axis with
  | .noerr =>
      let dstDesc : Descriptor := ⟨[src.desc.dims.getD 1 0], src.desc.dataType, .x⟩
      (doCompute nthr axis src fun _ => none).map fun data => (some ⟨dstDesc, data⟩, ErrNum.noerr.value)
  | err => .ok (none, -err.value)

/-- `sum_array::compute(src, axis, err)`, eager. -/
def compute (nthr : Nat) (src : Tensor β) (axis : List Nat) :
    Except Fault (Option (Tensor (Option β)) × Int) :=
  if src.desc.dataType = .undef then .ok (none, -ErrNum.unsupportDataType.value)
  else if src.desc.format.optimized then sumFastAlongAxis nthr src axis
  else sumCommonAlongAxis nthr src axis

end SumArray
end Ideep
