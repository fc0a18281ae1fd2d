import Ideep.Buffer
import Ideep.Descriptor
import Mathlib.Tactic.Ring

namespace Ideep
namespace ChannelShuffle

/-!
# Channel shuffle

`channel_shuffle_forward::compute_impl` reads the `C` channels of an nchw image
as a `group × K` matrix of `S = h * w` element planes and writes its transpose:
input channel `g * K + i` becomes output channel `i * group + g`.  The backward
pass of `channel_shuffle_backward::compute_impl` runs the same loop nest with the
two offsets exchanged.  Both passes are one definition here, `shuffleImpl`,
applied to each pass's own pair of offsets.

The loop nest is a run of `memcpy` writes (`Ideep.Buffer`).  Its correctness
rests on the offset arithmetic alone: the blocks of a pass lie inside the
tensor, no two of them overlap, and together they cover it.  From that the
forward pass is the channel transpose, whatever the destination held, and
the two passes undo each other.

The entry points `compute` refuse an in-place call and a rank other than four,
reorder a blocked source to `nchw`, and run `compute_impl`.  That body divides
`C / group` before it checks `C % group == 0`, so a group of zero stops on an
integer division by zero, and it is the only group that does.

The source computes dims and offsets in `int`, and the model in `Nat`.  They
agree while a tensor has fewer than `2^31` elements; past that the source's
arithmetic overflows, which C++ leaves undefined, and the results for every
shape are about the model alone.
-/

variable {α : Type}

/-- One `memcpy` of `S` elements from `src + srcOffset` to `dst + dstOffset`. -/
def copyChannel (src : Nat -> α) (dstOffset srcOffset S : Nat) : Write Nat α where
  covers p := decide (dstOffset ≤ p ∧ p < dstOffset + S)
  value p := src (srcOffset + (p - dstOffset))

/-- `g * S + n * C * S + group * S * i`: where channel `i * group + g` of image
`n` starts in an nchw buffer. -/
def shuffledOffset (C S group n g i : Nat) : Nat := g * S + n * C * S + group * S * i

/-- `g * K * S + n * C * S + S * i`: where channel `g * K + i` of image `n`
starts. -/
def groupedOffset (C S K n g i : Nat) : Nat := g * K * S + n * C * S + S * i

/-- The loop nest of both passes: for every image `n`, group `g < group` and
`i < K`, copy one plane between the pass's offsets. -/
def shuffleLoops (N group K S : Nat) (dstOffset srcOffset : Nat -> Nat -> Nat -> Nat)
    (src dst : Nat -> α) : Nat -> α :=
  (List.range N).foldl (fun dst n =>
    (List.range group).foldl (fun dst g =>
      (List.range K).foldl (fun dst i =>
        (copyChannel src (dstOffset n g i) (srcOffset n g i) S).apply dst) dst) dst) dst

/-- The body both `compute_impl` share, given the destination and source
offsets of the pass.  The checks come in the order of the source, after the
division `C / group`; a group of at most one is the `direct_copy` branch. -/
def shuffleImpl (dstOffset srcOffset : Nat -> Nat -> Nat -> Nat -> Nat -> Nat -> Nat -> Nat)
    (src : Tensor α) (dst : Nat -> α) (group : Int) : Except Fault (Nat -> α) := do
  let C := src.dim 1
  let K ← divide C group
  let S := src.dim 2 * src.dim 3
  let r ← remainder C group
  if r ≠ 0 then throw (.enforce "Invalid channel and group")
  if src.desc.dataType ≠ .f32 then throw (.enforce "invalid data type")
  if group ≤ 1 then return src.data
  return shuffleLoops (src.dim 0) group.toNat K.toNat S
    (dstOffset C S group.toNat K.toNat) (srcOffset C S group.toNat K.toNat) src.data dst

/-- `channel_shuffle_forward::compute_impl`: `X + groupedOffset` to
`Y + shuffledOffset`. -/
def ChannelShuffleForward.computeImpl (src : Tensor α) (dst : Nat -> α) (group : Int) :
    Except Fault (Nat -> α) :=
  shuffleImpl (fun C S group _ => shuffledOffset C S group)
    (fun C S _ K => groupedOffset C S K) src dst group

/-- `channel_shuffle_backward::compute_impl`: `dY + shuffledOffset` to
`dX + groupedOffset`. -/
def ChannelShuffleBackward.computeImpl (grady : Tensor α) (gradx : Nat -> α) (group : Int) :
    Except Fault (Nat -> α) :=
  shuffleImpl (fun C S _ K => groupedOffset C S K)
    (fun C S group _ => shuffledOffset C S group) grady gradx group

/-! ## Offset geometry -/

section Geometry

variable {N K S group : Nat}

theorem shuffledOffset_eq (n g i : Nat) :
    shuffledOffset (group * K) S group n g i = (n * (group * K) + (i * group + g)) * S := by
  unfold shuffledOffset; ring

theorem groupedOffset_eq (n g i : Nat) :
    groupedOffset (group * K) S K n g i = (n * (group * K) + (g * K + i)) * S := by
  unfold groupedOffset; ring

/-- Element `s` of channel `c` of image `n` lies inside the tensor. -/
theorem plane_lt {C n c s : Nat} (image : n < N) (channel : c < C) (element : s < S) :
    (n * C + c) * S + s < N * C * S :=
  digits_lt (digits_lt image channel) element

theorem plane_unique {C n c s n' c' s' : Nat} (channel : c < C) (channel' : c' < C)
    (element : s < S) (element' : s' < S)
    (same : (n * C + c) * S + s = (n' * C + c') * S + s') : n = n' ∧ c = c' ∧ s = s' := by
  obtain ⟨outer, rfl⟩ := digits_unique element element' same
  obtain ⟨rfl, rfl⟩ := digits_unique channel channel' outer
  exact ⟨rfl, rfl, rfl⟩

theorem plane_cover {C p : Nat} (inside : p < N * C * S) :
    exists n c s, n < N ∧ c < C ∧ s < S ∧ (n * C + c) * S + s = p := by
  obtain ⟨a, s, outer, element, rfl⟩ := digits_cover inside
  obtain ⟨n, c, image, channel, rfl⟩ := digits_cover outer
  exact ⟨n, c, s, image, channel, element, rfl⟩

end Geometry

/-! ## The loop nest -/

section Loops

variable {N group K S : Nat} {dstOffset srcOffset : Nat -> Nat -> Nat -> Nat}

/-- The `memcpy`s of the loop nest, in loop order. -/
def shuffleWrites (N group K S : Nat) (dstOffset srcOffset : Nat -> Nat -> Nat -> Nat)
    (src : Nat -> α) : List (Write Nat α) :=
  (List.range N).flatMap fun n => (List.range group).flatMap fun g =>
    (List.range K).map fun i => copyChannel src (dstOffset n g i) (srcOffset n g i) S

theorem shuffleLoops_eq_runWrites (src dst : Nat -> α) :
    shuffleLoops N group K S dstOffset srcOffset src dst =
      runWrites (shuffleWrites N group K S dstOffset srcOffset src) dst := by
  simp only [shuffleLoops, shuffleWrites, runWrites_flatMap]
  simp only [runWrites, List.foldl_map]

/-- An element whose destination no other iteration writes receives the
element at the matching source offset. -/
theorem shuffleLoops_apply (src dst : Nat -> α) {n g i s : Nat}
    (image : n < N) (member : g < group) (index : i < K) (element : s < S)
    (unique : forall n' g' i' s', n' < N -> g' < group -> i' < K -> s' < S ->
      dstOffset n' g' i' + s' = dstOffset n g i + s -> n' = n ∧ g' = g ∧ i' = i ∧ s' = s) :
    shuffleLoops N group K S dstOffset srcOffset src dst (dstOffset n g i + s) =
      src (srcOffset n g i + s) := by
  rw [shuffleLoops_eq_runWrites]
  apply runWrites_of_covered
  · refine ⟨copyChannel src (dstOffset n g i) (srcOffset n g i) S, ?_, ?_⟩
    · simp only [shuffleWrites, List.mem_flatMap, List.mem_map, List.mem_range]
      exact ⟨n, image, g, member, i, index, rfl⟩
    · simp only [copyChannel, decide_eq_true_eq]
      omega
  · intro write written covers
    simp only [shuffleWrites, List.mem_flatMap, List.mem_map, List.mem_range] at written
    obtain ⟨n', image', g', member', i', index', rfl⟩ := written
    simp only [copyChannel, decide_eq_true_eq] at covers ⊢
    obtain ⟨rfl, rfl, rfl, same⟩ := unique n' g' i' (dstOffset n g i + s - dstOffset n' g' i')
      image' member' index' (by omega) (by omega)
    rw [same]

end Loops

/-! ## The two passes -/

section Passes

variable {N K S group : Nat}

/-- An f32 nchw tensor of dims `(N, C, H, W)`. -/
def nchw (N C H W : Nat) (data : Nat -> α) : Tensor α :=
  ⟨⟨[N, C, H, W], .f32, .nchw⟩, data⟩

/-- Past its checks, either pass is its loop nest. -/
theorem shuffleImpl_eq (dstOffset srcOffset : Nat -> Nat -> Nat -> Nat -> Nat -> Nat -> Nat -> Nat)
    (N K H W group : Nat) (two_le : 2 ≤ group) (src dst : Nat -> α) :
    shuffleImpl dstOffset srcOffset (nchw N (group * K) H W src) dst group =
      .ok (shuffleLoops N group K (H * W) (dstOffset (group * K) (H * W) group K)
        (srcOffset (group * K) (H * W) group K) src dst) := by
  have nonzero : (group : Int) ≠ 0 := by omega
  have quotient : Int.tdiv ((group * K : Nat) : Int) group = K := by
    rw [← Int.ofNat_tdiv, Nat.mul_div_cancel_left K (by omega)]
  have rest : Int.tmod ((group * K : Nat) : Int) group = 0 := by
    rw [← Int.ofNat_tmod, Nat.mul_mod_right]; rfl
  have many : ¬ (group : Int) ≤ 1 := by omega
  simp [shuffleImpl, divide, remainder, nchw, Tensor.dim, nonzero, quotient, rest, many,
    bind, Except.bind, pure, Except.pure]

theorem shuffledOffset_unique {n j i s n' j' i' s' : Nat}
    (member : j < group) (index : i < K) (element : s < S)
    (member' : j' < group) (index' : i' < K) (element' : s' < S)
    (same : shuffledOffset (group * K) S group n j i + s =
      shuffledOffset (group * K) S group n' j' i' + s') :
    n = n' ∧ j = j' ∧ i = i' ∧ s = s' := by
  have bound : forall {i j}, i < K -> j < group -> i * group + j < group * K :=
    fun index member => Nat.mul_comm K group ▸ digits_lt index member
  rw [shuffledOffset_eq, shuffledOffset_eq] at same
  obtain ⟨rfl, channel, rfl⟩ :=
    plane_unique (bound index member) (bound index' member') element element' same
  obtain ⟨rfl, rfl⟩ := digits_unique member member' channel
  exact ⟨rfl, rfl, rfl, rfl⟩

theorem groupedOffset_unique {n j i s n' j' i' s' : Nat}
    (member : j < group) (index : i < K) (element : s < S)
    (member' : j' < group) (index' : i' < K) (element' : s' < S)
    (same : groupedOffset (group * K) S K n j i + s = groupedOffset (group * K) S K n' j' i' + s') :
    n = n' ∧ j = j' ∧ i = i' ∧ s = s' := by
  rw [groupedOffset_eq, groupedOffset_eq] at same
  obtain ⟨rfl, channel, rfl⟩ :=
    plane_unique (digits_lt member index) (digits_lt member' index') element element' same
  obtain ⟨rfl, rfl⟩ := digits_unique index index' channel
  exact ⟨rfl, rfl, rfl, rfl⟩

/-- The forward pass writes element `s` of input channel `j * K + i` to
output channel `i * group + j` of the same image. -/
theorem forwardLoops_apply (X Y : Nat -> α) {n j i s : Nat}
    (image : n < N) (member : j < group) (index : i < K) (element : s < S) :
    shuffleLoops N group K S (shuffledOffset (group * K) S group) (groupedOffset (group * K) S K)
        X Y ((n * (group * K) + (i * group + j)) * S + s) =
      X ((n * (group * K) + (j * K + i)) * S + s) := by
  rw [← shuffledOffset_eq, shuffleLoops_apply X Y image member index element, groupedOffset_eq]
  intro n' j' i' s' _ member' index' element' same
  exact shuffledOffset_unique member' index' element' member index element same

/-- The backward pass writes element `s` of channel `i * group + j` of the
incoming gradient to channel `j * K + i`. -/
theorem backwardLoops_apply (dY dX : Nat -> α) {n j i s : Nat}
    (image : n < N) (member : j < group) (index : i < K) (element : s < S) :
    shuffleLoops N group K S (groupedOffset (group * K) S K) (shuffledOffset (group * K) S group)
        dY dX ((n * (group * K) + (j * K + i)) * S + s) =
      dY ((n * (group * K) + (i * group + j)) * S + s) := by
  rw [← groupedOffset_eq, shuffleLoops_apply dY dX image member index element, shuffledOffset_eq]
  intro n' j' i' s' _ member' index' element' same
  exact groupedOffset_unique member' index' element' member index element same

theorem ChannelShuffleForward.computeImpl_eq (N K H W group : Nat) (two_le : 2 ≤ group)
    (X Y : Nat -> α) :
    ChannelShuffleForward.computeImpl (nchw N (group * K) H W X) Y group =
      .ok (shuffleLoops N group K (H * W) (shuffledOffset (group * K) (H * W) group)
        (groupedOffset (group * K) (H * W) K) X Y) :=
  shuffleImpl_eq _ _ N K H W group two_le X Y

theorem ChannelShuffleBackward.computeImpl_eq (N K H W group : Nat) (two_le : 2 ≤ group)
    (dY dX : Nat -> α) :
    ChannelShuffleBackward.computeImpl (nchw N (group * K) H W dY) dX group =
      .ok (shuffleLoops N group K (H * W) (groupedOffset (group * K) (H * W) K)
        (shuffledOffset (group * K) (H * W) group) dY dX) :=
  shuffleImpl_eq _ _ N K H W group two_le dY dX

end Passes

/-! ## The shuffle laws -/

/-- What the two passes do on an f32 nchw tensor of dims `(N, C, H, W)` with
`K = C / group` channels per group and planes of `H * W` elements. -/
structure ShuffleLaws (α : Type) (N C H W group : Nat) : Prop where
  blocks_inside : forall n j i s, n < N -> j < group -> i < C / group -> s < H * W ->
    shuffledOffset C (H * W) group n j i + s < N * C * (H * W) ∧
      groupedOffset C (H * W) (C / group) n j i + s < N * C * (H * W)
  blocks_disjoint : forall n j i s n' j' i' s', n < N -> j < group -> i < C / group ->
    s < H * W -> n' < N -> j' < group -> i' < C / group -> s' < H * W ->
    shuffledOffset C (H * W) group n j i + s = shuffledOffset C (H * W) group n' j' i' + s' ->
    n = n' ∧ j = j' ∧ i = i' ∧ s = s'
  blocks_cover : forall p, p < N * C * (H * W) -> exists n j i s,
    n < N ∧ j < group ∧ i < C / group ∧ s < H * W ∧ shuffledOffset C (H * W) group n j i + s = p
  forward_transposes : forall X Y : Nat -> α, exists Y',
    ChannelShuffleForward.computeImpl (nchw N C H W X) Y group = .ok Y' ∧
      forall n j i s, n < N -> j < group -> i < C / group -> s < H * W ->
        Y' ((n * C + (i * group + j)) * (H * W) + s) =
          X ((n * C + (j * (C / group) + i)) * (H * W) + s)
  backward_forward : forall X Y Z : Nat -> α, exists X',
    (ChannelShuffleForward.computeImpl (nchw N C H W X) Y group >>= fun Y' =>
      ChannelShuffleBackward.computeImpl (nchw N C H W Y') Z group) = .ok X' ∧
      forall p, p < N * C * (H * W) -> X' p = X p
  forward_backward : forall dY dX Z : Nat -> α, exists dY',
    (ChannelShuffleBackward.computeImpl (nchw N C H W dY) dX group >>= fun dX' =>
      ChannelShuffleForward.computeImpl (nchw N C H W dX') Z group) = .ok dY' ∧
      forall p, p < N * C * (H * W) -> dY' p = dY p

/-- Both passes obey `ShuffleLaws` for every shape whose channels split into `group`
equal parts.  The source's `int` offsets are these while the tensor has fewer
than `2^31` elements; past that they overflow. -/
theorem channelShuffle_laws (N C H W group : Nat) (two_le : 2 ≤ group)
    (divides : C % group = 0) : ShuffleLaws α N C H W group := by
  obtain ⟨K, rfl⟩ : exists K, C = group * K :=
    ⟨C / group, (Nat.mul_div_cancel' (Nat.dvd_of_mod_eq_zero divides)).symm⟩
  have quotient : group * K / group = K := Nat.mul_div_cancel_left K (by omega)
  have bound : forall {i j}, i < K -> j < group -> i * group + j < group * K :=
    fun index member => Nat.mul_comm K group ▸ digits_lt index member
  have forward := @ChannelShuffleForward.computeImpl_eq α N K H W group two_le
  have backward := @ChannelShuffleBackward.computeImpl_eq α N K H W group two_le
  constructor
  case blocks_inside =>
    simp only [quotient]
    intro n j i s image member index element
    rw [shuffledOffset_eq, groupedOffset_eq]
    exact ⟨plane_lt image (bound index member) element,
      plane_lt image (digits_lt member index) element⟩
  case blocks_disjoint =>
    simp only [quotient]
    intro n j i s n' j' i' s' _ member index element _ member' index' element' same
    exact shuffledOffset_unique member index element member' index' element' same
  case blocks_cover =>
    simp only [quotient]
    intro p inside
    obtain ⟨n, c, s, image, channel, element, rfl⟩ := plane_cover inside
    obtain ⟨i, j, index, member, rfl⟩ := digits_cover (Nat.mul_comm group K ▸ channel)
    exact ⟨n, j, i, s, image, member, index, element, by rw [shuffledOffset_eq]⟩
  case forward_transposes =>
    simp only [quotient]
    intro X Y
    exact ⟨_, forward X Y, fun n j i s image member index element =>
      forwardLoops_apply X Y image member index element⟩
  case backward_forward =>
    intro X Y Z
    refine ⟨_, by rw [forward]; exact backward _ Z, fun p inside => ?_⟩
    obtain ⟨n, c, s, image, channel, element, rfl⟩ := plane_cover inside
    obtain ⟨j, i, member, index, rfl⟩ := digits_cover channel
    rw [backwardLoops_apply _ Z image member index element,
      forwardLoops_apply X Y image member index element]
  case forward_backward =>
    intro dY dX Z
    refine ⟨_, by rw [backward]; exact forward _ Z, fun p inside => ?_⟩
    obtain ⟨n, c, s, image, channel, element, rfl⟩ := plane_cover inside
    obtain ⟨i, j, index, member, rfl⟩ := digits_cover (Nat.mul_comm group K ▸ channel)
    rw [forwardLoops_apply _ Z image member index element,
      backwardLoops_apply dY dX image member index element]

theorem channelShuffle_laws_two_groups :
    2 ≤ 2 ∧ 4 % 2 = 0 ∧ ShuffleLaws Nat 1 4 1 1 2 :=
  ⟨by decide, by decide, channelShuffle_laws 1 4 1 1 2 (by decide) (by decide)⟩

/-! ## The entry points -/

/-- The body both `compute` share: refuse an in-place call (`inPlace` is
`src == dst`) and a rank other than four, reorder a source of a non-public
format to `nchw` (whose elements `toNchw` gives), and run the pass's
`compute_impl` into `dst`, reinit like that source. -/
def shuffleCompute (impl : Tensor α -> (Nat -> α) -> Int -> Except Fault (Nat -> α))
    (toNchw : Tensor α -> Nat -> α) (src : Tensor α) (inPlace : Bool) (dst : Nat -> α) (group : Int) :
    Except Fault (Nat -> α) := do
  if inPlace then throw (.enforce "Unsupport in-place op")
  if src.desc.ndims ≠ 4 then throw (.enforce "Only support 4 dims")
  let srcIn : Tensor α :=
    if src.desc.format.isPublic then src else ⟨⟨src.desc.dims, src.desc.dataType, .nchw⟩, toNchw src⟩
  impl srcIn dst group

/-- `channel_shuffle_forward::compute(src, dst, group)`. -/
def ChannelShuffleForward.compute (toNchw : Tensor α -> Nat -> α) (src : Tensor α) (inPlace : Bool)
    (dst : Nat -> α) (group : Int) : Except Fault (Nat -> α) :=
  shuffleCompute ChannelShuffleForward.computeImpl toNchw src inPlace dst group

/-- `channel_shuffle_backward::compute(grady, gradx, group)`. -/
def ChannelShuffleBackward.compute (toNchw : Tensor α -> Nat -> α) (grady : Tensor α) (inPlace : Bool)
    (gradx : Nat -> α) (group : Int) : Except Fault (Nat -> α) :=
  shuffleCompute ChannelShuffleBackward.computeImpl toNchw grady inPlace gradx group

/-- `C / group` comes before every check: with a zero group either pass stops
on that division. -/
theorem shuffleImpl_zero_group (dstOffset srcOffset : Nat -> Nat -> Nat -> Nat -> Nat -> Nat -> Nat -> Nat)
    (src : Tensor α) (dst : Nat -> α) :
    shuffleImpl dstOffset srcOffset src dst 0 = .error .divisionByZero :=
  rfl

/-- With any other group neither `C / group` nor `C % group` faults: a pass
stops on one of its checks or returns. -/
theorem shuffleImpl_ne_divisionByZero (dstOffset srcOffset : Nat -> Nat -> Nat -> Nat -> Nat -> Nat -> Nat -> Nat)
    (src : Tensor α) (dst : Nat -> α) {group : Int} (nonzero : group ≠ 0) :
    shuffleImpl dstOffset srcOffset src dst group ≠ .error .divisionByZero := by
  simp only [shuffleImpl, divide, remainder, if_neg nonzero]
  simp only [bind, Except.bind, throw, throwThe, MonadExceptOf.throw, pure, Except.pure]
  repeat' split
  all_goals simp

theorem shuffleImpl_divisionByZero_iff (dstOffset srcOffset : Nat -> Nat -> Nat -> Nat -> Nat -> Nat -> Nat -> Nat)
    (src : Tensor α) (dst : Nat -> α) (group : Int) :
    shuffleImpl dstOffset srcOffset src dst group = .error .divisionByZero ↔ group = 0 := by
  constructor
  · intro faults
    by_contra nonzero
    exact shuffleImpl_ne_divisionByZero dstOffset srcOffset src dst nonzero faults
  · rintro rfl
    exact shuffleImpl_zero_group dstOffset srcOffset src dst

/-- Past its checks on the call, `compute` is the pass on the source or on its
`nchw` reorder. -/
theorem shuffleCompute_of_four (impl : Tensor α -> (Nat -> α) -> Int -> Except Fault (Nat -> α))
    (toNchw : Tensor α -> Nat -> α) {src : Tensor α} (four : src.desc.ndims = 4) (dst : Nat -> α) (group : Int) :
    shuffleCompute impl toNchw src false dst group =
      impl (if src.desc.format.isPublic then src else ⟨⟨src.desc.dims, src.desc.dataType, .nchw⟩, toNchw src⟩)
        dst group := by
  simp [shuffleCompute, four]

theorem compute_divisionByZero_iff_zero_group (toNchw : Tensor α -> Nat -> α) (n c h w : Nat)
    (dataType : DataType) (format : Format) (data dst : Nat -> α) (group : Int) :
    (ChannelShuffleForward.compute toNchw ⟨⟨[n, c, h, w], dataType, format⟩, data⟩ false dst group =
        .error .divisionByZero ↔ group = 0) ∧
      (ChannelShuffleBackward.compute toNchw ⟨⟨[n, c, h, w], dataType, format⟩, data⟩ false dst group =
        .error .divisionByZero ↔ group = 0) := by
  have four : (⟨⟨[n, c, h, w], dataType, format⟩, data⟩ : Tensor α).desc.ndims = 4 := rfl
  rw [ChannelShuffleForward.compute, ChannelShuffleBackward.compute, shuffleCompute_of_four _ _ four,
    shuffleCompute_of_four _ _ four]
  exact ⟨shuffleImpl_divisionByZero_iff _ _ _ dst group, shuffleImpl_divisionByZero_iff _ _ _ dst group⟩

end ChannelShuffle
end Ideep
