import Ideep.Buffer
import Ideep.SumArray.Loops

namespace Ideep
namespace SumArray

/-!
# What `sum_nChwXC_along_channel` computes

The fast path reduces a 4-D `nChw8c` or `nChw16c` source over the batch and
the pixels, one sum per channel.  In these layouts channel `c` of pixel `k` of
image `b` is element `c % cg` of block `c / cg` of that pixel, so with the
channels filling whole blocks it lies at
`((b * (ic / cg) + c / cg) * (ih * iw) + k) * cg + c % cg` (`blockedChannelSum`).

The kernel follows its loop nest.  One pixel adds a block of `cg` source
elements to a block of `buf` (`iterate_channelPixel`); a block of an image
adds all its pixels (`channelBlock_eq`); an image does so for its `cn` blocks,
which lie one after another in the thread's part of `buf`
(`channelImage_eq`); a batch thread sums its images there
(`channelThread_eq`).  The parts `[i * ic, i * ic + cn * cg)` of the batch
threads are disjoint, and every other element of `buf` stays unassigned
(`foldl_channelThread`).  The allreduce then leaves at each channel the sum of
the threads' elements (`foldl_channelReduceThread`).

With `cg ∣ ic` this is the sum of `blockedChannelSum`, whatever the number of
threads.  The kernel's assembly branches, taken when `buf` and the thread's
source are aligned, add each block with `vaddps`, a sum of `f32` lanes: that is
the scalar loop's sum for an `f32` source, and for the integer types it adds
their bit patterns as floats.  The sums are therefore stated for `f32`
(`compute_blocked_channels`).  Otherwise the `ic % cg` channels after the last
whole block are in no block of either branch: `buf` is never assigned there,
and `compute` leaves them unassigned, for every data type
(`compute_blocked_tail_unassigned`).
-/

variable {β : Type} [AddCommMonoid β]

/-- The intended result at channel `c`: its sum over the `mb` images and the
`pixels` pixels of an `nChw{cg}c` source of `ic` channels. -/
def blockedChannelSum (data : Nat -> β) (mb ic pixels cg c : Nat) : β :=
  ((List.range mb).map fun b => ((List.range pixels).map fun k =>
    data (((b * (ic / cg) + c / cg) * pixels + k) * cg + c % cg)).sum).sum

theorem channelGroup_pos (format : Format) : 0 < channelGroup format := by
  unfold channelGroup
  split <;> decide

/-! ## One thread -/

section Thread

variable (src : Nat -> β) (pixels cg : Nat)

theorem iterate_channelPixel (block : Nat) : ∀ (h : Nat) (s : Channel β),
    Nat.iterate (channelPixel src cg block) h s =
      ⟨s.locSrc + h * cg, fun p => if block ≤ p ∧ p < block + cg then
        (s.buf p).map (· + ((List.range h).map fun k => src (s.locSrc + k * cg + (p - block))).sum)
      else s.buf p⟩
  | 0, ⟨locSrc, buf⟩ => by simp
  | h + 1, s => by
      rw [Function.iterate_succ_apply', iterate_channelPixel block h s]
      simp only [channelPixel, Channel.mk.injEq]
      refine ⟨by rw [Nat.succ_mul, Nat.add_assoc], funext fun p => ?_⟩
      by_cases inside : block ≤ p ∧ p < block + cg
      · simp [inside, Option.map_map, Function.comp_def, List.range_succ, add_assoc]
      · simp [inside]

/-- Step lemma of an image: block `c` adds its pixels to its block of `buf`,
which the thread's first image zeroes first. -/
theorem channelBlock_eq (ic ithr bstart b : Nat) (s : Channel β) (c : Nat) :
    channelBlock src ic pixels cg ithr bstart b s c =
      ⟨s.locSrc + pixels * cg, fun p => if ithr * ic + c * cg ≤ p ∧ p < ithr * ic + c * cg + cg then
        (if b = bstart then some 0 else s.buf p).map
          (· + ((List.range pixels).map fun k => src (s.locSrc + k * cg + (p - (ithr * ic + c * cg)))).sum)
      else s.buf p⟩ := by
  rw [channelBlock, iterate_channelPixel]
  simp only [Channel.mk.injEq, true_and]
  funext p
  by_cases first : b = bstart <;> by_cases inside : ithr * ic + c * cg ≤ p ∧ p < ithr * ic + c * cg + cg <;>
    simp [first, inside]

/-- What the pixels of an image starting at `loc_src = L` add to channel `q`
of a thread's part of `buf`. -/
def blockSum (L q : Nat) : β :=
  ((List.range pixels).map fun k => src (L + q / cg * (pixels * cg) + k * cg + q % cg)).sum

/-- What thread `i` of the batch leaves at channel `q` of its part of `buf`:
the sum over its images. -/
def threadChannelSum (mb ic cn nthr i q : Nat) : β :=
  ((List.range (splitLength mb nthr i)).map fun j =>
    blockSum src pixels cg (splitStart mb nthr i * ic * pixels + j * (cn * (pixels * cg))) q).sum

variable {cg}

/-- Run lemma of the blocks of an image: the first `cn` blocks of the thread's
part of `buf` are added the image's pixels. -/
theorem channelImage_eq (positive : 0 < cg) (ic ithr bstart b : Nat) : ∀ (cn : Nat) (s : Channel β),
    channelImage src ic pixels cg cn ithr bstart s b =
      ⟨s.locSrc + cn * (pixels * cg), fun p => if ithr * ic ≤ p ∧ p < ithr * ic + cn * cg then
        (if b = bstart then some 0 else s.buf p).map (· + blockSum src pixels cg s.locSrc (p - ithr * ic))
      else s.buf p⟩
  | 0, ⟨locSrc, buf⟩ => by
      simp only [channelImage, List.range_zero, List.foldl_nil, Nat.zero_mul, Nat.add_zero, Channel.mk.injEq,
        true_and]
      funext p
      rw [if_neg (by omega)]
  | cn + 1, s => by
      rw [channelImage, List.range_succ, List.foldl_append, ← channelImage, channelImage_eq positive ic ithr bstart b cn s,
        List.foldl_cons, List.foldl_nil, channelBlock_eq]
      simp only [Channel.mk.injEq]
      refine ⟨by rw [Nat.succ_mul, Nat.add_assoc], funext fun p => ?_⟩
      have grow : ithr * ic + (cn + 1) * cg = ithr * ic + cn * cg + cg := by rw [Nat.succ_mul, Nat.add_assoc]
      by_cases earlier : ithr * ic ≤ p ∧ p < ithr * ic + cn * cg
      · have later : ¬ (ithr * ic + cn * cg ≤ p ∧ p < ithr * ic + cn * cg + cg) := by omega
        have grown : ithr * ic ≤ p ∧ p < ithr * ic + (cn + 1) * cg := by omega
        simp only [if_neg later, if_pos earlier, if_pos grown]
      · by_cases last : ithr * ic + cn * cg ≤ p ∧ p < ithr * ic + cn * cg + cg
        · have grown : ithr * ic ≤ p ∧ p < ithr * ic + (cn + 1) * cg := by omega
          obtain ⟨o, below, rfl⟩ : ∃ o < cg, p = ithr * ic + cn * cg + o :=
            ⟨p - (ithr * ic + cn * cg), by omega, by omega⟩
          have offset : ithr * ic + cn * cg + o - ithr * ic = o + cn * cg := by omega
          have block : (o + cn * cg) / cg = cn := by
            rw [Nat.add_mul_div_right _ _ positive, Nat.div_eq_of_lt below, Nat.zero_add]
          have element : (o + cn * cg) % cg = o := by rw [Nat.add_mul_mod_self_right, Nat.mod_eq_of_lt below]
          simp only [if_pos last, if_neg earlier, if_pos grown, Nat.add_sub_cancel_left, blockSum, offset, block,
            element]
        · have outside : ¬ (ithr * ic ≤ p ∧ p < ithr * ic + (cn + 1) * cg) := by omega
          simp only [if_neg last, if_neg earlier, if_neg outside]

theorem foldl_channelImage (positive : 0 < cg) (ic cn ithr bstart L : Nat) (buf : Nat -> Option β) :
    ∀ n, (List.range (n + 1)).foldl (fun s j => channelImage src ic pixels cg cn ithr bstart s (bstart + j))
        ⟨L, buf⟩ =
      ⟨L + (n + 1) * (cn * (pixels * cg)), fun p => if ithr * ic ≤ p ∧ p < ithr * ic + cn * cg then
        some (((List.range (n + 1)).map fun j =>
          blockSum src pixels cg (L + j * (cn * (pixels * cg))) (p - ithr * ic)).sum)
      else buf p⟩
  | 0 => by
      simp only [List.range_succ, List.range_zero, List.nil_append, List.foldl_cons, List.foldl_nil,
        channelImage_eq src pixels positive, Nat.add_zero, if_pos rfl, Channel.mk.injEq]
      refine ⟨by rw [Nat.zero_add, Nat.one_mul], funext fun p => ?_⟩
      by_cases inside : ithr * ic ≤ p ∧ p < ithr * ic + cn * cg <;> simp [inside]
  | n + 1 => by
      rw [List.range_succ (n + 1), List.foldl_append, foldl_channelImage positive ic cn ithr bstart L buf n,
        List.foldl_cons, List.foldl_nil, channelImage_eq src pixels positive]
      simp only [Channel.mk.injEq, if_neg (show bstart + (n + 1) ≠ bstart by omega)]
      refine ⟨by ring, funext fun p => ?_⟩
      by_cases inside : ithr * ic ≤ p ∧ p < ithr * ic + cn * cg <;> simp [inside, List.range_succ (n + 1)]

/-- Step lemma of the pass over the batch: a thread with images leaves in its
part of `buf` the sums over its images, and the rest of `buf` as it was. -/
theorem channelThread_eq (positive : 0 < cg) (mb ic cn nthr : Nat) (buf : Nat -> Option β) {ithr : Nat}
    (share : 1 ≤ splitLength mb nthr ithr) :
    channelThread src mb ic pixels cg cn nthr buf ithr = fun p =>
      if ithr * ic ≤ p ∧ p < ithr * ic + cn * cg then
        some (threadChannelSum src pixels cg mb ic cn nthr ithr (p - ithr * ic))
      else buf p := by
  obtain ⟨n, length⟩ : ∃ n, splitLength mb nthr ithr = n + 1 := ⟨_, (Nat.succ_pred_eq_of_pos share).symm⟩
  simp only [channelThread, threadChannelSum, length, foldl_channelImage src pixels positive]

end Thread

/-! ## The pass over the batch -/

/-- An element `q < ic` of thread `i`'s part of `buf` is in thread `n`'s
blocks exactly when `i = n` and `q` is in a whole block. -/
theorem mem_threadBlocks {ic cncg i n q : Nat} (channel : q < ic) (fits : cncg ≤ ic) :
    (n * ic ≤ i * ic + q ∧ i * ic + q < n * ic + cncg) ↔ (i = n ∧ q < cncg) := by
  constructor
  · rintro ⟨low, high⟩
    obtain ⟨rfl, -⟩ := digits_unique channel (show i * ic + q - n * ic < ic by omega)
      (show i * ic + q = n * ic + (i * ic + q - n * ic) by omega)
    exact ⟨rfl, by omega⟩
  · rintro ⟨rfl, inside⟩
    omega

/-- Run lemma of the pass over the batch: the first `n` threads assign their
whole blocks, and leave every other element of `buf` unassigned. -/
theorem foldl_channelThread (src : Nat -> β) (pixels : Nat) {cg : Nat} (positive : 0 < cg)
    (mb ic cn nthr : Nat) (fits : cn * cg ≤ ic) {i q : Nat} (channel : q < ic) :
    ∀ n, n ≤ splitThreads mb nthr ->
      (List.range n).foldl (channelThread src mb ic pixels cg cn nthr) (fun _ => none) (i * ic + q) =
        if i < n ∧ q < cn * cg then some (threadChannelSum src pixels cg mb ic cn nthr i q) else none
  | 0, _ => by simp
  | n + 1, threads => by
      rw [List.range_succ, List.foldl_append, List.foldl_cons, List.foldl_nil,
        channelThread_eq src pixels positive _ _ _ _ _ (splitLength_pos (by omega))]
      dsimp only
      by_cases own : n * ic ≤ i * ic + q ∧ i * ic + q < n * ic + cn * cg
      · obtain ⟨rfl, inside⟩ := (mem_threadBlocks channel fits).mp own
        rw [if_pos own, if_pos ⟨Nat.lt_succ_self i, inside⟩, Nat.add_sub_cancel_left]
      · have other : ¬ (i = n ∧ q < cn * cg) := fun same => own ((mem_threadBlocks channel fits).mpr same)
        rw [if_neg own, foldl_channelThread src pixels positive mb ic cn nthr fits channel n (by omega)]
        split_ifs <;> first | rfl | omega

/-! ## The allreduce -/

/-- What the allreduce leaves at channel `c`: `0` added `buf[i * ic + c]` of
every batch thread `i`, unassigned as soon as one of them is. -/
def channelTotal (ic blkNthr : Nat) (buf : Nat -> Option β) (c : Nat) : Option β :=
  (List.range blkNthr).foldl (fun d i => d.bind fun a => (buf (i * ic + c)).map (a + ·)) (some 0)

theorem channelTotal_of_assigned {ic c : Nat} {buf : Nat -> Option β} {V : Nat -> β} : ∀ n,
    (∀ i < n, buf (i * ic + c) = some (V i)) -> channelTotal ic n buf c = some ((List.range n).map V).sum
  | 0, _ => rfl
  | n + 1, assigned => by
      rw [channelTotal, List.range_succ, List.foldl_append, ← channelTotal,
        channelTotal_of_assigned n fun i below => assigned i (by omega), List.foldl_cons, List.foldl_nil,
        assigned n (by omega)]
      simp

theorem channelTotal_of_unassigned {ic c n : Nat} {buf : Nat -> Option β} (unassigned : buf c = none) :
    channelTotal ic (n + 1) buf c = none := by
  rw [channelTotal, List.range_succ_eq_map, List.foldl_cons, Nat.zero_mul, Nat.zero_add, unassigned]
  exact List.foldl_fixed' (fun _ => rfl) _

/-- Step lemma of the allreduce: a thread leaves in its share of the channels
their totals. -/
theorem channelReduceThread_eq (nthr ic blkNthr : Nat) (buf dst : Nat -> Option β) (ithr : Nat) :
    channelReduceThread nthr ic blkNthr buf dst ithr = fun c =>
      if splitStart ic nthr ithr ≤ c ∧ c < splitStart ic nthr ithr + splitLength ic nthr ithr then
        channelTotal ic blkNthr buf c
      else dst c := by
  simp only [channelReduceThread]
  generalize splitStart ic nthr ithr = cstart
  generalize splitLength ic nthr ithr = clen
  have share : ∀ i (d : Nat -> Option β), (List.range clen).foldl (fun d k => Function.update d (cstart + k)
        ((d (cstart + k)).bind fun a => (buf (i * ic + (cstart + k))).map (a + ·))) d =
      fun c => if cstart ≤ c ∧ c < cstart + clen then (d c).bind (fun a => (buf (i * ic + c)).map (a + ·))
        else d c := fun i d => by
    rw [foldl_modify (fun c (x : Option β) => x.bind fun a => (buf (i * ic + c)).map (a + ·)) (cstart + ·) _
      ((List.nodup_range clen).map fun _ _ => Nat.add_left_cancel)]
    simp only [mem_shift_range]
  simp only [share]
  induction blkNthr with
  | zero => rfl
  | succ n ih =>
      rw [List.range_succ, List.foldl_append, ih]
      funext c
      by_cases inside : cstart ≤ c ∧ c < cstart + clen <;> simp [inside, channelTotal, List.range_succ]

/-- Run lemma of the allreduce: the first `n` threads leave the totals of the
channels below `splitStart ic nthr n`. -/
theorem foldl_channelReduceThread (nthr ic blkNthr : Nat) (buf dst : Nat -> Option β) : ∀ n,
    (List.range n).foldl (channelReduceThread nthr ic blkNthr buf) dst = fun c =>
      if c < splitStart ic nthr n then channelTotal ic blkNthr buf c else dst c
  | 0 => by simp [splitStart_zero]
  | n + 1 => by
      rw [List.range_succ, List.foldl_append, foldl_channelReduceThread nthr ic blkNthr buf dst n,
        List.foldl_cons, List.foldl_nil, channelReduceThread_eq, splitStart_succ]
      funext c
      split_ifs <;> first | rfl | omega

/-! ## The kernel on a blocked source -/

section Blocked

variable {nthr : Nat} (threads : 1 ≤ nthr) (src : Nat -> β) {mb ic ih iw : Nat} (dataType : DataType)
  (format : Format)

include threads in
/-- At a channel `c < ic` the kernel leaves the total of the batch threads'
elements of `buf`. -/
theorem sumNChwXCAlongChannel_apply {c : Nat} (channel : c < ic) (dst : Nat -> Option β) :
    sumNChwXCAlongChannel nthr src ⟨[mb, ic, ih, iw], dataType, format⟩ dst c =
      channelTotal ic (splitThreads mb nthr) ((List.range (splitThreads mb nthr)).foldl
        (channelThread src mb ic (ih * iw) (channelGroup format) (ic / channelGroup format) nthr) fun _ => none) c := by
  simp only [sumNChwXCAlongChannel, List.getD_cons_zero, List.getD_cons_succ, foldl_channelReduceThread,
    splitStart_splitThreads threads, if_pos channel]

include threads in
/-- With the channels filling whole blocks, the kernel leaves at every channel
its sum over the images and pixels. -/
theorem sumNChwXCAlongChannel_blocked (whole : channelGroup format ∣ ic) {c : Nat} (channel : c < ic)
    (dst : Nat -> Option β) :
    sumNChwXCAlongChannel nthr src ⟨[mb, ic, ih, iw], dataType, format⟩ dst c =
      some (blockedChannelSum src mb ic (ih * iw) (channelGroup format) c) := by
  rw [sumNChwXCAlongChannel_apply threads src dataType format channel]
  have positive := channelGroup_pos format
  generalize channelGroup format = cg at positive whole ⊢
  obtain ⟨n, rfl⟩ := whole
  have count : cg * n / cg = n := Nat.mul_div_cancel_left n positive
  have stride (s j : Nat) : s * (cg * n) * (ih * iw) + j * (n * (ih * iw * cg)) = (s + j) * (cg * n) * (ih * iw) := by
    ring
  have offset (b k : Nat) : b * (cg * n) * (ih * iw) + c / cg * (ih * iw * cg) + k * cg + c % cg =
      ((b * n + c / cg) * (ih * iw) + k) * cg + c % cg := by
    ring
  rw [channelTotal_of_assigned _ fun i below => by
    rw [foldl_channelThread src _ positive mb _ _ nthr (Nat.div_mul_le_self _ cg) channel _ le_rfl,
      if_pos ⟨below, by rwa [count, Nat.mul_comm]⟩]]
  simp only [threadChannelSum, count, stride]
  rw [sum_shares mb nthr fun b => blockSum src (ih * iw) cg (b * (cg * n) * (ih * iw)) c,
    splitStart_splitThreads threads]
  simp only [blockSum, blockedChannelSum, count, offset]

include threads in
/-- The channels after the last whole block are in no thread's blocks: the
kernel leaves them unassigned. -/
theorem sumNChwXCAlongChannel_tail (images : 1 ≤ mb) {c : Nat}
    (tail : ic / channelGroup format * channelGroup format ≤ c) (channel : c < ic) (dst : Nat -> Option β) :
    sumNChwXCAlongChannel nthr src ⟨[mb, ic, ih, iw], dataType, format⟩ dst c = none := by
  obtain ⟨n, threadCount⟩ : ∃ n, splitThreads mb nthr = n + 1 :=
    ⟨_, (Nat.succ_pred_eq_of_pos (splitThreads_pos images threads)).symm⟩
  have unassigned := (foldl_channelThread src (ih * iw) (channelGroup_pos format) mb ic _ nthr
    (Nat.div_mul_le_self ic _) channel (i := 0) (n + 1) threadCount.ge).trans (if_neg (by omega))
  rw [Nat.zero_mul, Nat.zero_add] at unassigned
  rw [sumNChwXCAlongChannel_apply threads src dataType format channel, threadCount,
    channelTotal_of_unassigned unassigned]

/- Nine channels of `nChw8c`: the ninth stays unassigned, and channel 3 adds
the elements at `3` and at `ic * ih * iw + 3`. -/
example : (sumNChwXCAlongChannel 2 (fun i => (i : Int)) ⟨[2, 9, 1, 1], .f32, .nChw8c⟩ (fun _ => none) 8,
    sumNChwXCAlongChannel 2 (fun i => (i : Int)) ⟨[2, 9, 1, 1], .f32, .nChw8c⟩ (fun _ => none) 3) =
    (none, some 15) := by
  decide

end Blocked

/-- A typed `nChw8c` or `nChw16c` source of 4 dims reduced over `[0, 2, 3]`
takes the fast path: its destination of `ic` channels is the channel
kernel's. -/
theorem compute_blocked_eq (nthr : Nat) {dataType : DataType} {format : Format} (typed : dataType ≠ .undef)
    (blocked : format = .nChw8c ∨ format = .nChw16c) (mb ic ih iw : Nat) (data : Nat -> β) :
    compute nthr ⟨⟨[mb, ic, ih, iw], dataType, format⟩, data⟩ [0, 2, 3] =
      .ok (some ⟨⟨[ic], dataType, .x⟩,
        sumNChwXCAlongChannel nthr data ⟨[mb, ic, ih, iw], dataType, format⟩ fun _ => none⟩, 0) := by
  rcases blocked with rfl | rfl <;>
    simp [compute, typed, sumFastAlongAxis, fastCheck, doCompute, Descriptor.ndims, Format.optimized, ErrNum.value,
      Except.map]

/-- `compute` on an `f32` blocked source whose channels fill whole blocks sums every
channel over the images and the pixels, whatever the number of threads.  The
offsets are the source's `int` arithmetic while the source has fewer than `2^31`
elements. -/
theorem compute_blocked_channels (nthr : Nat) {format : Format}
    (blocked : format = .nChw8c ∨ format = .nChw16c) {mb ic ih iw : Nat}
    (data : Nat -> β) (whole : channelGroup format ∣ ic) :
    ∃ dst, compute (nthr + 1) ⟨⟨[mb, ic, ih, iw], .f32, format⟩, data⟩ [0, 2, 3] = .ok (some dst, 0) ∧
      dst.desc.dims = [ic] ∧
      ∀ c < ic, dst.data c = some (blockedChannelSum data mb ic (ih * iw) (channelGroup format) c) :=
  ⟨_, compute_blocked_eq (nthr + 1) (by decide) blocked mb ic ih iw data, rfl, fun _ channel =>
    sumNChwXCAlongChannel_blocked (Nat.le_add_left 1 nthr) data .f32 format whole channel _⟩

theorem compute_blocked_channels_one_block :
    (Format.nChw8c = .nChw8c ∨ Format.nChw8c = .nChw16c) ∧ channelGroup .nChw8c ∣ 8 ∧
      ∃ dst, compute 2 (⟨⟨[2, 8, 1, 1], .f32, .nChw8c⟩, fun i => (i : Int)⟩ : Tensor Int) [0, 2, 3] =
          .ok (some dst, 0) ∧ dst.desc.dims = [8] ∧
        ∀ c < 8, dst.data c = some (blockedChannelSum (fun i => (i : Int)) 2 8 (1 * 1) (channelGroup .nChw8c) c) :=
  ⟨.inl rfl, by decide, compute_blocked_channels 1 (.inl rfl) (fun i => (i : Int)) (by decide)⟩

/-- `compute` on a blocked source with images leaves the `ic % cg` channels after
the last whole block unassigned, for every data type: neither branch of the
kernel has a block there.  The source's `int` offsets are these while the tensor
has fewer than `2^31` elements; past that they overflow. -/
theorem compute_blocked_tail_unassigned (nthr : Nat) {dataType : DataType} {format : Format}
    (typed : dataType ≠ .undef) (blocked : format = .nChw8c ∨ format = .nChw16c) {mb ic ih iw : Nat}
    (data : Nat -> β) (images : 1 ≤ mb) :
    ∃ dst, compute (nthr + 1) ⟨⟨[mb, ic, ih, iw], dataType, format⟩, data⟩ [0, 2, 3] = .ok (some dst, 0) ∧
      ∀ c, ic / channelGroup format * channelGroup format ≤ c -> c < ic -> dst.data c = none :=
  ⟨_, compute_blocked_eq (nthr + 1) typed blocked mb ic ih iw data, fun _ tail channel =>
    sumNChwXCAlongChannel_tail (Nat.le_add_left 1 nthr) data dataType format images tail channel _⟩

theorem compute_blocked_tail_unassigned_ten_channels :
    DataType.f32 ≠ .undef ∧ (Format.nChw8c = .nChw8c ∨ Format.nChw8c = .nChw16c) ∧ 1 ≤ 1 ∧
      ∃ dst, compute 2 (⟨⟨[1, 10, 1, 1], .f32, .nChw8c⟩, fun i => (i : Int)⟩ : Tensor Int) [0, 2, 3] =
          .ok (some dst, 0) ∧
        ∀ c, 10 / channelGroup .nChw8c * channelGroup .nChw8c ≤ c -> c < 10 -> dst.data c = none :=
  ⟨by decide, .inl rfl, le_refl 1,
    compute_blocked_tail_unassigned 1 (by decide) (.inl rfl) (fun i => (i : Int)) (le_refl 1)⟩

end SumArray
end Ideep
