import Ideep.SumArray.Reduction
import Mathlib.Algebra.Order.BigOperators.GroupWithZero.List
import Mathlib.Algebra.Order.Ring.Nat

namespace Ideep
namespace SumArray

/-!
# A reduction over the batch alone

`sum_along_axis` builds `cur_axis` from the non-zero entries of the axis list,
and assigns `loc_ws[b - bstart]` in the last pass of the loop over it.  For the
list `[0]` that loop makes no pass.  The two-dimensional source is the one
special case that refills `loc_ws[0]` before the batch reduction; for any other
rank the local allreduce and the global allreduce read workspaces that were
never assigned.  `sum_common_along_axis` accepts such a request whenever the
rank minus one is 1, 2 or 4, so a three-dimensional source reduced over `[0]`
gets `NOERR` and then reads an unassigned pointer, while the two-dimensional
one gets the sums of its columns (`compute_rows`).
-/

variable {β : Type} [AddCommMonoid β]

/-! ## A reduction over the batch alone -/

theorem gblWsSize_pos {dims : List Nat} (positive : ∀ d ∈ dims, 0 < d) (axis : List Nat) :
    0 < gblWsSize dims axis := by
  unfold gblWsSize
  apply List.prod_pos
  intro x member
  simp only [List.mem_map, List.mem_filter, List.mem_range] at member
  obtain ⟨d, ⟨inside, _⟩, rfl⟩ := member
  rw [List.getD_eq_getElem?_getD, List.getElem?_eq_getElem inside, Option.getD_some]
  exact positive _ (List.getElem_mem inside)

theorem reduceImage_of_no_pass {dims axis : List Nat} (noPass : curAxisOf axis = [])
    (image : Nat -> β) (unset : Option (Nat -> β)) : reduceImage dims axis image unset = unset := by
  simp [reduceImage, noPass]

theorem localWorkspaces_of_no_pass {dims axis : List Nat} (noPass : curAxisOf axis = [])
    (src : Nat -> β) (tail bstart blen : Nat) :
    localWorkspaces dims axis src tail bstart blen = fun _ => none := by
  unfold localWorkspaces
  simp only [reduceImage_of_no_pass noPass, Function.update_eq_self]
  exact List.foldl_fixed' (fun _ => rfl) _

/-- With no workspace assigned, the local allreduce faults as soon as it has
an element to add, and otherwise leaves `loc_ws[0]` unassigned. -/
theorem localAllreduce_unassigned (gbl blen : Nat) :
    FaultsOr .uninitializedPointer (· = none) (localAllreduce gbl blen fun _ => (none : Option (Nat -> β))) :=
  foldlM_invariant _ (fun acc _ unset => by
    subst unset
    exact foldlM_invariant _ (fun acc _ unset => by subst unset; rfl) _ _ rfl) _ _ rfl

theorem batchThread_of_batch_axis (nthr : Nat) (src : Nat -> β) {srcDesc : Descriptor}
    (notMatrix : srcDesc.ndims ≠ 2) (dst : Nat -> Option β) (ithr : Nat) :
    FaultsOr .uninitializedPointer (fun acc => acc.1 = fun _ => none)
      (batchThread nthr src srcDesc [0] (fun _ => none, dst) ithr) := by
  simp only [batchThread, localWorkspaces_of_no_pass (show curAxisOf [0] = [] from rfl),
    List.mem_singleton, if_true, notMatrix, false_and, if_false]
  exact (localAllreduce_unassigned _ _).bind fun _ unset => by
    subst unset
    exact Function.update_eq_self _ _

theorem globalAllreduce_unassigned {nthr gbl blkNthr : Nat} (threads : 1 ≤ nthr) (kept : 1 ≤ gbl)
    (batchThreads : 1 ≤ blkNthr) (dst : Nat -> Option β) :
    globalAllreduce nthr gbl blkNthr (fun _ => none) dst = .error .uninitializedPointer := by
  obtain ⟨k, cThreads⟩ : ∃ k, splitThreads gbl nthr = k + 1 :=
    ⟨_, (Nat.succ_pred_eq_of_pos (splitThreads_pos kept threads)).symm⟩
  obtain ⟨c, first⟩ : ∃ c, splitLength gbl nthr 0 = c + 1 :=
    ⟨_, (Nat.succ_pred_eq_of_pos (splitLength_first_pos kept nthr)).symm⟩
  obtain ⟨j, rfl⟩ : ∃ j, blkNthr = j + 1 := ⟨blkNthr - 1, by omega⟩
  simp only [globalAllreduce, reduceThread, addShare, cThreads, first, List.range_succ_eq_map,
    List.foldlM_cons, deref]
  rfl

/-- A source of rank other than two, reduced over the batch alone: the loop
over `cur_axis` assigns no workspace, and the reduction reads one. -/
theorem sumAlongAxis_batch_axis {nthr : Nat} (threads : 1 ≤ nthr) (src : Nat -> β)
    (srcDesc : Descriptor) (positive : ∀ d ∈ srcDesc.dims, 0 < d) (batch : srcDesc.dims ≠ [])
    (notMatrix : srcDesc.ndims ≠ 2) (dst : Nat -> Option β) :
    sumAlongAxis nthr src srcDesc [0] dst = .error .uninitializedPointer := by
  have images : 1 ≤ srcDesc.dims.getD 0 0 := by
    obtain ⟨d, rest, dims⟩ := List.exists_cons_of_ne_nil batch
    simpa [dims] using positive d (by simp [dims])
  apply FaultsOr.eq_error
  unfold sumAlongAxis
  refine (foldlM_invariant (fun acc => acc.1 = fun _ => none) (fun acc ithr unset => ?_) _ _ rfl).bind
    fun ⟨gblWs, dst⟩ unset => ?_
  · obtain ⟨gblWs, dst⟩ := acc
    obtain rfl : gblWs = fun _ => none := unset
    exact batchThread_of_batch_axis nthr src notMatrix dst ithr
  · obtain rfl : gblWs = fun _ => none := unset
    simp only [List.mem_singleton, if_true]
    rw [globalAllreduce_unassigned threads (gblWsSize_pos positive _) (splitThreads_pos images threads)]
    rfl

theorem compute_batch_axis_of_three_dims (nthr n a c : Nat) (data : Nat -> β) :
    commonCheck 3 [0] = .noerr ∧
      compute (nthr + 1) ⟨⟨[n + 1, a + 1, c + 1], .f32, .ncw⟩, data⟩ [0] =
        .error .uninitializedPointer := by
  refine ⟨rfl, ?_⟩
  have faults := sumAlongAxis_batch_axis (Nat.le_add_left 1 nthr) data
    ⟨[n + 1, a + 1, c + 1], .f32, .ncw⟩ (by simp) (by simp) (by simp [Descriptor.ndims]) fun _ => none
  simp only [compute, sumCommonAlongAxis, doCompute, faults]
  rfl

/-! ## The two-dimensional special case -/

end SumArray
end Ideep
