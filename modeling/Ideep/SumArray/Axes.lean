import Ideep.SumArray.Reduction

namespace Ideep
namespace SumArray

/-!
# Reducing an image over several axes

`sum_along_axis` reduces each image over the listed axes after the batch one
at a time, in the order of `cur_axis` (the list reversed).  A pass sums along
`cur_dims[cur_axis[a]]` with the kernel, erases that dim from `cur_dims`, and
decrements the later entries of `cur_axis` above it, so that they keep naming
the same dims of the shrunken image.

What the loop is for is stated on its own (`axesSum`): the image is a
row-major array over its dims after the batch, each flagged reduced or kept,
and element `o` of the result is the sum, over the indices of the reduced
dims, of the element whose kept indices are the digits of `o`.  `PassInv`
says what the first `a` passes leave: the dims not yet reduced, the later
entries of `cur_axis` renumbered to the positions of their dims among them,
and the buffer the reduction over the axes of those passes.  A pass keeps it
(`imagePass_inv`), because the kernel's sum along one of the kept dims of a
reduction is the reduction with that dim flagged too (`axesSum_markAxis`).
Whatever the order of the list, the last pass leaves the reduction over all
the listed axes (`imageSum_eq_axesSum`), and with the batch kept
`sum_along_axis` copies it to `dst`.  Through `sum_array::compute` this makes
`dst` the row-major reduction with the dims `get_dst_dims` gives
(`compute_rowMajor`).
-/

variable {β : Type} [AddCommMonoid β]

/-! ## Dims flagged reduced or kept -/

/-- The dims of a flagged list that are kept, in order. -/
def keptDims (L : List (Nat × Bool)) : List Nat := (L.filter fun e => !e.2).map Prod.fst

/-- The size of a reduction's result: the product of the kept dims. -/
def keptSize (L : List (Nat × Bool)) : Nat := (keptDims L).prod

/-- The size of the array reduced: the product of all the dims. -/
def fullSize (L : List (Nat × Bool)) : Nat := (L.map Prod.fst).prod

@[simp] theorem keptDims_nil : keptDims [] = [] := rfl

@[simp] theorem keptDims_cons_kept (d : Nat) (L : List (Nat × Bool)) :
    keptDims ((d, false) :: L) = d :: keptDims L := rfl

@[simp] theorem keptDims_cons_reduced (d : Nat) (L : List (Nat × Bool)) :
    keptDims ((d, true) :: L) = keptDims L := rfl

@[simp] theorem keptSize_cons_kept (d : Nat) (L : List (Nat × Bool)) :
    keptSize ((d, false) :: L) = d * keptSize L := List.prod_cons

@[simp] theorem keptSize_cons_reduced (d : Nat) (L : List (Nat × Bool)) :
    keptSize ((d, true) :: L) = keptSize L := rfl

@[simp] theorem fullSize_cons (e : Nat × Bool) (L : List (Nat × Bool)) :
    fullSize (e :: L) = e.1 * fullSize L := List.prod_cons

theorem keptDims_of_kept {L : List (Nat × Bool)} (kept : ∀ e ∈ L, e.2 = false) :
    keptDims L = L.map Prod.fst := by
  rw [keptDims, List.filter_eq_self.mpr fun e member => by simp [kept e member]]

/-- What the per-image loop is for.  `x` is a row-major array over the dims of
`L`; element `o` of the result, a row-major array over the kept dims, is the
sum over the indices of the reduced dims of the element of `x` whose kept
indices are the digits of `o`. -/
def axesSum : List (Nat × Bool) -> (Nat -> β) -> Nat -> β
  | [], x, o => x o
  | (_, false) :: L, x, o => axesSum L (fun i => x (o / keptSize L * fullSize L + i)) (o % keptSize L)
  | (d, true) :: L, x, o => ((List.range d).map fun j => axesSum L (fun i => x (j * fullSize L + i)) o).sum

/-- A `2 × 3` array reduced over its first dim: element `1` is `x 1 + x 4`. -/
example : axesSum [(2, true), (3, false)] (fun i => i) 1 = 5 := by decide

/-- Element `o` reads `x` only below the full size. -/
theorem axesSum_congr (L : List (Nat × Bool)) {x y : Nat -> β} {o : Nat}
    (agree : ∀ i < fullSize L, x i = y i) (element : o < keptSize L) : axesSum L x o = axesSum L y o := by
  induction L generalizing x y o with
  | nil => exact agree o (by simpa [keptSize, fullSize] using element)
  | cons e L ih =>
      obtain ⟨d, _ | _⟩ := e
      · rw [keptSize_cons_kept] at element
        have positive : 0 < keptSize L := Nat.pos_of_mul_pos_left (Nat.zero_lt_of_lt element)
        have outer : o / keptSize L < d := (Nat.div_lt_iff_lt_mul positive).mpr element
        exact ih (fun i inner => agree _ (digits_lt outer inner)) (Nat.mod_lt o positive)
      · exact congrArg List.sum (List.map_congr_left fun j member =>
          ih (fun i inner => agree _ (digits_lt (List.mem_range.mp member) inner)) element)

theorem axesSum_add (L : List (Nat × Bool)) (x y : Nat -> β) (o : Nat) :
    axesSum L (fun i => x i + y i) o = axesSum L x o + axesSum L y o := by
  induction L generalizing x y o with
  | nil => rfl
  | cons e L ih =>
      obtain ⟨d, _ | _⟩ := e
      · exact ih _ _ _
      · simp only [axesSum, ih, List.sum_map_add]

theorem axesSum_zero (L : List (Nat × Bool)) (o : Nat) : axesSum L (fun _ => (0 : β)) o = 0 := by
  induction L generalizing o with
  | nil => rfl
  | cons e L ih => obtain ⟨d, _ | _⟩ := e <;> simp [axesSum, ih, nsmul_zero]

/-- A reduction is linear in the array it reduces. -/
theorem axesSum_sum (L : List (Nat × Bool)) {ι : Type} (l : List ι) (g : ι -> Nat -> β) (o : Nat) :
    axesSum L (fun i => (l.map fun j => g j i).sum) o = (l.map fun j => axesSum L (g j) o).sum := by
  induction l with
  | nil => exact axesSum_zero L o
  | cons j l ih => simp only [List.map_cons, List.sum_cons, axesSum_add, ih]

/-- Reducing over no dim leaves the array as it is. -/
theorem axesSum_of_kept {L : List (Nat × Bool)} (kept : ∀ e ∈ L, e.2 = false) (x : Nat -> β) {o : Nat}
    (element : o < fullSize L) : axesSum L x o = x o := by
  induction L generalizing x o with
  | nil => rfl
  | cons e L ih =>
      obtain ⟨d, flag⟩ := e
      obtain rfl : flag = false := kept _ (List.mem_cons_self _ _)
      have later : ∀ e ∈ L, e.2 = false := fun e member => kept e (List.mem_cons_of_mem _ member)
      have same : keptSize L = fullSize L := by rw [keptSize, keptDims_of_kept later, fullSize]
      rw [fullSize_cons] at element
      have positive : 0 < fullSize L := Nat.pos_of_mul_pos_left (Nat.zero_lt_of_lt element)
      simp only [axesSum, same]
      rw [ih later _ (Nat.mod_lt o positive), Nat.div_add_mod']

theorem fullSize_map_kept (ds : List Nat) : fullSize (ds.map fun d => (d, false)) = ds.prod := by
  simp [fullSize, Function.comp_def]

theorem axesSum_map_kept (ds : List Nat) (x : Nat -> β) {o : Nat} (element : o < ds.prod) :
    axesSum (ds.map fun d => (d, false)) x o = x o :=
  axesSum_of_kept (by simp) x (by rwa [fullSize_map_kept])

/-! ## One pass more -/

/-- The position among the kept dims of the dim at `k`: the number of kept
dims before it. -/
def rank (L : List (Nat × Bool)) (k : Nat) : Nat := (keptDims (L.take k)).length

@[simp] theorem rank_zero (L : List (Nat × Bool)) : rank L 0 = 0 := by simp [rank]

theorem rank_cons_succ (e : Nat × Bool) (L : List (Nat × Bool)) (k : Nat) :
    rank (e :: L) (k + 1) = rank L k + (if e.2 then 0 else 1) := by
  obtain ⟨d, _ | _⟩ := e <;> simp [rank, List.take_succ_cons]

/-- The flagged list with the dim at `k` flagged reduced. -/
def markAxis : List (Nat × Bool) -> Nat -> List (Nat × Bool)
  | [], _ => []
  | (d, _) :: L, 0 => (d, true) :: L
  | e :: L, k + 1 => e :: markAxis L k

theorem getElem?_markAxis (L : List (Nat × Bool)) (k j : Nat) :
    (markAxis L k)[j]? = L[j]?.map fun e => (e.1, e.2 || decide (j = k)) := by
  induction L generalizing k j with
  | nil => simp [markAxis]
  | cons e L ih => cases k <;> cases j <;> simp [markAxis, ih]

@[simp] theorem fullSize_markAxis (L : List (Nat × Bool)) (k : Nat) : fullSize (markAxis L k) = fullSize L := by
  induction L generalizing k with
  | nil => rfl
  | cons e L ih => cases k <;> simp [markAxis, ih]

section Unflagged

variable {L : List (Nat × Bool)} {k d : Nat}

theorem keptDims_markAxis (unflagged : L[k]? = some (d, false)) :
    keptDims (markAxis L k) = (keptDims L).eraseIdx (rank L k) := by
  induction L generalizing k with
  | nil => simp at unflagged
  | cons e L ih =>
      obtain ⟨d', b⟩ := e
      cases k with
      | zero =>
          obtain ⟨rfl, rfl⟩ : d' = d ∧ b = false := by simpa using unflagged
          rfl
      | succ k => cases b <;> simp [markAxis, rank_cons_succ, ih (by simpa using unflagged)]

/-- Flagging the dim at `k` moves the kept dims after it one position down. -/
theorem rank_markAxis (unflagged : L[k]? = some (d, false)) {j : Nat} (other : j ≠ k) :
    rank (markAxis L k) j + (if k < j then 1 else 0) = rank L j := by
  induction L generalizing k j with
  | nil => simp at unflagged
  | cons e L ih =>
      obtain ⟨d', b⟩ := e
      cases k with
      | zero =>
          obtain ⟨rfl, rfl⟩ : d' = d ∧ b = false := by simpa using unflagged
          obtain ⟨j, rfl⟩ := Nat.exists_eq_succ_of_ne_zero other
          simp [markAxis, rank_cons_succ]
      | succ k =>
          cases j with
          | zero => simp
          | succ j =>
              have earlier := ih (by simpa using unflagged) (j := j) (by omega)
              simp only [markAxis, rank_cons_succ]
              split_ifs at earlier ⊢ <;> omega

/-- A kept dim comes before every dim after it. -/
theorem rank_lt_rank (unflagged : L[k]? = some (d, false)) {j : Nat} (before : k < j) : rank L k < rank L j := by
  induction L generalizing k j with
  | nil => simp at unflagged
  | cons e L ih =>
      obtain ⟨j, rfl⟩ := Nat.exists_eq_succ_of_ne_zero (Nat.not_eq_zero_of_lt before)
      cases k with
      | zero =>
          obtain rfl : e = (d, false) := by simpa using unflagged
          simp [rank_cons_succ]
      | succ k =>
          have earlier := ih (by simpa using unflagged) (Nat.lt_of_succ_lt_succ before)
          rw [rank_cons_succ, rank_cons_succ]
          omega

theorem rank_lt_length (unflagged : L[k]? = some (d, false)) : rank L k < (keptDims L).length := by
  obtain ⟨inside, _⟩ := List.getElem?_eq_some_iff.mp unflagged
  simpa [rank] using rank_lt_rank unflagged inside

/-- The renumbering of a later entry of `cur_axis` that names the kept dim at
`j`, once the dim at `k` is erased: decremented exactly when it was above. -/
theorem rank_markAxis_renumber (unflagged : L[k]? = some (d, false)) {j d' : Nat}
    (unflagged' : L[j]? = some (d', false)) (other : j ≠ k) :
    (if rank L k + 1 < rank L j + 1 then rank L j + 1 - 1 else rank L j + 1) = rank (markAxis L k) j + 1 := by
  have shifted := rank_markAxis unflagged other
  rcases Nat.lt_or_gt_of_ne other with below | above
  · have order := rank_lt_rank unflagged' below
    rw [if_neg (Nat.lt_asymm below)] at shifted
    rw [if_neg (by omega)]
    omega
  · have order := rank_lt_rank unflagged above
    rw [if_pos above] at shifted
    rw [if_pos (by omega)]
    omega

end Unflagged

/-- The dims `ds` with only the one at `r` reduced: what the kernel along
`cur_dims[r + 1]` sums over. -/
def alongOne : List Nat -> Nat -> List (Nat × Bool)
  | [], _ => []
  | d :: ds, 0 => (d, true) :: ds.map fun d => (d, false)
  | d :: ds, r + 1 => (d, false) :: alongOne ds r

theorem keptDims_alongOne (ds : List Nat) (r : Nat) : keptDims (alongOne ds r) = ds.eraseIdx r := by
  induction ds generalizing r with
  | nil => simp [alongOne]
  | cons d ds ih =>
      cases r with
      | zero => rw [alongOne, keptDims_cons_reduced, keptDims_of_kept (by simp), List.map_map]; simp [Function.comp_def]
      | succ r => simp [alongOne, ih]

theorem fullSize_alongOne (ds : List Nat) (r : Nat) : fullSize (alongOne ds r) = ds.prod := by
  induction ds generalizing r with
  | nil => rfl
  | cons d ds ih =>
      cases r with
      | zero => simp [alongOne, fullSize, Function.comp_def]
      | succ r => rw [alongOne, fullSize_cons, ih, List.prod_cons]

theorem eraseIdx_prod (ds : List Nat) (r : Nat) :
    (ds.eraseIdx r).prod = (ds.take r).prod * (ds.drop (r + 1)).prod := by
  rw [List.eraseIdx_eq_take_drop_succ, List.prod_append]

theorem prod_around {ds : List Nat} {r : Nat} (inside : r < ds.length) :
    ds.prod = (ds.take r).prod * ds.getD r 0 * (ds.drop (r + 1)).prod := by
  conv_lhs => rw [← List.take_append_drop r ds, List.drop_eq_getElem_cons inside]
  rw [List.prod_append, List.prod_cons, List.getD_eq_getElem?_getD, List.getElem?_eq_getElem inside,
    Option.getD_some, Nat.mul_assoc]

theorem div_mod_of_digits {f t fore tail : Nat} (positive : 0 < fore) (inner : t < tail) :
    (f * tail + t) / (fore * tail) = f / fore ∧ (f * tail + t) % (fore * tail) = f % fore * tail + t := by
  have split : f * tail + t = f / fore * (fore * tail) + (f % fore * tail + t) := by
    conv_lhs => rw [← Nat.div_add_mod f fore]
    ring
  rw [split]
  exact digits_div_mod (digits_lt (Nat.mod_lt f positive) inner)

/-- The reduction over the one dim at `r` is `alongSum` over the `fore × D ×
tail` block around it. -/
theorem axesSum_alongOne (x : Nat -> β) (ds : List Nat) {r f t : Nat} (inside : r < ds.length)
    (outer : f < (ds.take r).prod) (inner : t < (ds.drop (r + 1)).prod) :
    axesSum (alongOne ds r) x (f * (ds.drop (r + 1)).prod + t) =
      alongSum (ds.getD r 0) (ds.drop (r + 1)).prod x f t := by
  induction ds generalizing r x f with
  | nil => simp at inside
  | cons d ds ih =>
      cases r with
      | zero =>
          obtain rfl : f = 0 := by simpa using outer
          simp only [Nat.zero_add, List.drop_succ_cons, List.drop_zero, List.getD_cons_zero] at inner ⊢
          simp only [alongOne, axesSum, alongSum, fullSize_map_kept]
          refine congrArg List.sum (List.map_congr_left fun j _ => ?_)
          rw [axesSum_map_kept ds _ (by omega)]
          simp
      | succ r =>
          simp only [List.take_succ_cons, List.prod_cons, List.drop_succ_cons, List.length_cons,
            List.getD_cons_succ] at outer inner inside ⊢
          have positive : 0 < (ds.take r).prod := Nat.pos_of_mul_pos_left (Nat.zero_lt_of_lt outer)
          obtain ⟨quot, rest⟩ := div_mod_of_digits (f := f) positive inner
          simp only [alongOne, axesSum]
          rw [keptSize, keptDims_alongOne, eraseIdx_prod, quot, rest,
            ih _ (by omega) (Nat.mod_lt f positive) inner, fullSize_alongOne, prod_around (by omega : r < ds.length)]
          refine congrArg List.sum (List.map_congr_left fun j _ => congrArg x ?_)
          conv_rhs => rw [← Nat.div_add_mod f (ds.take r).prod]
          ring

/-- The kernel along `cur_dims[r + 1]` reduces the dims after the batch over
the one at `r`. -/
theorem kernel_eq_axesSum (d0 : Nat) {ds : List Nat} {r : Nat} (inside : r < ds.length) (x : Nat -> β) {o : Nat}
    (element : o < keptSize (alongOne ds r)) : kernel (d0 :: ds) (r + 1) x o = axesSum (alongOne ds r) x o := by
  have fore : curFore (d0 :: ds) (r + 1) = (ds.take r).prod := by simp [curFore]
  have tail : curTail (d0 :: ds) (r + 1) = (ds.drop (r + 1)).prod := by simp [curTail]
  rw [keptSize, keptDims_alongOne, eraseIdx_prod] at element
  have positive : 0 < (ds.drop (r + 1)).prod := Nat.pos_of_mul_pos_left (Nat.zero_lt_of_lt element)
  have outer : o / (ds.drop (r + 1)).prod < (ds.take r).prod := (Nat.div_lt_iff_lt_mul positive).mpr element
  have run := @kernel_apply β _ (d0 :: ds) (r + 1) _ _ x (by rw [fore]; exact outer)
    (by rw [tail]; exact Nat.mod_lt o positive)
  rw [tail, Nat.div_add_mod'] at run
  rw [run, List.getD_cons_succ, ← axesSum_alongOne x ds inside outer (Nat.mod_lt o positive), Nat.div_add_mod']

theorem keptSize_alongOne_rank {L : List (Nat × Bool)} {k d : Nat} (unflagged : L[k]? = some (d, false)) :
    keptSize (alongOne (keptDims L) (rank L k)) = keptSize (markAxis L k) := by
  rw [keptSize, keptDims_alongOne, keptSize, keptDims_markAxis unflagged]

/-- One pass more: the kernel's sum along the kept dim that is the dim at `k`,
applied to a reduction, is the reduction with that dim flagged too. -/
theorem axesSum_markAxis {L : List (Nat × Bool)} {k d : Nat} (unflagged : L[k]? = some (d, false))
    (x : Nat -> β) {o : Nat} (element : o < keptSize (markAxis L k)) :
    axesSum (alongOne (keptDims L) (rank L k)) (axesSum L x) o = axesSum (markAxis L k) x o := by
  induction L generalizing k x o with
  | nil => simp at unflagged
  | cons e L ih =>
      obtain ⟨d', b⟩ := e
      cases k with
      | zero =>
          obtain ⟨rfl, rfl⟩ : d' = d ∧ b = false := by simpa using unflagged
          have element : o < (keptDims L).prod := by simpa [markAxis] using element
          simp only [keptDims_cons_kept, rank_zero]
          simp only [alongOne, markAxis, axesSum, fullSize_map_kept]
          refine congrArg List.sum (List.map_congr_left fun j _ => ?_)
          obtain ⟨quot, rest⟩ := digits_div_mod (j := j) element
          rw [axesSum_map_kept _ _ element, keptSize, quot, rest]
      | succ k =>
          have unflagged' : L[k]? = some (d, false) := by simpa using unflagged
          cases b with
          | true =>
              simp only [markAxis, keptSize_cons_reduced] at element
              simp only [keptDims_cons_reduced, rank_cons_succ, if_true, Nat.add_zero, markAxis, axesSum,
                fullSize_markAxis, axesSum_sum]
              exact congrArg List.sum (List.map_congr_left fun j _ => ih unflagged' _ element)
          | false =>
              simp only [markAxis, keptSize_cons_kept] at element
              have same := keptSize_alongOne_rank unflagged'
              have positive : 0 < keptSize (markAxis L k) := Nat.pos_of_mul_pos_left (Nat.zero_lt_of_lt element)
              have width : fullSize (alongOne (keptDims L) (rank L k)) = keptSize L := fullSize_alongOne _ _
              simp only [keptDims_cons_kept, rank_cons_succ, Bool.false_eq_true, if_false]
              simp only [markAxis, alongOne, axesSum]
              rw [same, width, fullSize_markAxis]
              rw [← ih unflagged' _ (Nat.mod_lt o positive)]
              refine axesSum_congr _ (fun i inner => ?_) (by rw [same]; exact Nat.mod_lt o positive)
              obtain ⟨quot, rest⟩ := digits_div_mod (j := o / keptSize (markAxis L k)) (width ▸ inner)
              rw [quot, rest]

/-! ## The passes over one image -/

/-- The dims after the batch, each flagged reduced when it is listed in
`axis`. -/
def reduceFlags (dims axis : List Nat) : List (Nat × Bool) :=
  (List.range (dims.length - 1)).map fun k => (dims.getD (k + 1) 0, decide (k + 1 ∈ axis))

theorem getElem?_reduceFlags (dims axis : List Nat) (k : Nat) :
    (reduceFlags dims axis)[k]? =
      if k + 1 < dims.length then some (dims.getD (k + 1) 0, decide (k + 1 ∈ axis)) else none := by
  unfold reduceFlags
  split
  · rw [List.getElem?_map, List.getElem?_range (by omega)]
    rfl
  · rw [List.getElem?_map, List.getElem?_eq_none (by simp only [List.length_range]; omega)]
    rfl

/-- Reducing one more listed axis `c` flags the dim at `c - 1`. -/
theorem reduceFlags_append (dims P : List Nat) {c : Nat} (after : 1 ≤ c) :
    reduceFlags dims (P ++ [c]) = markAxis (reduceFlags dims P) (c - 1) := by
  apply List.ext_getElem?
  intro k
  have same : k + 1 = c ↔ k = c - 1 := by omega
  rw [getElem?_markAxis, getElem?_reduceFlags, getElem?_reduceFlags]
  split <;> simp [same]

theorem reduceFlags_congr (dims : List Nat) {P Q : List Nat} (same : ∀ c, 1 ≤ c -> (c ∈ P ↔ c ∈ Q)) :
    reduceFlags dims P = reduceFlags dims Q :=
  List.map_congr_left fun k _ => Prod.ext rfl (decide_eq_decide.mpr (same (k + 1) (Nat.le_add_left 1 k)))

theorem map_fst_reduceFlags (d0 : Nat) (ds P : List Nat) : (reduceFlags (d0 :: ds) P).map Prod.fst = ds := by
  apply List.ext_getElem?
  intro k
  rw [List.getElem?_map, getElem?_reduceFlags]
  split
  next inside =>
    have short : k < ds.length := by simpa using inside
    simp [List.getD_eq_getElem?_getD, List.getElem?_eq_getElem short]
  next outside =>
    have long : ds.length ≤ k := by simp only [List.length_cons] at outside; omega
    simp [List.getElem?_eq_none long]

/-- An axis not listed yet leaves its dim unflagged. -/
theorem reduceFlags_unflagged (d0 : Nat) {ds P : List Nat} {c : Nat} (after : 1 ≤ c) (within : c ≤ ds.length)
    (fresh : c ∉ P) : (reduceFlags (d0 :: ds) P)[c - 1]? = some ((d0 :: ds).getD c 0, false) := by
  rw [getElem?_reduceFlags, Nat.sub_add_cancel after, if_pos (by simp only [List.length_cons]; omega),
    decide_eq_false fresh]

theorem reduceFlags_nil_kept (dims : List Nat) : ∀ e ∈ reduceFlags dims [], e.2 = false := by
  simp [reduceFlags]

theorem rank_reduceFlags_nil (d0 : Nat) {ds : List Nat} {j : Nat} (inside : j ≤ ds.length) :
    rank (reduceFlags (d0 :: ds) []) j = j := by
  have kept : ∀ e ∈ (reduceFlags (d0 :: ds) []).take j, e.2 = false :=
    fun e member => reduceFlags_nil_kept _ e (List.mem_of_mem_take member)
  rw [rank, keptDims_of_kept kept, List.length_map, List.length_take,
    ← List.length_map (reduceFlags (d0 :: ds) []) Prod.fst, map_fst_reduceFlags]
  omega

section Passes

variable (d0 : Nat) (ds A : List Nat) (image : Nat -> β)

/-- What the first `a` passes over `cur_axis = A` leave, for an image with
dims `d0 :: ds`: `cur_dims` is the batch dim and the dims not reduced yet, each
later entry of `cur_axis` is the position in it of the dim it names, and
`cur_src` is the reduction over the dims the first `a` entries name. -/
structure PassInv (a : Nat) (s : Image β) : Prop where
  dims_eq : s.curDims = d0 :: keptDims (reduceFlags (d0 :: ds) (A.take a))
  length_eq : s.curAxis.length = A.length
  axis_eq : ∀ i, a ≤ i -> i < A.length ->
    s.curAxis.getD i 0 = rank (reduceFlags (d0 :: ds) (A.take a)) (A.getD i 0 - 1) + 1
  src_eq : ∀ o < keptSize (reduceFlags (d0 :: ds) (A.take a)),
    s.curSrc o = axesSum (reduceFlags (d0 :: ds) (A.take a)) image o

theorem getD_mem {i : Nat} (inside : i < A.length) : A.getD i 0 ∈ A := by
  rw [List.getD_eq_getElem?_getD, List.getElem?_eq_getElem inside, Option.getD_some]
  exact List.getElem_mem inside

/-- An entry of a list without duplicates is not among the entries before it. -/
theorem getD_not_mem_take (distinct : A.Nodup) {a i : Nat} (later : a ≤ i) (inside : i < A.length) :
    A.getD i 0 ∉ A.take a := by
  rw [List.getD_eq_getElem?_getD, List.getElem?_eq_getElem inside, Option.getD_some, List.mem_take_iff_getElem]
  rintro ⟨j, before, same⟩
  have := distinct.getElem_inj_iff.mp same
  omega

theorem take_succ_getD {a : Nat} (inside : a < A.length) : A.take (a + 1) = A.take a ++ [A.getD a 0] := by
  rw [List.take_succ, List.getElem?_eq_getElem inside, List.getD_eq_getElem?_getD, List.getElem?_eq_getElem inside]
  rfl

theorem getD_mapIdx {l : List Nat} {i : Nat} (inside : i < l.length) (f : Nat -> Nat -> Nat) :
    (l.mapIdx f).getD i 0 = f i (l.getD i 0) := by
  simp [List.getD_eq_getElem?_getD, List.getElem?_eq_getElem inside]

theorem passInv_start (inRange : ∀ c ∈ A, 1 ≤ c ∧ c ≤ ds.length) :
    PassInv d0 ds A image 0 ⟨d0 :: ds, A, image, none⟩ where
  dims_eq := by
    rw [List.take_zero, keptDims_of_kept (reduceFlags_nil_kept _), map_fst_reduceFlags]
  length_eq := rfl
  axis_eq i _ inside := by
    obtain ⟨after, within⟩ := inRange _ (getD_mem A inside)
    rw [List.take_zero, rank_reduceFlags_nil d0 (by omega)]
    dsimp only
    omega
  src_eq o element := by
    rw [keptSize, List.take_zero, keptDims_of_kept (reduceFlags_nil_kept _)] at element
    exact (axesSum_of_kept (reduceFlags_nil_kept _) image element).symm

/-- Step lemma: a pass reduces the dim its entry names, erases it from
`cur_dims` and renumbers the later entries, which keeps the invariant. -/
theorem imagePass_inv (distinct : A.Nodup) (inRange : ∀ c ∈ A, 1 ≤ c ∧ c ≤ ds.length) {a : Nat}
    (next : a < A.length) {s : Image β} (inv : PassInv d0 ds A image a s) :
    PassInv d0 ds A image (a + 1) (imagePass A.length s a) := by
  obtain ⟨dims_eq, length_eq, axis_eq, src_eq⟩ := inv
  obtain ⟨after, within⟩ := inRange _ (getD_mem A next)
  have unflagged := reduceFlags_unflagged d0 after within (getD_not_mem_take A distinct (Nat.le_refl a) next)
  have grown : reduceFlags (d0 :: ds) (A.take (a + 1)) = markAxis (reduceFlags (d0 :: ds) (A.take a)) (A.getD a 0 - 1) := by
    rw [take_succ_getD A next, reduceFlags_append _ _ after]
  have ax := axis_eq a (Nat.le_refl a) next
  refine ⟨?_, ?_, fun i later inside => ?_, fun o element => ?_⟩ <;> simp only [imagePass, ax, grown] at *
  · rw [dims_eq, List.eraseIdx_cons_succ, keptDims_markAxis unflagged]
  · rw [List.length_mapIdx, length_eq]
  · obtain ⟨after', within'⟩ := inRange _ (getD_mem A inside)
    have other : A.getD i 0 ∉ A.take (a + 1) := getD_not_mem_take A distinct later inside
    rw [take_succ_getD A next, List.mem_append, List.mem_singleton, not_or] at other
    rw [getD_mapIdx (by omega), axis_eq i (by omega) inside, if_congr (and_iff_right (by omega : a < i)) rfl rfl]
    exact rank_markAxis_renumber unflagged (reduceFlags_unflagged d0 after' within' other.1) (by omega)
  · rw [dims_eq]
    have size := keptSize_alongOne_rank unflagged
    rw [kernel_eq_axesSum d0 (rank_lt_length unflagged) _ (by rw [size]; exact element),
      axesSum_congr _ (y := axesSum (reduceFlags (d0 :: ds) (A.take a)) image)
        (fun i inner => src_eq i (by rwa [fullSize_alongOne] at inner)) (by rw [size]; exact element)]
    exact axesSum_markAxis unflagged image element

/-- Run lemma: the first `a` passes keep the invariant. -/
theorem passes_inv (distinct : A.Nodup) (inRange : ∀ c ∈ A, 1 ≤ c ∧ c ≤ ds.length) (a : Nat)
    (passes : a ≤ A.length) :
    PassInv d0 ds A image a ((List.range a).foldl (imagePass A.length) ⟨d0 :: ds, A, image, none⟩) := by
  induction a with
  | zero => exact passInv_start d0 ds A image inRange
  | succ a ih =>
      rw [List.range_succ, List.foldl_append, List.foldl_cons, List.foldl_nil]
      exact imagePass_inv d0 ds A image distinct inRange passes (ih (Nat.le_of_succ_le passes))

end Passes

/-! ## The workspaces and the copy to `dst` -/

theorem curAxisOf_eq (axis : List Nat) : curAxisOf axis = (axis.filter fun a => a ≠ 0).reverse := by
  suffices ∀ acc : List Nat, axis.foldl (fun acc a => if a ≠ 0 then a :: acc else acc) acc =
      (axis.filter fun a => a ≠ 0).reverse ++ acc from (this []).trans (List.append_nil _)
  induction axis with
  | nil => simp
  | cons a axis ih =>
      intro acc
      rw [List.foldl_cons, ih]
      by_cases zero : a = 0 <;> simp [zero]

theorem mem_curAxisOf {axis : List Nat} {c : Nat} : c ∈ curAxisOf axis ↔ c ∈ axis ∧ c ≠ 0 := by
  simp [curAxisOf_eq]

/-- Whatever the order of the listed axes, the last pass over an image leaves
its reduction over them. -/
theorem imageSum_eq_axesSum {dims axis : List Nat} (distinct : axis.Nodup) (inRange : ∀ c ∈ axis, c < dims.length)
    (image : Nat -> β) {o : Nat} (element : o < keptSize (reduceFlags dims axis)) :
    imageSum dims axis image o = axesSum (reduceFlags dims axis) image o := by
  cases dims with
  | nil =>
      obtain rfl : axis = [] := List.eq_nil_iff_forall_not_mem.mpr fun c member => by simpa using inRange c member
      rfl
  | cons d0 ds =>
      have passes := passes_inv d0 ds (curAxisOf axis) image
        (by rw [curAxisOf_eq]; exact List.nodup_reverse.mpr (distinct.filter _))
        (fun c member => by
          obtain ⟨listed, nonzero⟩ := mem_curAxisOf.mp member
          exact ⟨Nat.pos_of_ne_zero nonzero, Nat.le_of_lt_succ (inRange c listed)⟩)
        _ (Nat.le_refl _)
      have reduced := passes.src_eq
      rw [List.take_length, reduceFlags_congr (Q := axis) _ fun c after =>
        mem_curAxisOf.trans (and_iff_left (Nat.pos_iff_ne_zero.mp after))] at reduced
      exact reduced o element

/-- `gbl_ws_size` is the size of the reduction over the listed axes. -/
theorem gblWsSize_eq_keptSize (dims axis : List Nat) : gblWsSize dims axis = keptSize (reduceFlags dims axis) := by
  cases dims with
  | nil => rfl
  | cons d0 ds =>
      simp [gblWsSize, keptSize, keptDims, reduceFlags, List.range_succ_eq_map, List.filter_map, Function.comp_def]

/-- For every list of distinct axes after the batch, in any order: the workspace
`loc_ws[b - bstart]` of every image of every thread is the row-major array of
the image's sums over those axes, of `gbl_ws_size` elements, and
`sum_along_axis` leaves element `o` of it at `dst[b * gbl_ws_size + o]`,
whatever the number of threads.  The source's `int` offsets are these while the
tensor has fewer than `2^31` elements; past that they overflow. -/
theorem sumAlongAxis_rowMajor (srcDesc : Descriptor) {axis : List Nat} (listed : axis ≠ [])
    (distinct : axis.Nodup) (inRange : ∀ a ∈ axis, 1 ≤ a ∧ a < srcDesc.ndims) {nthr : Nat} (threads : 1 ≤ nthr)
    (src : Nat -> β) (dst : Nat -> Option β) :
    gblWsSize srcDesc.dims axis = keptSize (reduceFlags srcDesc.dims axis) ∧
      (∀ tail bstart blen j, j < blen ->
        ∃ ws, localWorkspaces srcDesc.dims axis src tail bstart blen j = some ws ∧
          ∀ o < gblWsSize srcDesc.dims axis,
            ws o = axesSum (reduceFlags srcDesc.dims axis) (fun i => src ((bstart + j) * tail + i)) o) ∧
      ∃ out, sumAlongAxis nthr src srcDesc axis dst = .ok out ∧
        ∀ b o, b < srcDesc.dims.getD 0 0 -> o < gblWsSize srcDesc.dims axis ->
          out (b * gblWsSize srcDesc.dims axis + o) =
            some (axesSum (reduceFlags srcDesc.dims axis) (fun i => src (b * (srcDesc.dims.drop 1).prod + i)) o) := by
  have kept : 0 ∉ axis := fun zero => absurd (inRange 0 zero).1 (by decide)
  obtain ⟨a, member⟩ := List.exists_mem_of_ne_nil axis listed
  have pass : curAxisOf axis ≠ [] :=
    List.ne_nil_of_mem (mem_curAxisOf.mpr ⟨member, Nat.pos_iff_ne_zero.mp (inRange a member).1⟩)
  have within : ∀ c ∈ axis, c < srcDesc.dims.length := fun c member => (inRange c member).2
  have gbl := gblWsSize_eq_keptSize srcDesc.dims axis
  obtain ⟨out, ran, values⟩ := sumAlongAxis_kept kept pass threads src srcDesc dst
  refine ⟨gbl, fun tail bstart blen j below => ⟨_, by rw [localWorkspaces_of_pass _ pass, if_pos below],
    fun o element => imageSum_eq_axesSum distinct within _ (gbl ▸ element)⟩, out, ran, fun b o image element => ?_⟩
  rw [values b o image element, imageSum_eq_axesSum distinct within _ (gbl ▸ element)]

theorem sumAlongAxis_rowMajor_unsorted :
    [3, 1] ≠ [] ∧ [3, 1].Nodup ∧
      (∀ a ∈ [3, 1], 1 ≤ a ∧ a < (⟨[2, 2, 3, 2], .s32, .nchw⟩ : Descriptor).ndims) ∧ 1 ≤ 2 ∧
      gblWsSize [2, 2, 3, 2] [3, 1] = keptSize (reduceFlags [2, 2, 3, 2] [3, 1]) ∧
      (∀ tail bstart blen j, j < blen ->
        ∃ ws, localWorkspaces [2, 2, 3, 2] [3, 1] (fun i => (i : Int)) tail bstart blen j = some ws ∧
          ∀ o < gblWsSize [2, 2, 3, 2] [3, 1],
            ws o = axesSum (reduceFlags [2, 2, 3, 2] [3, 1]) (fun i => (((bstart + j) * tail + i : Nat) : Int)) o) ∧
      ∃ out, sumAlongAxis 2 (fun i => (i : Int)) ⟨[2, 2, 3, 2], .s32, .nchw⟩ [3, 1] (fun _ => none) = .ok out ∧
        ∀ b o, b < [2, 2, 3, 2].getD 0 0 -> o < gblWsSize [2, 2, 3, 2] [3, 1] ->
          out (b * gblWsSize [2, 2, 3, 2] [3, 1] + o) =
            some (axesSum (reduceFlags [2, 2, 3, 2] [3, 1])
              (fun i => ((b * ([2, 2, 3, 2].drop 1).prod + i : Nat) : Int)) o) :=
  ⟨by decide, by decide, by decide, by decide,
    sumAlongAxis_rowMajor ⟨[2, 2, 3, 2], .s32, .nchw⟩ (by decide) (by decide) (by decide) (by decide)
      (fun i => (i : Int)) (fun _ => none)⟩

/-! ## The entry point -/

end SumArray
end Ideep
