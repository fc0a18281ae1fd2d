import Ideep.Buffer
import Ideep.Descriptor
import Mathlib.Data.List.Forall2
import Mathlib.Data.List.InsertIdx

namespace Ideep
namespace Concat

/-!
# Concatenation along an axis and its inverse

`concat::compute(inputs, axis, add_axis, dst)` checks the axis and the dims,
sizes the destination, and copies input `i` by a reorder into the view of the
destination at `offset_dims`, whose axis entry then grows by `axis_info[i]`;
it returns `axis_info`.  With `add_axis` each input first gets a unit dim at
the axis and the inputs are stacked along a new dim.  `spliter::compute(input,
axis_info, axis, add_axis)` reads the same views back out, dropping the unit
dim again with `add_axis`.

Tensors are taken by their logical content: dims, data type, and the element
at each index vector.  A reorder between two descriptors of one data type keeps
every logical element (the engine's contract), so layouts do not enter.  A view
`create_view(dims, offset_dims)` has an offset only along the axis; writing
into it is a `Write` of the destination, reading from it a reindexing of its
parent.  A reshape that inserts or removes a unit dim keeps row-major order,
which is the index map inserting or removing a zero there.

Both round trips hold: the spliter gives back the inputs of a concatenation
from its own `axis_info`, and concatenating the pieces of a split gives back
the tensor and the sizes.
-/

/-- A tensor by its logical content. -/
structure Tensor (α : Type) where
  dims : List Nat
  dataType : DataType
  data : List Nat -> α

namespace Tensor

variable {α : Type}

/-- `ndims()`. -/
def ndims (t : Tensor α) : Nat := t.dims.length

/-- `get_dim(i)`. -/
def getDim (t : Tensor α) (i : Nat) : Nat := t.dims.getD i 0

end Tensor

/-- `idx` indexes an element of a tensor of dims `dims`. -/
def InRange (dims idx : List Nat) : Prop := List.Forall₂ (· < ·) idx dims

instance (dims idx : List Nat) : Decidable (InRange dims idx) :=
  inferInstanceAs (Decidable (List.Forall₂ _ _ _))

/-- Two tensors agree in dims, data type and every element. -/
def Same {α : Type} (t u : Tensor α) : Prop :=
  t.dims = u.dims ∧ t.dataType = u.dataType ∧ forall idx, InRange t.dims idx -> t.data idx = u.data idx

/-- The index of the parent that index `idx` of a view at offset `o` along
`axis` stands for. -/
def shift (axis o : Nat) (idx : List Nat) : List Nat := idx.modify (· + o) axis

/-- The index of a view at offset `o` along `axis` that index `idx` of the
parent stands for. -/
def unshift (axis o : Nat) (idx : List Nat) : List Nat := idx.modify (· - o) axis

variable {α : Type}

/-- A reorder of `src` into the view of dims `src.dims` at offset `o` along
`axis` of the destination. -/
def intoView (axis o : Nat) (src : Tensor α) : Write (List Nat) α where
  covers idx := decide (o ≤ idx.getD axis 0 ∧ InRange src.dims (unshift axis o idx))
  value idx := src.data (unshift axis o idx)

/-- A reorder of the view of dims `dims` at offset `o` along `axis` of `src`
into a new tensor of those dims. -/
def ofView (axis o : Nat) (dims : List Nat) (src : Tensor α) : Tensor α :=
  ⟨dims, src.dataType, fun idx => src.data (shift axis o idx)⟩

/-- `reshape` to the dims with a unit dim inserted at `axis`. -/
def insertUnit (axis : Nat) (t : Tensor α) : Tensor α :=
  ⟨t.dims.insertIdx axis 1, t.dataType, fun idx => t.data (idx.eraseIdx axis)⟩

/-- `reshape` to the dims with the unit dim at `axis` removed. -/
def eraseUnit (axis : Nat) (t : Tensor α) : Tensor α :=
  ⟨t.dims.eraseIdx axis, t.dataType, fun idx => t.data (idx.insertIdx axis 0)⟩

/-! ## The two operators -/

/-- What `concat::compute` reorders input `x` from: `x` itself, or with
`add_axis` its reshape with a unit dim at the axis. -/
def reorderSource (axis : Nat) (addAxis : Bool) (x : Tensor α) : Tensor α :=
  if addAxis then insertUnit axis x else x

/-- The dims check of `concat::compute`: every input agrees with the first at
every dim but the axis, and at the axis too with `add_axis`. -/
def dimsAgree (inputs : List (Tensor α)) (first : Tensor α) (axis : Nat) (addAxis : Bool) : Bool :=
  (List.range first.ndims).all fun i =>
    (i == axis && !addAxis) || (inputs.drop 1).all fun x => x.getDim i == first.getDim i

/-- The copies of the loop of `concat::compute`, each input paired with its
`axis_info` entry: input `i` goes into the view at offset `o`, which then grows
by `axis_info[i]`. -/
def copies (axis : Nat) (addAxis : Bool) : Nat -> List (Tensor α × Nat) -> List (Write (List Nat) α)
  | _, [] => []
  | o, (x, n) :: rest =>
      intoView axis o (reorderSource axis addAxis x) :: copies axis addAxis (o + n) rest

/-- `concat::compute(inputs, axis, add_axis, dst)`: `axis_info` and the
destination, whose buffer held `fresh` after `reinit`. -/
def compute (inputs : List (Tensor α)) (axis : Nat) (addAxis : Bool) (fresh : List Nat -> α) :
    Except Fault (List Nat × Tensor α) :=
  match inputs with
  | [] => .error .frontOfEmpty
  | first :: _ =>
      if ¬ axis < first.ndims + (if addAxis then 1 else 0) then
        .error (.enforce "invalid axis in concat")
      else if dimsAgree inputs first axis addAxis = false then
        .error (.enforce "invalid input dims in concat")
      else
        let info := inputs.map fun x => if addAxis then 1 else x.getDim axis
        let dstDims :=
          if addAxis then first.dims.insertIdx axis info.sum else first.dims.set axis info.sum
        .ok (info, ⟨dstDims, first.dataType, runWrites (copies axis addAxis 0 (inputs.zip info)) fresh⟩)

/-- The outputs of the loop of `spliter::compute`: piece `i` is the view of
`axis_info[i]` along the axis at offset `o`, which then grows by it. -/
def pieces (axis : Nat) (addAxis : Bool) (input : Tensor α) : Nat -> List Nat -> List (Tensor α)
  | _, [] => []
  | o, n :: rest =>
      let output := ofView axis o (input.dims.set axis n) input
      (if addAxis then eraseUnit axis output else output) :: pieces axis addAxis input (o + n) rest

/-- `spliter::compute(input, axis_info, axis, add_axis)`. -/
def Spliter.compute (input : Tensor α) (info : List Nat) (axis : Nat) (addAxis : Bool) :
    Except Fault (List (Tensor α)) :=
  if axis < input.ndims then .ok (pieces axis addAxis input 0 info)
  else .error (.enforce "invalid axis in split")

/-! ## Index vectors -/

section Indices

theorem InRange.length_eq {dims idx : List Nat} (range : InRange dims idx) :
    idx.length = dims.length :=
  List.Forall₂.length_eq range

theorem InRange.getD_lt {dims idx : List Nat} (range : InRange dims idx) {axis : Nat}
    (inside : axis < dims.length) : idx.getD axis 0 < dims.getD axis 0 := by
  induction range generalizing axis with
  | nil => simp at inside
  | cons head _ ih =>
      cases axis with
      | zero => simpa using head
      | succ axis => simpa using ih (by simpa using inside)

/-- Changing the coordinate at the axis within a new extent stays in range. -/
theorem InRange.set_modify {dims idx : List Nat} (range : InRange dims idx) {axis n : Nat}
    {f : Nat -> Nat} (bound : f (idx.getD axis 0) < n) :
    InRange (dims.set axis n) (idx.modify f axis) := by
  induction range generalizing axis with
  | nil => simp [InRange]
  | cons head tail ih =>
      cases axis with
      | zero => exact List.Forall₂.cons (by simpa using bound) tail
      | succ axis => exact List.Forall₂.cons head (ih (by simpa using bound))

theorem InRange.insertIdx {dims idx : List Nat} (range : InRange dims idx) {axis : Nat}
    (inside : axis ≤ dims.length) : InRange (dims.insertIdx axis 1) (idx.insertIdx axis 0) := by
  induction range generalizing axis with
  | nil =>
      obtain rfl : axis = 0 := by simpa using inside
      exact List.Forall₂.cons Nat.zero_lt_one List.Forall₂.nil
  | cons head tail ih =>
      cases axis with
      | zero => exact List.Forall₂.cons Nat.zero_lt_one (List.Forall₂.cons head tail)
      | succ axis => exact List.Forall₂.cons head (ih (by simpa using inside))

theorem unshift_shift (axis o : Nat) (idx : List Nat) : unshift axis o (shift axis o idx) = idx := by
  refine List.ext_getElem (by simp [shift, unshift]) fun i _ _ => ?_
  simp only [shift, unshift, List.getElem_modify]
  split <;> simp

theorem shift_unshift {axis o : Nat} {idx : List Nat} (low : o ≤ idx.getD axis 0) :
    shift axis o (unshift axis o idx) = idx := by
  refine List.ext_getElem (by simp [shift, unshift]) fun i _ inside => ?_
  simp only [shift, unshift, List.getElem_modify]
  split
  · rename_i same
    subst same
    simp only [List.getD_eq_getElem?_getD, List.getElem?_eq_getElem inside, Option.getD_some] at low
    omega
  · rfl

theorem getD_modify_self {axis : Nat} {idx : List Nat} (inside : axis < idx.length) (f : Nat -> Nat) :
    (idx.modify f axis).getD axis 0 = f (idx.getD axis 0) := by
  simp [List.getD_eq_getElem?_getD, List.getElem?_modify, List.getElem?_eq_getElem inside]

theorem set_insertIdx {l : List Nat} {n : Nat} (inside : n ≤ l.length) (a b : Nat) :
    (l.insertIdx n a).set n b = l.insertIdx n b := by
  induction l generalizing n with
  | nil =>
      obtain rfl : n = 0 := by simpa using inside
      rfl
  | cons head tail ih =>
      cases n with
      | zero => rfl
      | succ n =>
          simp only [List.insertIdx_succ_cons, List.set_cons_succ]
          rw [ih (by simpa using inside)]

/-- Dims that agree with `dims` off the axis are `dims` with their own extent
at the axis. -/
theorem eq_set_of_agree {l dims : List Nat} {axis : Nat} (length : l.length = dims.length)
    (inside : axis < dims.length) (agree : forall i, i ≠ axis -> l.getD i 0 = dims.getD i 0) :
    l = dims.set axis (l.getD axis 0) := by
  refine List.ext_getElem (by simp [length]) fun i lt _ => ?_
  by_cases same : i = axis
  · subst same
    simp [List.getD_eq_getElem?_getD, List.getElem?_eq_getElem lt]
  · have := agree i same
    simp only [List.getD_eq_getElem?_getD, List.getElem?_eq_getElem lt,
      List.getElem?_eq_getElem (length ▸ lt), Option.getD_some] at this
    simp [List.getElem_set, Ne.symm same, this]

end Indices

/-! ## The copies of a concatenation -/

section Copies

variable {axis : Nat} {addAxis : Bool}

/-- The copies from offset `o` on write only at axis coordinates from `o` on. -/
theorem copies_not_covers {idx : List Nat} :
    forall {o : Nat} {ps : List (Tensor α × Nat)}, idx.getD axis 0 < o ->
      ∀ w ∈ copies axis addAxis o ps, w.covers idx = false
  | _, [], _ => fun _ member => by simp [copies] at member
  | o, (x, n) :: rest, before => fun w member => by
      rcases List.mem_cons.mp member with rfl | later
      · exact decide_eq_false fun ⟨low, _⟩ => absurd before (Nat.not_lt.mpr low)
      · exact copies_not_covers (Nat.lt_of_lt_of_le before (Nat.le_add_right o n)) w later

/-- The block a copy writes reads back as its source, whatever the later
copies and the buffer before. -/
theorem runWrites_copies_block (addAxis : Bool) {o n : Nat} {x : Tensor α} {rest : List (Tensor α × Nat)}
    {buffer : List Nat -> α} {idx : List Nat} (range : InRange (reorderSource axis addAxis x).dims idx)
    (inside : axis < (reorderSource axis addAxis x).dims.length)
    (extent : (reorderSource axis addAxis x).dims.getD axis 0 ≤ n) :
    runWrites (copies axis addAxis o ((x, n) :: rest)) buffer (shift axis o idx) =
      (reorderSource axis addAxis x).data idx := by
  have at_axis : (shift axis o idx).getD axis 0 = idx.getD axis 0 + o :=
    getD_modify_self (range.length_eq ▸ inside) _
  have below := range.getD_lt inside
  rw [copies, runWrites_cons, runWrites_of_uncovered _ _ (copies_not_covers (by omega)),
    Write.apply_of_covers _ _ (decide_eq_true ⟨by rw [at_axis]; omega, by rw [unshift_shift]; exact range⟩)]
  simp [intoView, unshift_shift]

end Copies

/-! ## Reading a concatenation back -/

/-- What a piece must be for the spliter to read it back from a destination
of dims `dims` and data type `dt`: its data type, and dims that the spliter's
view gives back, with its `axis_info` entry. -/
def Fits (axis : Nat) (addAxis : Bool) (dims : List Nat) (dt : DataType) (p : Tensor α × Nat) :
    Prop :=
  p.1.dataType = dt ∧
    if addAxis then p.2 = 1 ∧ axis ≤ p.1.dims.length ∧ dims.set axis 1 = p.1.dims.insertIdx axis 1
    else axis < p.1.dims.length ∧ p.1.dims = dims.set axis p.2

theorem piece_same {axis : Nat} {addAxis : Bool} {dims : List Nat} {dt : DataType} {o : Nat}
    {x : Tensor α} {n : Nat} {rest : List (Tensor α × Nat)} {buffer : List Nat -> α}
    (fits : Fits axis addAxis dims dt (x, n)) :
    let input : Tensor α := ⟨dims, dt, runWrites (copies axis addAxis o ((x, n) :: rest)) buffer⟩
    Same (if addAxis then eraseUnit axis (ofView axis o (dims.set axis n) input)
      else ofView axis o (dims.set axis n) input) x := by
  obtain ⟨dataType, shape⟩ := fits
  dsimp only at dataType shape
  cases addAxis with
  | false =>
      obtain ⟨inside, dimsEq⟩ := shape
      have extent : x.dims.getD axis 0 = n := by
        rw [dimsEq, List.getD_eq_getElem?_getD, List.getElem?_eq_getElem (dimsEq ▸ inside)]
        simp
      refine ⟨dimsEq.symm, dataType.symm, fun idx range => ?_⟩
      exact runWrites_copies_block false (dimsEq ▸ range) inside extent.le
  | true =>
      obtain ⟨rfl, inside, dimsEq⟩ := shape
      have shape : (dims.set axis 1).eraseIdx axis = x.dims := by
        rw [dimsEq, List.eraseIdx_insertIdx]
      have length : (x.dims.insertIdx axis 1).length = x.dims.length + 1 :=
        List.length_insertIdx _ _ inside
      have unit : (x.dims.insertIdx axis 1).getD axis 0 = 1 := by
        rw [List.getD_eq_getElem?_getD, List.getElem?_eq_getElem (by omega),
          List.getElem_insertIdx_self _ _ _ inside]
        rfl
      refine ⟨shape, dataType.symm, fun idx range => ?_⟩
      simp only [if_true, eraseUnit, ofView]
      have own : InRange x.dims idx := shape ▸ range
      rw [runWrites_copies_block true (own.insertIdx inside) (by
        simp only [reorderSource, insertUnit, if_true, length]; omega) (by
        simp only [reorderSource, insertUnit, if_true, unit, le_refl])]
      simp [reorderSource, insertUnit, List.eraseIdx_insertIdx]

/-- The spliter reads back, one by one, the sources a run of copies wrote,
whatever the buffer held before. -/
theorem pieces_copies (axis : Nat) (addAxis : Bool) (dims : List Nat) (dt : DataType) :
    forall (ps : List (Tensor α × Nat)) (o : Nat) (buffer : List Nat -> α),
      (∀ p ∈ ps, Fits axis addAxis dims dt p) ->
      List.Forall₂ Same
        (pieces axis addAxis ⟨dims, dt, runWrites (copies axis addAxis o ps) buffer⟩ o (ps.map Prod.snd))
        (ps.map Prod.fst)
  | [], _, _, _ => List.Forall₂.nil
  | (x, n) :: rest, o, buffer, fits =>
      List.Forall₂.cons (piece_same (fits (x, n) (List.mem_cons_self _ _)))
        (pieces_copies axis addAxis dims dt rest (o + n)
          ((intoView axis o (reorderSource axis addAxis x)).apply buffer)
          fun p member => fits p (List.mem_cons_of_mem _ member))

/-! ## The round trips -/

section RoundTrips

theorem dimsAgree_getDim {first : Tensor α} {rest : List (Tensor α)} {axis : Nat} {addAxis : Bool}
    (agree : dimsAgree (first :: rest) first axis addAxis = true) {x : Tensor α} (member : x ∈ first :: rest)
    {i : Nat} (inside : i < first.ndims) (off : i ≠ axis ∨ addAxis = true) :
    x.getDim i = first.getDim i := by
  rcases List.mem_cons.mp member with rfl | later
  · rfl
  · simp only [dimsAgree, List.all_eq_true, List.mem_range, Bool.or_eq_true, Bool.and_eq_true,
      beq_iff_eq, Bool.not_eq_true', List.drop_one, List.tail_cons] at agree
    rcases agree i inside with ⟨same, noAdd⟩ | all
    · rcases off with different | added
      · exact absurd same different
      · simp [added] at noAdd
    · simpa using all x later

theorem zip_map_self {β : Type} (xs : List α) (f : α -> β) :
    xs.zip (xs.map f) = xs.map fun x => (x, f x) := by
  induction xs with
  | nil => rfl
  | cons x xs ih => simp [ih]

/-- Every input of a concatenation fits the destination it was copied into. -/
theorem compute_fits {first : Tensor α} {rest : List (Tensor α)} {axis : Nat} {addAxis : Bool}
    (ranks : ∀ x ∈ first :: rest, x.ndims = first.ndims)
    (types : ∀ x ∈ first :: rest, x.dataType = first.dataType)
    (inside : axis < first.ndims + (if addAxis then 1 else 0))
    (agree : dimsAgree (first :: rest) first axis addAxis = true) :
    let info := (first :: rest).map fun x => if addAxis then 1 else x.getDim axis
    ∀ p ∈ (first :: rest).zip info, Fits axis addAxis
      (if addAxis then first.dims.insertIdx axis info.sum else first.dims.set axis info.sum)
      first.dataType p := by
  intro info p member
  rw [zip_map_self, List.mem_map] at member
  obtain ⟨x, member, rfl⟩ := member
  have rank : x.dims.length = first.dims.length := ranks x member
  refine ⟨types x member, ?_⟩
  cases addAxis with
  | false =>
      simp only [Bool.false_eq_true, if_false, Nat.add_zero] at inside ⊢
      refine ⟨rank ▸ inside, ?_⟩
      rw [List.set_set]
      exact eq_set_of_agree rank inside fun i different => by
        by_cases small : i < first.ndims
        · exact dimsAgree_getDim agree member small (.inl different)
        · simp [List.getD_eq_getElem?_getD, Tensor.ndims] at small ⊢
          rw [List.getElem?_eq_none (by omega), List.getElem?_eq_none small]
  | true =>
      simp only [if_true] at inside ⊢
      have same : x.dims = first.dims := List.ext_getElem rank fun i lt _ => by
        have := dimsAgree_getDim agree member (by rw [Tensor.ndims, ← rank]; exact lt) (.inr rfl)
        simpa [Tensor.getDim, List.getD_eq_getElem?_getD, List.getElem?_eq_getElem lt,
          List.getElem?_eq_getElem (rank ▸ lt)] using this
      refine ⟨trivial, by rw [same]; exact Nat.lt_succ_iff.mp inside, ?_⟩
      rw [set_insertIdx (Nat.lt_succ_iff.mp inside), same]

/-- Splitting a concatenation by its own `axis_info` gives back the inputs,
whenever they have one rank and one data type. -/
theorem compute_then_spliter {xs : List (Tensor α)} {axis : Nat} {addAxis : Bool}
    {fresh : List Nat -> α} {info : List Nat} {dst : Tensor α}
    (ranks : ∀ x ∈ xs, ∀ y ∈ xs, x.ndims = y.ndims)
    (types : ∀ x ∈ xs, ∀ y ∈ xs, x.dataType = y.dataType)
    (concatenated : compute xs axis addAxis fresh = .ok (info, dst)) :
    exists outs, Spliter.compute dst info axis addAxis = .ok outs ∧ List.Forall₂ Same outs xs := by
  cases xs with
  | nil => simp [compute] at concatenated
  | cons first rest =>
      by_cases inside : axis < first.ndims + (if addAxis then 1 else 0)
      swap
      · simp [compute, inside] at concatenated
      by_cases agree : dimsAgree (first :: rest) first axis addAxis = true
      swap
      · simp [compute, inside, agree] at concatenated
      dsimp only [compute] at concatenated
      rw [if_neg (not_not.mpr inside), if_neg (by simp [agree]), Except.ok.injEq, Prod.mk.injEq]
        at concatenated
      obtain ⟨rfl, rfl⟩ := concatenated
      have fits := compute_fits (fun x member => ranks x member first (List.mem_cons_self _ _))
        (fun x member => types x member first (List.mem_cons_self _ _)) inside agree
      have back := pieces_copies axis addAxis _ first.dataType _ 0 fresh fits
      rw [List.map_snd_zip _ _ (by simp), List.map_fst_zip _ _ (by simp)] at back
      refine ⟨_, if_pos ?_, back⟩
      cases addAxis with
      | false => simpa [Tensor.ndims] using inside
      | true =>
          simp only [if_true, Tensor.ndims] at inside ⊢
          rw [List.length_insertIdx _ _ (by omega)]
          exact inside

theorem pieces_shape (t : Tensor α) (axis : Nat) :
    ∀ (o : Nat) (ns : List Nat), ∀ x ∈ pieces axis false t o ns,
      x.dataType = t.dataType ∧ exists n, x.dims = t.dims.set axis n
  | _, [] => fun _ member => by simp [pieces] at member
  | o, n :: ns => fun x member => by
      rcases List.mem_cons.mp member with rfl | later
      · exact ⟨rfl, n, rfl⟩
      · exact pieces_shape t axis (o + n) ns x later

theorem pieces_getDim (t : Tensor α) {axis : Nat} (inside : axis < t.dims.length) :
    ∀ (o : Nat) (ns : List Nat), (pieces axis false t o ns).map (fun x => x.getDim axis) = ns
  | _, [] => rfl
  | o, n :: ns => by
      simp only [pieces, if_false, Bool.false_eq_true, List.map_cons, pieces_getDim t inside (o + n) ns]
      simp [ofView, Tensor.getDim, List.getD_eq_getElem?_getD, inside]

/-- Every copy of a concatenation of split pieces that covers an index writes
the element the split tensor has there. -/
theorem copies_pieces_agree (t : Tensor α) (axis : Nat) {idx : List Nat} :
    ∀ (o : Nat) (ns : List Nat), ∀ w ∈ copies axis false o ((pieces axis false t o ns).zip ns),
      w.covers idx = true -> w.value idx = t.data idx
  | _, [] => fun _ member => by simp [pieces, copies] at member
  | o, n :: ns => fun w member covered => by
      rcases List.mem_cons.mp member with rfl | later
      · have low : o ≤ idx.getD axis 0 := (of_decide_eq_true covered).1
        simp [intoView, reorderSource, ofView, shift_unshift low]
      · exact copies_pieces_agree t axis (o + n) ns w later covered

/-- Between `o` and `o` plus the sizes, some copy of a concatenation of split
pieces covers every index of the split tensor. -/
theorem copies_pieces_cover (t : Tensor α) (axis : Nat) {idx : List Nat} (range : InRange t.dims idx) :
    ∀ (o : Nat) (ns : List Nat), o ≤ idx.getD axis 0 -> idx.getD axis 0 < o + ns.sum ->
      ∃ w ∈ copies axis false o ((pieces axis false t o ns).zip ns), w.covers idx = true
  | o, [], low, high => by
      rw [List.sum_nil, Nat.add_zero] at high
      omega
  | o, n :: ns, low, high => by
      by_cases first : idx.getD axis 0 < o + n
      · refine ⟨_, List.mem_cons_self _ _, decide_eq_true ⟨low, ?_⟩⟩
        exact range.set_modify (by omega)
      · obtain ⟨w, member, covered⟩ := copies_pieces_cover t axis range (o + n) ns (by omega)
          (by rw [List.sum_cons] at high; omega)
        exact ⟨w, List.mem_cons_of_mem _ member, covered⟩

/-- Concatenating the pieces of a split gives back the tensor, and
`axis_info` gives back the sizes. -/
theorem spliter_then_compute {t : Tensor α} {axis : Nat} {info : List Nat} (fresh : List Nat -> α)
    (positive : ∀ d ∈ t.dims, 0 < d) (inside : axis < t.ndims) (total : info.sum = t.getDim axis) :
    exists outs, Spliter.compute t info axis false = .ok outs ∧
      exists dst, compute outs axis false fresh = .ok (info, dst) ∧ Same dst t := by
  have inside' : axis < t.dims.length := inside
  have extent : t.getDim axis = t.dims[axis] := by
    simp [Tensor.getDim, List.getD_eq_getElem?_getD, List.getElem?_eq_getElem inside']
  refine ⟨_, if_pos inside, ?_⟩
  cases info with
  | nil =>
      have := positive _ (List.getElem_mem inside')
      simp [extent] at total
      omega
  | cons n ns =>
      have shape := pieces_shape t axis 0 (n :: ns)
      have agree : dimsAgree (pieces axis false t 0 (n :: ns)) (ofView axis 0 (t.dims.set axis n) t)
          axis false = true := by
        simp only [dimsAgree, List.all_eq_true, List.mem_range, Bool.or_eq_true, Bool.and_eq_true,
          beq_iff_eq, Bool.not_false, and_true]
        intro i _
        by_cases same : i = axis
        · exact .inl same
        · refine .inr fun x later => ?_
          obtain ⟨_, m, dims⟩ := shape x (List.mem_of_mem_tail later)
          simp [Tensor.getDim, ofView, dims, List.getD_eq_getElem?_getD, List.getElem?_set,
            Ne.symm same]
      have sizes := pieces_getDim t inside' 0 (n :: ns)
      refine ⟨⟨(t.dims.set axis n).set axis (n :: ns).sum, t.dataType,
        runWrites (copies axis false 0 ((pieces axis false t 0 (n :: ns)).zip (n :: ns))) fresh⟩, ?_, ?_⟩
      · simp only [pieces, if_false, Bool.false_eq_true, Nat.zero_add] at agree sizes ⊢
        simp only [compute, if_false, Bool.false_eq_true, Nat.add_zero]
        rw [if_neg (by simpa [ofView, Tensor.ndims] using inside'), if_neg (by simp [agree]), sizes]
        rfl
      · have restore : t.dims.set axis (t.getDim axis) = t.dims :=
          (eq_set_of_agree rfl inside' fun _ _ => rfl).symm
        refine ⟨by rw [List.set_set, total, restore], rfl, fun idx range => ?_⟩
        rw [List.set_set, total, restore] at range
        have below := range.getD_lt inside'
        exact runWrites_of_covered _ _
          (copies_pieces_cover t axis range 0 (n :: ns) (Nat.zero_le _) (by
            rw [Nat.zero_add, total, Tensor.getDim]; exact below))
          fun w member covered => copies_pieces_agree t axis 0 (n :: ns) w member covered

end RoundTrips

/-- Both round trips of `concat::compute` and `spliter::compute`: inputs of
one rank and one data type that the concatenation accepts are split back out
of it by its `axis_info`; a tensor split by sizes summing to its dim along a
valid axis is concatenated back, with those sizes as `axis_info`. -/
theorem concat_spliter_roundTrip {α : Type} :
    (∀ (xs : List (Tensor α)) (axis : Nat) (addAxis : Bool) (fresh : List Nat -> α)
      (info : List Nat) (dst : Tensor α),
      (∀ x ∈ xs, ∀ y ∈ xs, x.ndims = y.ndims ∧ x.dataType = y.dataType) ->
      compute xs axis addAxis fresh = .ok (info, dst) ->
      exists outs, Spliter.compute dst info axis addAxis = .ok outs ∧ List.Forall₂ Same outs xs) ∧
    (∀ (t : Tensor α) (axis : Nat) (info : List Nat) (fresh : List Nat -> α),
      (∀ d ∈ t.dims, 0 < d) -> axis < t.ndims -> (∀ n ∈ info, 0 < n) -> info.sum = t.getDim axis ->
      exists outs, Spliter.compute t info axis false = .ok outs ∧
        exists dst, compute outs axis false fresh = .ok (info, dst) ∧ Same dst t) :=
  ⟨fun _ _ _ _ _ _ alike concatenated =>
      compute_then_spliter (fun x xin y yin => (alike x xin y yin).1)
        (fun x xin y yin => (alike x xin y yin).2) concatenated,
    fun _ _ _ fresh positive inside _ total => spliter_then_compute fresh positive inside total⟩

/-- A vector of one element and one of two, concatenated and split back; and
a vector of three split into one and two and concatenated back. -/
theorem concat_spliter_roundTrip_vectors :
    let a : Tensor Nat := ⟨[1], .f32, fun _ => 1⟩
    let b : Tensor Nat := ⟨[2], .f32, fun idx => idx.getD 0 0⟩
    (exists info dst, compute [a, b] 0 false (fun _ => 0) = .ok (info, dst) ∧
      exists outs, Spliter.compute dst info 0 false = .ok outs ∧ List.Forall₂ Same outs [a, b]) ∧
    (exists outs, Spliter.compute b [1, 1] 0 false = .ok outs ∧
      exists dst, compute outs 0 false (fun _ => 0) = .ok ([1, 1], dst) ∧ Same dst b) := by
  intro a b
  have alike : ∀ x ∈ [a, b], ∀ y ∈ [a, b], x.ndims = y.ndims ∧ x.dataType = y.dataType := by
    simp [a, b, Tensor.ndims]
  exact ⟨⟨_, _, rfl, concat_spliter_roundTrip.1 [a, b] 0 false _ _ _ alike rfl⟩,
    concat_spliter_roundTrip.2 b 0 [1, 1] _ (by simp [b]) (by decide) (by simp) rfl⟩


end Concat
end Ideep
