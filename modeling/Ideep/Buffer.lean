import Mathlib.Data.List.Nodup
import Mathlib.Data.List.Range
import Mathlib.Tactic.Ring

namespace Ideep

/-!
# Buffers and runs of writes

A buffer is a map from positions to elements: flat offsets for the raw `float*`
loops, multi-indices for the views the engine writes through.  The kernels
modelled here (`memcpy` blocks of the channel shuffle, the view reorders of
`concat`) are runs of writes, each of which covers some positions and stores a
value at each of them.

The single fact every such kernel needs is proved once: a position covered by
some write of the run ends up holding the value that the covering writes agree
on, and a position no write covers keeps its old value.  The order of the run
then matters only where two writes disagree, which the kernels rule out by
proving their writes disjoint.
-/

/-- One write of a run: the positions it covers and what it stores there. -/
structure Write (P α : Type) where
  covers : P -> Bool
  value : P -> α

namespace Write

variable {P α : Type}

/-- Store the write's values at its positions, keeping `old` elsewhere. -/
def apply (write : Write P α) (old : P -> α) : P -> α :=
  fun p => if write.covers p then write.value p else old p

theorem apply_of_covers (write : Write P α) (old : P -> α) {p : P}
    (covered : write.covers p = true) : write.apply old p = write.value p := by
  simp [apply, covered]

theorem apply_of_not_covers (write : Write P α) (old : P -> α) {p : P}
    (outside : write.covers p = false) : write.apply old p = old p := by
  simp [apply, outside]

/-- The store `buffer[i] = v` of a single element. -/
def single [DecidableEq P] (i : P) (v : α) : Write P α := ⟨fun p => decide (p = i), fun _ => v⟩

@[simp] theorem single_apply [DecidableEq P] (i : P) (v : α) (old : P -> α) :
    (single i v).apply old = Function.update old i v := by
  funext p
  by_cases same : p = i
  · subst same; simp [apply, single]
  · simp [apply, single, same]

end Write

/-- Perform the writes of a run in order. -/
def runWrites {P α : Type} (writes : List (Write P α)) (init : P -> α) : P -> α :=
  writes.foldl (fun buffer write => write.apply buffer) init

section Runs

variable {P α : Type}

@[simp] theorem runWrites_nil (init : P -> α) : runWrites [] init = init := rfl

@[simp] theorem runWrites_cons (write : Write P α) (writes : List (Write P α))
    (init : P -> α) : runWrites (write :: writes) init = runWrites writes (write.apply init) :=
  rfl

@[simp] theorem runWrites_append (first second : List (Write P α)) (init : P -> α) :
    runWrites (first ++ second) init = runWrites second (runWrites first init) :=
  List.foldl_append _ _ _ _

/-- Nested loops of writes are the run of the concatenated bodies. -/
theorem runWrites_flatMap {β : Type} (items : List β) (body : β -> List (Write P α))
    (init : P -> α) :
    runWrites (items.flatMap body) init =
      items.foldl (fun buffer item => runWrites (body item) buffer) init := by
  induction items generalizing init with
  | nil => rfl
  | cons item items ih =>
      simp only [List.flatMap_cons, runWrites, List.foldl_append, List.foldl_cons]
      exact ih _

/-- Frame: a position that no write covers keeps its value. -/
theorem runWrites_of_uncovered (writes : List (Write P α)) (init : P -> α) {p : P}
    (uncovered : forall write, write ∈ writes -> write.covers p = false) :
    runWrites writes init p = init p := by
  induction writes generalizing init with
  | nil => rfl
  | cons write writes ih =>
      rw [runWrites_cons, ih _ (fun w member => uncovered w (List.mem_cons_of_mem _ member)),
        Write.apply_of_not_covers _ _ (uncovered write (List.mem_cons_self _ _))]

/-- A covered position holds the value all the writes covering it agree on. -/
theorem runWrites_of_covered (writes : List (Write P α)) (init : P -> α) {p : P} {v : α}
    (covered : exists write, write ∈ writes ∧ write.covers p = true)
    (agree : forall write, write ∈ writes -> write.covers p = true -> write.value p = v) :
    runWrites writes init p = v := by
  induction writes generalizing init with
  | nil => simp at covered
  | cons write writes ih =>
      rw [runWrites_cons]
      by_cases later : exists w, w ∈ writes ∧ w.covers p = true
      · exact ih _ later (fun w member => agree w (List.mem_cons_of_mem _ member))
      · have first : write.covers p = true := by
          obtain ⟨w, member, covers⟩ := covered
          rcases List.mem_cons.mp member with same | member
          · exact same ▸ covers
          · exact absurd ⟨w, member, covers⟩ later
        rw [runWrites_of_uncovered _ _ (fun w member => by
            simpa using fun covers => later ⟨w, member, covers⟩),
          Write.apply_of_covers _ _ first]
        exact agree write (List.mem_cons_self _ _) first

end Runs

/-- A run over flat offsets that stores every position below `n` exactly once
and no other position: what a loop over `[0, n)`, or a split of it between
threads, is meant to do. -/
def StoresOnce {α : Type} (writes : List (Write Nat α)) (n : Nat) : Prop :=
  ∀ p, (writes.filter fun write => write.covers p).length = if p < n then 1 else 0

/-- The loop `for (i = 0; i < n; i++) buffer[i] = values(i)` stores every
position below `n` once. -/
theorem storesOnce_singles {α : Type} (values : Nat -> α) (n : Nat) :
    StoresOnce ((List.range n).map fun i => Write.single i (values i)) n := by
  intro p
  simp only [List.filter_map, List.length_map, Function.comp_def, Write.single]
  rw [List.filter_congr (q := (· = p)) fun i _ => decide_eq_decide.mpr eq_comm, List.filter_eq,
    List.length_replicate, List.count_eq_of_nodup (List.nodup_range n)]
  simp

namespace StoresOnce

variable {α : Type} {writes : List (Write Nat α)} {n : Nat}

theorem covered (once : StoresOnce writes n) {p : Nat} (inside : p < n) :
    exists write, write ∈ writes ∧ write.covers p = true := by
  have one := once p
  rw [if_pos inside] at one
  obtain ⟨write, member⟩ := List.exists_mem_of_length_pos (one ▸ Nat.one_pos)
  exact ⟨write, List.mem_of_mem_filter member, (List.mem_filter.mp member).2⟩

theorem uncovered (once : StoresOnce writes n) {p : Nat} (outside : n ≤ p) :
    forall write, write ∈ writes -> write.covers p = false := by
  have none := once p
  rw [if_neg (Nat.not_lt.mpr outside), List.length_eq_zero, List.filter_eq_nil_iff] at none
  simpa using none

end StoresOnce

/-- A run that stores every position below `n` once, each with the value `v`
gives it, is the sequential loop over `[0, n)`, whatever the order of its
writes and however they are split. -/
theorem runWrites_of_storesOnce {α : Type} {writes : List (Write Nat α)} {n : Nat}
    (once : StoresOnce writes n) (v : Nat -> α)
    (agree : forall write, write ∈ writes -> forall p, write.covers p = true -> write.value p = v p)
    (init : Nat -> α) :
    runWrites writes init = fun p => if p < n then v p else init p := by
  funext p
  split
  · exact runWrites_of_covered _ _ (once.covered ‹_›) fun write member => agree write member p
  · exact runWrites_of_uncovered _ _ (once.uncovered (Nat.not_lt.mp ‹_›))

/-- The loop `for (i = 0; i < n; i++) buffer[i] = values(i)` as a whole. -/
theorem runWrites_singles {α : Type} (values : Nat -> α) (n : Nat) (init : Nat -> α) :
    runWrites ((List.range n).map fun i => Write.single i (values i)) init =
      fun p => if p < n then values p else init p :=
  runWrites_of_storesOnce (storesOnce_singles values n) values (fun write member p covered => by
    obtain ⟨i, -, rfl⟩ := List.mem_map.mp member
    simp only [Write.single, decide_eq_true_eq] at covered
    subst covered
    rfl) init

/-! ## Row-major offsets

A row-major buffer keeps index `(a, b)` of an `A × R` block at `a * R + b`.
-/

section Offsets

/-- Two digits `a * R + b` with `b < R` determine both. -/
theorem digits_unique {R a b a' b' : Nat} (low : b < R) (low' : b' < R)
    (same : a * R + b = a' * R + b') : a = a' ∧ b = b' := by
  have positive : 0 < R := by omega
  have high := congrArg (· / R) same
  have rest := congrArg (· % R) same
  simp only [Nat.add_comm (a * R), Nat.add_comm (a' * R), Nat.add_mul_div_right _ _ positive,
    Nat.div_eq_of_lt low, Nat.div_eq_of_lt low', Nat.add_mul_mod_self_right,
    Nat.mod_eq_of_lt low, Nat.mod_eq_of_lt low'] at high rest
  omega

theorem digits_lt {A R a b : Nat} (high : a < A) (low : b < R) : a * R + b < A * R :=
  calc a * R + b < a * R + R := by omega
    _ = (a + 1) * R := by ring
    _ ≤ A * R := Nat.mul_le_mul_right R high

theorem digits_cover {A R p : Nat} (inside : p < A * R) :
    exists a b, a < A ∧ b < R ∧ a * R + b = p := by
  have positive : 0 < R := Nat.pos_of_ne_zero (by rintro rfl; simp at inside)
  exact ⟨p / R, p % R, (Nat.div_lt_iff_lt_mul positive).mpr inside, Nat.mod_lt p positive,
    Nat.div_add_mod' p R⟩

/-- The digits of `j * K + i` with `i < K`. -/
theorem digits_div_mod {j i K : Nat} (inner : i < K) : (j * K + i) / K = j ∧ (j * K + i) % K = i := by
  rw [Nat.add_comm, Nat.add_mul_div_right _ _ (by omega), Nat.div_eq_of_lt inner, Nat.zero_add,
    Nat.add_mul_mod_self_right, Nat.mod_eq_of_lt inner]
  exact ⟨rfl, rfl⟩

end Offsets

end Ideep
