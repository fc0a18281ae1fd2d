import Ideep.Descriptor
import Mathlib.Logic.Function.Basic

namespace Ideep
namespace Computation

/-!
# Computation objects and their bindings

A `computation` is built once by `computation::init` from a `descriptor_group`
and the caller's declared input descriptors, and is then executed any number
of times against caller buffers.  Per input slot `k` it keeps three things
across calls:

* `inouts_[k]`, the memory the caller's buffer is bound to;
* `primitive_inputs_[k]`, the memory the primitive reads;
* `auxiliaries_[k]`, a reorder from the first to the second.

Where the declared descriptor equals the engine's expected one, `inouts_[k]`
is the very memory object `primitive_inputs_[k]` (`separate` is false).  Where
they differ and the descriptor group holds a reorder for the slot,
`connect_reorder_for` gives `inouts_[k]` a memory of its own and connects the
reorder.

`connect_handle_for` then accepts at a separate slot either layout: the
declared one (bind it, materialize the primitive's buffer, the reorder fills
it) or the expected one (a "destructional move": the primitive reads the
caller's buffer and the reorder is thrown away).  Output slots, and input
slots without a memory of their own, only accept their expected descriptor:
that branch is an `assert`, which the model reads as the fault `assertion`, so
it describes a build with assertions on (a build with `NDEBUG` binds such a
tensor without the check).
`primitive_group::execute` runs the reorders of slots 0 and 1 and then the
primitive.

Buffers are named by handles.  A caller binds its own buffers; the buffer
`primitive_inputs_[k]` allocates when it is materialized is the slot's own
scratch buffer, which no caller holds.  How `materialize` treats a memory that
already points at a buffer is in `tensor.hpp`, not part of this source: it is
modelled from the spec's description of materialization as binding a buffer
to a memory that has none.

A run of calls that fit the slots reads, call by call, each call's own data,
as long as no call binds the declared layout at a slot where an earlier call
bound the expected one in place of the slot's reorder.  In that order the
later call's primitive reads the earlier call's buffer, unconverted: the
primitive's memory still points at it, `materialize` keeps it, and the reorder
is gone.
-/

/-- A buffer: one of a caller's, or the scratch buffer of input slot `slot`. -/
inductive Handle where
  | user (buffer : Nat)
  | scratch (slot : Nat)
  deriving DecidableEq, Repr

/-- A memory object of the engine: its descriptor and the buffer it points at. -/
structure Memory where
  desc : Descriptor
  handle : Option Handle
  deriving DecidableEq, Repr

/-- A tensor a caller binds: its descriptor and its buffer. -/
structure Bound where
  desc : Descriptor
  buffer : Nat
  deriving DecidableEq, Repr, Inhabited

/-- Input slot `k`: `inouts_[k]`, `primitive_inputs_[k]`, whether the first is
a memory of its own, and whether `auxiliaries_[k]` holds a reorder. -/
structure InputSlot where
  inout : Memory
  primitive : Memory
  separate : Bool
  auxiliary : Bool
  deriving DecidableEq, Repr

/-- The state of a computation object. -/
structure State where
  numInputs : Nat
  numOutputs : Nat
  inputs : Nat -> InputSlot
  outputs : Nat -> Memory

/-- The part of a `descriptor_group` that `computation::init` reads: the
engine's expected input and output descriptors, and the descriptors given to
`create_reorder_pds`.  Every descriptor of this source that creates reorder
descriptors passes two (src and weights, or x and grady). -/
structure DescriptorGroup where
  expectedInputs : List Descriptor
  expectedOutputs : List Descriptor
  provided : List Descriptor
  provided_two : provided.length ≤ 2

namespace DescriptorGroup

/-- `expected_input_descriptor(i)`. -/
def expectedInput (adesc : DescriptorGroup) (i : Nat) : Descriptor :=
  adesc.expectedInputs.getD i default

/-- `need_reorder_input(i)`: `create_reorder_pds` made a reorder descriptor for
slot `i`, the provided descriptor differing from the expected one. -/
def needReorderInput (adesc : DescriptorGroup) (i : Nat) : Bool :=
  match adesc.provided[i]?, adesc.expectedInputs[i]? with
  | some provided, some expected => provided != expected
  | _, _ => false

theorem needReorderInput_lt_two {adesc : DescriptorGroup} {i : Nat}
    (reorders : adesc.needReorderInput i = true) : i < 2 := by
  unfold needReorderInput at reorders
  cases given : adesc.provided[i]? with
  | none => simp [given] at reorders
  | some provided =>
      have := (List.getElem?_eq_some_iff.mp given).1
      have := adesc.provided_two
      omega

end DescriptorGroup

/-- `init_internal` followed by `connect_reorder_for` for slot `k`: the
primitive's memory has the expected descriptor, and a declared descriptor with
a reorder descriptor behind it gets a memory of its own. -/
def initialSlot (adesc : DescriptorGroup) (args : List Descriptor) (k : Nat) : InputSlot :=
  let expected : Memory := ⟨adesc.expectedInput k, none⟩
  match args[k]? with
  | some declared =>
      if adesc.needReorderInput k then ⟨⟨declared, none⟩, expected, true, true⟩
      else ⟨expected, expected, false, false⟩
  | none => ⟨expected, expected, false, false⟩

/-- `computation::init(adesc, args)`. -/
def init (adesc : DescriptorGroup) (args : List Descriptor) : State where
  numInputs := adesc.expectedInputs.length
  numOutputs := adesc.expectedOutputs.length
  inputs := initialSlot adesc args
  outputs j := ⟨adesc.expectedOutputs.getD j default, none⟩

/-- `materialize()` of `primitive_inputs_[k]`: a memory without a buffer gets
the slot's scratch buffer. -/
def materialize (k : Nat) (memory : Memory) : Memory :=
  match memory.handle with
  | some _ => memory
  | none => { memory with handle := some (.scratch k) }

@[simp] theorem materialize_desc (k : Nat) (memory : Memory) :
    (materialize k memory).desc = memory.desc := by
  unfold materialize; split <;> rfl

/-- The input branch of `connect_handle_for(k, atensor)`. -/
def connectInput (k : Nat) (slot : InputSlot) (t : Bound) : Except Fault InputSlot :=
  if slot.separate then
    if slot.inout.desc = t.desc then
      .ok { slot with inout := { slot.inout with handle := some (.user t.buffer) },
                      primitive := materialize k slot.primitive }
    else if slot.primitive.desc = t.desc then
      .ok { slot with primitive := { slot.primitive with handle := some (.user t.buffer) },
                      auxiliary := false }
    else .error (.runtime "Cannot accept incompatible input")
  else if slot.primitive.desc = t.desc then
    .ok { slot with primitive := { slot.primitive with handle := some (.user t.buffer) } }
  else .error .assertion

/-- `connect_handle_for(index, atensor)`. -/
def connectHandleFor (state : State) (index : Nat) (t : Bound) : Except Fault State :=
  if index < state.numInputs then
    (connectInput index (state.inputs index) t).map fun slot =>
      { state with inputs := Function.update state.inputs index slot }
  else if index < state.numInputs + state.numOutputs then
    let output := state.outputs (index - state.numInputs)
    if output.desc = t.desc then
      .ok { state with
        outputs := Function.update state.outputs (index - state.numInputs)
          ⟨output.desc, some (.user t.buffer)⟩ }
    else .error .assertion
  else .error .outOfRange

/-- `connect_handle_for(index, first, rest...)`. -/
def connectHandles (state : State) (index : Nat) : List Bound -> Except Fault State
  | [] => .ok state
  | t :: rest => connectHandleFor state index t >>= fun next => connectHandles next (index + 1) rest

variable {D : Type} (convert : Descriptor -> Descriptor -> D -> D)

/-- One call of `execute`: the tensors bound, inputs then outputs, and what the
caller's buffers hold at the time of the call. -/
structure Call (D : Type) where
  bound : List Bound
  data : Nat -> D

/-- The buffers at the start of a call: the callers' contents, scratch
buffers unwritten. -/
def Call.heap (call : Call D) : Handle -> Option D
  | .user buffer => some (call.data buffer)
  | .scratch _ => none

/-- What a memory's handle reads. -/
def readHandle (heap : Handle -> Option D) : Option Handle -> Option D
  | some h => heap h
  | none => none

/-- The reorder of a slot, run when `auxiliaries_[k]` holds one: the primitive's
buffer receives the bound buffer converted to the expected layout. -/
def reorderSlot (heap : Handle -> Option D) (slot : InputSlot) : Handle -> Option D :=
  if slot.auxiliary then
    match slot.primitive.handle with
    | some h => Function.update heap h
        ((readHandle heap slot.inout.handle).map (convert slot.inout.desc slot.primitive.desc))
    | none => heap
  else heap

/-- `computation::execute(args...)`: bind the arguments, run the reorders of
slots 0 and 1, and report what the primitive reads at every input slot. -/
def execute (state : State) (call : Call D) : Except Fault (State × (Nat -> Option D)) :=
  connectHandles state 0 call.bound >>= fun connected =>
    let heap := reorderSlot convert (reorderSlot convert call.heap (connected.inputs 0))
      (connected.inputs 1)
    .ok (connected, fun k => readHandle heap (connected.inputs k).primitive.handle)

/-- A sequence of calls on one computation object, with what each primitive
run reads. -/
def runCalls : State -> List (Call D) -> Except Fault (List (Nat -> Option D))
  | _, [] => .ok []
  | state, call :: calls =>
      execute convert state call >>= fun result =>
        (runCalls result.1 calls).map (result.2 :: ·)

/-! ## Binding a whole argument list -/

/-- Binding the arguments from `index` on succeeds when every input slot
accepts its tensor and every output slot has the tensor's descriptor; input
slots then hold what `connectInput` made of them, everything else stays. -/
theorem connectHandles_ok (state : State) (index : Nat) (ts : List Bound)
    (slots : Nat -> InputSlot)
    (inputs_ok : forall j (hj : j < ts.length), index + j < state.numInputs ->
      connectInput (index + j) (state.inputs (index + j)) ts[j] = .ok (slots (index + j)))
    (outputs_ok : forall j (hj : j < ts.length), state.numInputs ≤ index + j ->
      index + j < state.numInputs + state.numOutputs ∧
        (state.outputs (index + j - state.numInputs)).desc = ts[j].desc) :
    exists next, connectHandles state index ts = .ok next ∧ next.numInputs = state.numInputs ∧
      next.numOutputs = state.numOutputs ∧ (forall j, (next.outputs j).desc = (state.outputs j).desc) ∧
      forall k, next.inputs k =
        if index ≤ k ∧ k < index + ts.length ∧ k < state.numInputs then slots k else state.inputs k := by
  induction ts generalizing state index with
  | nil =>
      exact ⟨state, rfl, rfl, rfl, fun _ => rfl, fun k => by
        rw [if_neg (by simp only [List.length_nil, Nat.add_zero]; omega)]⟩
  | cons t rest ih =>
      have shift : forall j, index + (j + 1) = index + 1 + j := fun j => by omega
      by_cases input : index < state.numInputs
      · have first := inputs_ok 0 (by simp) (by simpa using input)
        simp only [Nat.add_zero, List.getElem_cons_zero] at first
        let state' : State := { state with inputs := Function.update state.inputs index (slots index) }
        obtain ⟨next, run, inputs', outputs', descs, slots'⟩ := ih state' (index + 1)
          (fun j hj bound => by
            have own := inputs_ok (j + 1) (by simp; omega) (by rw [shift]; exact bound)
            rw [shift] at own
            simpa [state', Function.update_noteq (show index + 1 + j ≠ index by omega)] using own)
          (fun j hj bound => by
            have own := outputs_ok (j + 1) (by simp; omega) (by rw [shift]; exact bound)
            rw [shift] at own
            simpa [state'] using own)
        refine ⟨next, ?_, inputs', outputs', descs, fun k => ?_⟩
        · simp only [connectHandles, connectHandleFor, input, if_true, first, Except.map, bind,
            Except.bind]
          exact run
        · rw [slots' k]
          by_cases same : k = index
          · subst same; simp [state', input]
          · simp only [state', Function.update_noteq same, List.length_cons]
            congr 1
            apply propext; omega
      · have first := outputs_ok 0 (by simp) (by simp; omega)
        simp only [Nat.add_zero, List.getElem_cons_zero] at first
        let output : Memory := ⟨t.desc, some (.user t.buffer)⟩
        let state' : State :=
          { state with outputs := Function.update state.outputs (index - state.numInputs) output }
        obtain ⟨next, run, inputs', outputs', descs, slots'⟩ := ih state' (index + 1)
          (fun j hj bound => absurd bound (by simp [state']; omega))
          (fun j hj bound => by
            have own := outputs_ok (j + 1) (by simp; omega) (by rw [shift]; simp at bound; omega)
            rw [shift] at own
            refine ⟨own.1, ?_⟩
            by_cases same : index + 1 + j - state.numInputs = index - state.numInputs
            · omega
            · simpa [state', Function.update_noteq same] using own.2)
        refine ⟨next, ?_, inputs', outputs', fun j => ?_, fun k => ?_⟩
        · simp only [connectHandles, connectHandleFor, input, if_false, first.1, first.2, if_true,
            bind, Except.bind]
          exact run
        · rw [descs j]
          by_cases same : j = index - state.numInputs
          · subst same; simp [state', output, first.2]
          · simp [state', Function.update_noteq same]
        · rw [slots' k]
          simp only [state', List.length_cons]
          congr 1
          apply propext; omega

/-! ## Computations without reorders

A descriptor group that creates no reorder descriptors leaves every input slot
on the primitive's own memory.  `connect_handle_for` then binds every slot
through its output branch: it takes exactly the slot's expected descriptor and
stops at the assertion on any other. -/

/-- The descriptor slot `j` takes when no input slot has a memory of its own:
the primitive's memory at an input, the output memory after the inputs. -/
def slotDesc (state : State) (j : Nat) : Descriptor :=
  if j < state.numInputs then (state.inputs j).primitive.desc
  else (state.outputs (j - state.numInputs)).desc

/-- No input slot has a memory of its own. -/
def Plain (state : State) : Prop := ∀ k, (state.inputs k).separate = false

theorem plain_init {adesc : DescriptorGroup} (none : adesc.provided = []) (args : List Descriptor) :
    Plain (init adesc args) := fun k => by
  simp only [init, initialSlot, DescriptorGroup.needReorderInput, none, List.getElem?_nil]
  split <;> rfl

theorem slotDesc_init {adesc : DescriptorGroup} (none : adesc.provided = []) (args : List Descriptor)
    (j : Nat) : slotDesc (init adesc args) j = (adesc.expectedInputs ++ adesc.expectedOutputs).getD j default := by
  simp only [slotDesc, init, initialSlot, DescriptorGroup.needReorderInput, none, List.getElem?_nil,
    DescriptorGroup.expectedInput, List.getD_eq_getElem?_getD]
  split
  next input =>
    rw [List.getElem?_append_left input]
    split <;> rfl
  next output => rw [List.getElem?_append_right (Nat.le_of_not_lt output)]

/-- One binding on a state without reorders: the slot's expected descriptor
is bound and the slots keep their descriptors; any other descriptor fails the
assertion. -/
theorem connectHandleFor_plain {state : State} (plain : Plain state) {index : Nat}
    (inside : index < state.numInputs + state.numOutputs) (t : Bound) :
    (t.desc = slotDesc state index -> ∃ next, connectHandleFor state index t = .ok next ∧ Plain next ∧
      next.numInputs = state.numInputs ∧ next.numOutputs = state.numOutputs ∧
      slotDesc next = slotDesc state) ∧
    (t.desc ≠ slotDesc state index -> connectHandleFor state index t = .error .assertion) := by
  by_cases input : index < state.numInputs
  case pos =>
    have expected : slotDesc state index = (state.inputs index).primitive.desc := if_pos input
    have own : (state.inputs index).separate = false := plain index
    refine ⟨fun same => ?_, fun other => ?_⟩
    · have run : connectHandleFor state index t = .ok ⟨state.numInputs, state.numOutputs,
          Function.update state.inputs index ⟨(state.inputs index).inout,
            ⟨(state.inputs index).primitive.desc, some (.user t.buffer)⟩, false, (state.inputs index).auxiliary⟩,
          state.outputs⟩ := by
        simp [connectHandleFor, connectInput, input, own, ← expected, same, Except.map]
      refine ⟨_, run, fun k => ?_, rfl, rfl, funext fun j => ?_⟩
      · by_cases here : k = index
        · subst here; simp [own]
        · simp [Function.update_noteq here, plain k]
      · by_cases here : j = index
        · subst here; simp [slotDesc, input]
        · simp [slotDesc, Function.update_noteq here]
    · simp [connectHandleFor, connectInput, input, own, ← expected, Ne.symm other, Except.map]
  case neg =>
    have expected : slotDesc state index = (state.outputs (index - state.numInputs)).desc := if_neg input
    refine ⟨fun same => ?_, fun other => ?_⟩
    · have run : connectHandleFor state index t = .ok ⟨state.numInputs, state.numOutputs, state.inputs,
          Function.update state.outputs (index - state.numInputs)
            ⟨(state.outputs (index - state.numInputs)).desc, some (.user t.buffer)⟩⟩ := by
        simp [connectHandleFor, input, inside, ← expected, same]
      refine ⟨_, run, plain, rfl, rfl, funext fun j => ?_⟩
      by_cases here : j - state.numInputs = index - state.numInputs
      · simp only [slotDesc]
        split
        · rfl
        · rw [here, Function.update_same]
      · simp [slotDesc, Function.update_noteq here]
    · simp [connectHandleFor, input, inside, ← expected, Ne.symm other]

/-- Binding a list from `index` on a state without reorders succeeds when
every tensor has its slot's descriptor, and fails the assertion when one has
not. -/
theorem connectHandles_plain (ts : List Bound) : ∀ {state : State} {index : Nat}, Plain state ->
    index + ts.length ≤ state.numInputs + state.numOutputs ->
    ((∀ j (hj : j < ts.length), ts[j].desc = slotDesc state (index + j)) ->
        ∃ next, connectHandles state index ts = .ok next) ∧
      ((∃ j, ∃ hj : j < ts.length, ts[j].desc ≠ slotDesc state (index + j)) ->
        connectHandles state index ts = .error .assertion) := by
  induction ts with
  | nil => exact fun _ _ => ⟨fun _ => ⟨_, rfl⟩, fun ⟨_, hj, _⟩ => absurd hj (Nat.not_lt_zero _)⟩
  | cons t rest ih =>
      intro state index plain fits
      have inside : index < state.numInputs + state.numOutputs := by simp at fits; omega
      have step := connectHandleFor_plain plain inside t
      have later : ∀ {next : State}, connectHandleFor state index t = .ok next ->
          connectHandles state index (t :: rest) = connectHandles next (index + 1) rest := fun run => by
        simp only [connectHandles, run, bind, Except.bind]
      refine ⟨fun same => ?_, fun ⟨j, hj, other⟩ => ?_⟩
      · obtain ⟨next, run, plain', inputs', outputs', descs⟩ := step.1 (by simpa using same 0 (by simp))
        rw [later run]
        refine (ih plain' (by simp at fits; omega)).1 fun j hj => ?_
        rw [descs, show index + 1 + j = index + (j + 1) by omega]
        exact same (j + 1) (by simp; omega)
      · by_cases first : t.desc = slotDesc state index
        · obtain ⟨next, run, plain', inputs', outputs', descs⟩ := step.1 first
          cases j with
          | zero => exact absurd (by simpa using first) other
          | succ j =>
              rw [later run]
              refine (ih plain' (by simp at fits; omega)).2 ⟨j, by simpa using hj, ?_⟩
              rw [descs, show index + 1 + j = index + (j + 1) by omega]
              simpa using other
        · simp only [connectHandles, step.2 first, bind, Except.bind]

/-- A computation without reorders binds, from its first slot, a list with
exactly the expected descriptors of its inputs and outputs. -/
theorem connectHandles_init_ok {adesc : DescriptorGroup} (none : adesc.provided = []) (args : List Descriptor)
    {ts : List Bound} (fits : ts.map Bound.desc = adesc.expectedInputs ++ adesc.expectedOutputs) :
    ∃ next, connectHandles (init adesc args) 0 ts = .ok next := by
  have lengths := congrArg List.length fits
  simp only [List.length_map, List.length_append] at lengths
  refine (connectHandles_plain ts (plain_init none args) (by simp [init, lengths])).1 fun j hj => ?_
  rw [Nat.zero_add, slotDesc_init none, ← fits]
  simp [List.getD_eq_getElem?_getD, hj]

/-- A computation without reorders stops at the assertion when a tensor of the
list has another descriptor than its slot's. -/
theorem connectHandles_init_mismatch {adesc : DescriptorGroup} (none : adesc.provided = [])
    (args : List Descriptor) {ts : List Bound}
    (short : ts.length ≤ adesc.expectedInputs.length + adesc.expectedOutputs.length) {j : Nat}
    (hj : j < ts.length) (other : ts[j].desc ≠ (adesc.expectedInputs ++ adesc.expectedOutputs).getD j default) :
    connectHandles (init adesc args) 0 ts = .error .assertion :=
  (connectHandles_plain ts (plain_init none args) (by simpa [init] using short)).2
    ⟨j, hj, by rwa [Nat.zero_add, slotDesc_init none]⟩

/-! ## The buffers after the reorders -/

section Heap

variable {D : Type} (convert : Descriptor -> Descriptor -> D -> D)

theorem reorderSlot_of_ne (heap : Handle -> Option D) (slot : InputSlot) {h : Handle}
    (other : ¬ (slot.auxiliary = true ∧ slot.primitive.handle = some h)) :
    reorderSlot convert heap slot h = heap h := by
  unfold reorderSlot
  cases aux : slot.auxiliary with
  | false => rfl
  | true =>
      cases handle : slot.primitive.handle with
      | none => rfl
      | some h' =>
          have different : h ≠ h' := fun same => other ⟨aux, same ▸ handle⟩
          simp [Function.update_noteq different]

theorem reorderSlot_self (heap : Handle -> Option D) (slot : InputSlot) {h : Handle}
    (aux : slot.auxiliary = true) (handle : slot.primitive.handle = some h) :
    reorderSlot convert heap slot h =
      (readHandle heap slot.inout.handle).map (convert slot.inout.desc slot.primitive.desc) := by
  simp [reorderSlot, aux, handle]

end Heap

/-! ## Runs of fitting calls -/

section Runs

variable {D : Type} (convert : Descriptor -> Descriptor -> D -> D)
variable (adesc : DescriptorGroup) (args : List Descriptor)

/-- Slot `k` holds a reorder after `init`: a declared descriptor was given for
it and the group holds a reorder descriptor. -/
def holdsReorder (k : Nat) : Bool := decide (k < args.length) && adesc.needReorderInput k

/-- The declared descriptor of slot `k`. -/
def declared (k : Nat) : Descriptor := args.getD k default

/-- The tensor a call binds at argument `k`. -/
def Call.at (call : Call D) (k : Nat) : Bound := call.bound.getD k default

/-- A call fits the computation: one tensor per slot; at an input slot the
expected descriptor or, where the slot holds a reorder, the declared one; at
an output slot the expected descriptor. -/
def Fits (call : Call D) : Prop :=
  call.bound.length = adesc.expectedInputs.length + adesc.expectedOutputs.length ∧
    (forall k, k < adesc.expectedInputs.length -> (call.at k).desc = adesc.expectedInput k ∨
      (holdsReorder adesc args k = true ∧ (call.at k).desc = declared args k)) ∧
    forall j, j < adesc.expectedOutputs.length ->
      (call.at (adesc.expectedInputs.length + j)).desc = adesc.expectedOutputs.getD j default

/-- The call binds the declared layout at a slot that holds a reorder. -/
def bindsDeclared (call : Call D) (k : Nat) : Bool :=
  holdsReorder adesc args k && decide ((call.at k).desc = declared args k)

/-- The call binds another layout at a slot that holds a reorder, which
throws the reorder away. -/
def drops (call : Call D) (k : Nat) : Bool :=
  holdsReorder adesc args k && !decide ((call.at k).desc = declared args k)

/-- What the primitive should read at slot `k`: the call's own data, converted
to the expected layout when the declared one was bound. -/
def intended (call : Call D) (k : Nat) : D :=
  if bindsDeclared adesc args call k then
    convert (declared args k) (adesc.expectedInput k) (call.data (call.at k).buffer)
  else call.data (call.at k).buffer

/-- The shape of input slot `k` along a run; `dropped` records whether an
earlier call has thrown the slot's reorder away. -/
def SlotShape (dropped : Bool) (k : Nat) (slot : InputSlot) : Prop :=
  slot.primitive.desc = adesc.expectedInput k ∧
    if holdsReorder adesc args k then
      slot.separate = true ∧ slot.inout.desc = declared args k ∧ slot.auxiliary = !dropped ∧
        (slot.auxiliary = true ->
          slot.primitive.handle = none ∨ slot.primitive.handle = some (.scratch k))
    else slot.separate = false ∧ slot.auxiliary = false

/-- Binding a fitting tensor to a slot of some shape: the slot accepts it and
keeps its shape, its reorder dropped if the expected layout came in its
place; a reorder that stays fills the slot's scratch buffer from the bound
one, otherwise the primitive reads the bound buffer itself. -/
theorem connectInput_shape {dropped : Bool} {k : Nat} {slot : InputSlot} {t : Bound}
    (shape : SlotShape adesc args dropped k slot)
    (fits : t.desc = adesc.expectedInput k ∨
      (holdsReorder adesc args k = true ∧ t.desc = declared args k))
    (fresh : dropped = true -> ¬ (holdsReorder adesc args k = true ∧ t.desc = declared args k)) :
    exists slot', connectInput k slot t = .ok slot' ∧
      SlotShape adesc args
        (dropped || (holdsReorder adesc args k && !decide (t.desc = declared args k))) k slot' ∧
      if holdsReorder adesc args k && decide (t.desc = declared args k) then
        slot'.auxiliary = true ∧ slot'.primitive.handle = some (.scratch k) ∧
          slot'.inout.handle = some (.user t.buffer) ∧ slot'.inout.desc = declared args k ∧
          slot'.primitive.desc = adesc.expectedInput k
      else slot'.auxiliary = false ∧ slot'.primitive.handle = some (.user t.buffer) := by
  obtain ⟨expected, shape⟩ := shape
  cases reorder : holdsReorder adesc args k with
  | false =>
      simp only [reorder, if_false, Bool.false_eq_true, false_and, or_false] at shape fits
      obtain ⟨shared, noAux⟩ := shape
      refine ⟨⟨slot.inout, ⟨slot.primitive.desc, some (.user t.buffer)⟩, slot.separate,
        slot.auxiliary⟩, by simp [connectInput, shared, expected, fits], ?_⟩
      simp [SlotShape, reorder, expected, shared, noAux]
  | true =>
      simp only [reorder, if_true, true_and] at shape fits fresh
      obtain ⟨separate, inout, aux, handle⟩ := shape
      by_cases same : t.desc = declared args k
      · have live : dropped = false := by
          cases dropped
          · rfl
          · exact absurd same (fresh rfl)
        subst live
        have scratch : (materialize k slot.primitive).handle = some (.scratch k) := by
          rcases handle (by simpa using aux) with none | scratch <;> simp [materialize, *]
        refine ⟨⟨⟨slot.inout.desc, some (.user t.buffer)⟩, materialize k slot.primitive,
          slot.separate, slot.auxiliary⟩, by simp [connectInput, separate, inout, same], ?_⟩
        simp [SlotShape, reorder, same, expected, separate, inout, aux, scratch]
      · have other : t.desc = adesc.expectedInput k := fits.resolve_right same
        have different : slot.inout.desc ≠ adesc.expectedInput k := by
          rw [inout, ← other]; exact Ne.symm same
        refine ⟨⟨slot.inout, ⟨slot.primitive.desc, some (.user t.buffer)⟩, slot.separate, false⟩,
          by simp [connectInput, separate, different, expected, other], ?_⟩
        simp [SlotShape, reorder, same, expected, separate, inout]

theorem holdsReorder_bounds {k : Nat} (reorder : holdsReorder adesc args k = true) :
    k < 2 ∧ k < args.length ∧ adesc.needReorderInput k = true := by
  simp only [holdsReorder, Bool.and_eq_true, decide_eq_true_eq] at reorder
  exact ⟨DescriptorGroup.needReorderInput_lt_two reorder.2, reorder⟩

theorem needReorderInput_input {k : Nat} (reorders : adesc.needReorderInput k = true) :
    k < adesc.expectedInputs.length := by
  unfold DescriptorGroup.needReorderInput at reorders
  cases given : adesc.expectedInputs[k]? with
  | none => cases adesc.provided[k]? <;> simp [given] at reorders
  | some _ => exact (List.getElem?_eq_some_iff.mp given).1

/-- What a run keeps of a computation object: its sizes, its output
descriptors, and the shape of every input slot; past the inputs no slot holds
a reorder. -/
structure Inv (dropped : Nat -> Bool) (state : State) : Prop where
  numInputs : state.numInputs = adesc.expectedInputs.length
  numOutputs : state.numOutputs = adesc.expectedOutputs.length
  outputs : forall j, (state.outputs j).desc = adesc.expectedOutputs.getD j default
  slots : forall k, k < adesc.expectedInputs.length -> SlotShape adesc args (dropped k) k (state.inputs k)
  beyond : forall k, adesc.expectedInputs.length ≤ k -> (state.inputs k).auxiliary = false

theorem init_inv : Inv adesc args (fun _ => false) (init adesc args) where
  numInputs := rfl
  numOutputs := rfl
  outputs _ := rfl
  slots k _ := by
    show SlotShape adesc args false k (initialSlot adesc args k)
    unfold SlotShape initialSlot holdsReorder declared
    cases given : args[k]? with
    | none =>
        have outside : ¬ k < args.length := fun inside => by simp [inside] at given
        simp [outside]
    | some d =>
        have inside : k < args.length := (List.getElem?_eq_some_iff.mp given).1
        cases adesc.needReorderInput k <;> simp [inside, List.getD_eq_getElem?_getD, given]
  beyond k outside := by
    show (initialSlot adesc args k).auxiliary = false
    unfold initialSlot
    cases given : args[k]? with
    | none => simp [given]
    | some d =>
        have : adesc.needReorderInput k = false := by
          cases reorders : adesc.needReorderInput k
          · rfl
          · exact absurd (needReorderInput_input adesc reorders) (by omega)
        simp [given, this]

/-- The two reorders write only scratch buffers: a caller's buffer reads the
same before and after them. -/
theorem reorders_user (heap : Handle -> Option D) {s0 s1 : InputSlot}
    (own0 : s0.auxiliary = true -> s0.primitive.handle = some (.scratch 0))
    (own1 : s1.auxiliary = true -> s1.primitive.handle = some (.scratch 1)) (b : Nat) :
    reorderSlot convert (reorderSlot convert heap s0) s1 (.user b) = heap (.user b) := by
  rw [reorderSlot_of_ne convert _ s1 (fun ⟨aux, handle⟩ => by simp [own1 aux] at handle),
    reorderSlot_of_ne convert _ s0 (fun ⟨aux, handle⟩ => by simp [own0 aux] at handle)]

/-- The primitive's read at input slot `k`, after the reorders of slots 0 and
1 ran, is the call's own data at `k`, converted where `connectInput` bound the
declared layout. -/
theorem primitiveRead_intended {call : Call D} {inputs : Nat -> InputSlot}
    (own : ∀ j, (inputs j).auxiliary = true -> (inputs j).primitive.handle = some (.scratch j))
    {k : Nat} (post : if bindsDeclared adesc args call k then
        (inputs k).auxiliary = true ∧ (inputs k).primitive.handle = some (.scratch k) ∧
          (inputs k).inout.handle = some (.user (call.at k).buffer) ∧
          (inputs k).inout.desc = declared args k ∧ (inputs k).primitive.desc = adesc.expectedInput k
      else (inputs k).auxiliary = false ∧
        (inputs k).primitive.handle = some (.user (call.at k).buffer)) :
    readHandle (reorderSlot convert (reorderSlot convert call.heap (inputs 0)) (inputs 1))
      (inputs k).primitive.handle = some (intended convert adesc args call k) := by
  unfold intended
  split at post
  case isTrue binds =>
    obtain ⟨aux, scratch, inout, inoutDesc, primDesc⟩ := post
    rw [if_pos binds, scratch]
    have small := (holdsReorder_bounds adesc args
      (by simp only [bindsDeclared, Bool.and_eq_true] at binds; exact binds.1)).1
    have converted : ∀ heap : Handle -> Option D,
        heap (.user (call.at k).buffer) = some (call.data (call.at k).buffer) ->
        reorderSlot convert heap (inputs k) (.scratch k) =
          some (convert (declared args k) (adesc.expectedInput k) (call.data (call.at k).buffer)) := by
      intro heap bound
      rw [reorderSlot_self convert heap _ aux scratch]
      simp [inout, inoutDesc, primDesc, readHandle, bound]
    rcases (by omega : k = 0 ∨ k = 1) with rfl | rfl
    · rw [readHandle, reorderSlot_of_ne convert _ _ (fun ⟨aux1, handle⟩ => by
        simp [own 1 aux1] at handle)]
      exact converted call.heap rfl
    · exact converted _ (by
        rw [reorderSlot_of_ne convert _ _ (fun ⟨aux0, handle⟩ => by simp [own 0 aux0] at handle)]
        rfl)
  case isFalse binds =>
    rw [if_neg binds, post.2, readHandle, reorders_user convert call.heap (own 0) (own 1)]
    rfl

/-- One call that fits, from a state in the invariant, succeeds, keeps the
invariant with the slots it dropped added, and its primitive reads at every
input slot that call's own data, converted where the declared layout was
bound. -/
theorem execute_fits {dropped : Nat -> Bool} {state : State} (inv : Inv adesc args dropped state)
    {call : Call D} (fits : Fits adesc args call)
    (fresh : forall k, dropped k = true -> bindsDeclared adesc args call k = false) :
    exists next reads, execute convert state call = .ok (next, reads) ∧
      Inv adesc args (fun k => dropped k || drops adesc args call k) next ∧
      forall k, k < adesc.expectedInputs.length -> reads k = some (intended convert adesc args call k) := by
  obtain ⟨length, inputFits, outputFits⟩ := fits
  have each := fun k (inside : k < adesc.expectedInputs.length) =>
    connectInput_shape adesc args (inv.slots k inside) (inputFits k inside)
      (fun isDropped => by simpa [bindsDeclared] using fresh k isDropped)
  choose slot' connected shaped post using each
  let slots : Nat -> InputSlot := fun k =>
    if inside : k < adesc.expectedInputs.length then slot' k inside else state.inputs k
  have at_eq : forall j (hj : j < call.bound.length), call.bound[j] = call.at j := fun j hj => by
    simp [Call.at, List.getD_eq_getElem?_getD, hj]
  obtain ⟨next, run, numIn, numOut, descs, nextInputs⟩ := connectHandles_ok state 0 call.bound slots
    (fun j hj inside => by
      rw [inv.numInputs, Nat.zero_add] at inside
      simp only [Nat.zero_add, slots, dif_pos inside, at_eq j hj]
      exact connected j inside)
    (fun j hj outside => by
      rw [inv.numInputs] at outside
      rw [inv.numInputs, inv.numOutputs]
      refine ⟨by omega, ?_⟩
      have output := outputFits (j - adesc.expectedInputs.length) (by omega)
      rw [Nat.add_sub_cancel' (by omega)] at output
      simp only [Nat.zero_add, inv.outputs, at_eq j hj, output])
  have nextSlot : forall k (inside : k < adesc.expectedInputs.length), next.inputs k = slot' k inside :=
    fun k inside => by
      rw [nextInputs k, if_pos ⟨Nat.zero_le k, by omega, by rw [inv.numInputs]; exact inside⟩]
      simp [slots, inside]
  have nextBeyond : forall k, adesc.expectedInputs.length ≤ k -> next.inputs k = state.inputs k :=
    fun k outside => by rw [nextInputs k, if_neg (by rw [inv.numInputs]; omega)]
  have own : forall k, (next.inputs k).auxiliary = true ->
      (next.inputs k).primitive.handle = some (.scratch k) := by
    intro k aux
    by_cases inside : k < adesc.expectedInputs.length
    · have after := post k inside
      rw [nextSlot k inside] at aux ⊢
      split at after
      · exact after.2.1
      · simp [after.1] at aux
    · rw [nextBeyond k (by omega), inv.beyond k (by omega)] at aux
      contradiction
  have executed : execute convert state call = .ok (next, fun k => readHandle
      (reorderSlot convert (reorderSlot convert call.heap (next.inputs 0)) (next.inputs 1))
      (next.inputs k).primitive.handle) := by
    simp only [execute, run, bind, Except.bind]
  refine ⟨next, _, executed, ⟨?_, ?_, ?_, ?_, ?_⟩, ?_⟩
  · rw [numIn, inv.numInputs]
  · rw [numOut, inv.numOutputs]
  · intro j; rw [descs j, inv.outputs j]
  · intro k inside; rw [nextSlot k inside]; exact shaped k inside
  · intro k outside; rw [nextBeyond k outside]; exact inv.beyond k outside
  · intro k inside
    exact primitiveRead_intended convert adesc args own (by rw [nextSlot k inside]; exact post k inside)

/-- A run of fitting calls from a state in the invariant succeeds, and every
call's primitive reads that call's own data, as long as no call binds the
declared layout at a slot whose reorder was thrown away before it, by the
state's past or by an earlier call of the run. -/
theorem runCalls_fits {dropped : Nat -> Bool} {state : State} (inv : Inv adesc args dropped state)
    (calls : List (Call D)) (fit : ∀ call ∈ calls, Fits adesc args call)
    (fresh : ∀ call ∈ calls, forall k, dropped k = true -> bindsDeclared adesc args call k = false)
    (ordered : calls.Pairwise fun earlier later =>
      forall k, drops adesc args earlier k = true -> bindsDeclared adesc args later k = false) :
    exists reads, runCalls convert state calls = .ok reads ∧
      List.Forall₂ (fun read call => forall k, k < adesc.expectedInputs.length ->
        read k = some (intended convert adesc args call k)) reads calls := by
  induction calls generalizing dropped state with
  | nil => exact ⟨[], rfl, .nil⟩
  | cons call later ih =>
      rw [List.pairwise_cons] at ordered
      obtain ⟨next, read, executed, inv', reads⟩ := execute_fits convert adesc args inv
        (fit call (List.mem_cons_self call later)) (fresh call (List.mem_cons_self call later))
      obtain ⟨rest, run, rests⟩ := ih inv' (fun c mem => fit c (List.mem_cons_of_mem call mem))
        (fun c mem k isDropped => by
          cases both : dropped k
          · simp only [both, Bool.false_or] at isDropped
            exact ordered.1 c mem k isDropped
          · exact fresh c (List.mem_cons_of_mem call mem) k both)
        ordered.2
      exact ⟨read :: rest, by simp only [runCalls, executed, run, bind, Except.bind, Except.map],
        .cons reads rests⟩

/-- From a freshly built computation object, every call of a run of fitting
calls reads its own data, converted where the declared layout was bound, as
long as no call binds the declared layout at a slot where an earlier call bound
the expected layout of a slot holding a reorder. -/
theorem runCalls_reads_intended (calls : List (Call D))
    (fit : ∀ call ∈ calls, Fits adesc args call)
    (ordered : calls.Pairwise fun earlier later =>
      forall k, drops adesc args earlier k = true -> bindsDeclared adesc args later k = false) :
    exists reads, runCalls convert (init adesc args) calls = .ok reads ∧
      List.Forall₂ (fun read call => forall k, k < adesc.expectedInputs.length ->
        read k = some (intended convert adesc args call k)) reads calls :=
  runCalls_fits convert adesc args (init_inv adesc args) calls fit
    (fun _ _ _ never => absurd never Bool.false_ne_true) ordered

end Runs

/-! ## Two calls on a slot holding a reorder -/

/-- An input the engine wants in `nChw8c`. -/
def blockedInput : Descriptor := ⟨[1, 8, 1, 1], .f32, .nChw8c⟩

/-- The same input declared in `nchw`. -/
def plainInput : Descriptor := ⟨[1, 8, 1, 1], .f32, .nchw⟩

/-- One input, one output, and a reorder descriptor from the declared input to
the expected one. -/
def reorderingGroup : DescriptorGroup := ⟨[blockedInput], [plainInput], [plainInput], by decide⟩

/-- A call binding the expected layout in buffer 1, the output in buffer 3. -/
def expectedCall (data : Nat -> D) : Call D := ⟨[⟨blockedInput, 1⟩, ⟨plainInput, 3⟩], data⟩

/-- A call binding the declared layout in buffer 2, the output in buffer 3. -/
def declaredCall (data : Nat -> D) : Call D := ⟨[⟨plainInput, 2⟩, ⟨plainInput, 3⟩], data⟩

theorem expectedCall_fits (data : Nat -> D) : Fits reorderingGroup [plainInput] (expectedCall data) :=
  ⟨rfl, fun k inside => by
    obtain rfl : k = 0 := by simpa [reorderingGroup] using inside
    exact .inl rfl, fun j inside => by
    obtain rfl : j = 0 := by simpa [reorderingGroup] using inside
    rfl⟩

theorem declaredCall_fits (data : Nat -> D) : Fits reorderingGroup [plainInput] (declaredCall data) :=
  ⟨rfl, fun k inside => by
    obtain rfl : k = 0 := by simpa [reorderingGroup] using inside
    exact .inr ⟨rfl, rfl⟩, fun j inside => by
    obtain rfl : j = 0 := by simpa [reorderingGroup] using inside
    rfl⟩

/-- The calls of the counterexample below in the other order: the declared
layout first, then the expected one, each reading its own buffer. -/
theorem runCalls_reads_intended_declared_first :
    (∀ call ∈ [declaredCall id, expectedCall id], Fits reorderingGroup [plainInput] call) ∧
      [declaredCall id, expectedCall id].Pairwise (fun earlier later => forall k,
        drops reorderingGroup [plainInput] earlier k = true ->
          bindsDeclared reorderingGroup [plainInput] later k = false) ∧
      exists reads, runCalls (fun _ _ x => x + 1) (init reorderingGroup [plainInput])
          [declaredCall id, expectedCall id] = .ok reads ∧
        List.Forall₂ (fun read call => forall k, k < reorderingGroup.expectedInputs.length ->
          read k = some (intended (fun _ _ x => x + 1) reorderingGroup [plainInput] call k))
          reads [declaredCall id, expectedCall id] := by
  have fit : ∀ call ∈ [declaredCall id, expectedCall id], Fits reorderingGroup [plainInput] call := by
    simp only [List.mem_cons, List.mem_singleton, List.not_mem_nil, or_false]
    rintro call (rfl | rfl)
    · exact declaredCall_fits id
    · exact expectedCall_fits id
  have ordered : [declaredCall id, expectedCall id].Pairwise (fun earlier later => forall k,
      drops reorderingGroup [plainInput] earlier k = true ->
        bindsDeclared reorderingGroup [plainInput] later k = false) := by
    refine List.pairwise_pair.mpr fun k dropped => ?_
    cases k with
    | zero => exact absurd dropped (by decide)
    | succ k => simp [drops, holdsReorder] at dropped
  exact ⟨fit, ordered, runCalls_reads_intended (fun _ _ x => x + 1) reorderingGroup [plainInput]
    [declaredCall id, expectedCall id] fit ordered⟩

/-- After a call binding the expected layout, a call binding the declared one
runs the primitive on the first call's buffer, unconverted: with buffer `b`
holding `b` and a reorder adding ten, it reads `1` where its own data
converted is `12`. -/
theorem runCalls_reads_dropped_slot :
    Fits reorderingGroup [plainInput] (expectedCall id) ∧
      Fits reorderingGroup [plainInput] (declaredCall id) ∧
      exists first second, runCalls (fun _ _ x => x + 10) (init reorderingGroup [plainInput])
          [expectedCall id, declaredCall id] = .ok [first, second] ∧
        second 0 = some 1 ∧
        intended (fun _ _ x => x + 10) reorderingGroup [plainInput] (declaredCall id) 0 = 12 :=
  ⟨expectedCall_fits id, declaredCall_fits id, _, _, rfl, rfl, rfl⟩

end Computation
end Ideep
