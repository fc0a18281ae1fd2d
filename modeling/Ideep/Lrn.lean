import Ideep.Cache
import Ideep.Computation

namespace Ideep
namespace Lrn

open Cache Computation

/-!
# Local response normalization backward through its cache

`lrn_backward::compute(x, grady, y, gradx, local_size, alpha, beta, k,
aalgorithm)` reaches its object through `fetch_or_create_m(comp, key, x_desc,
grady_desc, local_size, alpha, beta, k, aalgorithm)`, whose key is
`create_key` over x's data type, dims and internal format and the four
parameters.  The constructor reads `grady_desc` too: the backward descriptor
builds the engine's primitive with the gradient in exactly that descriptor,
and creates no reorder descriptors, so `computation::init` leaves every input
slot on the primitive's own memory, where `connect_handle_for` takes only the
expected descriptor (its output branch and assertion).

The engine's side is a parameter: whether it builds the backward primitive
for `x`, the gradient and the parameters (`accepts`), and the workspace of the
forward hint for `x` (`workspace`).  Built from concrete descriptors, the
primitive expects `x` and the gradient in them, then the workspace, and
writes `gradx` in the gradient's descriptor.

An object built for a request binds that request (`execute_built`).  A later
request whose `grady` differs from an earlier one's in its descriptor alone
has the earlier key, is served the earlier object, and stops at the
assertion, where building an object for its own arguments binds it
(`compute_reuses_first_grady`).
-/

/-- The LRN algorithms of `mkldnn::algorithm`, with the codes `create_key`
serializes. -/
inductive LrnAlgorithm where
  | acrossChannels
  | withinChannel
  deriving DecidableEq, Repr

/-- The code of an algorithm. -/
def LrnAlgorithm.code : LrnAlgorithm -> Int
  | .acrossChannels => 0
  | .withinChannel => 1

/-- `local_size`, `alpha`, `beta`, `k` and `aalgorithm`. -/
structure Params where
  localSize : Int
  alpha : ℚ
  beta : ℚ
  k : ℚ
  algorithm : LrnAlgorithm
  deriving DecidableEq, Repr

section Backward

variable (accepts : Descriptor -> Descriptor -> Params -> Bool)
  (workspace : Descriptor -> Params -> Option Descriptor)

/-- `lrn_backward::descriptor(x_desc, gx_desc, ...)`: the engine's backward
primitive descriptor, with inputs `x`, the gradient and the forward hint's
workspace, output the gradient's descriptor, and no `create_reorder_pds`. -/
def backwardDescriptor (x gx : Descriptor) (params : Params) : Except Fault DescriptorGroup :=
  if accepts x gx params then .ok ⟨[x, gx] ++ (workspace x params).toList, [gx], [], Nat.zero_le 2⟩
  else .error (.runtime "could not create a backward lrn primitive descriptor")

/-- `expected_gradx_descriptor()`. -/
def expectedGradx (adesc : DescriptorGroup) : Descriptor := adesc.expectedOutputs.getD 0 default

/-- An `lrn_backward` object: its primitive descriptor and its computation. -/
structure LrnBackward where
  adesc : DescriptorGroup
  state : State

namespace LrnBackward

/-- `init(x_desc, grady_desc, local_size, alpha, beta, k, aalgorithm)`. -/
def init (x grady : Descriptor) (params : Params) : Except Fault LrnBackward :=
  (backwardDescriptor accepts workspace x grady params).map fun adesc =>
    ⟨adesc, Computation.init adesc [x, grady]⟩

/-- `execute(x, grady, y, gradx)`: `(x, grady, gradx)` when the primitive has
two inputs, otherwise `(x, grady, *y.get_extra(), gradx)`; `extra` is y's
workspace, when it has one. -/
def execute (comp : LrnBackward) (x grady : Bound) (extra : Option Bound) (gradx : Bound) :
    Except Fault State :=
  if comp.state.numInputs = 2 then connectHandles comp.state 0 [x, grady, gradx]
  else match extra with
    | some w => connectHandles comp.state 0 [x, grady, w, gradx]
    | none => .error .uninitializedPointer

/-- The key of `compute`. -/
def key (x : Descriptor) (params : Params) : Key :=
  [.dataType x.dataType, .dims x.dims, .format x.format, .int params.localSize, .float params.alpha,
    .float params.beta, .float params.k, .int params.algorithm.code]

/-- `compute(x, grady, y, gradx, local_size, alpha, beta, k, aalgorithm)`,
eager: `gradx` is reinitialized to the object's expected `gradx`
descriptor. -/
def compute (store : Store LrnBackward) (x grady : Bound) (extra : Option Bound) (gradx : Bound)
    (params : Params) : Except Fault (State × Store LrnBackward) :=
  fetchOrCreate store (key x.desc params) (init accepts workspace x.desc grady.desc params) >>=
    fun (comp, store) =>
      (comp.execute x grady extra { gradx with desc := expectedGradx comp.adesc }).map (·, store)

end LrnBackward

/-- The object built for `x` and a gradient of descriptor `gx`. -/
def built (x gx : Descriptor) (params : Params) : LrnBackward :=
  let adesc : DescriptorGroup := ⟨[x, gx] ++ (workspace x params).toList, [gx], [], Nat.zero_le 2⟩
  ⟨adesc, Computation.init adesc [x, gx]⟩

theorem init_of_accepts {x gx : Descriptor} {params : Params} (accepted : accepts x gx params = true) :
    LrnBackward.init accepts workspace x gx params = .ok (built workspace x gx params) := by
  simp [LrnBackward.init, backwardDescriptor, accepted, built, Except.map]

/-- The object built for `x` binds `(x, grady, gradx)` without a workspace
and `(x, grady, w, gradx)` with y's workspace `w`. -/
theorem execute_built_eq (x grady : Bound) (extra : Option Bound) (gradx : Bound) (params : Params)
    (gx : Descriptor) (extraFits : ∀ w, workspace x.desc params = some w → ∃ buffer, extra = some ⟨w, buffer⟩) :
    ∃ ws : List Bound, ws.map Bound.desc = (workspace x.desc params).toList ∧
      (built workspace x.desc gx params).execute x grady extra gradx =
        connectHandles (built workspace x.desc gx params).state 0 (x :: grady :: ws ++ [gradx]) := by
  unfold LrnBackward.execute
  cases hw : workspace x.desc params with
  | none =>
      have two : (built workspace x.desc gx params).state.numInputs = 2 := by
        simp [built, hw, Computation.init]
      exact ⟨[], rfl, if_pos two⟩
  | some w =>
      obtain ⟨buffer, rfl⟩ := extraFits w hw
      have three : (built workspace x.desc gx params).state.numInputs ≠ 2 := by
        simp [built, hw, Computation.init]
      exact ⟨[⟨w, buffer⟩], rfl, if_neg three⟩

/-- The object built for a request binds it, `gradx` reinitialized to the
gradient's descriptor and y's workspace there when the primitive takes one. -/
theorem execute_built (x grady : Bound) (extra : Option Bound) (gradx : Bound) (params : Params)
    (extraFits : ∀ w, workspace x.desc params = some w → ∃ buffer, extra = some ⟨w, buffer⟩) :
    ∃ state, (built workspace x.desc grady.desc params).execute x grady extra
      { gradx with desc := expectedGradx (built workspace x.desc grady.desc params).adesc } = .ok state := by
  obtain ⟨ws, descs, binds⟩ := execute_built_eq workspace x grady extra
    { gradx with desc := expectedGradx (built workspace x.desc grady.desc params).adesc } params grady.desc
    extraFits
  rw [binds]
  exact connectHandles_init_ok rfl _ (by simp [built, descs, expectedGradx])

/-- An object built for another gradient descriptor stops at slot 1, at the
assertion of the output branch of `connect_handle_for`. -/
theorem execute_built_other (x grady : Bound) (extra : Option Bound) (gradx : Bound) (params : Params)
    {gx : Descriptor} (differ : grady.desc ≠ gx)
    (extraFits : ∀ w, workspace x.desc params = some w → ∃ buffer, extra = some ⟨w, buffer⟩) :
    (built workspace x.desc gx params).execute x grady extra gradx = .error .assertion := by
  obtain ⟨ws, descs, binds⟩ := execute_built_eq workspace x grady extra gradx params gx extraFits
  rw [binds]
  have lengths : ws.length = (workspace x.desc params).toList.length := by rw [← descs, List.length_map]
  exact connectHandles_init_mismatch rfl _ (by simp [built, lengths]) (j := 1) (by simp)
    (by simpa [built] using differ)

/-- On an empty cache a request the engine accepts succeeds, and the cache
then holds the object built for it under its key. -/
theorem compute_empty {x grady : Bound} {extra : Option Bound} (gradx : Bound) {params : Params}
    (accepted : accepts x.desc grady.desc params = true)
    (extraFits : ∀ w, workspace x.desc params = some w → ∃ buffer, extra = some ⟨w, buffer⟩) :
    ∃ state, LrnBackward.compute accepts workspace [] x grady extra gradx params =
      .ok (state, [(LrnBackward.key x.desc params, built workspace x.desc grady.desc params)]) := by
  obtain ⟨state, ran⟩ := execute_built workspace x grady extra gradx params extraFits
  refine ⟨state, ?_⟩
  simp only [LrnBackward.compute, fetchOrCreate, List.lookup_nil, init_of_accepts accepts workspace accepted,
    Except.map, bind, Except.bind, ran]

/-- The key leaves out `grady`'s descriptor, which the object is built from.
After a first request, a second one on the same `x`, workspace and
parameters whose `grady` has another descriptor is served the first one's
object and stops at the assertion of `connect_handle_for`, while on an empty
cache, with an object built for its own arguments, it succeeds. -/
theorem compute_reuses_first_grady {x grady grady' : Bound} {extra : Option Bound} (gradx gradx' : Bound)
    {params : Params} (accepted : accepts x.desc grady.desc params = true)
    (accepted' : accepts x.desc grady'.desc params = true)
    (extraFits : ∀ w, workspace x.desc params = some w → ∃ buffer, extra = some ⟨w, buffer⟩)
    (differ : grady'.desc ≠ grady.desc) :
    ∃ state store, LrnBackward.compute accepts workspace [] x grady extra gradx params = .ok (state, store) ∧
      LrnBackward.compute accepts workspace store x grady' extra gradx' params = .error .assertion ∧
      ∃ state' store', LrnBackward.compute accepts workspace [] x grady' extra gradx' params = .ok (state', store') := by
  obtain ⟨state, first⟩ := compute_empty accepts workspace gradx accepted extraFits
  obtain ⟨state', fresh⟩ := compute_empty accepts workspace gradx' accepted' extraFits
  refine ⟨state, _, first, ?_, state', _, fresh⟩
  simp only [LrnBackward.compute, fetchOrCreate, List.lookup_cons_self, bind, Except.bind,
    execute_built_other workspace x grady' extra _ params differ extraFits, Except.map]

/-- A gradient in `nchw`, then one in `nChw8c`, for the same `nchw` source,
on an engine that takes both and has no workspace. -/
theorem compute_reuses_first_grady_blocked :
    let accepts : Descriptor -> Descriptor -> Params -> Bool := fun _ _ _ => true
    let workspace : Descriptor -> Params -> Option Descriptor := fun _ _ => none
    let x : Bound := ⟨⟨[2, 16, 4, 4], .f32, .nchw⟩, 0⟩
    let grady : Bound := ⟨⟨[2, 16, 4, 4], .f32, .nchw⟩, 1⟩
    let grady' : Bound := ⟨⟨[2, 16, 4, 4], .f32, .nChw8c⟩, 2⟩
    let params : Params := ⟨5, 1 / 10000, 3 / 4, 1, .acrossChannels⟩
    accepts x.desc grady.desc params = true ∧ accepts x.desc grady'.desc params = true ∧
      (∀ w, workspace x.desc params = some w → ∃ buffer, (none : Option Bound) = some ⟨w, buffer⟩) ∧
      grady'.desc ≠ grady.desc ∧
      ∃ state store, LrnBackward.compute accepts workspace [] x grady none ⟨x.desc, 3⟩ params =
          .ok (state, store) ∧
        LrnBackward.compute accepts workspace store x grady' none ⟨x.desc, 4⟩ params = .error .assertion ∧
        ∃ state' store', LrnBackward.compute accepts workspace [] x grady' none ⟨x.desc, 4⟩ params =
          .ok (state', store') := by
  intro accepts workspace x grady grady' params
  have noWorkspace : ∀ w, workspace x.desc params = some w → ∃ buffer, (none : Option Bound) = some ⟨w, buffer⟩ :=
    fun _ absent => absurd absent (Option.some_ne_none _).symm
  have differ : grady'.desc ≠ grady.desc := by decide
  exact ⟨rfl, rfl, noWorkspace, differ,
    compute_reuses_first_grady accepts workspace ⟨x.desc, 3⟩ ⟨x.desc, 4⟩ rfl rfl noWorkspace differ⟩

end Backward

end Lrn
end Ideep
