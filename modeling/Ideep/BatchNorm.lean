import Ideep.Cache
import Ideep.Computation
import Ideep.Fusion
import Mathlib.Data.Rat.Floor

namespace Ideep
namespace BatchNorm

open Computation Cache

/-!
# Batch normalization objects

`batch_normalization_forward_inference` and `batch_normalization_forward_training`
wrap the engine's batch normalization primitive in a `computation`.  The
primitive's inputs follow the flags it is built with: the source; mean and
variance when `use_global_stats` is set; the stacked scale and shift
(`weights`) when `use_scale_shift` is set.  Its outputs are the destination, in
the source's layout, and in training without global statistics the computed
mean and variance.  That contract is the engine's, not part of this source, and
is modelled for the two flags the source passes.

Both classes receive their constructor arguments through `fetch_or_create_m`,
which hands them to `init` in order.  The three-argument inference `compute`
hands `(src_desc, use_scale_shift, epsilon)` to
`init(src_desc, float epsilon, unsigned flag)`: the flag arrives as the
epsilon, and the epsilon, truncated, as the flags.  For an epsilon in `[3, 4)`
the flags are both bits, the computation has four inputs and one output, and
`execute(src, scale, shift, dst)` binds three tensors, the weights at the mean's
slot.

The training `compute` keys its object on the source and the epsilon, and
builds it from the source, scale, shift, momentum and epsilon.  The momentum
sets the scales of the running-statistics sum, so a second call with another
momentum is served the first call's sum.

The engine's own checks on a source descriptor, the layouts and data types its
batch normalization takes, are not modelled: `forward_scoring` and
`forward_training` build a primitive for every source, so the results below that
a call succeeds hold for the sources the engine accepts.
-/

/-- `batch_normalization_flag::use_global_stats`, the engine's bit 0. -/
def useGlobalStats : Nat := 1

/-- `batch_normalization_flag::use_scale_shift`, the engine's bit 1. -/
def useScaleShift : Nat := 2

/-- The C++ conversion of a non-negative `float` to `unsigned`, by truncation. -/
def toUnsigned (x : ℚ) : Nat := ⌊x⌋₊

/-- The descriptor of a per-channel statistic: one `f32` per channel. -/
def statisticDesc (src : Descriptor) : Descriptor := ⟨[src.dims.getD 1 0], .f32, .x⟩

/-- The descriptor of scale and shift stacked, two rows of one `f32` per
channel. -/
def weightsDesc (src : Descriptor) : Descriptor := ⟨[2, src.dims.getD 1 0], .f32, .nc⟩

/-- The primitive's inputs for `flags`. -/
def expectedInputs (src : Descriptor) (flags : Nat) : List Descriptor :=
  src :: ((if flags.testBit 0 then [statisticDesc src, statisticDesc src] else []) ++
    (if flags.testBit 1 then [weightsDesc src] else []))

/-- The engine's forward-scoring batch normalization primitive descriptor. -/
def forwardScoring (src : Descriptor) (flags : Nat) : DescriptorGroup :=
  ⟨expectedInputs src flags, [src], [], Nat.zero_le 2⟩

/-- The engine's forward-training batch normalization primitive descriptor. -/
def forwardTraining (src : Descriptor) (flags : Nat) : DescriptorGroup :=
  ⟨expectedInputs src flags,
    src :: (if flags.testBit 0 then [] else [statisticDesc src, statisticDesc src]), [],
    Nat.zero_le 2⟩

/-- `expected_weights_descriptor()`: the engine has a weights descriptor only
with scale and shift; otherwise its clone fails. -/
def expectedWeightsDescriptor (src : Descriptor) (flags : Nat) : Except Fault Descriptor :=
  if flags.testBit 1 then .ok (weightsDesc src)
  else .error (.runtime "could not clone a src primititve descriptor")

/-- `expected_dst_descriptor()`. -/
def expectedDst (adesc : DescriptorGroup) : Descriptor := adesc.expectedOutputs.getD 0 default

/-- `dst.reinit(desc)` unless `dst` is `src`: the destination gets the
descriptor `desc`. -/
def reinitUnlessSrc (desc : Descriptor) (src dst : Bound) : Bound :=
  if dst = src then dst else { dst with desc := desc }

/-! ## Inference -/

/-- A `batch_normalization_forward_inference` object: the epsilon and flags of
its primitive, its computation, and the descriptor of `weights_`. -/
structure Inference where
  epsilon : ℚ
  flags : Nat
  adesc : DescriptorGroup
  state : State
  weights : Descriptor

namespace Inference

/-- `init(src_desc, epsilon, flag)`: the primitive descriptor, `weights_` from
its weights descriptor, and the computation with no declared inputs. -/
def init (srcDesc : Descriptor) (epsilon : ℚ) (flag : Nat) : Except Fault Inference :=
  let adesc := forwardScoring srcDesc flag
  (expectedWeightsDescriptor srcDesc flag).map fun weights =>
    ⟨epsilon, flag, adesc, Computation.init adesc [], weights⟩

/-- The key of the three-argument `compute`. -/
def keyScaleShift (src : Descriptor) (epsilon : ℚ) : Key :=
  [.dataType src.dataType, .dims src.dims, .format src.format, .int 3, .float epsilon]

/-- The object the three-argument `compute` builds:
`fetch_or_create_m(comp, key, src_desc, use_scale_shift, epsilon)`. -/
def createScaleShift (src : Descriptor) (epsilon : ℚ) : Except Fault Inference :=
  init src (useScaleShift : ℚ) (toUnsigned epsilon)

/-- `execute(src, scale, shift, dst)`: scale and shift are copied into
`weights_`, whose buffer is `weightsBuffer`, and the computation runs on
`(src, weights_, dst)`. -/
def executeScaleShift (comp : Inference) (weightsBuffer : Nat) (src dst : Bound) :
    Except Fault State :=
  connectHandles comp.state 0 [src, ⟨comp.weights, weightsBuffer⟩, dst]

/-- `execute(src, mean, variance, scale, shift, dst)`. -/
def executeWithStats (comp : Inference) (weightsBuffer : Nat) (src mean variance dst : Bound) :
    Except Fault State :=
  connectHandles comp.state 0 [src, mean, variance, ⟨comp.weights, weightsBuffer⟩, dst]

/-- The three-argument `compute(src, scale, shift, dst, epsilon)` on the object
`fetch_or_create_m` serves for its key. -/
def computeScaleShift (store : Store Inference) (src dst : Bound) (weightsBuffer : Nat)
    (epsilon : ℚ) : Except Fault (State × Store Inference) :=
  fetchOrCreate store (keyScaleShift src.desc epsilon) (createScaleShift src.desc epsilon) >>=
    fun (comp, store) =>
      (comp.executeScaleShift weightsBuffer src (reinitUnlessSrc (expectedDst comp.adesc) src dst)).map
        fun state => (state, store)

/-- The key of the five-argument `compute`. -/
def keyWithStats (src : Descriptor) (epsilon : ℚ) : Key :=
  [.dataType src.dataType, .dims src.dims, .format src.format, .int 5, .float epsilon]

/-- The object the five-argument `compute` builds:
`fetch_or_create_m(comp, key, src_desc, epsilon)`, with the default flags. -/
def createWithStats (src : Descriptor) (epsilon : ℚ) : Except Fault Inference :=
  init src epsilon (useGlobalStats ||| useScaleShift)

/-- The five-argument `compute(src, mean, variance, scale, shift, dst, epsilon)`,
eager. -/
def computeWithStats (store : Store Inference) (src mean variance dst : Bound)
    (weightsBuffer : Nat) (epsilon : ℚ) : Except Fault (State × Store Inference) :=
  fetchOrCreate store (keyWithStats src.desc epsilon) (createWithStats src.desc epsilon) >>=
    fun (comp, store) =>
      (comp.executeWithStats weightsBuffer src mean variance
        (reinitUnlessSrc (expectedDst comp.adesc) src dst)).map fun state => (state, store)

/-- The objects of both inference entry points are functions of their keys. -/
def ofKey : Key -> Except Fault Inference
  | [.dataType t, .dims d, .format f, .int 3, .float e] => createScaleShift ⟨d, t, f⟩ e
  | [.dataType t, .dims d, .format f, .int 5, .float e] => createWithStats ⟨d, t, f⟩ e
  | _ => .error .assertion

theorem ofKey_keyScaleShift (src : Descriptor) (epsilon : ℚ) :
    ofKey (keyScaleShift src epsilon) = createScaleShift src epsilon := rfl

theorem ofKey_keyWithStats (src : Descriptor) (epsilon : ℚ) :
    ofKey (keyWithStats src epsilon) = createWithStats src epsilon := rfl

end Inference

theorem toUnsigned_eq {x : ℚ} {n : Nat} (low : n ≤ x) (high : x < n + 1) : toUnsigned x = n :=
  (Nat.floor_eq_iff (le_trans (Nat.cast_nonneg n) low)).mpr ⟨low, high⟩

namespace Inference

theorem createScaleShift_of_three {epsilon : ℚ} (three : toUnsigned epsilon = 3) (src : Descriptor) :
    createScaleShift src epsilon =
      .ok ⟨2, 3, forwardScoring src 3, Computation.init (forwardScoring src 3) [], weightsDesc src⟩ := by
  rw [createScaleShift, three]
  rfl

/-- Built with both flags, the object binds `src` and then meets the weights
at the mean's slot, where the output branch's assertion fails. -/
theorem executeScaleShift_of_three (src : Bound) (weightsBuffer : Nat) (dst : Bound) :
    executeScaleShift ⟨2, 3, forwardScoring src.desc 3, Computation.init (forwardScoring src.desc 3) [],
      weightsDesc src.desc⟩ weightsBuffer src dst = .error .assertion := by
  have differ : weightsDesc src.desc ≠ statisticDesc src.desc := by
    simp [statisticDesc, weightsDesc]
  have bits : Nat.testBit 3 0 = true ∧ Nat.testBit 3 1 = true := by decide
  exact connectHandles_init_mismatch rfl [] (by simp [forwardScoring, expectedInputs, bits]) (j := 1)
    (by simp) (by simpa [forwardScoring, expectedInputs, bits] using differ)

end Inference

theorem reinitUnlessSrc_desc (src dst : Bound) : (reinitUnlessSrc src.desc src dst).desc = src.desc := by
  unfold reinitUnlessSrc
  split
  · rename_i same; rw [same]
  · rfl

namespace Inference

/-- From any cache whose entries are what their keys build, an epsilon in
`[3, 4)` makes the three-argument `compute` fail at the output branch's
assertion. -/
theorem computeScaleShift_of_three {epsilon : ℚ} (low : 3 ≤ epsilon) (high : epsilon < 4)
    {store : Store Inference} (coherent : Coherent ofKey store) (src dst : Bound) (weightsBuffer : Nat) :
    computeScaleShift store src dst weightsBuffer epsilon = .error .assertion := by
  have three : toUnsigned epsilon = 3 := toUnsigned_eq (by exact_mod_cast low) (by push_cast; linarith)
  obtain ⟨store', fetched, -⟩ := fetchOrCreate_of_coherent ofKey coherent
    (show ofKey (keyScaleShift src.desc epsilon) = _ from createScaleShift_of_three three src.desc)
  rw [computeScaleShift, ← ofKey_keyScaleShift, fetched]
  simp only [bind, Except.bind, executeScaleShift_of_three, Except.map]

/-- The five-argument `compute` binds its five slots: every source, mean and
variance of the statistic's descriptor and every destination are accepted. -/
theorem computeWithStats_ok {store : Store Inference} (coherent : Coherent ofKey store)
    (src mean variance dst : Bound) (meanDesc : mean.desc = statisticDesc src.desc)
    (varianceDesc : variance.desc = statisticDesc src.desc) (weightsBuffer : Nat) (epsilon : ℚ) :
    exists state store', computeWithStats store src mean variance dst weightsBuffer epsilon =
      .ok (state, store') := by
  have built : createWithStats src.desc epsilon =
      .ok ⟨epsilon, 3, forwardScoring src.desc 3, Computation.init (forwardScoring src.desc 3) [],
        weightsDesc src.desc⟩ := rfl
  obtain ⟨store', fetched, -⟩ := fetchOrCreate_of_coherent ofKey coherent
    (show ofKey (keyWithStats src.desc epsilon) = _ from built)
  have bits : Nat.testBit 3 0 = true ∧ Nat.testBit 3 1 = true := by decide
  obtain ⟨state, bound⟩ : ∃ state, executeWithStats ⟨epsilon, 3, forwardScoring src.desc 3,
      Computation.init (forwardScoring src.desc 3) [], weightsDesc src.desc⟩ weightsBuffer src mean
      variance (reinitUnlessSrc (expectedDst (forwardScoring src.desc 3)) src dst) = .ok state :=
    connectHandles_init_ok rfl [] (by simp [forwardScoring, expectedInputs, expectedDst, bits, meanDesc, varianceDesc,
      reinitUnlessSrc_desc])
  rw [computeWithStats, ← ofKey_keyWithStats, fetched]
  exact ⟨state, store', by simp only [bind, Except.bind, bound, Except.map]⟩

theorem computeWithStats_ok_nchw :
    let src : Bound := ⟨⟨[2, 3, 4, 4], .f32, .nchw⟩, 0⟩
    let mean : Bound := ⟨statisticDesc src.desc, 1⟩
    let variance : Bound := ⟨statisticDesc src.desc, 2⟩
    Coherent ofKey ([] : Store Inference) ∧ mean.desc = statisticDesc src.desc ∧
      variance.desc = statisticDesc src.desc ∧
      exists state store', computeWithStats [] src mean variance ⟨⟨[2, 3, 4, 4], .f32, .nchw⟩, 3⟩ 4 1 =
        .ok (state, store') :=
  ⟨coherent_nil _, rfl, rfl, computeWithStats_ok (coherent_nil _) _ _ _ _ rfl rfl 4 1⟩

end Inference

/-- Both inference entry points key every constructor argument, so through
the cache a run of their requests gets exactly the objects each request's own
arguments build. -/
theorem inference_cache_transparent (requests : List (Key × Except Fault Inference))
    (keyed : ∀ r ∈ requests, exists src epsilon,
      r = (Inference.keyScaleShift src epsilon, Inference.createScaleShift src epsilon) ∨
        r = (Inference.keyWithStats src epsilon, Inference.createWithStats src epsilon)) :
    (serveAll [] requests).map Prod.fst = requests.mapM Prod.snd :=
  serveAll_transparent Inference.ofKey (coherent_nil _) requests fun r mem => by
    obtain ⟨src, epsilon, rfl | rfl⟩ := keyed r mem <;> rfl

/-- A request, one of the other entry point on the same source, and the first
again, which the cache serves. -/
theorem inference_cache_transparent_repeated :
    let src : Descriptor := ⟨[2, 3, 4, 4], .f32, .nchw⟩
    let requests := [(Inference.keyScaleShift src 1, Inference.createScaleShift src 1),
      (Inference.keyWithStats src 1, Inference.createWithStats src 1),
      (Inference.keyScaleShift src 1, Inference.createScaleShift src 1)]
    (∀ r ∈ requests, exists src epsilon,
      r = (Inference.keyScaleShift src epsilon, Inference.createScaleShift src epsilon) ∨
        r = (Inference.keyWithStats src epsilon, Inference.createWithStats src epsilon)) ∧
      (serveAll [] requests).map Prod.fst = requests.mapM Prod.snd := by
  intro src requests
  have keyed : ∀ r ∈ requests, exists src epsilon,
      r = (Inference.keyScaleShift src epsilon, Inference.createScaleShift src epsilon) ∨
        r = (Inference.keyWithStats src epsilon, Inference.createWithStats src epsilon) := by
    intro r mem
    simp only [requests, List.mem_cons, List.mem_singleton, List.not_mem_nil, or_false] at mem
    rcases mem with rfl | rfl | rfl
    exacts [⟨src, 1, .inl rfl⟩, ⟨src, 1, .inr rfl⟩, ⟨src, 1, .inl rfl⟩]
  exact ⟨keyed, inference_cache_transparent requests keyed⟩

/-- The three-argument inference `compute` with epsilon `3.5`: the object is
built with epsilon `2` and both flags, five slots, and the call fails at the
assertion where the weights meet the mean's slot. -/
theorem computeScaleShift_binds_weights_at_mean (src dst : Bound) (weightsBuffer : Nat) :
    (exists comp, Inference.createScaleShift src.desc (7 / 2) = .ok comp ∧ comp.epsilon = 2 ∧
      comp.state.numInputs + comp.state.numOutputs = 5) ∧
      Inference.computeScaleShift [] src dst weightsBuffer (7 / 2) = .error .assertion := by
  have three : toUnsigned (7 / 2) = 3 := toUnsigned_eq (by norm_num) (by norm_num)
  have bits : Nat.testBit 3 0 = true ∧ Nat.testBit 3 1 = true := by decide
  refine ⟨⟨_, Inference.createScaleShift_of_three three src.desc, rfl, ?_⟩,
    Inference.computeScaleShift_of_three (by norm_num) (by norm_num) (coherent_nil _) src dst
      weightsBuffer⟩
  simp [Computation.init, forwardScoring, expectedInputs, bits]

/-! ## Training -/

/-- A `batch_normalization_forward_training` object: the epsilon and flags of
its primitive, its computation, the descriptor of `weights_`, and `sum_`, the
running-statistics sum, by its scales and input descriptors. -/
structure Training where
  epsilon : ℚ
  flags : Nat
  adesc : DescriptorGroup
  state : State
  weights : Descriptor
  sumScales : List ℚ
  sumInputs : List Descriptor

namespace Training

/-- `init(src_desc, scale, shift, momentum, epsilon, flags)`. -/
def init (srcDesc scale shift : Descriptor) (momentum epsilon : ℚ) (flags : Nat) :
    Except Fault Training :=
  if scale.ndims = 1 ∧ shift.ndims = 1 then
    let adesc := forwardTraining srcDesc flags
    (expectedWeightsDescriptor srcDesc flags).map fun weights =>
      ⟨epsilon, flags, adesc, Computation.init adesc [srcDesc], weights, [momentum, 1 - momentum],
        [scale, shift]⟩
  else .error .assertion

/-- The key of both training `compute`s. -/
def key (src : Descriptor) (epsilon : ℚ) : Key :=
  [.dataType src.dataType, .dims src.dims, .format src.format, .float epsilon]

/-- The object both training `compute`s build: `fetch_or_create_m(comp, key,
src_desc, scale_desc, shift_desc, momentum, epsilon)`, with the default flags. -/
def create (src scale shift : Descriptor) (momentum epsilon : ℚ) : Except Fault Training :=
  init src scale shift momentum epsilon useScaleShift

/-- `expected_statistic_descriptor()`: the primitive's second output. -/
def expectedStatistic (adesc : DescriptorGroup) : Descriptor := adesc.expectedOutputs.getD 1 default

/-- `execute(src, scale, shift, dst, mean, variance)`: scale and shift are
copied into `weights_`, and the computation runs on
`(src, weights_, dst, mean, variance)`. -/
def execute (comp : Training) (weightsBuffer : Nat) (src dst mean variance : Bound) :
    Except Fault State :=
  connectHandles comp.state 0 [src, ⟨comp.weights, weightsBuffer⟩, dst, mean, variance]

/-- `compute(src, scale, shift, dst, mean, variance, momentum, epsilon)`, eager:
the object served, its bindings, and the store after the call. -/
def compute (store : Store Training) (src scale shift dst mean variance : Bound)
    (weightsBuffer : Nat) (momentum epsilon : ℚ) : Except Fault (Training × State × Store Training) :=
  fetchOrCreate store (key src.desc epsilon) (create src.desc scale.desc shift.desc momentum epsilon) >>=
    fun (comp, store) =>
      (comp.execute weightsBuffer src { dst with desc := expectedDst comp.adesc }
        { mean with desc := expectedStatistic comp.adesc }
        { variance with desc := expectedStatistic comp.adesc }).map fun state => (comp, state, store)

/-- One element of `running_statistic(mean, variance, running_mean,
running_var)`: `sum_` over the running value and the batch's. -/
def runningStatistic (comp : Training) (running batch : ℚ) : ℚ :=
  sumValue comp.sumScales running batch

/-- The object `init` builds with the default flags. -/
def built (src scale shift : Descriptor) (momentum epsilon : ℚ) : Training :=
  ⟨epsilon, 2, forwardTraining src 2, Computation.init (forwardTraining src 2) [src], weightsDesc src,
    [momentum, 1 - momentum], [scale, shift]⟩

@[simp] theorem built_adesc (src scale shift : Descriptor) (momentum epsilon : ℚ) :
    (built src scale shift momentum epsilon).adesc = forwardTraining src 2 := rfl

theorem create_ok {scale shift : Descriptor} (oneDim : scale.ndims = 1 ∧ shift.ndims = 1)
    (src : Descriptor) (momentum epsilon : ℚ) :
    create src scale shift momentum epsilon = .ok (built src scale shift momentum epsilon) := by
  simp only [create, init, if_pos oneDim]
  rfl

/-- The training object binds its five slots, the destination and the
statistics reinitialized to their expected descriptors, for every source. -/
theorem execute_ok (src scale shift : Descriptor) (momentum epsilon : ℚ) (weightsBuffer : Nat)
    (srcBound dst mean variance : Bound) (bound : srcBound.desc = src) :
    exists state, (built src scale shift momentum epsilon).execute weightsBuffer srcBound
      { dst with desc := expectedDst (forwardTraining src 2) }
      { mean with desc := expectedStatistic (forwardTraining src 2) }
      { variance with desc := expectedStatistic (forwardTraining src 2) } = .ok state := by
  have bits : Nat.testBit 2 0 = false ∧ Nat.testBit 2 1 = true := by decide
  exact connectHandles_init_ok rfl [src]
    (by simp [built, forwardTraining, expectedInputs, expectedDst, expectedStatistic, bits, bound])

end Training

/-- Two training calls on the same source and epsilon, with momentum `0.9`
and then `0.5`, have equal keys: the second is served the object the first
built, whose running statistics move by `0.1` of the batch where the second
call's own arguments give `0.5`. -/
theorem training_reuses_first_momentum (src dst mean variance : Bound)
    (scaleBuffer shiftBuffer weightsBuffer : Nat) (epsilon : ℚ) :
    let scale : Bound := ⟨statisticDesc src.desc, scaleBuffer⟩
    let shift : Bound := ⟨statisticDesc src.desc, shiftBuffer⟩
    exists first bound store, Training.compute [] src scale shift dst mean variance weightsBuffer
        (9 / 10) epsilon = .ok (first, bound, store) ∧
      exists second bound', Training.compute store src scale shift dst mean variance weightsBuffer
          (1 / 2) epsilon = .ok (second, bound', store) ∧
        second = first ∧ Training.runningStatistic second 0 1 = 1 / 10 ∧
        exists own, Training.create src.desc scale.desc shift.desc (1 / 2) epsilon = .ok own ∧
          Training.runningStatistic own 0 1 = 1 / 2 := by
  intro scale shift
  have oneDim : scale.desc.ndims = 1 ∧ shift.desc.ndims = 1 := ⟨rfl, rfl⟩
  obtain ⟨bound, run⟩ := Training.execute_ok src.desc scale.desc shift.desc (9 / 10) epsilon
    weightsBuffer src dst mean variance rfl
  refine ⟨Training.built src.desc scale.desc shift.desc (9 / 10) epsilon, bound,
    [(Training.key src.desc epsilon, Training.built src.desc scale.desc shift.desc (9 / 10) epsilon)],
    ?_, _, bound, ?_, rfl, ?_, _, Training.create_ok oneDim src.desc (1 / 2) epsilon, ?_⟩
  · simp only [Training.compute, fetchOrCreate, List.lookup_cons, List.lookup_nil, Training.create_ok oneDim, Except.map,
      bind, Except.bind, Training.built_adesc, run]
  · simp only [Training.compute, fetchOrCreate, List.lookup_cons, List.lookup_nil, beq_self_eq_true, bind, Except.bind,
      Training.built_adesc, run, Except.map]
  · norm_num [Training.built, Training.runningStatistic, sumValue]
  · norm_num [Training.built, Training.runningStatistic, sumValue]

end BatchNorm
end Ideep
