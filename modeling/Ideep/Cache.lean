import Ideep.Descriptor
import Mathlib.Data.Rat.Defs

namespace Ideep
namespace Cache

/-!
# The computation cache

Every operator class of this source keeps a `computation_cache` of built
objects, and each `compute` entry point reaches its object through
`fetch_or_create_m(comp, key, args...)`: `key` is `utils::create_key` over some
of the call's arguments, and `args` go to the object's constructor.  The cache
is in `utils`, not in this source, and is modelled from its contract: the
object cached under an equal key is returned, otherwise one is built from
`args` and kept; a failed construction is not kept.  Eviction is not modelled,
which is the cache's behaviour on every run shorter than its capacity.

`utils::create_key` serializes its arguments one after another; a key is kept
here as the list of those arguments, so that two keys are equal exactly when
the argument tuples are equal argument by argument.

Where an entry point's constructor arguments are a function of its key, the
cache is invisible: a run of requests returns what building each object afresh
returns (`serveAll_transparent`).  Where they are not, a later request is
served an object built from an earlier request's arguments.
-/

/-- One argument of `utils::create_key`. -/
inductive KeyItem where
  | dataType (t : DataType)
  | dims (d : List Nat)
  | format (f : Format)
  | int (i : Int)
  | float (x : ℚ)
  deriving DecidableEq, Repr

/-- `utils::create_key(args...)`. -/
abbrev Key := List KeyItem

/-- A computation cache: keys and the objects built for them. -/
abbrev Store (α : Type) := List (Key × α)

variable {ε α : Type}

/-- `fetch_or_create_m(op, key, args...)`, with `build` the constructor run on
`args`. -/
def fetchOrCreate (store : Store α) (key : Key) (build : Except ε α) : Except ε (α × Store α) :=
  match store.lookup key with
  | some op => .ok (op, store)
  | none => build.map fun op => (op, (key, op) :: store)

/-- A run of requests, each a key and the construction of its arguments. -/
def serveAll : Store α -> List (Key × Except ε α) -> Except ε (List α × Store α)
  | store, [] => .ok ([], store)
  | store, (key, build) :: rest =>
      fetchOrCreate store key build >>= fun (op, store) =>
        (serveAll store rest).map fun (ops, store) => (op :: ops, store)

theorem fetchOrCreate_hit {store : Store α} {key : Key} {op : α} (found : store.lookup key = some op)
    (build : Except ε α) : fetchOrCreate store key build = .ok (op, store) := by
  simp [fetchOrCreate, found]

theorem fetchOrCreate_miss {store : Store α} {key : Key} (missing : store.lookup key = none)
    (build : Except ε α) :
    fetchOrCreate store key build = build.map fun op => (op, (key, op) :: store) := by
  simp [fetchOrCreate, missing]

/-! ## Entry points whose key determines their construction -/

section Coherent

variable (construct : Key -> Except ε α)

/-- Every entry of the store is what `construct` builds for its key. -/
def Coherent (store : Store α) : Prop :=
  forall key op, store.lookup key = some op -> construct key = .ok op

theorem coherent_nil : Coherent construct ([] : Store α) := fun _ _ found => by
  simp at found

/-- One request through a coherent store returns what a fresh construction
returns, and the store stays coherent. -/
theorem fetchOrCreate_coherent {store : Store α} (coherent : Coherent construct store) (key : Key) :
    (fetchOrCreate store key (construct key)).map Prod.fst = construct key ∧
      forall op store', fetchOrCreate store key (construct key) = .ok (op, store') ->
        Coherent construct store' := by
  cases found : store.lookup key with
  | some op =>
      rw [fetchOrCreate_hit found]
      refine ⟨(coherent key op found).symm, fun _ _ served => ?_⟩
      cases served
      exact coherent
  | none =>
      rw [fetchOrCreate_miss found]
      refine ⟨by cases construct key <;> rfl, fun op store' built => ?_⟩
      cases fresh : construct key with
      | error e => simp [fresh, Except.map] at built
      | ok op' =>
          simp only [fresh, Except.map, Except.ok.injEq, Prod.mk.injEq] at built
          obtain ⟨rfl, rfl⟩ := built
          intro key' op'' found'
          by_cases same : key' = key
          · subst same
            simp only [List.lookup_cons_self, Option.some.injEq] at found'
            rw [fresh, found']
          · simp only [List.lookup_cons, beq_false_of_ne same] at found'
            exact coherent key' op'' found'

theorem fetchOrCreate_of_coherent {store : Store α} (coherent : Coherent construct store)
    {key : Key} {op : α} (built : construct key = .ok op) :
    exists store', fetchOrCreate store key (construct key) = .ok (op, store') ∧
      Coherent construct store' := by
  obtain ⟨fetched, keeps⟩ := fetchOrCreate_coherent construct coherent key
  cases served : fetchOrCreate store key (construct key) with
  | error e =>
      rw [served, built] at fetched
      simp [Except.map] at fetched
  | ok result =>
      obtain ⟨op', store'⟩ := result
      rw [served, built] at fetched
      simp only [Except.map, Except.ok.injEq] at fetched
      subst fetched
      exact ⟨store', rfl, keeps _ _ served⟩

/-- Through a coherent store, a run of requests each of which builds what
`construct` builds for its key returns exactly the objects a fresh
construction of each request gives. -/
theorem serveAll_transparent {store : Store α} (coherent : Coherent construct store)
    (requests : List (Key × Except ε α)) (keyed : ∀ r ∈ requests, r.2 = construct r.1) :
    (serveAll store requests).map Prod.fst = requests.mapM Prod.snd := by
  induction requests generalizing store with
  | nil => rfl
  | cons request rest ih =>
      obtain ⟨key, build⟩ := request
      obtain rfl : build = construct key := keyed _ (List.mem_cons_self _ _)
      obtain ⟨fetched, keeps⟩ := fetchOrCreate_coherent construct coherent key
      simp only [serveAll, List.mapM_cons]
      cases served : fetchOrCreate store key (construct key) with
      | error e =>
          rw [served] at fetched
          rw [← fetched]
          rfl
      | ok result =>
          obtain ⟨op, store'⟩ := result
          rw [served] at fetched
          rw [← fetched, ← ih (keeps op store' served) fun r mem => keyed r (List.mem_cons_of_mem _ mem)]
          simp only [bind, Except.bind, Except.map]
          cases serveAll store' rest <;> rfl

end Coherent

end Cache
end Ideep
