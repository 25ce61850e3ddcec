import Mathlib.Data.List.AList
import Mathlib.Logic.Function.Basic

/-! Hash tables reached through handles. A table that fills up is moved: its old
handle is freed and only the handle returned to the caller stays live. -/
namespace HashHeap

variable {κ ν : Type*} [DecidableEq κ]

/-- One table: the slots allocated for it and its pairs, at most one for a key. -/
structure Table (κ ν : Type*) where
  capacity : Nat
  pairs : AList (fun _ : κ => ν)

def Table.elements (t : Table κ ν) : Nat := t.pairs.entries.length

def Table.store (t : Table κ ν) (k : κ) (v : ν) : Table κ ν :=
  { t with pairs := t.pairs.insert k v }

/-- The load test made after a pair is stored. -/
def Table.crowded (t : Table κ ν) : Prop := 3 * t.capacity < 4 * (t.elements + 1)

instance (t : Table κ ν) : Decidable t.crowded := inferInstanceAs (Decidable (_ < _))

theorem Table.lookup_store (t : Table κ ν) (k : κ) (v : ν) :
    (fun j => (t.store k v).pairs.lookup j) =
      Function.update (fun j => t.pairs.lookup j) k (some v) := by
  funext j
  by_cases same : j = k
  · subst j
    rw [Function.update_self]
    exact AList.lookup_insert t.pairs
  · rw [Function.update_of_ne same]
    exact AList.lookup_insert_ne same

theorem Table.elements_store_fresh {t : Table κ ν} {k : κ} (v : ν)
    (fresh : t.pairs.lookup k = none) : (t.store k v).elements = t.elements + 1 := by
  have absent : k ∉ t.pairs := AList.lookup_eq_none.mp fresh
  simp only [Table.elements, Table.store, AList.entries_insert_of_notMem absent,
    List.length_cons]

theorem Table.elements_store_bound {t : Table κ ν} {k : κ} {u : ν} (v : ν)
    (bound : t.pairs.lookup k = some u) : (t.store k v).elements = t.elements := by
  have present : k ∈ t.pairs := AList.lookup_isSome.mp (by rw [bound]; rfl)
  have keys : (t.pairs.insert k v).keys.length = t.pairs.keys.length := by
    have nonempty := List.length_pos_of_mem (AList.mem_keys.mp present)
    rw [AList.keys_insert, List.length_cons, List.length_erase_of_mem (AList.mem_keys.mp present)]
    omega
  simpa only [Table.elements, Table.store, AList.keys, List.keys, List.length_map] using keys

/-- `tables` is indexed by handle, a freed table reads `none`. `stored` is kept for
the statements only: every pair handed to `set3`, oldest first. -/
structure Heap (κ ν : Type*) where
  tables : List (Option (Table κ ν))
  stored : List (κ × ν)

def Heap.live (m : Heap κ ν) (h : Nat) : Option (Table κ ν) := m.tables[h]?.join

/-- What a map would hold after the same stores. -/
def bindings (l : List (κ × ν)) : κ → Option ν :=
  l.foldl (fun m p => Function.update m p.1 (some p.2)) (fun _ => none)

theorem bindings_snoc (l : List (κ × ν)) (k : κ) (v : ν) :
    bindings (l ++ [(k, v)]) = Function.update (bindings l) k (some v) := by
  simp [bindings]

/-- The operations a caller has on a table it holds a handle of; `none` is a use of
a handle that is not live. -/
structure Ops (Mem Tbl κ ν : Type*) where
  create : Mem × Tbl
  get : Mem → Tbl → κ → Option (Option ν)
  set3 : Mem → Tbl → κ → ν → Option (Mem × Tbl)

def create : Heap κ ν × Nat := ({ tables := [some { capacity := 64, pairs := ∅ }], stored := [] }, 0)

def get (m : Heap κ ν) (h : Nat) (k : κ) : Option (Option ν) :=
  match m.live h with
  | none => none
  | some t => some (t.pairs.lookup k)

/-- A larger table with the same pairs; the old handle is freed. -/
def Heap.move (m : Heap κ ν) (h : Nat) (t : Table κ ν) : List (Option (Table κ ν)) :=
  m.tables.set h none ++ [some { t with capacity := 2 * t.capacity }]

/-- The returned handle is the argument's unless the pair crowds the table. -/
def set3 (m : Heap κ ν) (h : Nat) (k : κ) (v : ν) : Option (Heap κ ν × Nat) :=
  match m.live h with
  | none => none
  | some t =>
      if (t.store k v).crowded then
        some (⟨m.move h (t.store k v), m.stored ++ [(k, v)]⟩, m.tables.length)
      else some (⟨m.tables.set h (some (t.store k v)), m.stored ++ [(k, v)]⟩, h)

def growing (κ ν : Type*) [DecidableEq κ] : Ops (Heap κ ν) Nat κ ν := ⟨create, get, set3⟩

/-- The same operations on a map that is its own handle. -/
def asMap (κ ν : Type*) [DecidableEq κ] : Ops (κ → Option ν) Unit κ ν where
  create := (fun _ => none, ())
  get m _ k := some (m k)
  set3 m _ k v := some (fun j => if j = k then some v else m j, ())

@[simp] theorem asMap_set3 (m : κ → Option ν) (u : Unit) (k : κ) (v : ν) :
    (asMap κ ν).set3 m u k v = some (Function.update m k (some v), ()) := by
  simp only [asMap, Option.some.injEq, Prod.mk.injEq, and_true]
  funext j
  exact (Function.update_apply m k (some v) j).symm

omit [DecidableEq κ] in
theorem live_lt {m : Heap κ ν} {h : Nat} {t : Table κ ν} (alive : m.live h = some t) :
    h < m.tables.length := by
  by_contra out
  simp [Heap.live, List.getElem?_eq_none (Nat.le_of_not_lt out)] at alive

/-- A store that leaves room keeps the handle and behaves as the map does. -/
theorem set3_roomy {m : Heap κ ν} {h : Nat} {t : Table κ ν} {k : κ} {v : ν}
    (alive : m.live h = some t) (roomy : ¬ (t.store k v).crowded) :
    ∃ m', set3 m h k v = some (m', h) ∧ m'.live h = some (t.store k v) ∧
      m'.stored = m.stored ++ [(k, v)] := by
  refine ⟨⟨m.tables.set h (some (t.store k v)), m.stored ++ [(k, v)]⟩, ?_, ?_, rfl⟩
  · simp only [set3, alive, if_neg roomy]
  · simp [Heap.live, live_lt alive]

/-- A store that crowds the table frees the handle it was given. -/
theorem set3_crowded {m : Heap κ ν} {h : Nat} {t : Table κ ν} {k : κ} {v : ν}
    (alive : m.live h = some t) (crowded : (t.store k v).crowded) :
    ∃ m' h', set3 m h k v = some (m', h') ∧ m'.live h = none ∧
      m'.live h' = some { t.store k v with capacity := 2 * (t.store k v).capacity } ∧
      m'.stored = m.stored ++ [(k, v)] := by
  refine ⟨⟨m.move h (t.store k v), m.stored ++ [(k, v)]⟩, m.tables.length, ?_, ?_, ?_, rfl⟩
  · simp only [set3, alive, if_pos crowded]
  · simp [Heap.live, Heap.move, List.getElem?_append, live_lt alive]
  · simp [Heap.live, Heap.move]

theorem get_live {m : Heap κ ν} {h : Nat} {t : Table κ ν} (alive : m.live h = some t) (k : κ) :
    get m h k = some (t.pairs.lookup k) := by simp only [get, alive]

theorem live_of_get {m : Heap κ ν} {h : Nat} {k : κ} {r : Option ν} (looked : get m h k = some r) :
    ∃ t, m.live h = some t ∧ t.pairs.lookup k = r := by
  unfold get at looked
  split at looked
  · cases looked
  · rename_i t alive
    exact ⟨t, alive, Option.some.inj looked⟩

/-- As long as the handle stays live, a store through it is a store in the map. -/
theorem lookup_of_set3 {m m' : Heap κ ν} {h h' : Nat} {k : κ} {v : ν} {f : κ → Option ν}
    (same : ∀ t, m.live h = some t → ∀ j, t.pairs.lookup j = f j)
    (stored : set3 m h k v = some (m', h')) {t : Table κ ν} (alive : m'.live h = some t) (j : κ) :
    t.pairs.lookup j = Function.update f k (some v) j := by
  cases before : m.live h with
  | none => simp only [set3, before, reduceCtorEq] at stored
  | some u =>
      by_cases crowded : (u.store k v).crowded
      · obtain ⟨n, _, result, freed, _⟩ := set3_crowded before crowded
        cases result.symm.trans stored
        cases freed.symm.trans alive
      · obtain ⟨n, result, kept, _⟩ := set3_roomy before crowded
        cases result.symm.trans stored
        cases kept.symm.trans alive
        rw [congrFun (Table.lookup_store u k v) j]
        by_cases here : j = k
        · rw [here, Function.update_self, Function.update_self]
        · rw [Function.update_of_ne here, Function.update_of_ne here]
          exact same u before j

end HashHeap
