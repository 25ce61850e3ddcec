import Mathlib.Data.List.Basic
import Mathlib.Logic.Basic

/-! A pool of fixed capacity that hands its elements out in index order and never
takes one back. The bound is a field, so no pool holds more than it may. -/

structure FixedPool (α : Type*) where
  cap : Nat
  elts : List α
  bounded : elts.length ≤ cap

namespace FixedPool

variable {α β : Type*}

def empty (cap : Nat) : FixedPool α := ⟨cap, [], Nat.zero_le cap⟩

def get? (p : FixedPool α) (i : Nat) : Option α := p.elts[i]?

def size (p : FixedPool α) : Nat := p.elts.length

/-- The next free element becomes `make` of its own index; `none` when none is free. -/
def alloc (p : FixedPool α) (make : Nat → α) : Option (FixedPool α × Nat) :=
  if h : p.elts.length < p.cap then
    some (⟨p.cap, p.elts ++ [make p.elts.length], by rw [List.length_append]; exact h⟩,
      p.elts.length)
  else none

def modify (p : FixedPool α) (i : Nat) (f : α → α) : FixedPool α :=
  ⟨p.cap, p.elts.modify i f, by simpa using p.bounded⟩

@[simp] theorem size_modify (p : FixedPool α) (i : Nat) (f : α → α) :
    (p.modify i f).size = p.size := by simp [size, modify]

theorem size_le_cap (p : FixedPool α) : p.size ≤ p.cap := p.bounded

theorem get?_isSome_iff {p : FixedPool α} {i : Nat} : (∃ x, p.get? i = some x) ↔ i < p.size := by
  simp only [get?, size, List.getElem?_eq_some_iff]
  exact ⟨fun ⟨_, h, _⟩ => h, fun h => ⟨_, h, rfl⟩⟩

theorem lt_size_of_get? {p : FixedPool α} {i : Nat} {x : α} (h : p.get? i = some x) : i < p.size :=
  get?_isSome_iff.mp ⟨x, h⟩

theorem ext_get? {p q : FixedPool α} (cap : p.cap = q.cap) (elts : ∀ i, p.get? i = q.get? i) :
    p = q := by
  have lists : p.elts = q.elts := List.ext_getElem? elts
  cases p
  cases q
  cases cap
  cases lists
  rfl

theorem get?_modify (p : FixedPool α) (i j : Nat) (f : α → α) :
    (p.modify i f).get? j = if i = j then (p.get? j).map f else p.get? j := by
  simp only [get?, modify, List.getElem?_modify]
  split <;> simp

/-- Where one element was replaced, an element is the new one or was there before. -/
theorem found_replaced {old new : Nat → Option α} {index i : Nat} {x y : α}
    (replaced : ∀ j, new j = if j = index then some y else old j) (found : new i = some x) :
    (i = index ∧ x = y) ∨ (i ≠ index ∧ old i = some x) := by
  rw [replaced] at found
  by_cases here : i = index
  · rw [if_pos here] at found
    cases found
    exact .inl ⟨here, rfl⟩
  · rw [if_neg here] at found
    exact .inr ⟨here, found⟩

theorem alloc_eq_some {p q : FixedPool α} {make : Nat → α} {i : Nat} :
    p.alloc make = some (q, i) ↔
      i = p.size ∧ p.size < p.cap ∧ q.cap = p.cap ∧ q.elts = p.elts ++ [make p.size] := by
  unfold alloc size
  split
  · rename_i room
    simp only [Option.some.injEq, Prod.mk.injEq, room, true_and]
    constructor
    · rintro ⟨rfl, rfl⟩
      exact ⟨rfl, rfl, rfl⟩
    · rintro ⟨rfl, sameCap, sameElts⟩
      refine ⟨?_, rfl⟩
      cases q
      simp only at sameCap sameElts
      simp only [FixedPool.mk.injEq]
      exact ⟨sameCap.symm, sameElts.symm⟩
  · rename_i full
    simp [full]

theorem alloc_eq_none {p : FixedPool α} {make : Nat → α} : p.alloc make = none ↔ p.cap ≤ p.size := by
  unfold alloc size
  split <;> simp <;> omega

/-- What an allocation adds: one element at the old size, nothing else. -/
theorem get?_of_alloc {p q : FixedPool α} {make : Nat → α} {i : Nat}
    (h : p.alloc make = some (q, i)) (j : Nat) :
    q.get? j = if j = p.size then some (make p.size) else p.get? j := by
  obtain ⟨_, _, _, elts⟩ := alloc_eq_some.mp h
  have length : p.elts.length = p.size := rfl
  rw [get?, get?, elts, List.getElem?_append]
  by_cases last : j = p.size
  · simp [last, length]
  · rw [if_neg last, length]
    split
    · rfl
    · rw [List.getElem?_eq_none (by simp; omega), List.getElem?_eq_none (by omega)]

theorem size_of_alloc {p q : FixedPool α} {make : Nat → α} {i : Nat}
    (h : p.alloc make = some (q, i)) : q.size = p.size + 1 := by
  obtain ⟨_, _, _, elts⟩ := alloc_eq_some.mp h
  simp [size, elts]

theorem modify_last (l : List α) (x : α) (f : α → α) :
    (l ++ [x]).modify l.length f = l ++ [f x] := by
  induction l with
  | nil => rfl
  | cons y l ih => rw [List.cons_append, List.length_cons, List.modify_succ_cons, ih]; rfl

/-- An element may as well be set up after its allocation. -/
theorem alloc_then_modify (p : FixedPool α) (make other : Nat → α) :
    p.alloc make = (p.alloc other).map fun (q, i) => (q.modify i fun _ => make i, i) := by
  unfold alloc
  split
  · simp only [Option.map_some, modify, modify_last]
  · rfl

end FixedPool
