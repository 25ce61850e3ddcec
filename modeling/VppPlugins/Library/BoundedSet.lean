import Mathlib.Data.List.Nodup
import Mathlib.Data.List.Basic

/-! A set of bounded size that lists its elements in the order of their insertion, and what
a sequence of successful operations says it holds. -/

structure BoundedSet (α : Type*) (cap : Nat) where
  elems : List α
  nodup : elems.Nodup
  bounded : elems.length ≤ cap

namespace BoundedSet

inductive Op (α : Type*) where
  | add (a : α)
  | remove (a : α)

variable {α : Type*} {cap : Nat}

def Op.subject : Op α → α
  | .add a => a
  | .remove a => a

def empty : BoundedSet α cap := ⟨[], List.nodup_nil, Nat.zero_le cap⟩

variable [DecidableEq α]

def add (s : BoundedSet α cap) (a : α) : Option (BoundedSet α cap) :=
  if h : s.elems.length < cap ∧ a ∉ s.elems then
    some ⟨s.elems ++ [a], List.nodup_append'.mpr ⟨s.nodup, List.nodup_singleton a,
      List.disjoint_singleton.mpr h.2⟩, by rw [List.length_append]; exact h.1⟩
  else none

def remove (s : BoundedSet α cap) (a : α) : Option (BoundedSet α cap) :=
  if a ∈ s.elems then
    some ⟨s.elems.erase a, s.nodup.erase a,
      Nat.le_trans (List.length_erase_le ..) s.bounded⟩
  else none

/-- An operation that fails has no result. -/
def apply (s : BoundedSet α cap) : Op α → Option (BoundedSet α cap)
  | .add a => s.add a
  | .remove a => s.remove a

/-- The elements added and not removed since, each at its last addition. -/
def standing : List (Op α) → List α
  | [] => []
  | .add a :: later =>
      if ∃ op ∈ later, op.subject = a then standing later else a :: standing later
  | .remove _ :: later => standing later

theorem standing_snoc (ops : List (Op α)) (op : Op α) :
    standing (ops ++ [op]) = (standing ops).filter (· ≠ op.subject) ++ standing [op] := by
  induction ops with
  | nil => rfl
  | cons first later ih =>
      cases first with
      | remove a => exact ih
      | add a =>
          rw [List.cons_append, standing, standing, ih]
          by_cases again : ∃ op ∈ later, op.subject = a
          · obtain ⟨o, member, same⟩ := again
            rw [if_pos ⟨o, List.mem_append_left _ member, same⟩, if_pos ⟨o, member, same⟩]
          · rw [if_neg again]
            by_cases last : op.subject = a
            · rw [if_pos ⟨op, by simp, last⟩, List.filter_cons_of_neg (by simp [last])]
            · have never : ¬ ∃ o ∈ later ++ [op], o.subject = a := by
                rintro ⟨o, member, same⟩
                rcases List.mem_append.mp member with earlier | final
                · exact again ⟨o, earlier, same⟩
                · rw [List.mem_singleton.mp final] at same
                  exact last same
              rw [if_neg never, List.filter_cons_of_pos (by simpa using Ne.symm last)]
              rfl

theorem standing_add {ops : List (Op α)} {a : α} (absent : a ∉ standing ops) :
    standing (ops ++ [.add a]) = standing ops ++ [a] := by
  have kept : (standing ops).filter (· ≠ a) = standing ops := by
    apply List.filter_eq_self.mpr
    intro b member
    have other : b ≠ a := fun same => absent (same ▸ member)
    simpa using other
  rw [standing_snoc, Op.subject, kept]
  rfl

theorem standing_remove {ops : List (Op α)} (nodup : (standing ops).Nodup) (a : α) :
    standing (ops ++ [.remove a]) = (standing ops).erase a := by
  rw [standing_snoc, Op.subject, nodup.erase_eq_filter, standing, standing, List.append_nil]
  congr 1
  funext b
  simp only [bne, ne_eq, decide_not, beq_eq_decide]

theorem add_eq_some {s t : BoundedSet α cap} {a : α} :
    s.add a = some t ↔ (s.elems.length < cap ∧ a ∉ s.elems) ∧ t.elems = s.elems ++ [a] := by
  unfold add
  split
  · rename_i room
    simp only [Option.some.injEq, room, not_false_eq_true, and_self, true_and]
    constructor
    · rintro rfl
      rfl
    · intro same
      cases t
      cases same
      rfl
  · rename_i refused
    simp [refused]

theorem remove_eq_some {s t : BoundedSet α cap} {a : α} :
    s.remove a = some t ↔ a ∈ s.elems ∧ t.elems = s.elems.erase a := by
  unfold remove
  split
  · rename_i member
    simp only [Option.some.injEq, member, true_and]
    constructor
    · rintro rfl
      rfl
    · intro same
      cases t
      cases same
      rfl
  · rename_i absent
    simp [absent]

theorem add_eq_none {s : BoundedSet α cap} {a : α} :
    s.add a = none ↔ ¬ (s.elems.length < cap ∧ a ∉ s.elems) := by
  unfold add
  split <;> simp_all

theorem remove_eq_none {s : BoundedSet α cap} {a : α} : s.remove a = none ↔ a ∉ s.elems := by
  unfold remove
  split <;> simp_all

/-- A set that holds what stands keeps doing so. -/
theorem apply_standing {s t : BoundedSet α cap} {ops : List (Op α)} {op : Op α}
    (holds : s.elems = standing ops) (done : s.apply op = some t) :
    t.elems = standing (ops ++ [op]) := by
  cases op with
  | add a =>
      obtain ⟨⟨_, absent⟩, result⟩ := add_eq_some.mp done
      rw [result, standing_add (holds ▸ absent), holds]
  | remove a =>
      obtain ⟨_, result⟩ := remove_eq_some.mp done
      rw [result, standing_remove (holds ▸ s.nodup), holds]

end BoundedSet
