import Mathlib.Data.List.Basic
import Mathlib.Data.List.Nodup
import Mathlib.Logic.Function.Basic

/-! Byte blocks on a heap, and the NUL-terminated strings kept in them. No address is handed
out twice, so a pointer to a freed block stays stale. -/

structure BlockMemory where
  blocks : Nat → Option (List UInt8)
  next : Nat
  unused : ∀ a, next ≤ a → blocks a = none

namespace BlockMemory

def empty : BlockMemory := ⟨fun _ => none, 0, fun _ _ => rfl⟩

def load (m : BlockMemory) (a : Nat) : Option (List UInt8) := m.blocks a

def alloc (m : BlockMemory) (bytes : List UInt8) : BlockMemory × Nat :=
  (⟨Function.update m.blocks m.next (some bytes), m.next + 1, by
    intro a beyond
    rw [Function.update_of_ne (by omega)]
    exact m.unused a (by omega)⟩, m.next)

/-- Replaces the contents of a live block. -/
def store (m : BlockMemory) (a : Nat) (bytes : List UInt8) : Option BlockMemory :=
  if live : (m.load a).isSome then
    some ⟨Function.update m.blocks a (some bytes), m.next, by
      intro b beyond
      have gone := m.unused b beyond
      rw [Function.update_of_ne, gone]
      rintro rfl
      rw [load, gone] at live
      cases live⟩
  else none

def free (m : BlockMemory) (a : Nat) : Option BlockMemory :=
  if (m.load a).isSome then
    some ⟨Function.update m.blocks a none, m.next, by
      intro b beyond
      by_cases same : b = a
      · rw [same, Function.update_self]
      · rw [Function.update_of_ne same]
        exact m.unused b beyond⟩
  else none

/-- The live blocks are exactly the listed ones, each listed once. -/
structure Owns (m : BlockMemory) (owned : List (Nat × List UInt8)) : Prop where
  distinct : (owned.map Prod.fst).Nodup
  live : ∀ a bytes, m.load a = some bytes ↔ (a, bytes) ∈ owned

variable {m : BlockMemory} {front back : List (Nat × List UInt8)} {a : Nat}
  {bytes : List UInt8}

theorem Owns.load (owns : m.Owns (front ++ (a, bytes) :: back)) : m.load a = some bytes :=
  (owns.live a bytes).mpr (List.mem_append_right _ List.mem_cons_self)

theorem owns_empty : empty.Owns [] := ⟨List.nodup_nil, fun a bytes => by simp [empty, load]⟩

theorem Owns.alloc {owned : List (Nat × List UInt8)} (owns : m.Owns owned)
    (bytes : List UInt8) : (m.alloc bytes).1.Owns (owned ++ [((m.alloc bytes).2, bytes)]) := by
  have absent : m.next ∉ owned.map Prod.fst := by
    intro listed
    obtain ⟨⟨b, old⟩, member, same⟩ := List.mem_map.mp listed
    have held := (owns.live b old).mpr member
    cases same
    rw [BlockMemory.load, m.unused _ (Nat.le_refl _)] at held
    cases held
  constructor
  · rw [List.map_append]
    exact List.nodup_append'.mpr ⟨owns.distinct, List.nodup_singleton _,
      List.disjoint_singleton.mpr absent⟩
  · intro b held
    rw [List.mem_append, ← owns.live, List.mem_singleton]
    by_cases same : b = m.next
    · subst same
      simp [BlockMemory.load, BlockMemory.alloc, m.unused m.next (Nat.le_refl _), eq_comm]
    · simp [BlockMemory.load, BlockMemory.alloc, same]

theorem Owns.other {b : Nat} (owns : m.Owns (front ++ (a, bytes) :: back)) (other : b ≠ a)
    (held : List UInt8) :
    m.load b = some held ↔ (b, held) ∈ front ++ back := by
  rw [owns.live]
  simp [other]

theorem Owns.absent (owns : m.Owns (front ++ (a, bytes) :: back)) (held : List UInt8) :
    (a, held) ∉ front ++ back := by
  have distinct := owns.distinct
  rw [List.map_append, List.map_cons, List.nodup_middle, List.nodup_cons, ← List.map_append]
    at distinct
  exact fun member => distinct.1 (List.mem_map.mpr ⟨(a, held), member, rfl⟩)

theorem Owns.store (owns : m.Owns (front ++ (a, bytes) :: back)) (new : List UInt8) :
    ∃ m', m.store a new = some m' ∧ m'.Owns (front ++ (a, new) :: back) := by
  have held := owns.load
  refine ⟨_, dif_pos (by rw [held]; rfl), ?_, ?_⟩
  · simpa using owns.distinct
  · intro b other
    by_cases same : b = a
    · subst same
      have absent := owns.absent other
      simp only [List.mem_append, not_or] at absent
      simp [BlockMemory.load, absent, eq_comm]
    · have elsewhere := owns.other same other
      simp only [BlockMemory.load] at elsewhere
      simp [BlockMemory.load, same, elsewhere]

theorem Owns.free (owns : m.Owns (front ++ (a, bytes) :: back)) :
    ∃ m', m.free a = some m' ∧ m'.Owns (front ++ back) := by
  have held := owns.load
  refine ⟨_, if_pos (by rw [held]; rfl), ?_, ?_⟩
  · have distinct := owns.distinct
    rw [List.map_append, List.map_cons, List.nodup_middle, ← List.map_append] at distinct
    exact distinct.of_cons
  · intro b other
    by_cases same : b = a
    · subst same
      simpa [BlockMemory.load] using owns.absent other
    · have elsewhere := owns.other same other
      simp only [BlockMemory.load] at elsewhere
      rw [← elsewhere]
      simp [BlockMemory.load, same]

end BlockMemory

/-- A string without NUL bytes. -/
structure CString where
  bytes : List UInt8
  nulFree : 0 ∉ bytes
  deriving DecidableEq

namespace CString

/-- The string as it stands in memory. -/
def terminated (s : CString) : List UInt8 := s.bytes ++ [0]

/-- The bytes before the first NUL; `none` when the block ends first. -/
def upToNul : List UInt8 → Option (List UInt8)
  | [] => none
  | b :: bs => if b = 0 then some [] else (upToNul bs).map (b :: ·)

/-- `strcmp` on the bytes from two addresses on; `none` when it runs past a block. -/
def strcmp : List UInt8 → List UInt8 → Option Int
  | a :: as, b :: bs =>
      if a ≠ b then some (a.toNat - b.toNat)
      else if a = 0 then some 0
      else strcmp as bs
  | _, _ => none

theorem upToNul_terminated (s : CString) : upToNul s.terminated = some s.bytes := by
  obtain ⟨bytes, nulFree⟩ := s
  induction bytes with
  | nil => rfl
  | cons b bs ih =>
      rw [List.mem_cons, not_or] at nulFree
      change (if b = 0 then some [] else (upToNul (bs ++ [0])).map (b :: ·)) = _
      rw [if_neg (Ne.symm nulFree.1), show upToNul (bs ++ [0]) = some bs from ih nulFree.2]
      rfl

theorem strcmp_terminated (s t : CString) :
    ∃ c, strcmp s.terminated t.terminated = some c ∧ (c = 0 ↔ s = t) := by
  obtain ⟨bytes, nulFree⟩ := s
  obtain ⟨others, nulFree'⟩ := t
  simp only [CString.mk.injEq, terminated]
  induction bytes generalizing others with
  | nil =>
      cases others with
      | nil => exact ⟨0, rfl, by simp⟩
      | cons b bs =>
          rw [List.mem_cons, not_or] at nulFree'
          refine ⟨_, if_pos nulFree'.1, ?_⟩
          have positive : b.toNat ≠ 0 :=
            fun zero => nulFree'.1 (UInt8.toNat.inj (zero.symm ▸ rfl))
          simp [positive]
  | cons a as ih =>
      rw [List.mem_cons, not_or] at nulFree
      cases others with
      | nil =>
          refine ⟨_, if_pos (Ne.symm nulFree.1), ?_⟩
          have positive : a.toNat ≠ 0 :=
            fun zero => nulFree.1 (UInt8.toNat.inj (zero.symm ▸ rfl))
          simp [positive]
      | cons b bs =>
          rw [List.mem_cons, not_or] at nulFree'
          by_cases same : a = b
          · subst same
            obtain ⟨c, compared, zero⟩ := ih nulFree.2 bs nulFree'.2
            refine ⟨c, ?_, by simpa using zero⟩
            change (if a ≠ a then _ else if a = 0 then _ else strcmp (as ++ [0]) (bs ++ [0])) = _
            rw [if_neg (by simp), if_neg (Ne.symm nulFree.1), compared]
          · refine ⟨_, if_pos same, ?_⟩
            have differ : a.toNat ≠ b.toNat := fun equal => same (UInt8.toNat.inj equal)
            simp only [List.cons.injEq, same, false_and, iff_false]
            omega

end CString
