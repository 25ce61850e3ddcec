import VppPlugins.Library.Bytes
import Mathlib.Data.Fin.Tuple.Basic

/-! Programs that read single bytes at offsets they compute. The same program runs on
unbounded data and on a packet whose end it may run past. -/

inductive ByteReader (α : Type) where
  | done (a : α)
  | read (off : Int) (next : UInt8 → ByteReader α)

namespace ByteReader

variable {ε α β : Type} {data : Int → UInt8} {length : Nat}

protected def bind : ByteReader α → (α → ByteReader β) → ByteReader β
  | done a, f => f a
  | read off next, f => read off fun b => (next b).bind f

instance : Monad ByteReader where
  pure := done
  bind := ByteReader.bind

/-- The result when every byte is there. -/
def run (data : Int → UInt8) : ByteReader α → α
  | done a => a
  | read off next => (next (data off)).run data

/-- The result when only the first `length` bytes are there. -/
def checked (data : Int → UInt8) (length : Nat) : ByteReader α → Option α
  | done a => some a
  | read off next =>
      if 0 ≤ off ∧ off < length then (next (data off)).checked data length else none

/-- Every byte read is one of the first `length`. -/
def Inside (data : Int → UInt8) (length : Nat) : ByteReader α → Prop
  | done _ => True
  | read off next => (0 ≤ off ∧ off < length) ∧ (next (data off)).Inside data length

theorem checked_eq (r : ByteReader α) (inside : r.Inside data length) :
    r.checked data length = some (r.run data) := by
  induction r with
  | done a => rfl
  | read off next ih => rw [checked, if_pos inside.1, ih _ inside.2, run]

theorem inside_of_checked {r : ByteReader α} {a : α} (result : r.checked data length = some a) :
    r.Inside data length := by
  induction r with
  | done a => trivial
  | read off next ih =>
      rw [checked] at result
      split at result
      · rename_i within
        exact ⟨within, ih _ result⟩
      · cases result

@[simp] theorem run_pure (a : α) : (pure a : ByteReader α).run data = a := rfl

@[simp] theorem inside_pure (a : α) : (pure a : ByteReader α).Inside data length := trivial

@[simp] theorem run_bind (r : ByteReader α) (f : α → ByteReader β) :
    (r >>= f).run data = (f (r.run data)).run data := by
  induction r with
  | done a => rfl
  | read off next ih => exact ih _

@[simp] theorem inside_bind (r : ByteReader α) (f : α → ByteReader β) :
    (r >>= f).Inside data length ↔
      r.Inside data length ∧ (f (r.run data)).Inside data length := by
  induction r with
  | done a => exact (true_and _).symm ▸ Iff.rfl
  | read off next ih =>
      change _ ∧ ((next (data off)) >>= f).Inside data length ↔ _
      rw [ih, ← and_assoc]
      rfl

theorem run_ite {c : Prop} [Decidable c] (r q : ByteReader α) :
    (if c then r else q).run data = if c then r.run data else q.run data := apply_ite (run data) c r q

theorem inside_ite {c : Prop} [Decidable c] (r q : ByteReader α) :
    (if c then r else q).Inside data length ↔
      if c then r.Inside data length else q.Inside data length := by
  split <;> rfl

/-! Fields of several bytes. -/

def byte (off : Int) : ByteReader UInt8 := read off done

def net16 (off : Int) : ByteReader UInt16 := do
  let h ← byte off
  let l ← byte (off + 1)
  pure (Bytes.net16 h l)

def net32 (off : Int) : ByteReader UInt32 := do
  let a ← byte off
  let b ← byte (off + 1)
  let c ← byte (off + 2)
  let d ← byte (off + 3)
  pure (Bytes.net32 a b c d)

def vector (off : Int) : (n : Nat) → ByteReader (Fin n → UInt8)
  | 0 => pure Fin.elim0
  | n + 1 => do
      let front ← vector off n
      let last ← byte (off + n)
      pure (Fin.snoc front last)

@[simp] theorem run_byte (off : Int) : (byte off).run data = data off := rfl

@[simp] theorem inside_byte (off : Int) :
    (byte off).Inside data length ↔ 0 ≤ off ∧ off < length := by
  simp [byte, Inside]

@[simp] theorem run_net16 (off : Int) :
    (net16 off).run data = Bytes.net16 (data off) (data (off + 1)) := by
  simp [net16]

@[simp] theorem inside_net16 (off : Int) :
    (net16 off).Inside data length ↔ 0 ≤ off ∧ off + 2 ≤ length := by
  simp [net16]
  omega

@[simp] theorem run_net32 (off : Int) :
    (net32 off).run data =
      Bytes.net32 (data off) (data (off + 1)) (data (off + 2)) (data (off + 3)) := by
  simp [net32]

@[simp] theorem inside_net32 (off : Int) :
    (net32 off).Inside data length ↔ 0 ≤ off ∧ off + 4 ≤ length := by
  simp [net32]
  omega

@[simp] theorem run_vector (off : Int) (n : Nat) :
    (vector off n).run data = fun i => data (off + i.val) := by
  induction n with
  | zero => funext i; exact i.elim0
  | succ n ih =>
      funext i
      simp only [vector, run_bind, run_byte, run_pure, ih]
      refine Fin.lastCases ?_ (fun j => ?_) i
      · rw [Fin.snoc_last, Fin.val_last]
      · rw [Fin.snoc_castSucc, Fin.val_castSucc]

@[simp] theorem inside_vector (off : Int) (n : Nat) :
    (vector off n).Inside data length ↔ n = 0 ∨ 0 ≤ off ∧ off + n ≤ length := by
  induction n with
  | zero => simp [vector]
  | succ n ih =>
      simp only [vector, inside_bind, ih, inside_byte, inside_pure, and_true,
        Nat.add_eq_zero_iff, one_ne_zero, and_false, false_or]
      omega

/-- `room` is enough for a program that may stop early, and one that completes does not do
with less. -/
structure Needs (data : Int → UInt8) (length : Nat) (r : ByteReader (Except ε α)) (room : Prop) :
    Prop where
  enough : room → r.Inside data length
  needed : ∀ a, r.run data = .ok a → r.Inside data length → room

theorem needs_error {e : ε} {room : Prop} :
    Needs data length (pure (.error e) : ByteReader (Except ε α)) room :=
  ⟨fun _ => trivial, fun _ completed => by cases completed⟩

theorem needs_of_iff {r : ByteReader (Except ε α)} {room : Prop}
    (reads : r.Inside data length ↔ room) : Needs data length r room :=
  ⟨reads.mpr, fun _ _ => reads.mp⟩

theorem Needs.congr {r : ByteReader (Except ε α)} {room other : Prop}
    (needs : Needs data length r room) (same : room ↔ other) : Needs data length r other :=
  ⟨fun enough => needs.enough (same.mpr enough),
    fun a completed inside => same.mp (needs.needed a completed inside)⟩

theorem needs_bind {r : ByteReader α} {f : α → ByteReader (Except ε β)} {room first : Prop}
    (reads : r.Inside data length ↔ first) (rest : Needs data length (f (r.run data)) room) :
    Needs data length (r >>= f) (first ∧ room) := by
  constructor
  · intro enough
    exact (inside_bind r f).mpr ⟨reads.mpr enough.1, rest.enough enough.2⟩
  · intro a completed inside
    rw [run_bind] at completed
    rw [inside_bind] at inside
    exact ⟨reads.mp inside.1, rest.needed a completed inside.2⟩

end ByteReader
