import Mathlib.Data.List.AList
import Mathlib.Logic.Basic

/-! A timer wheel counted in ticks. An expired timer's handle is free again and may
name another timer later. -/

/-- A timer that was started or re-armed at tick `setAt`. -/
structure Timer where
  userId : Nat
  timerId : Nat
  setAt : Nat
  interval : Nat
  deriving DecidableEq, Repr

/-- `timers` holds the armed timers by handle. `freed` lists the handles given back,
latest first, so that `pick` may depend on it as a free list does. -/
structure TimerWheel where
  timers : AList (fun _ : Nat => Timer)
  freed : List Nat
  now : Nat

namespace TimerWheel

/-- What the wheel's users are not told: which free handle a start takes, and which timers an
advance by some ticks lets expire. -/
structure Policy where
  pick : TimerWheel → Nat
  fires : TimerWheel → Nat → Timer → Bool

def init : TimerWheel := ⟨∅, [], 0⟩

def live (w : TimerWheel) (handle : Nat) : Option Timer := w.timers.lookup handle

/-- A policy that never hands out a handle in use. -/
def Fresh (pick : TimerWheel → Nat) : Prop := ∀ w : TimerWheel, w.live (pick w) = none

def start (pick : TimerWheel → Nat) (w : TimerWheel) (userId timerId interval : Nat) :
    TimerWheel × Nat :=
  ({ w with timers := w.timers.insert (pick w) ⟨userId, timerId, w.now, interval⟩ }, pick w)

/-- Re-arms the timer the handle names. A handle that names none changes nothing. -/
def update (w : TimerWheel) (handle interval : Nat) : TimerWheel :=
  match w.live handle with
  | none => w
  | some t => { w with timers := w.timers.insert handle { t with setAt := w.now, interval } }

def stop (w : TimerWheel) (handle : Nat) : TimerWheel :=
  match w.live handle with
  | none => w
  | some _ => { w with timers := w.timers.erase handle, freed := handle :: w.freed }

/-- A call that is made on the wheel. -/
inductive Request where
  | start (userId timerId interval : Nat)
  | update (handle interval : Nat)
  | stop (handle : Nat)
  deriving DecidableEq, Repr

def serve (pick : TimerWheel → Nat) (w : TimerWheel) : Request → TimerWheel
  | .start userId timerId interval => (w.start pick userId timerId interval).1
  | .update handle interval => w.update handle interval
  | .stop handle => w.stop handle

/-- The request names no handle, or that of an armed timer. -/
def Request.Valid (w : TimerWheel) : Request → Prop
  | .start _ _ _ => True
  | .update handle _ => (w.live handle).isSome
  | .stop handle => (w.live handle).isSome

/-- The value a callback receives for an expired timer. -/
def userHandle (t : Timer) : Nat := t.timerId <<< 31 ||| t.userId

def due (fires : TimerWheel → Nat → Timer → Bool) (w : TimerWheel) (ticks : Nat) :
    List (Sigma fun _ : Nat => Timer) :=
  w.timers.entries.filter (fun e => fires w ticks e.2)

/-- Advances the clock, frees every timer that fires and returns their user handles. -/
def expire (fires : TimerWheel → Nat → Timer → Bool) (w : TimerWheel) (ticks : Nat) :
    TimerWheel × List Nat :=
  ({ timers := ⟨w.timers.entries.filter (fun e => !fires w ticks e.2),
        (w.timers.nodupKeys.sublist List.filter_sublist)⟩
     freed := (w.due fires ticks).map Sigma.fst ++ w.freed
     now := w.now + ticks },
   (w.due fires ticks).map (fun e => userHandle e.2))

@[simp] theorem live_init (h : Nat) : init.live h = none := AList.lookup_empty h

theorem live_start (pick : TimerWheel → Nat) (w : TimerWheel) (u i n h : Nat) :
    (start pick w u i n).1.live h =
      if h = pick w then some ⟨u, i, w.now, n⟩ else w.live h := by
  split
  · rename_i same
    subst same
    exact AList.lookup_insert w.timers
  · rename_i other
    exact AList.lookup_insert_ne other

theorem stop_dead {w : TimerWheel} {h : Nat} (dead : w.live h = none) : w.stop h = w := by
  rw [stop, dead]

theorem live_update (w : TimerWheel) (handle n h : Nat) :
    (w.update handle n).live h =
      if h = handle then (w.live h).map (fun t => { t with setAt := w.now, interval := n })
      else w.live h := by
  cases alive : w.live handle with
  | none =>
      simp only [update, alive]
      by_cases same : h = handle
      · simp only [same, alive, if_true, Option.map_none]
      · rw [if_neg same]
  | some t =>
      simp only [update, alive]
      by_cases same : h = handle
      · simp only [same, alive, if_true, Option.map_some]
        exact AList.lookup_insert w.timers
      · rw [if_neg same]
        exact AList.lookup_insert_ne same

/-- Whose timer a handle names. -/
def owner (w : TimerWheel) (h : Nat) : Option Nat := (w.live h).map Timer.userId

theorem owner_eq_some {w : TimerWheel} {h u : Nat} :
    w.owner h = some u ↔ ∃ t, w.live h = some t ∧ t.userId = u := Option.map_eq_some_iff

theorem owner_start (pick : TimerWheel → Nat) (w : TimerWheel) (u i n h : Nat) :
    (start pick w u i n).1.owner h = if h = pick w then some u else w.owner h := by
  rw [owner, live_start]
  split <;> rfl

theorem owner_update (w : TimerWheel) (handle n h : Nat) :
    (w.update handle n).owner h = w.owner h := by
  rw [owner, live_update, owner]
  split
  · rw [Option.map_map]
    rfl
  · rfl

theorem live_expire {fires : TimerWheel → Nat → Timer → Bool} {w : TimerWheel} {ticks h : Nat}
    {t : Timer} :
    (w.expire fires ticks).1.live h = some t ↔ w.live h = some t ∧ fires w ticks t = false := by
  simp only [live, ← Option.mem_def, AList.mem_lookup_iff, expire, List.mem_filter,
    Bool.not_eq_true']

theorem mem_due {fires : TimerWheel → Nat → Timer → Bool} {w : TimerWheel} {ticks h : Nat}
    {t : Timer} : ⟨h, t⟩ ∈ w.due fires ticks ↔ w.live h = some t ∧ fires w ticks t = true := by
  simp only [due, List.mem_filter, live, ← Option.mem_def, AList.mem_lookup_iff]

/-- An advance that lets nothing expire leaves every timer as it was. -/
theorem live_expire_nothing {fires : TimerWheel → Nat → Timer → Bool} {w : TimerWheel}
    {ticks : Nat} (nothing : w.due fires ticks = []) (h : Nat) :
    (w.expire fires ticks).1.live h = w.live h := by
  apply Option.ext
  intro t
  rw [live_expire]
  refine and_iff_left_of_imp fun alive => ?_
  rw [← Bool.not_eq_true]
  intro fired
  have due : ⟨h, t⟩ ∈ w.due fires ticks := mem_due.mpr ⟨alive, fired⟩
  rw [nothing] at due
  cases due

@[simp] theorem now_update (w : TimerWheel) (handle n : Nat) : (w.update handle n).now = w.now := by
  unfold update
  split <;> rfl

@[simp] theorem now_start (pick : TimerWheel → Nat) (w : TimerWheel) (u i n : Nat) :
    (start pick w u i n).1.now = w.now := rfl

/-- One above every handle in use, and never `reserved`. -/
def above (w : TimerWheel) (reserved : Nat) : Nat :=
  let top := w.timers.keys.foldr max 0 + 1
  if top = reserved then top + 1 else top

/-- The handles of a free list: the one given back last, else a new one. -/
def lifo (reserved : Nat) (w : TimerWheel) : Nat :=
  match w.freed.find? (fun h => (w.live h).isNone && h != reserved) with
  | some h => h
  | none => w.above reserved

/-- A timer fires on the tick after its interval, when the clock leaves the slot it lies in. -/
def nextTick (w : TimerWheel) (ticks : Nat) (t : Timer) : Bool :=
  decide (t.setAt + t.interval < w.now + ticks)

def slotted (reserved : Nat) : Policy := ⟨lifo reserved, nextTick⟩

theorem live_above (w : TimerWheel) {h : Nat} (beyond : w.timers.keys.foldr max 0 < h) :
    w.live h = none := by
  apply AList.lookup_eq_none.mpr
  intro used
  have below : h ≤ w.timers.keys.foldr max 0 := by
    have member : h ∈ w.timers.keys := AList.mem_keys.mp used
    generalize w.timers.keys = keys at member
    induction keys with
    | nil => cases member
    | cons k keys ih =>
        rw [List.foldr_cons]
        rcases List.mem_cons.mp member with rfl | later
        · exact Nat.le_max_left ..
        · exact Nat.le_trans (ih later) (Nat.le_max_right ..)
  omega

theorem lifo_fresh (reserved : Nat) : Fresh (lifo reserved) := by
  intro w
  unfold lifo
  split
  · rename_i h found
    have chosen := List.find?_some found
    simp only [Bool.and_eq_true, Option.isNone_iff_eq_none] at chosen
    exact chosen.1
  · apply live_above
    unfold above
    dsimp only
    split <;> omega

theorem lifo_ne_reserved (reserved : Nat) (w : TimerWheel) : lifo reserved w ≠ reserved := by
  unfold lifo
  split
  · rename_i h found
    have chosen := List.find?_some found
    simp only [Bool.and_eq_true, bne_iff_ne] at chosen
    exact chosen.2
  · unfold above
    dsimp only
    split
    · omega
    · assumption

end TimerWheel
