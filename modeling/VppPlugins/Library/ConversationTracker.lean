import VppPlugins.Library.Directory

/-! A tracker of two-way conversations, each oriented by its first packet, and the directory
whose entries carry states as such a tracker. -/
namespace Directory

def Side.flip : Side → Side
  | .forward => .backward
  | .backward => .forward

/-- What the packets of a conversation do to its state. -/
structure Automaton (ε σ : Type*) where
  start : σ
  next : σ → ε → Side → σ

/-- For each key, the side its packets come from and the state of their conversation. -/
abbrev Tracker (κ σ : Type*) := κ → Option (Side × σ)

variable {κ η ε σ : Type*}

namespace Tracker

def empty : Tracker κ σ := fun _ => none

/-- Whether a packet of the key opens a conversation, and its side. -/
def reply (T : Tracker κ σ) (k : κ) : Bool × Side :=
  match T k with
  | none => (true, .forward)
  | some (side, _) => (false, side)

section Observe
variable [DecidableEq κ] (rev : κ → κ) (A : Automaton ε σ)

def observe (T : Tracker κ σ) (k : κ) (e : ε) : Tracker κ σ :=
  let (side, state) := (T k).getD (.forward, A.start)
  let state' := A.next state e side
  Function.update (Function.update T (rev k) (some (side.flip, state'))) k (some (side, state'))

def after (T : Tracker κ σ) (packets : List (κ × ε)) : Tracker κ σ :=
  packets.foldl (fun T p => observe rev A T p.1 p.2) T

def replies (T : Tracker κ σ) : List (κ × ε) → List (Bool × Side)
  | [] => []
  | p :: packets => T.reply p.1 :: replies (observe rev A T p.1 p.2) packets

theorem after_snoc (T : Tracker κ σ) (packets : List (κ × ε)) (p : κ × ε) :
    after rev A T (packets ++ [p]) = observe rev A (after rev A T packets) p.1 p.2 :=
  List.foldl_concat ..

theorem replies_snoc (T : Tracker κ σ) (packets : List (κ × ε)) (p : κ × ε) :
    replies rev A T (packets ++ [p]) =
      replies rev A T packets ++ [(after rev A T packets).reply p.1] := by
  induction packets generalizing T with
  | nil => rfl
  | cons q packets ih =>
      rw [List.cons_append, replies, replies, ih, List.cons_append]
      rfl

end Observe
end Tracker

/-- The tracker holds what the entries with their states hold. A key that is its own reverse
counts as the forward side. -/
def Shows (rev : κ → κ) (d : State κ η) (state : Nat → σ) (T : Tracker κ σ) : Prop :=
  ∀ k side x, T k = some (side, x) ↔ ∃ i l m, d.entries[i]? = some (l, m) ∧
    k = oriented rev l side ∧ state i = x ∧ (side = .backward → rev k ≠ k)

/-- No key that is its own reverse is presented behind its own mirror. -/
def Straight (rev : κ → κ) (d : State κ η) : Event κ → Prop
  | .present k => rev k = k → ∀ i : Nat, d.entries[i]? ≠ some (k, true)
  | .mirror _ => True

theorem initial_shows (rev : κ → κ) (state : Nat → σ) :
    Shows rev (initial : State κ η) state .empty := by
  intro k side x
  constructor
  · intro nothing
    cases nothing
  · rintro ⟨i, l, m, entry, -⟩
    cases entry

variable {rev : κ → κ} {hash : κ → η} {d d' : State κ η} {state : Nat → σ} {T : Tracker κ σ}
  {k l : κ} {i : Nat} {m : Bool} {side : Side} {A : Automaton ε σ}

theorem side_unique {other : Side} (own : k = oriented rev l side) (own' : k = oriented rev l other)
    (asymmetric : side = .backward → rev k ≠ k) (asymmetric' : other = .backward → rev k ≠ k) :
    side = other := by
  cases side with
  | forward =>
      cases other with
      | forward => rfl
      | backward => exact absurd ((congrArg rev own).trans own'.symm) (asymmetric' rfl)
  | backward =>
      cases other with
      | forward => exact absurd ((congrArg rev own').trans own.symm) (asymmetric rfl)
      | backward => rfl

section Reversal
variable (invol : Function.Involutive rev)

include invol in
theorem oriented_flip (own : k = oriented rev l side) : rev k = oriented rev l side.flip := by
  cases side with
  | forward => exact congrArg rev own
  | backward => rw [own]; exact invol l

include invol in
/-- Two keys of one entry are the same or each other's reverse. -/
theorem keys_of_entry {y : κ} {other : Side} (own : k = oriented rev l side)
    (own' : y = oriented rev l other) : y = k ∨ y = rev k := by
  cases side with
  | forward =>
      cases other with
      | forward => exact .inl (own'.trans own.symm)
      | backward => exact .inr (own'.trans (congrArg rev own).symm)
  | backward =>
      cases other with
      | forward => exact .inr (by rw [own, own']; exact (invol l).symm)
      | backward => exact .inl (own'.trans own.symm)

include invol in
/-- So are the keys of two entries that share one. -/
theorem entries_of_key {l' : κ} {other : Side} (own : k = oriented rev l side)
    (own' : k = oriented rev l' other) : l' = l ∨ l' = rev l := by
  cases side with
  | forward =>
      cases other with
      | forward => exact .inl (own'.symm.trans own)
      | backward =>
          have same : l = rev l' := own.symm.trans own'
          exact .inr (by rw [same]; exact (invol l').symm)
  | backward =>
      cases other with
      | forward => exact .inr (own'.symm.trans own)
      | backward => exact .inl (invol.injective (own'.symm.trans own))

variable [DecidableEq κ]

include invol in
/-- A packet of entry `i` is observed where the entry's state takes the automaton's step. -/
theorem observe_shows {x : σ} (shows : Shows rev d state T) (unique : Unique rev d')
    (entries : ∀ (j : Nat) (l' : κ) (m' : Bool), d'.entries[j]? = some (l', m') ↔
      d.entries[j]? = some (l', m') ∨ j = i ∧ l' = l ∧ m' = m)
    (own : k = oriented rev l side) (asymmetric : side = .backward → rev k ≠ k)
    (held : (T k).getD (.forward, A.start) = (side, x)) (e : ε) :
    Shows rev d' (Function.update state i (A.next x e side)) (T.observe rev A k e) := by
  have here : d'.entries[i]? = some (l, m) := (entries i l m).mpr (.inr ⟨rfl, rfl, rfl⟩)
  have key {l' : κ} {m' : Bool} (entry : d'.entries[i]? = some (l', m')) : l' = l := by
    rw [here, Option.some_inj, Prod.mk.injEq] at entry
    exact entry.1.symm
  have only {j : Nat} {l' y : κ} {m' : Bool} {s s' : Side} (entry : d'.entries[j]? = some (l', m'))
      (holds : y = oriented rev l s) (same : y = oriented rev l' s') : i = j :=
    unique i j l l' m m' here entry (entries_of_key invol holds same)
  intro y other z
  simp only [Tracker.observe, held]
  by_cases first : y = k
  · subst first
    rw [Function.update_self, Option.some_inj, Prod.mk.injEq]
    constructor
    · rintro ⟨rfl, rfl⟩
      exact ⟨i, l, m, here, own, Function.update_self .., asymmetric⟩
    · rintro ⟨j, l', m', entry, same, rfl, asymmetric'⟩
      cases only entry own same
      cases key entry
      rw [Function.update_self]
      exact ⟨side_unique own same asymmetric asymmetric', rfl⟩
  · rw [Function.update_of_ne first]
    by_cases second : y = rev k
    · have flipped : y = oriented rev l side.flip := second.trans (oriented_flip invol own)
      have turned : rev y ≠ y := fun same => first (by rw [← same, second, invol k])
      rw [second, Function.update_self, Option.some_inj, Prod.mk.injEq, ← second]
      constructor
      · rintro ⟨rfl, rfl⟩
        exact ⟨i, l, m, here, flipped, Function.update_self .., fun _ => turned⟩
      · rintro ⟨j, l', m', entry, same, rfl, asymmetric'⟩
        cases only entry flipped same
        cases key entry
        rw [Function.update_self]
        exact ⟨side_unique flipped same (fun _ => turned) asymmetric', rfl⟩
    · rw [Function.update_of_ne second, shows]
      -- entry `i` has no key but `k` and its reverse
      have apart (same : y = oriented rev l other) : False :=
        (keys_of_entry invol own same).elim first second
      constructor
      · rintro ⟨j, l', m', entry, same, rfl, asymmetric'⟩
        have now := (entries j l' m').mpr (.inl entry)
        have elsewhere : j ≠ i := by
          rintro rfl
          cases key now
          exact apart same
        exact ⟨j, l', m', now, same, Function.update_of_ne elsewhere .., asymmetric'⟩
      · rintro ⟨j, l', m', entry, same, rfl, asymmetric'⟩
        have elsewhere : j ≠ i := by
          rintro rfl
          cases key entry
          exact apart same
        have old := ((entries j l' m').mp entry).resolve_right fun new => elsewhere new.1
        exact ⟨j, l', m', old, same, (Function.update_of_ne elsewhere ..).symm, asymmetric'⟩

end Reversal

theorem reply_tracked {x : σ} (tracked : T k = some (side, x)) : T.reply k = (false, side) := by
  rw [Tracker.reply, tracked]

theorem reply_untracked (untracked : T k = none) : T.reply k = (true, .forward) := by
  rw [Tracker.reply, untracked]

section Separated
variable [DecidableEq κ] [DecidableEq η] {S : Set κ} (inj : Set.InjOn hash S)
  (closed : ∀ k ∈ S, rev k ∈ S) (invol : Function.Involutive rev)

omit [DecidableEq κ] in
theorem mirror_shows (shows : Shows rev d state T) (i : Nat) :
    Shows rev (mirror rev hash d i) state T := by
  intro k side x
  rw [shows]
  constructor
  · rintro ⟨j, l, m, entry, rest⟩
    exact ⟨j, l, _, mirror_entry entry, rest⟩
  · rintro ⟨j, l, m, entry, rest⟩
    obtain ⟨m', old⟩ := mirror_origin entry
    exact ⟨j, l, m', old, rest⟩

omit [DecidableEq η] in
include invol in
theorem unique_of_shows (shows : Shows rev d state T) (sound : Sound rev hash d) :
    Unique rev d := by
  intro i j k l m n first second related
  by_cases own : l = k
  · subst own
    exact sound.distinct i j l l m n first second rfl
  · -- the reversed key would be tracked from both sides
    have reversed : l = rev k := related.resolve_left own
    have turned : rev l ≠ l := fun same => own (by rw [← same, reversed, invol k])
    have back := (shows l .backward (state i)).mpr ⟨i, k, m, first, reversed, rfl, fun _ => turned⟩
    have front := (shows l .forward (state j)).mpr
      ⟨j, l, n, second, rfl, rfl, fun other => by cases other⟩
    rw [back] at front
    cases front

omit [DecidableEq κ] [DecidableEq η] in
include inj closed invol in
/-- A key that is answered is tracked from the side that it is answered with. -/
theorem tracked_of_found (shows : Shows rev d state T) (sound : Sound rev hash d)
    (inS : Within S d) (hk : k ∈ S) (straight : Straight rev d (.present k))
    (found : d.slot (hash k) = some (i, side)) :
    T k = some (side, state i) ∧ ∃ l m, d.entries[i]? = some (l, m) ∧
      k = oriented rev l side ∧ (side = .backward → rev k ≠ k) := by
  obtain ⟨l, m, entry, own, mirrored⟩ := found_key inj closed sound inS hk found
  have asymmetric : side = .backward → rev k ≠ k := by
    rintro rfl symmetric
    have key : rev k = l := by rw [own]; exact invol l
    exact straight symmetric i (by rw [entry, mirrored rfl, ← key, symmetric])
  exact ⟨(shows k side _).mpr ⟨i, l, m, entry, own, rfl, asymmetric⟩, l, m, entry, own, asymmetric⟩

omit [DecidableEq κ] [DecidableEq η] in
include invol in
/-- A key that finds nothing is in no conversation. -/
theorem untracked_of_fresh (shows : Shows rev d state T) (sound : Sound rev hash d)
    (kept : MirrorsKept rev hash d) (timely : Timely rev d (.present k))
    (fresh : d.slot (hash k) = none) : T k = none := by
  by_contra tracked
  obtain ⟨⟨side, x⟩, held⟩ := Option.ne_none_iff_exists'.mp tracked
  obtain ⟨i, l, m, entry, own, -, asymmetric⟩ := (shows k side x).mp held
  cases side with
  | forward =>
      have key : k = l := own
      exact sound.bound i k m (key ▸ entry) fresh
  | backward =>
      have key : k = rev l := own
      cases m with
      | false => exact timely (asymmetric rfl) i (by rw [key, invol l]; exact entry)
      | true =>
          have mirror := kept i l entry
          rw [← key, fresh] at mirror
          cases mirror

omit [DecidableEq κ] in
/-- A mirror answers for the backward side, from which no tracker sees a key that is its own
reverse. -/
theorem straight_of_reply (shows : Shows rev d state T) (kept : MirrorsKept rev hash d)
    (answer : present hash d k = (d', (i, side))) (replied : (T.reply k).2 = side) :
    Straight rev d (.present k) := by
  intro symmetric j mirrored
  have slotted := kept j k mirrored
  rw [symmetric] at slotted
  rw [present, slotted, Prod.mk.injEq, Prod.mk.injEq] at answer
  obtain ⟨-, -, rfl⟩ := answer
  cases held : T k with
  | none => rw [Tracker.reply, held] at replied; cases replied
  | some entry =>
      obtain ⟨other, x⟩ := entry
      rw [Tracker.reply, held] at replied
      cases replied
      obtain ⟨_, _, _, _, _, _, asymmetric⟩ := (shows k .backward x).mp held
      exact asymmetric rfl symmetric

include inj closed invol in
/-- Exactly the timely and straight packets are answered as the tracker answers them and leave
the directory showing what the tracker holds. -/
theorem present_shows_iff (shows : Shows rev d state T) (sound : Sound rev hash d)
    (inS : Within S d) (kept : MirrorsKept rev hash d) (hk : k ∈ S)
    (beyond : ∀ j, d.entries.length ≤ j → state j = A.start)
    (answer : present hash d k = (d', (i, side))) (e : ε) :
    (T.reply k = ((d.slot (hash k)).isNone, side) ∧
        Shows rev d' (Function.update state i (A.next (state i) e side)) (T.observe rev A k e)) ↔
      Timely rev d (.present k) ∧ Straight rev d (.present k) := by
  have unique := unique_of_shows invol shows sound
  constructor
  · rintro ⟨replied, shows'⟩
    refine ⟨?_, straight_of_reply shows kept answer (by rw [replied])⟩
    have sound' := present_sound sound k
    have unique' : Unique rev (step rev hash d (.present k)) := by
      rw [answer] at sound'
      rw [step, answer]
      exact unique_of_shows invol shows' sound'
    exact (step_unique_iff (e := .present k) inj closed invol sound inS kept unique hk).mp unique'
  · rintro ⟨timely, straight⟩
    unfold present at answer
    cases slotted : d.slot (hash k) with
    | none =>
        rw [slotted, Prod.mk.injEq, Prod.mk.injEq] at answer
        obtain ⟨rfl, rfl, rfl⟩ := answer
        have untracked := untracked_of_fresh invol shows sound kept timely slotted
        refine ⟨reply_untracked untracked, ?_⟩
        refine observe_shows invol shows (unique_enroll invol sound kept unique slotted timely)
          (fun j l' m' => entry_append) rfl (fun back => by cases back) ?_ e
        change (T k).getD _ = _
        rw [untracked, beyond _ (Nat.le_refl _)]
        rfl
    | some found =>
        rw [slotted] at answer
        obtain ⟨rfl, rfl⟩ := Prod.mk.inj answer
        obtain ⟨tracked, l, m, entry, own, asymmetric⟩ :=
          tracked_of_found inj closed invol shows sound inS hk straight slotted
        have held : (T k).getD (.forward, A.start) = (side, state i) := by rw [tracked]; rfl
        have entries (j : Nat) (l' : κ) (m' : Bool) : d.entries[j]? = some (l', m') ↔
            d.entries[j]? = some (l', m') ∨ j = i ∧ l' = l ∧ m' = m := by
          refine ⟨.inl, ?_⟩
          rintro (old | ⟨rfl, rfl, rfl⟩)
          · exact old
          · exact entry
        exact ⟨reply_tracked tracked, observe_shows invol shows unique entries own asymmetric held e⟩

end Separated
end Directory
