import Mathlib.Logic.Function.Basic
import Mathlib.Data.Set.Function
import Mathlib.Data.List.Basic

/-! A directory of two-sided entries. An entry is enrolled under the hash of its key when
the key is presented and found unbound; its mirror, the reversed key, is bound later by
a separate event. Lookups compare hashes only. -/
namespace Directory

inductive Side where
  | forward
  | backward
  deriving DecidableEq, Repr

/-- `entries i` is the key of entry `i` and whether its mirror is bound. -/
structure State (κ η : Type*) where
  entries : List (κ × Bool)
  slot : η → Option (Nat × Side)

variable {κ η : Type*}

def initial : State κ η := ⟨[], fun _ => none⟩

def oriented (rev : κ → κ) (k : κ) : Side → κ
  | .forward => k
  | .backward => rev k

/-- No assumption on collisions or on symmetric keys is made here. -/
structure Sound (rev : κ → κ) (hash : κ → η) (d : State κ η) : Prop where
  slot : ∀ h i side, d.slot h = some (i, side) → ∃ k m, d.entries[i]? = some (k, m) ∧
    h = hash (oriented rev k side) ∧ (side = .backward → m = true)
  bound : ∀ (i : Nat) (k : κ) (m : Bool), d.entries[i]? = some (k, m) → d.slot (hash k) ≠ none
  distinct : ∀ (i j : Nat) (k l : κ) (m n : Bool), d.entries[i]? = some (k, m) →
    d.entries[j]? = some (l, n) → hash k = hash l → i = j

theorem initial_sound (rev : κ → κ) (hash : κ → η) : Sound rev hash initial :=
  ⟨fun _ _ _ h => (nomatch h), fun _ _ _ h => (nomatch h), fun _ _ _ _ _ _ h => (nomatch h)⟩

theorem entry_append {d : State κ η} {k l : κ} {i : Nat} {m : Bool} :
    (d.entries ++ [(k, false)])[i]? = some (l, m) ↔
      d.entries[i]? = some (l, m) ∨ i = d.entries.length ∧ l = k ∧ m = false := by
  rw [List.getElem?_append]
  split
  · rename_i below
    constructor
    · exact .inl
    · rintro (old | ⟨rfl, _⟩)
      · exact old
      · exact absurd below (Nat.lt_irrefl _)
  · rename_i above
    rw [List.getElem?_eq_none (Nat.le_of_not_lt above), List.getElem?_singleton]
    by_cases last : i = d.entries.length
    · simp [last, eq_comm]
    · simp [last]
      omega

theorem entry_set {d : State κ η} {k l : κ} {i j : Nat} {m : Bool}
    (at_i : d.entries[i]? = some (k, false)) :
    (d.entries.set i (k, true))[j]? = some (l, m) ↔
      (j ≠ i ∧ d.entries[j]? = some (l, m)) ∨ (j = i ∧ l = k ∧ m = true) := by
  rw [List.getElem?_set]
  have inside : i < d.entries.length := (List.getElem?_eq_some_iff.mp at_i).1
  by_cases here : i = j
  · subst here
    simp [inside, eq_comm]
  · simp [here, Ne.symm here]

section Operations
variable [DecidableEq η]

def enroll (hash : κ → η) (d : State κ η) (k : κ) : State κ η :=
  { entries := d.entries ++ [(k, false)]
    slot := Function.update d.slot (hash k) (some (d.entries.length, .forward)) }

/-- Presents a key: the entry found under its hash, or the one enrolled for it. -/
def present (hash : κ → η) (d : State κ η) (k : κ) : State κ η × (Nat × Side) :=
  match d.slot (hash k) with
  | some found => (d, found)
  | none => (enroll hash d k, (d.entries.length, .forward))

/-- Binds the mirror of entry `i` once; whatever was bound there is overwritten. -/
def mirror (rev : κ → κ) (hash : κ → η) (d : State κ η) (i : Nat) : State κ η :=
  match d.entries[i]? with
  | some (k, false) =>
      { entries := d.entries.set i (k, true)
        slot := Function.update d.slot (hash (rev k)) (some (i, .backward)) }
  | _ => d

inductive Event (κ : Type*) where
  | present (k : κ)
  | mirror (i : Nat)

def step (rev : κ → κ) (hash : κ → η) (d : State κ η) : Event κ → State κ η
  | .present k => (present hash d k).1
  | .mirror i => mirror rev hash d i

variable {rev : κ → κ} {hash : κ → η}

theorem enroll_sound {d : State κ η} {k : κ} (h : Sound rev hash d)
    (fresh : d.slot (hash k) = none) : Sound rev hash (enroll hash d k) := by
  refine ⟨?_, ?_, ?_⟩
  · intro g i side found
    by_cases here : g = hash k
    · subst here
      simp only [enroll, Function.update_self, Option.some.injEq, Prod.mk.injEq] at found
      obtain ⟨rfl, rfl⟩ := found
      exact ⟨k, false, entry_append.mpr (.inr ⟨rfl, rfl, rfl⟩), rfl, fun h => nomatch h⟩
    · simp only [enroll, Function.update_of_ne here] at found
      obtain ⟨l, m, old, same, side'⟩ := h.slot g i side found
      exact ⟨l, m, entry_append.mpr (.inl old), same, side'⟩
  · intro i l m found
    by_cases here : hash l = hash k
    · simp [enroll, here]
    · rcases entry_append.mp found with old | ⟨_, rfl, _⟩
      · simpa only [enroll, Function.update_of_ne here, ne_eq] using h.bound i l m old
      · exact absurd rfl here
  · intro i j l l' m n first second same
    rcases entry_append.mp first with old | ⟨rfl, rfl, _⟩ <;>
      rcases entry_append.mp second with old' | ⟨rfl, rfl, _⟩
    · exact h.distinct i j l l' m n old old' same
    · exact absurd (same ▸ fresh) (h.bound i l m old)
    · exact absurd (same ▸ fresh) (h.bound j l' n old')
    · rfl

theorem mirror_entry {d : State κ η} {i j : Nat} {k : κ} {m : Bool}
    (h : d.entries[j]? = some (k, m)) :
    (mirror rev hash d i).entries[j]? = some (k, m || decide (i = j)) := by
  unfold mirror
  split
  · rename_i l at_i
    by_cases here : j = i
    · subst here
      rw [at_i, Option.some.injEq, Prod.mk.injEq] at h
      exact (entry_set at_i).mpr (.inr ⟨rfl, h.1.symm, by simp⟩)
    · have other : i ≠ j := Ne.symm here
      simpa [other] using (entry_set at_i).mpr (.inl ⟨here, h⟩)
  · rename_i settled
    by_cases here : i = j
    · subst here
      cases m with
      | false => exact absurd h (settled k)
      | true => simpa using h
    · simpa [here] using h

theorem mirror_origin {d : State κ η} {i j : Nat} {k : κ} {m : Bool}
    (h : (mirror rev hash d i).entries[j]? = some (k, m)) : ∃ m', d.entries[j]? = some (k, m') := by
  unfold mirror at h
  split at h
  · rename_i l at_i
    rcases (entry_set at_i).mp h with ⟨_, old⟩ | ⟨rfl, rfl, _⟩
    · exact ⟨m, old⟩
    · exact ⟨false, at_i⟩
  · exact ⟨m, h⟩

theorem mirror_slot (rev : κ → κ) (hash : κ → η) (d : State κ η) (i : Nat) (g : η) :
    (∃ k, d.entries[i]? = some (k, false) ∧ g = hash (rev k) ∧
        (mirror rev hash d i).slot g = some (i, .backward)) ∨
      (mirror rev hash d i).slot g = d.slot g := by
  unfold mirror
  split
  · rename_i k at_i
    by_cases here : g = hash (rev k)
    · exact .inl ⟨k, at_i, here, by simp [here]⟩
    · exact .inr (Function.update_of_ne here ..)
  · exact .inr rfl

theorem mirror_sound {d : State κ η} (h : Sound rev hash d) (i : Nat) :
    Sound rev hash (mirror rev hash d i) := by
  refine ⟨?_, ?_, ?_⟩
  · intro g j side found
    rcases mirror_slot rev hash d i g with ⟨k, at_i, rfl, bound⟩ | kept
    · rw [bound, Option.some.injEq, Prod.mk.injEq] at found
      obtain ⟨rfl, rfl⟩ := found
      exact ⟨k, _, mirror_entry at_i, rfl, by simp⟩
    · obtain ⟨l, m, old, same, mirrored⟩ := h.slot g j side (kept ▸ found)
      exact ⟨l, _, mirror_entry old, same, fun back => by rw [mirrored back, Bool.true_or]⟩
  · intro j l m found
    obtain ⟨m', old⟩ := mirror_origin found
    rcases mirror_slot rev hash d i (hash l) with ⟨_, _, _, bound⟩ | kept
    · rw [bound]; exact Option.some_ne_none _
    · rw [kept]; exact h.bound j l m' old
  · intro j j' l l' m n first second same
    obtain ⟨m', old⟩ := mirror_origin first
    obtain ⟨n', old'⟩ := mirror_origin second
    exact h.distinct j j' l l' m' n' old old' same

theorem present_sound {d : State κ η} (h : Sound rev hash d) (k : κ) :
    Sound rev hash (present hash d k).1 := by
  unfold present
  split
  · exact h
  · rename_i fresh
    exact enroll_sound h fresh

theorem step_sound {d : State κ η} (h : Sound rev hash d) (e : Event κ) :
    Sound rev hash (step rev hash d e) := by
  cases e with
  | present k => exact present_sound h k
  | mirror i => exact mirror_sound h i

/-- A bound slot stays bound. -/
theorem step_bound {d : State κ η} {g : η} (e : Event κ) (h : d.slot g ≠ none) :
    (step rev hash d e).slot g ≠ none := by
  cases e with
  | present k =>
      simp only [step, present]
      split
      · exact h
      · by_cases here : g = hash k
        · simp [enroll, here]
        · simpa [enroll, here] using h
  | mirror i =>
      rcases mirror_slot rev hash d i g with ⟨_, _, _, bound⟩ | kept
      · simp only [step, bound]; exact Option.some_ne_none _
      · simpa only [step, kept] using h

/-- Keys are kept, and a bound mirror stays recorded. -/
theorem step_entry {d : State κ η} {i : Nat} {k : κ} {m : Bool} (e : Event κ)
    (h : d.entries[i]? = some (k, m)) :
    ∃ m', (step rev hash d e).entries[i]? = some (k, m') ∧ (m = true → m' = true) := by
  cases e with
  | present l =>
      refine ⟨m, ?_, id⟩
      simp only [step, present]
      split
      · exact h
      · exact entry_append.mpr (.inl h)
  | mirror j =>
      exact ⟨_, mirror_entry h, by rintro rfl; rfl⟩

/-! From here on the hash separates the keys that occur. They form a set closed under
reversal; the events present no others. -/

def Within (S : Set κ) (d : State κ η) : Prop :=
  ∀ (i : Nat) (k : κ) (m : Bool), d.entries[i]? = some (k, m) → k ∈ S

def Event.within (S : Set κ) : Event κ → Prop
  | .present k => k ∈ S
  | .mirror _ => True

/-- The mirror of an entry answers for that entry. -/
def MirrorsKept (rev : κ → κ) (hash : κ → η) (d : State κ η) : Prop :=
  ∀ (i : Nat) (k : κ), d.entries[i]? = some (k, true) →
    d.slot (hash (rev k)) = some (i, .backward)

/-- At most one entry for a key and its reverse together. -/
def Unique (rev : κ → κ) (d : State κ η) : Prop :=
  ∀ (i j : Nat) (k l : κ) (m n : Bool), d.entries[i]? = some (k, m) →
    d.entries[j]? = some (l, n) → (l = k ∨ l = rev k) → i = j

/-- No key is presented while the entry of its reverse awaits its mirror. -/
def Timely (rev : κ → κ) (d : State κ η) : Event κ → Prop
  | .present k => rev k ≠ k → ∀ i : Nat, d.entries[i]? ≠ some (rev k, false)
  | .mirror _ => True

section Separated

variable {S : Set κ} (inj : Set.InjOn hash S) (closed : ∀ k ∈ S, rev k ∈ S)
  (invol : Function.Involutive rev)

theorem step_within {d : State κ η} (h : Within S d) {e : Event κ} (admitted : e.within S) :
    Within S (step rev hash d e) := by
  intro i k m found
  cases e with
  | present l =>
      simp only [step, present] at found
      split at found
      · exact h i k m found
      · rcases entry_append.mp found with old | ⟨_, rfl, _⟩
        · exact h i k m old
        · exact admitted
  | mirror j =>
      obtain ⟨m', old⟩ := mirror_origin found
      exact h i k m' old

include inj closed invol in
theorem step_mirrorsKept {d : State κ η} (sound : Sound rev hash d) (inS : Within S d)
    (h : MirrorsKept rev hash d) (e : Event κ) : MirrorsKept rev hash (step rev hash d e) := by
  intro i k found
  cases e with
  | present l =>
      simp only [step, present] at found ⊢
      split at found
      · exact h i k found
      · rename_i fresh
        rcases entry_append.mp found with old | ⟨_, _, impossible⟩
        · have kept := h i k old
          have apart : hash (rev k) ≠ hash l := by
            intro same
            rw [same, fresh] at kept
            cases kept
          simpa only [enroll, Function.update_of_ne apart] using kept
        · cases impossible
  | mirror j =>
      simp only [step, mirror] at found ⊢
      split at found
      · rename_i l at_j
        rcases (entry_set at_j).mp found with ⟨other, old⟩ | ⟨rfl, rfl, _⟩
        · have apart : hash (rev k) ≠ hash (rev l) := by
            intro same
            have keys := inj (closed k (inS i k _ old)) (closed l (inS j l _ at_j)) same
            have same' : hash k = hash l := congrArg hash (invol.injective keys)
            exact other (sound.distinct i j k l _ _ old at_j same')
          simpa only [Function.update_of_ne apart] using h i k old
        · exact Function.update_self ..
      · exact h i k found

omit [DecidableEq η] in
include inj closed in
/-- The entry found under the hash of `k` was bound for `k` itself. -/
theorem found_key {d : State κ η} (sound : Sound rev hash d) (inS : Within S d) {k : κ}
    (hk : k ∈ S) {i : Nat} {side : Side} (found : d.slot (hash k) = some (i, side)) :
    ∃ l m, d.entries[i]? = some (l, m) ∧ k = oriented rev l side ∧
      (side = .backward → m = true) := by
  obtain ⟨l, m, entry, same, mirrored⟩ := sound.slot _ i side found
  have hl := inS i l m entry
  have member : oriented rev l side ∈ S := by
    cases side with
    | forward => exact hl
    | backward => exact closed l hl
  exact ⟨l, m, entry, inj hk member same, mirrored⟩

omit [DecidableEq η] in
include inj closed invol in
/-- A key that is answered does not wait for the mirror of its reverse. -/
theorem answered_timely {d : State κ η} (sound : Sound rev hash d) (inS : Within S d)
    (h : Unique rev d) {k : κ} (hk : k ∈ S) {j : Nat} {side : Side}
    (found : d.slot (hash k) = some (j, side)) : Timely rev d (.present k) := by
  intro asymmetric i waiting
  obtain ⟨l, m, entry, same, mirrored⟩ := found_key inj closed sound inS hk found
  cases side with
  | forward =>
      have key : k = l := same
      have index := h j i l (rev k) m false entry waiting (.inr (by rw [key]))
      rw [← index, entry] at waiting
      simp only [Option.some.injEq, Prod.mk.injEq] at waiting
      exact asymmetric (by rw [← waiting.1, ← key])
  | backward =>
      have key : rev k = l := by rw [same]; exact invol l
      have index := h j i l (rev k) m false entry waiting (.inl key)
      rw [← index, entry, mirrored rfl] at waiting
      cases waiting

theorem timely_of_unique_enroll {d : State κ η} {k : κ} (unique : Unique rev (enroll hash d k)) :
    Timely rev d (.present k) := by
  intro _ i waiting
  have new : (enroll hash d k).entries[d.entries.length]? = some (k, false) :=
    entry_append.mpr (.inr ⟨rfl, rfl, rfl⟩)
  have old : (enroll hash d k).entries[i]? = some (rev k, false) :=
    entry_append.mpr (.inl waiting)
  have index := unique _ i k (rev k) _ _ new old (.inr rfl)
  have inside := (List.getElem?_eq_some_iff.mp waiting).1
  omega

include invol in
theorem unique_enroll {d : State κ η} {k : κ} (sound : Sound rev hash d)
    (kept : MirrorsKept rev hash d) (h : Unique rev d) (fresh : d.slot (hash k) = none)
    (timely : Timely rev d (.present k)) : Unique rev (enroll hash d k) := by
  have absent (i : Nat) (m : Bool) : d.entries[i]? ≠ some (k, m) :=
    fun entry => sound.bound i k m entry fresh
  -- an entry of the reversed key would either wait for its mirror or answer for `k`
  have alone (i : Nat) (m : Bool) : d.entries[i]? ≠ some (rev k, m) := by
    intro entry
    by_cases symmetric : rev k = k
    · exact absent i m (symmetric ▸ entry)
    · cases m with
      | false => exact timely symmetric i entry
      | true =>
          have mirror := kept i (rev k) entry
          rw [invol k, fresh] at mirror
          cases mirror
  intro i j l l' m n first second related
  rcases entry_append.mp first with old | ⟨rfl, rfl, _⟩ <;>
    rcases entry_append.mp second with old' | ⟨rfl, rfl, _⟩
  · exact h i j l l' m n old old' related
  · rcases related with rfl | rfl
    · exact absurd old (absent i m)
    · exact absurd (by rw [invol l]; exact old) (alone i m)
  · rcases related with rfl | rfl
    · exact absurd old' (absent j n)
    · exact absurd old' (alone j n)
  · rfl

include inj closed invol in
/-- Exactly the timely events keep entries unique. -/
theorem step_unique_iff {d : State κ η} (sound : Sound rev hash d) (inS : Within S d)
    (kept : MirrorsKept rev hash d) (h : Unique rev d) {e : Event κ} (admitted : e.within S) :
    Unique rev (step rev hash d e) ↔ Timely rev d e := by
  cases e with
  | mirror j =>
      refine ⟨fun _ => trivial, fun _ => ?_⟩
      intro i i' k l m n first second related
      obtain ⟨m', old⟩ := mirror_origin first
      obtain ⟨n', old'⟩ := mirror_origin second
      exact h i i' k l m' n' old old' related
  | present k =>
      simp only [step, present]
      split
      · rename_i answer found
        exact ⟨fun _ => answered_timely inj closed invol sound inS h admitted found, fun _ => h⟩
      · rename_i fresh
        exact ⟨timely_of_unique_enroll, unique_enroll invol sound kept h fresh⟩

end Separated
end Operations
end Directory
