import VppPlugins.Library.Directory
import Mathlib.Data.List.Induction

/-! Batches of events of a directory: keys presented one after another, then the mirrors of
all entries that answered. A batch is where a key and its reverse can miss each other. -/
namespace Directory

variable {κ η : Type*} [DecidableEq η] {rev : κ → κ} {hash : κ → η}

/-- Presents keys in order; the answers stand in the order of the keys. -/
def presentAll (hash : κ → η) (d : State κ η) : List κ → State κ η × List (Nat × Side)
  | [] => (d, [])
  | k :: ks =>
      let (d, answer) := present hash d k
      let (d, answers) := presentAll hash d ks
      (d, answer :: answers)

def mirrorAll (rev : κ → κ) (hash : κ → η) (d : State κ η) (is : List Nat) : State κ η :=
  is.foldl (mirror rev hash) d

def batch (rev : κ → κ) (hash : κ → η) (d : State κ η) (ks : List κ) : State κ η :=
  mirrorAll rev hash (presentAll hash d ks).1 ((presentAll hash d ks).2.map Prod.fst)

/-- No entry awaits its mirror. -/
def Settled (d : State κ η) : Prop :=
  ∀ (i : Nat) (k : κ) (m : Bool), d.entries[i]? = some (k, m) → m = true

/-- There is an entry for the key or its reverse. -/
def Known (rev : κ → κ) (d : State κ η) (k : κ) : Prop :=
  ∃ (i : Nat) (l : κ) (m : Bool), d.entries[i]? = some (l, m) ∧ (l = k ∨ l = rev k)

theorem presentAll_snoc (d : State κ η) (ks : List κ) (k : κ) :
    presentAll hash d (ks ++ [k]) =
      ((present hash (presentAll hash d ks).1 k).1,
        (presentAll hash d ks).2 ++ [(present hash (presentAll hash d ks).1 k).2]) := by
  induction ks generalizing d with
  | nil => rfl
  | cons l ks ih =>
      simp only [List.cons_append, presentAll, ih]

/-- What every presentation keeps, all of them keep. -/
theorem presentAll_keeps (P : State κ η → Prop) {ks : List κ}
    (keeps : ∀ d, ∀ k ∈ ks, P d → P (present hash d k).1) {d : State κ η} (h : P d) :
    P (presentAll hash d ks).1 := by
  induction ks using List.reverseRecOn with
  | nil => exact h
  | append_singleton ks k ih =>
      rw [presentAll_snoc]
      refine keeps _ k (by simp) (ih fun d l member => keeps d l (by simp [member]))

theorem present_bound (d : State κ η) (k : κ) (g : η) :
    (present hash d k).1.slot g ≠ none ↔ d.slot g ≠ none ∨ g = hash k := by
  unfold present
  split
  · rename_i answer found
    refine ⟨.inl, fun bound => ?_⟩
    rcases bound with old | rfl
    · exact old
    · rw [found]
      exact Option.some_ne_none _
  · rename_i fresh
    by_cases here : g = hash k
    · simp [enroll, here]
    · simp [enroll, here]

theorem presentAll_bound (d : State κ η) (ks : List κ) (g : η) :
    (presentAll hash d ks).1.slot g ≠ none ↔ d.slot g ≠ none ∨ ∃ k ∈ ks, g = hash k := by
  induction ks using List.reverseRecOn with
  | nil => simp [presentAll]
  | append_singleton ks k ih =>
      rw [presentAll_snoc, present_bound, ih]
      simp only [List.mem_append, List.mem_singleton, or_and_right, exists_or, exists_eq_left,
        or_assoc]

/-- The entries that await their mirror are those of the keys that were unbound before. -/
theorem presentAll_pending {S : Set κ} (inj : Set.InjOn hash S) {d : State κ η}
    (settled : Settled d) {ks : List κ} (inS : ∀ k ∈ ks, k ∈ S) {k : κ} :
    (∃ i : Nat, (presentAll hash d ks).1.entries[i]? = some (k, false)) ↔
      k ∈ ks ∧ d.slot (hash k) = none := by
  induction ks using List.reverseRecOn with
  | nil =>
      refine iff_of_false ?_ fun h => (List.not_mem_nil h.1).elim
      rintro ⟨i, waiting⟩
      cases settled i k false waiting
  | append_singleton ks l ih =>
      have earlier : ∀ k ∈ ks, k ∈ S := fun k member => inS k (by simp [member])
      have last : l ∈ S := inS l (by simp)
      have bound : (presentAll hash d ks).1.slot (hash l) ≠ none ↔ _ :=
        presentAll_bound d ks (hash l)
      rw [presentAll_snoc]
      simp only [List.mem_append, List.mem_singleton]
      unfold present
      split
      · rename_i answer found
        rw [ih earlier]
        refine ⟨fun h => ⟨.inl h.1, h.2⟩, ?_⟩
        rintro ⟨member | rfl, unbound⟩
        · exact ⟨member, unbound⟩
        · have answered := bound.mp (by rw [found]; exact Option.some_ne_none _)
          obtain ⟨l, member, same⟩ := answered.resolve_left fun set => set unbound
          exact ⟨inj last (earlier l member) same ▸ member, unbound⟩
      · rename_i fresh
        have unbound : d.slot (hash l) = none := by
          by_contra set
          exact bound.mpr (.inl set) fresh
        have split : (∃ i : Nat, (enroll hash (presentAll hash d ks).1 l).entries[i]? =
            some (k, false)) ↔
            (∃ i : Nat, (presentAll hash d ks).1.entries[i]? = some (k, false)) ∨ k = l := by
          constructor
          · rintro ⟨i, waiting⟩
            rcases entry_append.mp waiting with old | ⟨_, new, _⟩
            · exact .inl ⟨i, old⟩
            · exact .inr new
          · rintro (⟨i, old⟩ | rfl)
            · exact ⟨i, entry_append.mpr (.inl old)⟩
            · exact ⟨_, entry_append.mpr (.inr ⟨rfl, rfl, rfl⟩)⟩
        rw [split, ih earlier]
        refine ⟨?_, ?_⟩
        · rintro (⟨member, free⟩ | rfl)
          · exact ⟨.inl member, free⟩
          · exact ⟨.inr rfl, unbound⟩
        · rintro ⟨member | new, free⟩
          · exact .inl ⟨member, free⟩
          · exact .inr new

/-- Whatever awaits its mirror after the presentations answered one of them. -/
theorem presentAll_answers {d : State κ η} (settled : Settled d) {ks : List κ} {i : Nat} {k : κ}
    (waiting : (presentAll hash d ks).1.entries[i]? = some (k, false)) :
    i ∈ (presentAll hash d ks).2.map Prod.fst := by
  induction ks using List.reverseRecOn with
  | nil => cases settled i k false waiting
  | append_singleton ks l ih =>
      rw [presentAll_snoc] at waiting ⊢
      rw [List.map_append, List.mem_append]
      unfold present at waiting ⊢
      split at waiting
      · exact .inl (ih waiting)
      · rcases entry_append.mp waiting with old | ⟨rfl, _, _⟩
        · exact .inl (ih old)
        · exact .inr (List.mem_singleton.mpr rfl)

theorem mirrorAll_settled {d : State κ η} {is : List Nat}
    (covered : ∀ (i : Nat) (k : κ), d.entries[i]? = some (k, false) → i ∈ is) :
    Settled (mirrorAll rev hash d is) := by
  induction is generalizing d with
  | nil =>
      intro i k m found
      cases m with
      | true => rfl
      | false => exact (List.not_mem_nil (covered i k found)).elim
  | cons j is ih =>
      refine ih fun i k waiting => ?_
      obtain ⟨m, before⟩ := mirror_origin waiting
      have after : some (k, false) = some (k, m || decide (j = i)) :=
        waiting.symm.trans (mirror_entry before)
      simp only [Option.some.injEq, Prod.mk.injEq, true_and, Bool.false_eq, Bool.or_eq_false_iff,
        decide_eq_false_iff_not] at after
      rw [after.1] at before
      exact (List.mem_cons.mp (covered i k before)).resolve_left (Ne.symm after.2)

/-- After a batch no mirror is outstanding, however its keys hash. -/
theorem batch_settled {d : State κ η} (settled : Settled d) (ks : List κ) :
    Settled (batch rev hash d ks) :=
  mirrorAll_settled fun _ _ => presentAll_answers settled

theorem mirror_unique_iff (d : State κ η) (i : Nat) :
    Unique rev (mirror rev hash d i) ↔ Unique rev d := by
  constructor
  · intro unique j j' k l m n first second
    exact unique j j' k l _ _ (mirror_entry first) (mirror_entry second)
  · intro unique j j' k l m n first second
    obtain ⟨m', old⟩ := mirror_origin first
    obtain ⟨n', old'⟩ := mirror_origin second
    exact unique j j' k l m' n' old old'

theorem mirrorAll_unique_iff (d : State κ η) (is : List Nat) :
    Unique rev (mirrorAll rev hash d is) ↔ Unique rev d := by
  induction is generalizing d with
  | nil => exact Iff.rfl
  | cons i is ih => exact (ih _).trans (mirror_unique_iff d i)

theorem unique_before_present {d : State κ η} {k : κ} (unique : Unique rev (present hash d k).1) :
    Unique rev d := by
  intro i j l l' m n first second
  have kept {i : Nat} {l : κ} {m : Bool} (found : d.entries[i]? = some (l, m)) :
      ∃ m', (step rev hash d (.present k)).entries[i]? = some (l, m') ∧ (m = true → m' = true) :=
    step_entry (.present k) found
  obtain ⟨m', first', _⟩ := kept first
  obtain ⟨n', second', _⟩ := kept second
  exact unique i j l l' m' n' first' second'

section Separated

variable {S : Set κ} (inj : Set.InjOn hash S) (closed : ∀ k ∈ S, rev k ∈ S)
  (invol : Function.Involutive rev)

/-- Entries whose keys lie in `S`, each under its own hash, and mirrors that answer. -/
structure Kept (rev : κ → κ) (hash : κ → η) (S : Set κ) (d : State κ η) : Prop where
  sound : Sound rev hash d
  within : Within S d
  mirrors : MirrorsKept rev hash d

include inj closed invol in
theorem step_kept {d : State κ η} (kept : Kept rev hash S d) {e : Event κ} (admitted : e.within S) :
    Kept rev hash S (step rev hash d e) :=
  ⟨step_sound kept.sound e, step_within kept.within admitted,
    step_mirrorsKept inj closed invol kept.sound kept.within kept.mirrors e⟩

include inj closed invol in
theorem presentAll_kept {d : State κ η} (kept : Kept rev hash S d) {ks : List κ}
    (inS : ∀ k ∈ ks, k ∈ S) : Kept rev hash S (presentAll hash d ks).1 :=
  presentAll_keeps (Kept rev hash S)
    (fun _ k member before => step_kept inj closed invol before (e := .present k) (inS k member))
    kept

omit [DecidableEq η] in
include inj closed invol in
theorem bound_iff_known {d : State κ η} (kept : Kept rev hash S d) (settled : Settled d) {k : κ}
    (hk : k ∈ S) : d.slot (hash k) ≠ none ↔ Known rev d k := by
  constructor
  · intro bound
    obtain ⟨⟨i, side⟩, found⟩ := Option.ne_none_iff_exists'.mp bound
    obtain ⟨l, m, entry, same, _⟩ := found_key inj closed kept.sound kept.within hk found
    cases side with
    | forward => exact ⟨i, l, m, entry, .inl same.symm⟩
    | backward => exact ⟨i, l, m, entry, .inr (by rw [same]; exact (invol l).symm)⟩
  · rintro ⟨i, l, m, entry, rfl | rfl⟩
    · exact kept.sound.bound i l m entry
    · cases settled i (rev k) m entry
      have answer := kept.mirrors i (rev k) entry
      rw [invol k] at answer
      rw [answer]
      exact Option.some_ne_none _

/-- No key of the batch comes in behind its reverse while neither is known. -/
def InTurn (rev : κ → κ) (d : State κ η) (ks : List κ) : Prop :=
  ks.Pairwise fun k l => l = rev k → l ≠ k → Known rev d k

include inj closed invol in
/-- The next key of a batch is timely when no earlier one is its reverse and new. -/
theorem presentAll_timely_iff {d : State κ η} (kept : Kept rev hash S d) (settled : Settled d)
    {ks : List κ} (inS : ∀ k ∈ ks, k ∈ S) (l : κ) :
    Timely rev (presentAll hash d ks).1 (.present l) ↔
      ∀ k ∈ ks, l = rev k → l ≠ k → Known rev d k := by
  have pending := @presentAll_pending κ η _ hash S inj d settled ks inS
  constructor
  · intro timely k member reverse asymmetric
    have back : rev l = k := by rw [reverse]; exact invol k
    rw [← bound_iff_known inj closed invol kept settled (inS k member)]
    intro unbound
    obtain ⟨i, waiting⟩ := pending.mpr ⟨member, unbound⟩
    exact timely (by rw [back]; exact Ne.symm asymmetric) i (by rw [back]; exact waiting)
  · intro known asymmetric i waiting
    obtain ⟨member, unbound⟩ := pending.mp ⟨i, waiting⟩
    have answered := known (rev l) member (invol l).symm (Ne.symm asymmetric)
    exact (bound_iff_known inj closed invol kept settled (inS _ member)).mpr answered unbound

include inj closed invol in
/-- A batch keeps entries unique exactly when its keys come in turn. -/
theorem batch_unique_iff {d : State κ η} (kept : Kept rev hash S d) (settled : Settled d)
    (unique : Unique rev d) {ks : List κ} (inS : ∀ k ∈ ks, k ∈ S) :
    Unique rev (batch rev hash d ks) ↔ InTurn rev d ks := by
  rw [batch, mirrorAll_unique_iff]
  induction ks using List.reverseRecOn with
  | nil => exact iff_of_true unique List.Pairwise.nil
  | append_singleton ks l ih =>
      have earlier : ∀ k ∈ ks, k ∈ S := fun k member => inS k (by simp [member])
      have before := ih earlier
      have atLast := presentAll_kept inj closed invol kept earlier
      rw [presentAll_snoc, InTurn, List.pairwise_append]
      simp only [List.pairwise_singleton, List.mem_singleton, forall_eq, true_and]
      rw [← presentAll_timely_iff inj closed invol kept settled earlier]
      constructor
      · intro after
        have sofar := unique_before_present after
        have exactly := step_unique_iff inj closed invol atLast.sound atLast.within atLast.mirrors
          sofar (e := .present l) (inS l (by simp))
        exact ⟨before.mp sofar, exactly.mp after⟩
      · rintro ⟨inTurn, timely⟩
        have exactly := step_unique_iff inj closed invol atLast.sound atLast.within atLast.mirrors
          (before.mpr inTurn) (e := .present l) (inS l (by simp))
        exact exactly.mpr timely

end Separated
end Directory
