import Mathlib.Logic.Basic
import Mathlib.Data.List.Basic
import Mathlib.Data.List.Induction

/-! Finite runs of a step function that may fault. A run stops at its first
fault, so every statement below is about the states a run really completes. -/
namespace Runs

variable {S A L L' ε ε' : Type*}

/-- Executes the labels from left to right. -/
def run (step : S → L → Except ε S) : S → List L → Except ε S
  | s, [] => .ok s
  | s, l :: ls =>
      match step s l with
      | .ok t => run step t ls
      | .error e => .error e

@[simp] theorem run_nil (step : S → L → Except ε S) (s : S) : run step s [] = .ok s := rfl

theorem run_cons_ok {step : S → L → Except ε S} {s u : S} {l : L} {ls : List L} :
    run step s (l :: ls) = .ok u ↔ ∃ t, step s l = .ok t ∧ run step t ls = .ok u := by
  rw [run]
  cases h : step s l with
  | ok t => simp
  | error e => simp

theorem run_append_ok {step : S → L → Except ε S} {s u : S} {ls ms : List L} :
    run step s (ls ++ ms) = .ok u ↔ ∃ t, run step s ls = .ok t ∧ run step t ms = .ok u := by
  induction ls generalizing s with
  | nil => simp
  | cons l ls ih =>
      simp only [List.cons_append, run_cons_ok, ih]
      constructor
      · rintro ⟨t, first, v, rest, last⟩
        exact ⟨v, ⟨t, first, rest⟩, last⟩
      · rintro ⟨v, ⟨t, first, rest⟩, last⟩
        exact ⟨t, first, v, rest, last⟩

theorem run_snoc_ok {step : S → L → Except ε S} {s u : S} {ls : List L} {l : L} :
    run step s (ls ++ [l]) = .ok u ↔ ∃ t, run step s ls = .ok t ∧ step t l = .ok u := by
  simp only [run_append_ok, run_cons_ok, run_nil, Except.ok.injEq, exists_eq_right]

/-- An invariant of every step is an invariant of every run. -/
theorem run_invariant {step : S → L → Except ε S} (Inv : S → Prop)
    (preserves : ∀ s l t, Inv s → step s l = .ok t → Inv t)
    {s t : S} {ls : List L} (inv : Inv s) (h : run step s ls = .ok t) : Inv t := by
  induction ls generalizing s with
  | nil => cases h; exact inv
  | cons l ls ih =>
      obtain ⟨u, head, rest⟩ := run_cons_ok.mp h
      exact ih (preserves s l u inv head) rest

/-- The same rule for labels that all satisfy `Q`. -/
theorem run_invariant_of {step : S → L → Except ε S} (Inv : S → Prop) {Q : L → Prop}
    (preserves : ∀ s l t, Inv s → Q l → step s l = .ok t → Inv t)
    {s t : S} {ls : List L} (admitted : ∀ l ∈ ls, Q l) (inv : Inv s)
    (h : run step s ls = .ok t) : Inv t := by
  induction ls generalizing s with
  | nil => cases h; exact inv
  | cons l ls ih =>
      obtain ⟨u, head, rest⟩ := run_cons_ok.mp h
      exact ih (fun m member => admitted m (List.mem_cons_of_mem l member))
        (preserves s l u inv (admitted l List.mem_cons_self) head) rest

/-- When every step from the invariant completes and keeps it, so does every run. -/
theorem run_completes {step : S → L → Except ε S} (Inv : S → Prop)
    (progress : ∀ s l, Inv s → ∃ t, step s l = .ok t ∧ Inv t) {s : S} (ls : List L) (inv : Inv s) :
    ∃ t, run step s ls = .ok t ∧ Inv t := by
  induction ls generalizing s with
  | nil => exact ⟨s, rfl, inv⟩
  | cons l ls ih =>
      obtain ⟨u, head, inv'⟩ := progress s l inv
      obtain ⟨t, rest, final⟩ := ih inv'
      exact ⟨t, run_cons_ok.mpr ⟨u, head, rest⟩, final⟩

/-- `P` holds in every state the run reaches, its first state included. -/
def Always (step : S → L → Except ε S) (P : S → Prop) : S → List L → Prop
  | s, [] => P s
  | s, l :: ls => P s ∧ ∀ t, step s l = .ok t → Always step P t ls

/-- Every step the run completes meets `G` in the state before it. -/
def Guarded (step : S → L → Except ε S) (G : S → L → Prop) : S → List L → Prop
  | _, [] => True
  | s, l :: ls => ∀ t, step s l = .ok t → G s l ∧ Guarded step G t ls

theorem Always.head {step : S → L → Except ε S} {P : S → Prop} {s : S} {ls : List L}
    (h : Always step P s ls) : P s := by
  cases ls with
  | nil => exact h
  | cons l ls => exact h.1

/-- `Always` is exactly the property at the end of every completed prefix. -/
theorem always_iff_prefix {step : S → L → Except ε S} {P : S → Prop} {s : S} {ls : List L} :
    Always step P s ls ↔ ∀ ms t, ms <+: ls → run step s ms = .ok t → P t := by
  induction ls generalizing s with
  | nil =>
      constructor
      · intro h ms t below reached
        rw [List.prefix_nil.mp below] at reached
        cases reached
        exact h
      · intro h
        exact h [] s List.prefix_rfl rfl
  | cons l ls ih =>
      constructor
      · rintro ⟨now, later⟩ ms t below reached
        cases ms with
        | nil => cases reached; exact now
        | cons m ms =>
            obtain ⟨rfl, within⟩ := List.cons_prefix_cons.mp below
            obtain ⟨u, head, rest⟩ := run_cons_ok.mp reached
            exact ih.mp (later u head) ms t within rest
      · intro h
        refine ⟨h [] s List.nil_prefix rfl, ?_⟩
        intro u head
        apply ih.mpr
        intro ms t below rest
        exact h (l :: ms) t (List.cons_prefix_cons.mpr ⟨rfl, below⟩)
          (run_cons_ok.mpr ⟨u, head, rest⟩)

/-- An invariant of every step holds in every state of every run. -/
theorem always_of_invariant {step : S → L → Except ε S} (Inv : S → Prop) {P : S → Prop}
    (preserves : ∀ s l t, Inv s → step s l = .ok t → Inv t) (implies : ∀ s, Inv s → P s)
    {s : S} {ls : List L} (inv : Inv s) : Always step P s ls := by
  induction ls generalizing s with
  | nil => exact implies s inv
  | cons l ls ih => exact ⟨implies s inv, fun t head => ih (preserves s l t inv head)⟩

theorem always_true {step : S → L → Except ε S} {s : S} {ls : List L} :
    Always step (fun _ => True) s ls :=
  always_of_invariant (fun _ => True) (fun _ _ _ _ _ => trivial) (fun _ h => h) trivial

theorem always_cons_ok {step : S → L → Except ε S} {P : S → Prop} {s t : S} {l : L} {ls : List L}
    (head : step s l = .ok t) : Always step P s (l :: ls) ↔ P s ∧ Always step P t ls := by
  simp only [Always, head, Except.ok.injEq, forall_eq']

theorem always_cons_error {step : S → L → Except ε S} {P : S → Prop} {s : S} {l : L} {ls : List L}
    {e : ε} (head : step s l = .error e) : Always step P s (l :: ls) ↔ P s := by
  simp only [Always, head, reduceCtorEq, false_implies, implies_true, and_true]

instance decidableAlways (step : S → L → Except ε S) (P : S → Prop) [DecidablePred P] :
    ∀ (s : S) (ls : List L), Decidable (Always step P s ls)
  | s, [] => inferInstanceAs (Decidable (P s))
  | s, l :: ls =>
      match head : step s l with
      | .ok t =>
          have := decidableAlways step P t ls
          decidable_of_iff _ (always_cons_ok head).symm
      | .error _ => decidable_of_iff _ (always_cons_error head).symm

theorem guarded_cons_ok {step : S → L → Except ε S} {G : S → L → Prop} {s t : S} {l : L}
    {ls : List L} (head : step s l = .ok t) :
    Guarded step G s (l :: ls) ↔ G s l ∧ Guarded step G t ls := by
  simp only [Guarded, head, Except.ok.injEq, forall_eq']

theorem guarded_cons_error {step : S → L → Except ε S} {G : S → L → Prop} {s : S} {l : L}
    {ls : List L} {e : ε} (head : step s l = .error e) : Guarded step G s (l :: ls) := by
  intro t other
  rw [head] at other
  cases other

instance decidableGuarded (step : S → L → Except ε S) (G : S → L → Prop)
    [∀ s l, Decidable (G s l)] : ∀ (s : S) (ls : List L), Decidable (Guarded step G s ls)
  | _, [] => isTrue trivial
  | s, l :: ls =>
      match head : step s l with
      | .ok t =>
          have := decidableGuarded step G t ls
          decidable_of_iff _ (guarded_cons_ok head).symm
      | .error _ => isTrue (guarded_cons_error head)

theorem guarded_and {step : S → L → Except ε S} {G H : S → L → Prop} {s : S} {ls : List L} :
    Guarded step (fun s l => G s l ∧ H s l) s ls ↔ Guarded step G s ls ∧ Guarded step H s ls := by
  induction ls generalizing s with
  | nil => exact (and_self_iff (a := True)).symm
  | cons l ls ih =>
      constructor
      · intro both
        refine ⟨fun t head => ?_, fun t head => ?_⟩
        · exact ⟨(both t head).1.1, (ih.mp (both t head).2).1⟩
        · exact ⟨(both t head).1.2, (ih.mp (both t head).2).2⟩
      · rintro ⟨first, second⟩ t head
        obtain ⟨meets, rest⟩ := first t head
        obtain ⟨meets', rest'⟩ := second t head
        exact ⟨⟨meets, meets'⟩, ih.mpr ⟨rest, rest'⟩⟩

/-- Reads a fact about the final state off an evaluated run. -/
theorem completed {B : Type*} {x : Except ε S} (f : S → B) {b : B}
    (h : x.toOption.map f = some b) : ∃ s, x = .ok s ∧ f s = b := by
  cases x with
  | ok s => exact ⟨s, rfl, Option.some.inj h⟩
  | error e => cases h

/-- Rule for properties kept by guarded steps only. `Inv` carries the facts that
hold of every run, guarded or not, and `Q` what is assumed of the run's states. -/
theorem always_of_guarded {step : S → L → Except ε S} (Inv : S → Prop) {P Q : S → Prop}
    {G : S → L → Prop}
    (keeps : ∀ s l t, Inv s → P s → G s l → step s l = .ok t → Q t → Inv t ∧ P t)
    {s : S} {ls : List L} (within : Always step Q s ls) (inv : Inv s) (holds : P s)
    (guarded : Guarded step G s ls) : Always step P s ls := by
  induction ls generalizing s with
  | nil => exact holds
  | cons l ls ih =>
      refine ⟨holds, ?_⟩
      intro t head
      obtain ⟨meets, rest⟩ := guarded t head
      have later := within.2 t head
      obtain ⟨inv', holds'⟩ := keeps s l t inv holds meets head later.head
      exact ih later inv' holds' rest

/-- When moreover an unguarded step always breaks `P`, the guard is exact. -/
theorem always_iff_guarded {step : S → L → Except ε S} (Inv : S → Prop) {P Q : S → Prop}
    {G : S → L → Prop}
    (keeps : ∀ s l t, Inv s → P s → G s l → step s l = .ok t → Q t → Inv t ∧ P t)
    (breaks : ∀ s l t, Inv s → P s → ¬ G s l → step s l = .ok t → Q t → ¬ P t)
    {s : S} {ls : List L} (within : Always step Q s ls) (inv : Inv s) (holds : P s) :
    Always step P s ls ↔ Guarded step G s ls := by
  refine ⟨?_, always_of_guarded Inv keeps within inv holds⟩
  intro always
  induction ls generalizing s with
  | nil => trivial
  | cons l ls ih =>
      intro t head
      have later := always.2 t head
      have admitted := within.2 t head
      have meets : G s l := by
        by_contra escape
        exact breaks s l t inv holds escape head admitted.head later.head
      obtain ⟨inv', holds'⟩ := keeps s l t inv holds meets head admitted.head
      exact ⟨meets, ih admitted inv' holds' later⟩

/-- Along a completed run the guard is met at every place of its labels. -/
theorem guarded_iff_split {step : S → L → Except ε S} {G : S → L → Prop} {s u : S} {ls : List L}
    (done : run step s ls = .ok u) :
    Guarded step G s ls ↔ ∀ before l after t, ls = before ++ l :: after →
      run step s before = .ok t → G t l := by
  induction ls generalizing s with
  | nil =>
      refine iff_of_true trivial fun before l after t split _ => ?_
      exact (List.append_ne_nil_of_right_ne_nil before (List.cons_ne_nil l after) split.symm).elim
  | cons l ls ih =>
      obtain ⟨v, head, rest⟩ := run_cons_ok.mp done
      rw [guarded_cons_ok head, ih rest]
      constructor
      · rintro ⟨first, later⟩ before m after t split reached
        cases before with
        | nil =>
            cases split
            cases reached
            exact first
        | cons b before =>
            cases split
            obtain ⟨w, head', reached'⟩ := run_cons_ok.mp reached
            cases head.symm.trans head'
            exact later before m after t rfl reached'
      · intro each
        refine ⟨each [] l ls s rfl rfl, ?_⟩
        rintro before m after t rfl reached
        exact each (l :: before) m after t rfl (run_cons_ok.mpr ⟨v, head, reached⟩)

/-- Every step the run attempts, completed or not, meets `G` in the state before it. -/
def Attempted (step : S → L → Except ε S) (G : S → L → Prop) : S → List L → Prop
  | _, [] => True
  | s, l :: ls => G s l ∧ ∀ t, step s l = .ok t → Attempted step G t ls

theorem attempted_iff {step : S → L → Except ε S} (Inv : S → Prop) {G H : S → L → Prop}
    (preserves : ∀ s l t, Inv s → step s l = .ok t → Inv t) (agree : ∀ s l, Inv s → (G s l ↔ H s l))
    {s : S} {ls : List L} (inv : Inv s) : Attempted step G s ls ↔ Attempted step H s ls := by
  induction ls generalizing s with
  | nil => exact Iff.rfl
  | cons l ls ih =>
      simp only [Attempted, agree s l inv]
      refine and_congr_right fun _ => forall_congr' fun t => ?_
      exact imp_congr_right fun head => ih (preserves s l t inv head)

theorem attempted_last {step : S → L → Except ε S} {G : S → L → Prop} {s t : S} {ls : List L}
    {l : L} (done : run step s ls = .ok t) (attempted : Attempted step G s (ls ++ [l])) : G t l := by
  induction ls generalizing s with
  | nil => cases done; exact attempted.1
  | cons m ls ih =>
      obtain ⟨u, head, rest⟩ := run_cons_ok.mp done
      exact ih rest (attempted.2 u head)

/-- Every step the run completes, with the states before and after it, meets `Q`. -/
def EachStep (step : S → L → Except ε S) (Q : S → L → S → Prop) : S → List L → Prop
  | _, [] => True
  | s, l :: ls => ∀ t, step s l = .ok t → Q s l t ∧ EachStep step Q t ls

/-- Rule for what guarded steps do, with an invariant that they keep. -/
theorem eachStep_of_guarded {step : S → L → Except ε S} (Inv : S → Prop) {Q : S → L → S → Prop}
    {G : S → L → Prop} (keeps : ∀ s l t, Inv s → G s l → step s l = .ok t → Inv t ∧ Q s l t)
    {s : S} {ls : List L} (inv : Inv s) (guarded : Guarded step G s ls) :
    EachStep step Q s ls := by
  induction ls generalizing s with
  | nil => trivial
  | cons l ls ih =>
      intro t head
      obtain ⟨meets, rest⟩ := guarded t head
      obtain ⟨inv', done⟩ := keeps s l t inv meets head
      exact ⟨done, ih inv' rest⟩

/-- Where what a step does is settled by the state before it, the guard is exact. -/
theorem eachStep_iff_guarded {step : S → L → Except ε S} (Inv : S → Prop) {Q : S → L → S → Prop}
    {G : S → L → Prop} (preserves : ∀ s l t, Inv s → step s l = .ok t → Inv t)
    (agree : ∀ s l t, Inv s → step s l = .ok t → (Q s l t ↔ G s l)) {s : S} {ls : List L}
    (inv : Inv s) : EachStep step Q s ls ↔ Guarded step G s ls := by
  induction ls generalizing s with
  | nil => exact Iff.rfl
  | cons l ls ih =>
      refine forall_congr' fun t => imp_congr_right fun head => ?_
      exact and_congr (agree s l t inv head) (ih (preserves s l t inv head))

theorem eachStep_last {step : S → L → Except ε S} {Q : S → L → S → Prop} {s t u : S} {ls : List L}
    {l : L} (before : run step s ls = .ok t) (last : step t l = .ok u)
    (each : EachStep step Q s (ls ++ [l])) : Q t l u := by
  induction ls generalizing s with
  | nil => cases before; exact (each u last).1
  | cons m ls ih =>
      obtain ⟨v, head, rest⟩ := run_cons_ok.mp before
      exact ih rest (each v head).2

theorem always_append {step : S → L → Except ε S} {P : S → Prop} {s t : S} {ls ms : List L}
    (done : run step s ls = .ok t) (first : Always step P s ls) (last : Always step P t ms) :
    Always step P s (ls ++ ms) := by
  induction ls generalizing s with
  | nil => cases done; exact last
  | cons l ls ih =>
      obtain ⟨u, head, rest⟩ := run_cons_ok.mp done
      refine ⟨first.1, fun v other => ?_⟩
      cases head.symm.trans other
      exact ih rest (first.2 u head)

/-- A step-by-step simulation along `R` carries whole completed runs. -/
theorem run_simulates {step : S → L → Except ε S} {abs : A → L → Except ε' A}
    {R : S → A → Prop}
    (sim : ∀ s a l t, R s a → step s l = .ok t → ∃ b, abs a l = .ok b ∧ R t b)
    {s t : S} {a : A} {ls : List L} (start : R s a) (h : run step s ls = .ok t) :
    ∃ b, run abs a ls = .ok b ∧ R t b := by
  induction ls generalizing s a with
  | nil => cases h; exact ⟨a, rfl, start⟩
  | cons l ls ih =>
      obtain ⟨u, head, rest⟩ := run_cons_ok.mp h
      obtain ⟨b, matched, related⟩ := sim s a l u start head
      obtain ⟨c, completed, final⟩ := ih related rest
      exact ⟨c, run_cons_ok.mpr ⟨b, matched, completed⟩, final⟩

/-! A step function that never faults is run by `foldl`. -/

theorem run_of_total {step : S → L → Except ε S} {apply : S → L → S}
    (total : ∀ s l, step s l = .ok (apply s l)) (s : S) (ls : List L) :
    run step s ls = .ok (ls.foldl apply s) := by
  induction ls generalizing s with
  | nil => rfl
  | cons l ls ih =>
      rw [run, total]
      exact ih _

/-- A state other than the first one is left only by letters that do not stay in it, so a
run is in it exactly when it entered it and then only stayed. -/
theorem foldl_reaches_iff {step : S → L → S} {q : S} {Enters : S → L → Prop} {Stays : L → Prop}
    (into : ∀ s l, step s l = q ↔ Enters s l ∨ s = q ∧ Stays l) {s : S} (start : s ≠ q)
    (ls : List L) :
    ls.foldl step s = q ↔
      ∃ before l after, ls = before ++ l :: after ∧ Enters (before.foldl step s) l ∧
        ∀ m ∈ after, Stays m := by
  induction ls using List.reverseRecOn with
  | nil =>
      constructor
      · intro here
        exact (start here).elim
      · rintro ⟨before, l, after, split, -⟩
        exact (List.append_ne_nil_of_right_ne_nil before (List.cons_ne_nil l after) split.symm).elim
  | append_singleton ls last ih =>
      rw [List.foldl_append, List.foldl_cons, List.foldl_nil, into, ih]
      constructor
      · rintro (entered | ⟨⟨before, l, after, rfl, entered, stayed⟩, stays⟩)
        · exact ⟨ls, last, [], rfl, entered, fun m member => (List.not_mem_nil member).elim⟩
        · refine ⟨before, l, after ++ [last], by simp, entered, fun m member => ?_⟩
          rcases List.mem_append.mp member with old | new
          · exact stayed m old
          · rw [List.mem_singleton.mp new]
            exact stays
      · rintro ⟨before, l, after, split, entered, stayed⟩
        rcases List.eq_nil_or_concat after with rfl | ⟨inner, m, rfl⟩
        · obtain ⟨rfl, same⟩ := List.append_inj' split rfl
          cases same
          exact Or.inl entered
        · rw [List.concat_eq_append] at split stayed
          rw [← List.cons_append, ← List.append_assoc] at split
          obtain ⟨rfl, same⟩ := List.append_inj' split rfl
          cases same
          exact Or.inr ⟨⟨before, l, inner, rfl, entered,
            fun k member => stayed k (List.mem_append_left _ member)⟩, stayed last (by simp)⟩

end Runs
