import VppPlugins.Library.Runs
import Mathlib.Logic.Function.Basic

/-! Step functions made of others: steps that each carry out several smaller ones, and parts
that share no state and take steps in any order. -/
namespace Runs

variable {S T L M ε ε' ι : Type*}

theorem run_append (step : S → L → Except ε S) (s : S) (ls ms : List L) :
    run step s (ls ++ ms) = (run step s ls).bind fun t => run step t ms := by
  induction ls generalizing s with
  | nil => rfl
  | cons l ls ih =>
      rw [List.cons_append, run, run]
      cases step s l with
      | ok t => exact ih t
      | error e => rfl

theorem run_one (step : S → L → Except ε S) (s : S) (l : L) : run step s [l] = step s l := by
  rw [run]
  cases step s l with
  | ok t => rfl
  | error e => rfl

/-- A run faults at the first of its steps that does. -/
theorem run_error_iff {step : S → L → Except ε S} {s : S} {ls : List L} {e : ε} :
    run step s ls = .error e ↔ ∃ before l after t, ls = before ++ l :: after ∧
      run step s before = .ok t ∧ step t l = .error e := by
  constructor
  · intro failed
    induction ls generalizing s with
    | nil => cases failed
    | cons l ls ih =>
        rw [run] at failed
        cases head : step s l with
        | error e' =>
            rw [head] at failed
            cases failed
            exact ⟨[], l, ls, s, rfl, rfl, head⟩
        | ok u =>
            rw [head] at failed
            obtain ⟨before, m, after, t, rfl, reached, last⟩ := ih failed
            exact ⟨l :: before, m, after, t, rfl, run_cons_ok.mpr ⟨u, head, reached⟩, last⟩
  · rintro ⟨before, l, after, t, rfl, reached, last⟩
    rw [run_append, reached]
    change run step t (l :: after) = .error e
    rw [run, last]

/-- When every step of the one system is a run of the other over the labels it expands to,
so is every run, its fault included. -/
theorem run_expands {coarse : T → M → Except ε' T} {step : S → L → Except ε S} {view : T → S}
    {fault : ε → ε'} {expand : M → List L}
    (each : ∀ t m, (coarse t m).map view = (run step (view t) (expand m)).mapError fault)
    (t : T) (ms : List M) :
    (run coarse t ms).map view = (run step (view t) (ms.flatMap expand)).mapError fault := by
  induction ms generalizing t with
  | nil => rfl
  | cons m ms ih =>
      have first := each t m
      rw [List.flatMap_cons, run_append, run]
      cases coarsely : coarse t m with
      | ok u =>
          rw [coarsely] at first
          cases finely : run step (view t) (expand m) with
          | ok s =>
              rw [finely] at first
              cases first
              exact ih u
          | error e =>
              rw [finely] at first
              cases first
      | error e =>
          rw [coarsely] at first
          cases finely : run step (view t) (expand m) with
          | ok s =>
              rw [finely] at first
              cases first
          | error e' =>
              rw [finely] at first
              cases first
              rfl

theorem run_expands_ok {coarse : T → M → Except ε' T} {step : S → L → Except ε S} {view : T → S}
    {fault : ε → ε'} {expand : M → List L}
    (each : ∀ t m, (coarse t m).map view = (run step (view t) (expand m)).mapError fault)
    {t u : T} {ms : List M} (done : run coarse t ms = .ok u) :
    run step (view t) (ms.flatMap expand) = .ok (view u) := by
  have steps := run_expands each t ms
  rw [done] at steps
  cases finely : run step (view t) (ms.flatMap expand) with
  | ok s =>
      rw [finely] at steps
      exact congrArg Except.ok (Except.ok.inj steps).symm
  | error e =>
      rw [finely] at steps
      cases steps

/-- Labels that each stand for a list of smaller ones. -/
theorem run_flatMap (step : S → L → Except ε S) (s : S) (expand : M → List L) (ms : List M) :
    run step s (ms.flatMap expand) = run (fun s m => run step s (expand m)) s ms := by
  induction ms generalizing s with
  | nil => rfl
  | cons m ms ih =>
      rw [List.flatMap_cons, run_append, run]
      cases run step s (expand m) with
      | ok t => exact ih t
      | error e => rfl

/-! Two systems side by side -/

/-- Both fault alike, or both complete in related states. -/
inductive Alike (R : S → T → Prop) : Except ε S → Except ε T → Prop
  | ok {s : S} {t : T} (related : R s t) : Alike R (.ok s) (.ok t)
  | error (e : ε) : Alike R (.error e) (.error e)

theorem Alike.bind {S' T' : Type*} {R : S → T → Prop} {Q : S' → T' → Prop} {x : Except ε S}
    {y : Except ε T} {f : S → Except ε S'} {g : T → Except ε T'} (alike : Alike R x y)
    (next : ∀ s t, R s t → Alike Q (f s) (g t)) : Alike Q (x.bind f) (y.bind g) := by
  cases alike with
  | ok related => exact next _ _ related
  | error e => exact .error e

/-- Steps that keep two systems related do so over whole runs. -/
theorem run_alike {step : S → L → Except ε S} {step' : T → M → Except ε T} {R : S → T → Prop}
    {Q : L → M → Prop} (each : ∀ s t l m, R s t → Q l m → Alike R (step s l) (step' t m))
    {s : S} {t : T} (related : R s t) {ls : List L} {ms : List M} (same : List.Forall₂ Q ls ms) :
    Alike R (run step s ls) (run step' t ms) := by
  induction same generalizing s t with
  | nil => exact .ok related
  | @cons l m ls ms head _ ih =>
      have first := each s t l m related head
      rw [run, run]
      generalize step s l = x at first
      generalize step' t m = y at first
      cases first with
      | ok related' => exact ih related'
      | error e => exact .error e

/-! Parts -/

variable [DecidableEq ι]

/-- A step of one of the parts. -/
def familyStep (step : ι → S → L → Except ε S) (s : ι → S) (l : ι × L) : Except ε (ι → S) :=
  match step l.1 (s l.1) l.2 with
  | .ok t => .ok (Function.update s l.1 t)
  | .error e => .error e

/-- The labels that are part `i`'s own. -/
def labelsOf (i : ι) (ls : List (ι × L)) : List L :=
  ls.filterMap fun l => if l.1 = i then some l.2 else none

theorem labelsOf_cons (i : ι) (l : ι × L) (ls : List (ι × L)) :
    labelsOf i (l :: ls) = if l.1 = i then l.2 :: labelsOf i ls else labelsOf i ls := by
  rw [labelsOf, List.filterMap_cons]
  by_cases own : l.1 = i
  · rw [if_pos own, if_pos own]
    rfl
  · rw [if_neg own, if_neg own]
    rfl

theorem familyStep_ok {step : ι → S → L → Except ε S} {s t : ι → S} {l : ι × L} :
    familyStep step s l = .ok t ↔
      ∃ u, step l.1 (s l.1) l.2 = .ok u ∧ Function.update s l.1 u = t := by
  rw [familyStep]
  cases step l.1 (s l.1) l.2 with
  | ok u => simp
  | error e => simp

/-- An interleaving of the parts completes exactly when each part completes its own labels,
and each ends where they lead it. -/
theorem run_family_iff {step : ι → S → L → Except ε S} {s t : ι → S} {ls : List (ι × L)} :
    run (familyStep step) s ls = .ok t ↔ ∀ i, run (step i) (s i) (labelsOf i ls) = .ok (t i) := by
  induction ls generalizing s with
  | nil =>
      constructor
      · rintro ⟨⟩ i
        rfl
      · intro each
        exact congrArg Except.ok (funext fun i => Except.ok.inj (each i))
  | cons l ls ih =>
      simp only [run_cons_ok, familyStep_ok, ih, labelsOf_cons]
      constructor
      · rintro ⟨_, ⟨u, head, rfl⟩, rest⟩ i
        have later := rest i
        by_cases own : l.1 = i
        · subst own
          rw [Function.update_self] at later
          rw [if_pos rfl]
          exact run_cons_ok.mpr ⟨u, head, later⟩
        · rw [Function.update_of_ne (Ne.symm own)] at later
          rw [if_neg own]
          exact later
      · intro each
        have own := each l.1
        rw [if_pos rfl] at own
        obtain ⟨u, head, rest⟩ := run_cons_ok.mp own
        refine ⟨_, ⟨u, head, rfl⟩, fun i => ?_⟩
        by_cases same : l.1 = i
        · subst same
          rw [Function.update_self]
          exact rest
        · have other := each i
          rw [if_neg same] at other
          rw [Function.update_of_ne (Ne.symm same)]
          exact other

end Runs
