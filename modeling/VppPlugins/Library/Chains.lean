import Mathlib.Logic.Basic
import Mathlib.Data.List.Basic

/-! A chain of stateful functions, called in order until one of them gives an answer
other than the one that lets the chain go on. -/
namespace Chains

universe u v w

variable {F : Type u} {S : Type v} {A : Type w}

/-- The functions called, in order, the state they left and the answer that decided. -/
structure Outcome (F : Type u) (S : Type v) (A : Type w) where
  called : List F
  state : S
  decision : A

def Outcome.after (f : F) (o : Outcome F S A) : Outcome F S A := { o with called := f :: o.called }

variable [DecidableEq A] (call : F → S → A × S) (go : A)

def runChain : List F → S → Outcome F S A
  | [], s => ⟨[], s, go⟩
  | f :: fs, s =>
      if (call f s).1 = go then (runChain fs (call f s).2).after f
      else ⟨[f], (call f s).2, (call f s).1⟩

/-- The answers of all functions, each in the state the ones before it left. -/
def answers : List F → S → List A
  | [], _ => []
  | f :: fs, s => (call f s).1 :: answers fs (call f s).2

/-- Every function the chain asks is `f`: as long as `f` lets the chain go on, so is the next. -/
def AsksOnly (f : F) : List F → S → Prop
  | [], _ => True
  | g :: gs, s => g = f ∧ ((call f s).1 = go → AsksOnly f gs (call f s).2)

variable {call go}

theorem runChain_go {f : F} {s : S} (goes : (call f s).1 = go) (fs : List F) :
    runChain call go (f :: fs) s = (runChain call go fs (call f s).2).after f := by
  rw [runChain, if_pos goes]

theorem runChain_stop {f : F} {s : S} (stops : (call f s).1 ≠ go) (fs : List F) :
    runChain call go (f :: fs) s = ⟨[f], (call f s).2, (call f s).1⟩ := by
  rw [runChain, if_neg stops]

/-- The decision is the first answer that stops the chain, if there is one. -/
theorem runChain_decision (fs : List F) (s : S) :
    (runChain call go fs s).decision =
      ((answers call fs s).find? (fun a => decide (a ≠ go))).getD go := by
  induction fs generalizing s with
  | nil => rfl
  | cons f fs ih =>
      by_cases goes : (call f s).1 = go
      · rw [runChain_go goes, answers, List.find?_cons_of_neg (by simpa using goes)]
        exact ih _
      · rw [runChain_stop goes, answers, List.find?_cons_of_pos (by simpa using goes)]
        rfl

/-! Asking the same function again and again instead of the chain. -/

theorem runChain_replicate {f : F} {fs : List F} {s : S} (only : AsksOnly call go f fs s) :
    runChain call go (List.replicate fs.length f) s = runChain call go fs s := by
  induction fs generalizing s with
  | nil => rfl
  | cons g fs ih =>
      obtain ⟨rfl, rest⟩ := only
      rw [List.length_cons, List.replicate_succ]
      by_cases goes : (call g s).1 = go
      · rw [runChain_go goes, runChain_go goes, ih (rest goes)]
      · rw [runChain_stop goes, runChain_stop goes]

theorem asksOnly_of_called {f : F} {fs : List F} {s : S}
    (same : (runChain call go (List.replicate fs.length f) s).called =
      (runChain call go fs s).called) : AsksOnly call go f fs s := by
  induction fs generalizing s with
  | nil => trivial
  | cons g fs ih =>
      have first : g = f := by
        have head := congrArg List.head? same
        rw [List.length_cons, List.replicate_succ, runChain, runChain] at head
        split at head <;> split at head <;> exact (Option.some.inj head).symm
      subst first
      refine ⟨rfl, fun goes => ih ?_⟩
      rw [List.length_cons, List.replicate_succ, runChain_go goes, runChain_go goes] at same
      exact (List.cons.inj same).2

end Chains
