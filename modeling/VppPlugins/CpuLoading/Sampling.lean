import VppPlugins.CpuLoading.Accounting
import VppPlugins.Library.Runs

/-! The process node inside VPP's main loop: when its rounds come, and what they divide by. -/
namespace CpuLoading
open Runs

variable {n : Nat}

/-- One iteration of the main loop, in which every thread spends some cycles on a node. -/
structure Iteration (n : Nat) where
  calls : List (DispatchCall n)
  elapsed : ∀ t, ∃ call ∈ calls, call.thread = t ∧ call.delta ≠ 0

inductive Activity (n : Nat) where
  | iteration (main : Iteration n)
  | round (event : UInt64)
  | setSamplingTime (input : Option Rat)

def Activity.events : Activity n → List (Event n)
  | .iteration main => main.calls.map .dispatch
  | .round event => [.round event]
  | .setSamplingTime input => [.setSamplingTime input]

/-- The test of `vlib_process_wait_for_event_or_clock` for a wait that returns at once. -/
def SuspendTimeIsZero (dt : Rat) : Prop := dt < 1 / 100000

instance (dt : Rat) : Decidable (SuspendTimeIsZero dt) := inferInstanceAs (Decidable (_ < _))

/-- What has happened so far, the delay of the wait the process is in, and whether the main loop
has gone through an iteration since it called that wait. -/
structure Vpp (n : Nat) where
  events : List (Event n)
  delay : Rat
  passed : Bool

/-- Why something cannot happen now. -/
inductive Unscheduled where
  | waitReturns
  | processWaits
  | processEnded
  deriving DecidableEq, Repr

section

variable (nodeByName : Fin n → String → Option NodeIndex)

def Vpp.system (s : Vpp n) : System n := run nodeByName s.events

/-- VPP when it starts the process, before its first iteration and after the commands that came
earlier; the process calls its first wait there. -/
def Vpp.start (commands : List (Option Rat)) : Vpp n :=
  let events := commands.map .setSamplingTime
  { events, delay := (run nodeByName events).cpm.samplingTime, passed := false }

/-- A wait with a delay of zero lets nothing in between; any other one lasts an iteration. The
next wait is called right behind a round and reads the sampling time there. -/
def Vpp.step (s : Vpp n) (a : Activity n) : Except Unscheduled (Vpp n) :=
  let events := s.events ++ a.events
  match a with
  | .round _ =>
      if (s.system nodeByName).running = false then .error .processEnded
      else if ¬ SuspendTimeIsZero s.delay ∧ s.passed = false then .error .processWaits
      else .ok { events, delay := (run nodeByName events).cpm.samplingTime, passed := false }
  | .iteration _ =>
      if (s.system nodeByName).running = true ∧ SuspendTimeIsZero s.delay then .error .waitReturns
      else .ok { s with events, passed := true }
  | .setSamplingTime _ =>
      if (s.system nodeByName).running = true ∧ SuspendTimeIsZero s.delay then .error .waitReturns
      else .ok { s with events }

/-- What the loop over the threads divides by, thread after thread. -/
def divisors (cpm : CpuLoadingMain n) : List (Fin n) → List UInt64
  | [] => []
  | i :: rest => cpm.totalTime i :: divisors (sampleThread cpm i) rest

/-- A round that computes the loads divides by no zero. -/
def DividesByNoZero (s : Vpp n) : Activity n → Prop
  | .round event =>
      event ≠ 0 → ∀ d ∈ divisors (s.system nodeByName).cpm (List.finRange n), d ≠ 0
  | _ => True

/-- The cycles of thread `t` since the last sample overflow to zero. -/
def OverflowsToZero (s : Vpp n) (t : Fin n) : Prop :=
  ∃ k, 0 < k ∧ cycles (callsSince s.events t) = UInt64.size * k

/-- The process really waits for a round, and no thread's cycles overflow to zero before it. -/
def WaitsForCycles (s : Vpp n) : Activity n → Prop
  | .round event => event ≠ 0 → ∀ t, ¬ SuspendTimeIsZero s.delay ∧ ¬ OverflowsToZero s t
  | _ => True

variable {nodeByName}

/-- What can happen in a state, and what it leads to. -/
inductive Scheduled (nodeByName : Fin n → String → Option NodeIndex) (s : Vpp n) :
    Activity n → Vpp n → Prop
  | iteration (main : Iteration n)
      (waits : ¬ ((s.system nodeByName).running = true ∧ SuspendTimeIsZero s.delay)) :
      Scheduled nodeByName s (.iteration main)
        { s with events := s.events ++ main.calls.map .dispatch, passed := true }
  | setSamplingTime (input : Option Rat)
      (waits : ¬ ((s.system nodeByName).running = true ∧ SuspendTimeIsZero s.delay)) :
      Scheduled nodeByName s (.setSamplingTime input)
        { s with events := s.events ++ [.setSamplingTime input] }
  | round (event : UInt64) (alive : (run nodeByName s.events).running = true)
      (comes : SuspendTimeIsZero s.delay ∨ s.passed = true) :
      Scheduled nodeByName s (.round event)
        { events := s.events ++ [.round event],
          delay := (run nodeByName (s.events ++ [.round event])).cpm.samplingTime,
          passed := false }

theorem step_scheduled {s s' : Vpp n} {a : Activity n} (done : s.step nodeByName a = .ok s') :
    Scheduled nodeByName s a s' := by
  cases a with
  | iteration main =>
      simp only [Vpp.step] at done
      split at done
      · cases done
      · cases done
        exact .iteration main ‹_›
  | setSamplingTime input =>
      simp only [Vpp.step] at done
      split at done
      · cases done
      · cases done
        exact .setSamplingTime input ‹_›
  | round event =>
      simp only [Vpp.step] at done
      split at done
      · cases done
      · rename_i live
        split at done
        · cases done
        · rename_i comes
          cases done
          refine .round event (Bool.eq_true_of_not_eq_false live) ?_
          rw [not_and_or, not_not, Bool.not_eq_false] at comes
          exact comes

theorem divisors_eq {ts : List (Fin n)} (nodup : ts.Nodup) (cpm : CpuLoadingMain n) :
    divisors cpm ts = ts.map cpm.totalTime := by
  induction ts generalizing cpm with
  | nil => rfl
  | cons i ts ih =>
      obtain ⟨absent, rest⟩ := List.nodup_cons.mp nodup
      rw [divisors, ih rest, List.map_cons]
      congr 1
      apply List.map_congr_left
      intro j member
      have other : j ≠ i := fun same => absent (same ▸ member)
      exact Function.update_of_ne other ..

theorem divisors_nonzero_iff (s : Vpp n) :
    (∀ d ∈ divisors (s.system nodeByName).cpm (List.finRange n), d ≠ 0) ↔
      ∀ t, ¬ UInt64.size ∣ cycles (callsSince s.events t) := by
  rw [divisors_eq (List.nodup_finRange n), List.forall_mem_map]
  simp only [List.mem_finRange, forall_const]
  refine forall_congr' fun t => not_congr ?_
  rw [← UInt64.toNat_inj, Vpp.system, totalTime_wraps, Nat.dvd_iff_mod_eq_zero]
  rfl

/-- The loads a round publishes are numbers where it divides by no zero. -/
theorem published_loads_iff {s : Vpp n} {event : UInt64}
    (alive : (run nodeByName s.events).running = true) (signal : event ≠ 0) :
    (∀ t, (run nodeByName (s.events ++ [.round event])).cpm.lastCpuLoading t ≠ none) ↔
      DividesByNoZero nodeByName s (.round event) := by
  have sampled := (round_samples alive signal).1
  rw [sampled, DividesByNoZero, divisors_eq (List.nodup_finRange n), List.forall_mem_map]
  simp only [signal, ne_eq, not_false_eq_true, forall_const, List.mem_finRange]
  refine forall_congr' fun t => not_congr ?_
  obtain ⟨-, -, load⟩ := sample_threads (List.nodup_finRange n) (run nodeByName s.events).cpm t
  rw [load, if_pos (List.mem_finRange t), sampledLoad, loading]
  split
  · rename_i zero
    exact iff_of_true rfl zero
  · rename_i nonzero
    exact iff_of_false (Option.some_ne_none _) nonzero

/-! What the waits do to the window of the next sample. -/

theorem window_dispatches (events : List (Event n)) (calls : List (DispatchCall n)) :
    window (events ++ calls.map .dispatch) =
      { window events with calls := (window events).calls ++ calls } := by
  induction calls generalizing events with
  | nil => rw [List.map_nil, List.append_nil, List.append_nil]
  | cons call calls ih =>
      rw [List.map_cons, List.append_cons, ih, window_snoc]
      simp only [Window.step, List.append_assoc, List.singleton_append]

theorem callsSince_iteration (events : List (Event n)) (main : Iteration n) (t : Fin n) :
    callsSince (events ++ main.calls.map .dispatch) t =
      callsSince events t ++ main.calls.filter fun call => call.thread = t := by
  rw [callsSince, window_dispatches, List.filter_append]
  rfl

theorem iteration_cycles (main : Iteration n) (t : Fin n) :
    0 < cycles (main.calls.filter fun call => call.thread = t) := by
  obtain ⟨call, member, own, spent⟩ := main.elapsed t
  have counted : call.delta.toNat ∈
      (main.calls.filter fun call => call.thread = t).map fun call => call.delta.toNat :=
    List.mem_map_of_mem (List.mem_filter.mpr ⟨member, decide_eq_true own⟩)
  have positive : 0 < call.delta.toNat :=
    Nat.pos_of_ne_zero fun zero => spent (UInt64.toNat_inj.mp zero)
  exact Nat.lt_of_lt_of_le positive (List.le_sum_of_mem counted)

/-- The invariant of the wait: a process that does not really wait has an empty window, and an
iteration leaves cycles of every thread in it. -/
structure Waiting (nodeByName : Fin n → String → Option NodeIndex) (s : Vpp n) : Prop where
  atOnce : (s.system nodeByName).running = true → SuspendTimeIsZero s.delay →
    (window s.events).calls = []
  elapsed : s.passed = true → ∀ t, 0 < cycles (callsSince s.events t)

theorem window_commands (commands : List (Option Rat)) :
    (window (n := n) (commands.map .setSamplingTime)).calls = [] := by
  induction commands using List.reverseRecOn with
  | nil => rfl
  | append_singleton commands input ih =>
      rw [List.map_append, List.map_singleton, window_snoc]
      exact ih

theorem start_waiting (commands : List (Option Rat)) :
    Waiting nodeByName (Vpp.start nodeByName commands) := by
  exact ⟨fun _ _ => window_commands commands, fun passed => absurd passed Bool.false_ne_true⟩

theorem step_waiting {s s' : Vpp n} {a : Activity n} (waiting : Waiting nodeByName s)
    (done : s.step nodeByName a = .ok s') : Waiting nodeByName s' := by
  cases step_scheduled done with
  | iteration main waits =>
      refine ⟨fun running zero => ?_, fun _ t => ?_⟩
      · rw [Vpp.system, running_window, window_dispatches] at running
        rw [Vpp.system, running_window] at waits
        exact (waits ⟨running, zero⟩).elim
      · have spent := iteration_cycles main t
        rw [callsSince_iteration, cycles_append]
        omega
  | setSamplingTime input waits =>
      refine ⟨fun running zero => ?_, fun passed t => ?_⟩
      · rw [Vpp.system, running_window, window_snoc] at running
        rw [Vpp.system, running_window] at waits
        exact (waits ⟨running, zero⟩).elim
      · rw [callsSince, window_snoc]
        exact waiting.elapsed passed t
  | round event alive comes =>
      refine ⟨fun running _ => ?_, fun passed => absurd passed Bool.false_ne_true⟩
      refine (round_samples alive fun stops => ?_).2
      -- a round without an event would have ended the process
      have live : (run nodeByName s.events).running ≠ false := by rw [alive]; decide
      rw [Vpp.system, run_snoc, CpuLoading.step, cpuLoadingProcess, if_neg live,
        if_pos stops] at running
      cases running

/-- A round that comes at all divides by no zero exactly when the process waited for it. -/
theorem round_divides_iff {s s' : Vpp n} {a : Activity n} (waiting : Waiting nodeByName s)
    (done : s.step nodeByName a = .ok s') :
    DividesByNoZero nodeByName s a ↔ WaitsForCycles s a := by
  cases step_scheduled done with
  | iteration main _ => exact Iff.rfl
  | setSamplingTime input _ => exact Iff.rfl
  | round event alive comes =>
      refine imp_congr_right fun _ => (divisors_nonzero_iff s).trans (forall_congr' fun t => ?_)
      by_cases zero : SuspendTimeIsZero s.delay
      · have empty := waiting.atOnce alive zero
        rw [callsSince, empty]
        exact iff_of_false (fun nonzero => nonzero (Nat.dvd_zero _)) fun both => both.1 zero
      · have spent := waiting.elapsed (comes.resolve_left zero) t
        refine Iff.trans (not_congr ⟨?_, ?_⟩) (and_iff_right zero).symm
        · rintro ⟨k, whole⟩
          refine ⟨k, Nat.pos_of_ne_zero fun none => ?_, whole⟩
          rw [whole, none] at spent
          exact Nat.lt_irrefl _ spent
        · rintro ⟨k, -, whole⟩
          exact ⟨k, whole⟩

end

/-- The loads of a run are computed without a division by zero exactly when every wait of the
process is one, and no thread's cycles overflow to zero between two samples. -/
theorem loads_divide_iff (nodeByName : Fin n → String → Option NodeIndex)
    (commands : List (Option Rat)) (activities : List (Activity n)) :
    EachStep (Vpp.step nodeByName) (fun s a _ => DividesByNoZero nodeByName s a)
        (Vpp.start nodeByName commands) activities ↔
      Guarded (Vpp.step nodeByName) WaitsForCycles (Vpp.start nodeByName commands) activities := by
  refine eachStep_iff_guarded (Waiting nodeByName) ?_ ?_ (start_waiting commands)
  · intro s a s' waiting done
    exact step_waiting waiting done
  · intro s a s' waiting done
    exact round_divides_iff waiting done

/-- A thread without polling nodes. -/
def oneThread : Fin 1 → String → Option NodeIndex := fun _ _ => none

/-- A call of five cycles. -/
def shortIteration : Iteration 1 where
  calls := [⟨0, ⟨5, by decide⟩, 1, 100, 105⟩]
  elapsed t := ⟨_, List.mem_singleton.mpr rfl, (Fin.eq_zero t).symm, by decide⟩

/-- The sampling time is set to 0; the next round still comes after an iteration, and the one
after it at once. `~0` is the answer of `vlib_process_get_events` when there is no event. -/
def zeroSamplingTime : List (Activity 1) :=
  [.setSamplingTime (some 0), .iteration shortIteration, .round 0xFFFFFFFFFFFFFFFF]

theorem zero_time_divides_by_zero :
    ¬ ∀ activities : List (Activity 1),
      EachStep (Vpp.step oneThread) (fun s a _ => DividesByNoZero oneThread s a)
        (Vpp.start oneThread []) activities := by
  intro claimed
  obtain ⟨s, reached, view⟩ := completed
    (x := Runs.run (Vpp.step oneThread) (Vpp.start oneThread []) zeroSamplingTime)
    (fun s => (divisors (s.system oneThread).cpm (List.finRange 1),
      (s.step oneThread (.round 0xFFFFFFFFFFFFFFFF)).toOption.isSome))
    (b := ([0], true)) (by decide +kernel)
  obtain ⟨zero, comes⟩ := Prod.mk.inj view
  cases last : s.step oneThread (.round 0xFFFFFFFFFFFFFFFF) with
  | error e =>
      rw [last] at comes
      cases comes
  | ok s' =>
      have divides := eachStep_last reached last (claimed (zeroSamplingTime ++ [_]))
      rw [DividesByNoZero, zero] at divides
      exact divides (by decide) 0 List.mem_cons_self rfl

end CpuLoading
