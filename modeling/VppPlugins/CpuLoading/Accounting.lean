import VppPlugins.CpuLoading.Plugin
import Mathlib.Algebra.Order.Field.Rat
import Mathlib.Data.List.FinRange
import Mathlib.Data.List.Induction
import Mathlib.Tactic.FieldSimp
import Mathlib.Tactic.Ring
import Mathlib.Tactic.Positivity
import Mathlib.Tactic.Linarith

/-! What the counters stand for: the cycles of the calls since the last sample, thread by
thread, and of the idle ones among them, node by node. -/
namespace CpuLoading

variable {n : Nat}

/-- The calls since the last round that took a sample, and whether the process still runs. -/
structure Window (n : Nat) where
  calls : List (DispatchCall n)
  running : Bool

def Window.step (w : Window n) : Event n → Window n
  | .dispatch call => { w with calls := w.calls ++ [call] }
  | .round event =>
      if w.running = false then w
      else if event = 0 then { w with running := false }
      else { w with calls := [] }
  | .setSamplingTime _ => w

def window (events : List (Event n)) : Window n := events.foldl Window.step ⟨[], true⟩

/-- The calls of thread `t` since the last sample. -/
def callsSince (events : List (Event n)) (t : Fin n) : List (DispatchCall n) :=
  (window events).calls.filter fun call => call.thread = t

def cycles (calls : List (DispatchCall n)) : Nat := (calls.map fun call => call.delta.toNat).sum

section

variable (nodeByName : Fin n → String → Option NodeIndex)

/-- The call polled node `j` of its thread in vain. -/
def IdlePoll (j : PollingNode) (call : DispatchCall n) : Prop :=
  call.nVectors = 0 ∧ nodeByName call.thread (pollTypeStr j) = some call.node

instance (j : PollingNode) (call : DispatchCall n) : Decidable (IdlePoll nodeByName j call) :=
  inferInstanceAs (Decidable (_ ∧ _))

/-- The cycles that the calls spent polling node `j` in vain. -/
def idleCycles (j : PollingNode) (calls : List (DispatchCall n)) : Nat :=
  cycles (calls.filter fun call => IdlePoll nodeByName j call)

/-- The cycles of the other calls. -/
def busyCycles (calls : List (DispatchCall n)) : Nat :=
  cycles (calls.filter fun call => ¬ ∃ j ∈ forEachPollTypeNode, IdlePoll nodeByName j call)

/-- A thread's polling nodes, where it has them, are different nodes. -/
def Distinct : Prop := ∀ t i j node, nodeByName t (pollTypeStr i) = some node →
  nodeByName t (pollTypeStr j) = some node → i = j

/-- No thread accumulates 2^64 cycles between two samples. -/
def Within (events : List (Event n)) : Prop :=
  ∀ ps, ps <+: events → ∀ t, cycles (callsSince ps t) < UInt64.size

/-- The counters of thread `t` after a run, and what the next sample publishes. -/
structure Accounted (events : List (Event n)) (t : Fin n) : Prop where
  total : ((run nodeByName events).cpm.totalTime t).toNat = cycles (callsSince events t)
  idle : ∀ j, ((run nodeByName events).cpm.idleTime j t).toNat =
    idleCycles nodeByName j (callsSince events t)
  bounded : (forEachPollTypeNode.map fun j =>
    ((run nodeByName events).cpm.idleTime j t).toNat).sum ≤
      ((run nodeByName events).cpm.totalTime t).toNat
  published : ∀ event, (run nodeByName events).running = true → event ≠ 0 →
    (run nodeByName events).cpm.totalTime t ≠ 0 →
    ∃ load : Rat, (run nodeByName (events ++ [.round event])).cpm.lastCpuLoading t = some load ∧
      load = 100 * (busyCycles nodeByName (callsSince events t) / cycles (callsSince events t)) ∧
      0 ≤ load ∧ load ≤ 100
  isolated : ∀ call : DispatchCall n, call.thread ≠ t →
    (run nodeByName (events ++ [.dispatch call])).cpm.totalTime t =
        (run nodeByName events).cpm.totalTime t ∧
      ∀ j, (run nodeByName (events ++ [.dispatch call])).cpm.idleTime j t =
        (run nodeByName events).cpm.idleTime j t

variable {nodeByName}

theorem run_snoc (events : List (Event n)) (e : Event n) :
    run nodeByName (events ++ [e]) = step (run nodeByName events) e := List.foldl_concat ..

theorem window_snoc (events : List (Event n)) (e : Event n) :
    window (events ++ [e]) = (window events).step e := List.foldl_concat ..

/-! The loops, element by element. -/

theorem recordIdle_idleTime {cpm : CpuLoadingMain n} {call : DispatchCall n}
    {js : List PollingNode}
    (unique : ∀ i j, cpm.pollingNodeIndex i call.thread = call.node.value →
      cpm.pollingNodeIndex j call.thread = call.node.value → i = j) (j : PollingNode) (t : Fin n) :
    (recordIdle cpm call js).idleTime j t =
      if t = call.thread ∧ j ∈ js ∧ cpm.pollingNodeIndex j call.thread = call.node.value then
        cpm.idleTime j t + call.delta
      else cpm.idleTime j t := by
  induction js with
  | nil => simp [recordIdle]
  | cons i js ih =>
      rw [recordIdle]
      split
      · rename_i here
        by_cases same : j = i
        · subst same
          by_cases own : t = call.thread
          · subst own
            simp [here]
          · simp [own]
        · have other : cpm.pollingNodeIndex j call.thread ≠ call.node.value :=
            fun also => same (unique j i also here)
          simp [Function.update_of_ne same, other]
      · rename_i elsewhere
        rw [ih]
        by_cases same : j = i
        · subst same
          simp [elsewhere]
        · simp [same]

theorem recordIdle_rest (cpm : CpuLoadingMain n) (call : DispatchCall n) (js : List PollingNode) :
    (recordIdle cpm call js).totalTime = cpm.totalTime ∧
      (recordIdle cpm call js).pollingNodeIndex = cpm.pollingNodeIndex := by
  induction js with
  | nil => exact ⟨rfl, rfl⟩
  | cons i js ih =>
      rw [recordIdle]
      split
      · exact ⟨rfl, rfl⟩
      · exact ih

end

/-- A thread's counters and load when a sample is taken of it. -/
def sampledLoad (cpm : CpuLoadingMain n) (i : Fin n) : Option Rat :=
  loading (forEachPollTypeNode.foldl (fun sum j => sum + cpm.idleTime j i) 0) (cpm.totalTime i)

theorem sample_index (ts : List (Fin n)) (cpm : CpuLoadingMain n) :
    (ts.foldl sampleThread cpm).pollingNodeIndex = cpm.pollingNodeIndex := by
  induction ts generalizing cpm with
  | nil => rfl
  | cons t ts ih => exact ih (sampleThread cpm t)

theorem sample_threads {ts : List (Fin n)} (nodup : ts.Nodup) (cpm : CpuLoadingMain n) (i : Fin n) :
    (∀ j, (ts.foldl sampleThread cpm).idleTime j i = if i ∈ ts then 0 else cpm.idleTime j i) ∧
      (ts.foldl sampleThread cpm).totalTime i = (if i ∈ ts then 0 else cpm.totalTime i) ∧
      (ts.foldl sampleThread cpm).lastCpuLoading i =
        (if i ∈ ts then sampledLoad cpm i else cpm.lastCpuLoading i) := by
  induction ts generalizing cpm with
  | nil => simp
  | cons t ts ih =>
      obtain ⟨absent, rest⟩ := List.nodup_cons.mp nodup
      obtain ⟨idle, total, load⟩ := ih rest (sampleThread cpm t)
      rw [List.foldl_cons]
      by_cases here : i = t
      · subst here
        rw [if_neg absent] at total load
        simp only [if_neg absent] at idle
        refine ⟨?_, ?_, ?_⟩
        · intro j
          rw [idle, if_pos List.mem_cons_self]
          simp [sampleThread]
        · rw [total, if_pos List.mem_cons_self]
          simp [sampleThread]
        · rw [load, if_pos List.mem_cons_self]
          simp [sampleThread, sampledLoad]
      · have member : i ∈ t :: ts ↔ i ∈ ts := by simp [here]
        refine ⟨?_, ?_, ?_⟩
        · intro j
          rw [idle]
          simp [member, sampleThread, Function.update_of_ne here]
        · rw [total]
          simp [member, sampleThread, Function.update_of_ne here]
        · rw [load]
          simp [member, sampleThread, sampledLoad, Function.update_of_ne here]

theorem cycles_append (calls calls' : List (DispatchCall n)) :
    cycles (calls ++ calls') = cycles calls + cycles calls' := by
  rw [cycles, List.map_append, List.sum_append]
  rfl

theorem cycles_single (call : DispatchCall n) : cycles [call] = call.delta.toNat := by
  simp [cycles]

theorem callsSince_dispatch (events : List (Event n)) (call : DispatchCall n) (t : Fin n) :
    callsSince (events ++ [.dispatch call]) t =
      if call.thread = t then callsSince events t ++ [call] else callsSince events t := by
  simp only [callsSince, window_snoc, Window.step, List.filter_append, List.filter_singleton,
    decide_eq_true_eq, Bool.cond_eq_ite]
  split
  · rfl
  · exact List.append_nil _

section

variable {nodeByName : Fin n → String → Option NodeIndex}

theorem polled_iff (j : PollingNode) (t : Fin n) (node : NodeIndex) :
    (cpuLoadingLastInit nodeByName).pollingNodeIndex j t = node.value ↔
      nodeByName t (pollTypeStr j) = some node := by
  simp only [cpuLoadingLastInit]
  cases nodeByName t (pollTypeStr j) with
  | none => exact ⟨fun absent => absurd absent.symm node.valid, fun none => (nomatch none)⟩
  | some other =>
      rw [Option.some.injEq]
      constructor
      · intro same
        cases other
        cases node
        cases same
        rfl
      · intro same
        rw [same]

theorem idleCycles_snoc (j : PollingNode) (calls : List (DispatchCall n)) (call : DispatchCall n) :
    idleCycles nodeByName j (calls ++ [call]) =
      idleCycles nodeByName j calls +
        if IdlePoll nodeByName j call then call.delta.toNat else 0 := by
  simp only [idleCycles, List.filter_append, List.filter_singleton, cycles_append,
    decide_eq_true_eq, Bool.cond_eq_ite]
  split
  · rw [cycles_single]
  · rfl

theorem running_window (events : List (Event n)) :
    (run nodeByName events).running = (window events).running := by
  induction events using List.reverseRecOn with
  | nil => rfl
  | append_singleton events e ih =>
      rw [run_snoc, window_snoc]
      cases e with
      | dispatch call => exact ih
      | setSamplingTime input => exact ih
      | round event =>
          simp only [step, cpuLoadingProcess, Window.step, ih]
          split
          · exact ih
          · split
            · rfl
            · rfl

/-- A round that is not waited for, or that ends the process, leaves counters and window. -/
theorem round_passes {events : List (Event n)} {event : UInt64}
    (passes : (run nodeByName events).running = false ∨ event = 0) :
    (run nodeByName (events ++ [.round event])).cpm = (run nodeByName events).cpm ∧
      (window (events ++ [.round event])).calls = (window events).calls := by
  rw [run_snoc, window_snoc, step, cpuLoadingProcess, Window.step, running_window]
  rw [running_window] at passes
  cases running : (window events).running with
  | false => exact ⟨rfl, rfl⟩
  | true =>
      have stops : event = 0 := passes.resolve_left (by rw [running]; decide)
      simp only [Bool.true_eq_false, if_false, if_pos stops, and_self]

theorem round_samples {events : List (Event n)} {event : UInt64}
    (running : (run nodeByName events).running = true) (signal : event ≠ 0) :
    (run nodeByName (events ++ [.round event])).cpm =
        (List.finRange n).foldl sampleThread (run nodeByName events).cpm ∧
      (window (events ++ [.round event])).calls = [] := by
  have live : (window events).running ≠ false := by rw [← running_window, running]; decide
  rw [run_snoc, window_snoc, step, cpuLoadingProcess, Window.step, if_neg (by rw [running]; decide),
    if_neg live, if_neg signal, if_neg signal]
  exact ⟨rfl, rfl⟩

/-- Setting the time between samples touches no counter. -/
theorem setSamplingTime_rest (cpm : CpuLoadingMain n) (input : Option Rat) :
    (cpuLoadingSetSamplingTime cpm input).1.pollingNodeIndex = cpm.pollingNodeIndex ∧
      (cpuLoadingSetSamplingTime cpm input).1.totalTime = cpm.totalTime ∧
      (cpuLoadingSetSamplingTime cpm input).1.idleTime = cpm.idleTime := by
  cases input with
  | none => exact ⟨rfl, rfl, rfl⟩
  | some value => exact ⟨rfl, rfl, rfl⟩

theorem statistics_totalTime (cpm : CpuLoadingMain n) (call : DispatchCall n) (t : Fin n) :
    (cpuLoadingTimeStatistics cpm call).1.totalTime t =
      if call.thread = t then cpm.totalTime t + call.delta else cpm.totalTime t := by
  have total : (cpuLoadingTimeStatistics cpm call).1.totalTime =
      Function.update cpm.totalTime call.thread (cpm.totalTime call.thread + call.delta) := by
    rw [cpuLoadingTimeStatistics]
    split
    · exact (recordIdle_rest ..).1
    · rfl
  rw [total]
  by_cases own : call.thread = t
  · subst own
    rw [Function.update_self, if_pos rfl]
  · rw [Function.update_of_ne (Ne.symm own), if_neg own]

/-- However long the process waits, `total_time` holds the cycles of its thread modulo 2^64. -/
theorem totalTime_wraps (events : List (Event n)) (t : Fin n) :
    ((run nodeByName events).cpm.totalTime t).toNat =
      cycles (callsSince events t) % UInt64.size := by
  induction events using List.reverseRecOn with
  | nil => rfl
  | append_singleton events e ih =>
      cases e with
      | dispatch call =>
          rw [run_snoc, step, statistics_totalTime, callsSince_dispatch]
          split
          · rw [UInt64.toNat_add, ih, cycles_append, cycles_single]
            exact Nat.mod_add_mod ..
          · exact ih
      | setSamplingTime input =>
          rw [run_snoc, step, (setSamplingTime_rest ..).2.1, callsSince, window_snoc]
          exact ih
      | round event =>
          by_cases passes : (run nodeByName events).running = false ∨ event = 0
          · obtain ⟨cpm, calls⟩ := round_passes passes
            rw [cpm, callsSince, calls]
            exact ih
          · obtain ⟨live, signal⟩ := not_or.mp passes
            obtain ⟨cpm, calls⟩ := round_samples (Bool.eq_true_of_not_eq_false live) signal
            obtain ⟨-, zero, -⟩ :=
              sample_threads (List.nodup_finRange n) (run nodeByName events).cpm t
            rw [cpm, zero, if_pos (List.mem_finRange t), callsSince, calls]
            rfl

/-- Every call is busy or an idle poll of one node. -/
theorem cycles_split (distinct : Distinct nodeByName) (calls : List (DispatchCall n)) :
    idleCycles nodeByName .dpdk calls + idleCycles nodeByName .virtio calls +
      busyCycles nodeByName calls = cycles calls := by
  induction calls using List.reverseRecOn with
  | nil => rfl
  | append_singleton calls call ih =>
      have busy : busyCycles nodeByName (calls ++ [call]) = busyCycles nodeByName calls +
          if IdlePoll nodeByName .dpdk call ∨ IdlePoll nodeByName .virtio call then 0
          else call.delta.toNat := by
        simp only [busyCycles, List.filter_append, List.filter_singleton, cycles_append,
          decide_eq_true_eq, Bool.cond_eq_ite, forEachPollTypeNode, List.mem_cons,
          List.not_mem_nil, or_false, exists_eq_or_imp, exists_eq_left]
        by_cases idle : IdlePoll nodeByName .dpdk call ∨ IdlePoll nodeByName .virtio call
        · rw [if_neg (not_not.mpr idle), if_pos idle]
          rfl
        · rw [if_pos idle, if_neg idle, cycles_single]
      rw [idleCycles_snoc, idleCycles_snoc, busy, cycles_append, cycles_single, ← ih]
      by_cases dpdk : IdlePoll nodeByName .dpdk call
      · have other : ¬ IdlePoll nodeByName .virtio call := fun virtio =>
          absurd (distinct _ _ _ _ dpdk.2 virtio.2) (by decide)
        rw [if_pos dpdk, if_neg other, if_pos (.inl dpdk)]
        omega
      · by_cases virtio : IdlePoll nodeByName .virtio call
        · rw [if_neg dpdk, if_pos virtio, if_pos (.inr virtio)]
          omega
        · rw [if_neg dpdk, if_neg virtio, if_neg (not_or.mpr ⟨dpdk, virtio⟩)]
          omega

theorem idleCycles_le (distinct : Distinct nodeByName) (j : PollingNode)
    (calls : List (DispatchCall n)) : idleCycles nodeByName j calls ≤ cycles calls := by
  have split := cycles_split distinct calls
  cases j with
  | dpdk => omega
  | virtio => omega

/-- The invariant, for all threads at once. -/
structure Counts (nodeByName : Fin n → String → Option NodeIndex) (events : List (Event n)) :
    Prop where
  index : (run nodeByName events).cpm.pollingNodeIndex =
    (cpuLoadingLastInit nodeByName).pollingNodeIndex
  running : (run nodeByName events).running = (window events).running
  total : ∀ t, ((run nodeByName events).cpm.totalTime t).toNat = cycles (callsSince events t)
  idle : ∀ t j, ((run nodeByName events).cpm.idleTime j t).toNat =
    idleCycles nodeByName j (callsSince events t)

theorem add_exact {a b : UInt64} (fits : a.toNat + b.toNat < UInt64.size) :
    (a + b).toNat = a.toNat + b.toNat := by
  rw [UInt64.toNat_add]
  exact Nat.mod_eq_of_lt fits

theorem within_initial {events : List (Event n)} {e : Event n} (within : Within (events ++ [e])) :
    Within events :=
  fun ps below t => within ps (below.trans (List.prefix_append ..)) t

theorem statistics_index (cpm : CpuLoadingMain n) (call : DispatchCall n) :
    (cpuLoadingTimeStatistics cpm call).1.pollingNodeIndex = cpm.pollingNodeIndex := by
  rw [cpuLoadingTimeStatistics]
  split
  · exact (recordIdle_rest ..).2
  · rfl

theorem statistics_idleTime {cpm : CpuLoadingMain n} {call : DispatchCall n}
    (distinct : Distinct nodeByName)
    (index : cpm.pollingNodeIndex = (cpuLoadingLastInit nodeByName).pollingNodeIndex)
    (j : PollingNode) (t : Fin n) :
    (cpuLoadingTimeStatistics cpm call).1.idleTime j t =
      if call.thread = t ∧ IdlePoll nodeByName j call then cpm.idleTime j t + call.delta
      else cpm.idleTime j t := by
  have polled : ∀ i, cpm.pollingNodeIndex i call.thread = call.node.value ↔
      nodeByName call.thread (pollTypeStr i) = some call.node := by
    intro i
    rw [index]
    exact polled_iff i call.thread call.node
  have listed : j ∈ forEachPollTypeNode := by cases j <;> decide
  rw [cpuLoadingTimeStatistics]
  by_cases quiet : call.nVectors = 0
  · have unique : ∀ i j, cpm.pollingNodeIndex i call.thread = call.node.value →
        cpm.pollingNodeIndex j call.thread = call.node.value → i = j := fun i j hit hit' =>
      distinct _ i j _ ((polled i).mp hit) ((polled j).mp hit')
    rw [if_pos quiet]
    refine (recordIdle_idleTime ?_ j t).trans ?_
    · exact unique
    simp only [polled, listed, IdlePoll, quiet, true_and, eq_comm (a := t)]
  · rw [if_neg quiet, if_neg fun both => quiet both.2.1]

theorem dispatch_counts {events : List (Event n)} {call : DispatchCall n}
    (distinct : Distinct nodeByName) (within : Within (events ++ [.dispatch call]))
    (counts : Counts nodeByName events) : Counts nodeByName (events ++ [.dispatch call]) := by
  have bound : ∀ t, cycles (callsSince (events ++ [.dispatch call]) t) < UInt64.size :=
    within _ List.prefix_rfl
  refine ⟨?_, ?_, ?_, ?_⟩
  · rw [run_snoc]
    exact (statistics_index ..).trans counts.index
  · exact running_window _
  · intro t
    rw [totalTime_wraps]
    exact Nat.mod_eq_of_lt (bound t)
  · intro t j
    have fits := bound t
    rw [callsSince_dispatch] at fits ⊢
    rw [run_snoc, step, statistics_idleTime distinct counts.index]
    by_cases own : call.thread = t
    · rw [if_pos own, cycles_append, cycles_single] at fits
      rw [if_pos own, idleCycles_snoc, ← counts.idle t j]
      by_cases idle : IdlePoll nodeByName j call
      · have below := idleCycles_le distinct j (callsSince events t)
        rw [if_pos ⟨own, idle⟩, if_pos idle]
        exact add_exact (by rw [counts.idle t j]; omega)
      · rw [if_neg fun both => idle both.2, if_neg idle, Nat.add_zero]
    · rw [if_neg fun both => own both.1, if_neg own]
      exact counts.idle t j

theorem round_counts {events : List (Event n)} (event : UInt64)
    (counts : Counts nodeByName events) : Counts nodeByName (events ++ [.round event]) := by
  by_cases passes : (run nodeByName events).running = false ∨ event = 0
  · obtain ⟨cpm, calls⟩ := round_passes passes
    refine ⟨cpm ▸ counts.index, running_window _, ?_, ?_⟩
    · intro t
      rw [cpm, callsSince, calls]
      exact counts.total t
    · intro t j
      rw [cpm, callsSince, calls]
      exact counts.idle t j
  · obtain ⟨live, signal⟩ := not_or.mp passes
    obtain ⟨cpm, calls⟩ := round_samples (Bool.eq_true_of_not_eq_false live) signal
    have sampled := sample_threads (List.nodup_finRange n) (run nodeByName events).cpm
    refine ⟨?_, running_window _, ?_, ?_⟩
    · rw [cpm, sample_index]
      exact counts.index
    · intro t
      rw [cpm, callsSince, calls, (sampled t).2.1, if_pos (List.mem_finRange t)]
      rfl
    · intro t j
      rw [cpm, callsSince, calls, (sampled t).1, if_pos (List.mem_finRange t)]
      rfl

theorem setSamplingTime_counts {events : List (Event n)} (input : Option Rat)
    (counts : Counts nodeByName events) :
    Counts nodeByName (events ++ [.setSamplingTime input]) := by
  obtain ⟨index, total, idle⟩ := setSamplingTime_rest (run nodeByName events).cpm input
  refine ⟨?_, ?_, ?_, ?_⟩
  · rw [run_snoc]
    exact index.trans counts.index
  · exact running_window _
  · intro t
    rw [run_snoc, step, callsSince, window_snoc, total]
    exact counts.total t
  · intro t j
    rw [run_snoc, step, callsSince, window_snoc, idle]
    exact counts.idle t j

theorem run_counts {events : List (Event n)} (distinct : Distinct nodeByName)
    (within : Within events) : Counts nodeByName events := by
  induction events using List.reverseRecOn with
  | nil => exact ⟨rfl, rfl, fun _ => rfl, fun _ _ => rfl⟩
  | append_singleton events e ih =>
      have counts := ih (within_initial within)
      cases e with
      | dispatch call => exact dispatch_counts distinct within counts
      | round event => exact round_counts event counts
      | setSamplingTime input => exact setSamplingTime_counts input counts

/-- The published load is the busy share of the cycles, as a percentage. -/
theorem loading_share {idle busy total : Nat} {idleTime totalTime : UInt64}
    (idleValue : idleTime.toNat = idle) (totalValue : totalTime.toNat = total)
    (split : idle + busy = total) (positive : totalTime ≠ 0) :
    ∃ load, loading idleTime totalTime = some load ∧ load = 100 * ((busy : Rat) / total) ∧
      0 ≤ load ∧ load ≤ 100 := by
  have nonzero : total ≠ 0 := by
    intro zero
    rw [zero] at totalValue
    exact positive (UInt64.toNat.inj totalValue)
  have denominator : (0 : Rat) < total := by exact_mod_cast Nat.pos_of_ne_zero nonzero
  have parts : (idle : Rat) + busy = total := by exact_mod_cast split
  have share : (busy : Rat) / total ≤ 1 := by
    rw [div_le_one denominator]
    exact_mod_cast Nat.le.intro (by omega : busy + idle = total)
  refine ⟨100 * ((busy : Rat) / total), ?_, rfl, ?_, ?_⟩
  · rw [loading, if_neg positive, idleValue, totalValue, ← parts]
    congr 1
    rw [← parts] at denominator
    field_simp
    ring
  · positivity
  · linarith

theorem idle_exact {events : List (Event n)} (distinct : Distinct nodeByName)
    (within : Within events) (counts : Counts nodeByName events) (t : Fin n) :
    (forEachPollTypeNode.foldl
        (fun sum j => sum + (run nodeByName events).cpm.idleTime j t) 0).toNat =
      idleCycles nodeByName .dpdk (callsSince events t) +
        idleCycles nodeByName .virtio (callsSince events t) := by
  have split := cycles_split distinct (callsSince events t)
  have bound := within _ List.prefix_rfl t
  have dpdk := counts.idle t .dpdk
  have virtio := counts.idle t .virtio
  simp only [forEachPollTypeNode, List.foldl_cons, List.foldl_nil, UInt64.zero_add]
  rw [add_exact (by omega), dpdk, virtio]

/-- The accounting is exact. -/
theorem accounting_exact {events : List (Event n)} (distinct : Distinct nodeByName)
    (within : Within events) (t : Fin n) : Accounted nodeByName events t := by
  have counts := run_counts distinct within
  have split := cycles_split distinct (callsSince events t)
  refine ⟨counts.total t, counts.idle t, ?_, ?_, ?_⟩
  · simp only [forEachPollTypeNode, List.map_cons, List.map_nil, List.sum_cons, List.sum_nil,
      counts.idle t, counts.total t]
    omega
  · intro event running signal positive
    obtain ⟨cpm, _⟩ := round_samples running signal
    obtain ⟨_, _, load⟩ := sample_threads (List.nodup_finRange n) (run nodeByName events).cpm t
    rw [cpm, load, if_pos (List.mem_finRange t)]
    exact loading_share (idle_exact distinct within counts t) (counts.total t) split positive
  · intro call other
    rw [run_snoc, step, statistics_totalTime, if_neg other]
    refine ⟨rfl, fun j => ?_⟩
    rw [statistics_idleTime distinct counts.index, if_neg fun both => other both.1]

end

/-- Two threads with a DPDK input node each. -/
def dpdkOnly : Fin 2 → String → Option NodeIndex := fun _ name =>
  if name = "dpdk-input" then some ⟨3, by decide⟩ else none

/-- An idle poll of thread 0 and a busy one, and a call of thread 1. -/
def polls : List (Event 2) :=
  [.dispatch ⟨0, ⟨3, by decide⟩, 0, 100, 105⟩, .dispatch ⟨0, ⟨3, by decide⟩, 4, 105, 120⟩,
    .dispatch ⟨1, ⟨8, by decide⟩, 0, 7, 9⟩]

theorem polls_accounted : Accounted dpdkOnly polls 0 := by
  refine accounting_exact ?_ ?_ 0
  · intro t i j node first second
    cases i with
    | dpdk =>
        cases j with
        | dpdk => rfl
        | virtio => cases second
    | virtio => cases first
  · intro ps below t
    have every : ∀ ps ∈ polls.inits, ∀ t, cycles (callsSince ps t) < UInt64.size := by
      decide +kernel
    exact every ps ((List.mem_inits ps polls).mpr below) t

end CpuLoading
