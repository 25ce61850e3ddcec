import VppPlugins.CpuLoading.Accounting
import VppPlugins.Library.TextFormat

/-! Each thread is accounted for as in a VPP that runs this thread only. -/
namespace CpuLoading
open TextFormat

variable {n : Nat}

/-- What the run of one thread sees of an event. -/
def ownEvent (t : Fin n) : Event n → Option (Event 1)
  | .dispatch call =>
      if call.thread = t then
        some (.dispatch ⟨⟨0, Nat.one_pos⟩, call.node, call.nVectors, call.cpuTimeNow,
          call.cpuTimeAfter⟩)
      else none
  | .round event => some (.round event)
  | .setSamplingTime input => some (.setSamplingTime input)

/-- The columns of two threads, of two runs, are the same. -/
structure SameColumn {m : Nat} (a : CpuLoadingMain n) (t : Fin n) (b : CpuLoadingMain m)
    (u : Fin m) : Prop where
  idleTime : ∀ j, a.idleTime j t = b.idleTime j u
  totalTime : a.totalTime t = b.totalTime u
  samplingTime : a.samplingTime = b.samplingTime
  lastCpuLoading : a.lastCpuLoading t = b.lastCpuLoading u
  pollingNodeIndex : ∀ j, a.pollingNodeIndex j t = b.pollingNodeIndex j u

structure Alone (s : System n) (t : Fin n) (s' : System 1) : Prop where
  column : SameColumn s.cpm t s'.cpm 0
  running : s.running = s'.running

section

variable {a : CpuLoadingMain n} {t : Fin n} {b : CpuLoadingMain 1} {call : DispatchCall n}
  {own : DispatchCall 1}

theorem record_other (other : call.thread ≠ t) (js : List PollingNode) :
    SameColumn (recordIdle a call js) t a t := by
  induction js with
  | nil => exact ⟨fun _ => rfl, rfl, rfl, rfl, fun _ => rfl⟩
  | cons i js ih =>
      rw [recordIdle]
      split
      · refine ⟨fun j => ?_, rfl, rfl, rfl, fun _ => rfl⟩
        by_cases same : j = i
        · subst same
          simp only [Function.update_self, Function.update_of_ne (Ne.symm other)]
        · simp only [Function.update_of_ne same]
      · exact ih

theorem record_own (same : SameColumn a t b 0) (thread : call.thread = t) (own0 : own.thread = 0)
    (node : own.node = call.node) (delta : own.delta = call.delta) (js : List PollingNode) :
    SameColumn (recordIdle a call js) t (recordIdle b own js) 0 := by
  induction js with
  | nil => exact same
  | cons i js ih =>
      rw [recordIdle, recordIdle, thread, own0, node, delta, same.pollingNodeIndex i]
      split
      · refine ⟨fun j => ?_, same.totalTime, same.samplingTime, same.lastCpuLoading,
          same.pollingNodeIndex⟩
        by_cases here : j = i
        · subst here
          simp only [Function.update_self, same.idleTime]
        · simp only [Function.update_of_ne here, same.idleTime]
      · exact ih

theorem SameColumn.trans {m k : Nat} {c : CpuLoadingMain m} {u : Fin m} {d : CpuLoadingMain k}
    {v : Fin k} (first : SameColumn a t c u) (second : SameColumn c u d v) :
    SameColumn a t d v :=
  ⟨fun j => (first.idleTime j).trans (second.idleTime j),
    first.totalTime.trans second.totalTime, first.samplingTime.trans second.samplingTime,
    first.lastCpuLoading.trans second.lastCpuLoading,
    fun j => (first.pollingNodeIndex j).trans (second.pollingNodeIndex j)⟩

theorem SameColumn.symm {m : Nat} {c : CpuLoadingMain m} {u : Fin m} (same : SameColumn a t c u) :
    SameColumn c u a t :=
  ⟨fun j => (same.idleTime j).symm, same.totalTime.symm, same.samplingTime.symm,
    same.lastCpuLoading.symm, fun j => (same.pollingNodeIndex j).symm⟩

theorem statistics_other (other : call.thread ≠ t) :
    SameColumn (cpuLoadingTimeStatistics a call).1 t a t := by
  have total : SameColumn { a with
      totalTime := Function.update a.totalTime call.thread
        (a.totalTime call.thread + call.delta) } t a t :=
    ⟨fun _ => rfl, Function.update_of_ne (Ne.symm other) .., rfl, rfl, fun _ => rfl⟩
  rw [cpuLoadingTimeStatistics]
  split
  · exact (record_other other _).trans total
  · exact total

theorem statistics_own (same : SameColumn a t b 0) (thread : call.thread = t)
    (own0 : own.thread = 0) (node : own.node = call.node) (delta : own.delta = call.delta)
    (nVectors : own.nVectors = call.nVectors) :
    SameColumn (cpuLoadingTimeStatistics a call).1 t (cpuLoadingTimeStatistics b own).1 0 := by
  have total : SameColumn { a with
        totalTime := Function.update a.totalTime call.thread
          (a.totalTime call.thread + call.delta) } t
      { b with
        totalTime := Function.update b.totalTime own.thread
          (b.totalTime own.thread + own.delta) } 0 := by
    refine ⟨same.idleTime, ?_, same.samplingTime, same.lastCpuLoading, same.pollingNodeIndex⟩
    rw [thread, own0, delta]
    simp only [Function.update_self, same.totalTime]
  rw [cpuLoadingTimeStatistics, cpuLoadingTimeStatistics, nVectors]
  split
  · exact record_own total thread own0 node delta _
  · exact total

theorem sample_samplingTime {m : Nat} (ts : List (Fin m)) (c : CpuLoadingMain m) :
    (ts.foldl sampleThread c).samplingTime = c.samplingTime := by
  induction ts generalizing c with
  | nil => rfl
  | cons i ts ih => exact ih (sampleThread c i)

theorem sample_alone (same : SameColumn a t b 0) :
    SameColumn ((List.finRange n).foldl sampleThread a) t
      ((List.finRange 1).foldl sampleThread b) 0 := by
  obtain ⟨idle, total, load⟩ := sample_threads (List.nodup_finRange n) a t
  obtain ⟨idle', total', load'⟩ := sample_threads (List.nodup_finRange 1) b 0
  simp only [List.mem_finRange, if_true] at idle total load idle' total' load'
  constructor
  case idleTime => exact fun j => (idle j).trans (idle' j).symm
  case totalTime => exact total.trans total'.symm
  case samplingTime => rw [sample_samplingTime, sample_samplingTime, same.samplingTime]
  case lastCpuLoading =>
    rw [load, load', sampledLoad, sampledLoad, same.totalTime]
    simp only [forEachPollTypeNode, List.foldl_cons, List.foldl_nil, same.idleTime]
  case pollingNodeIndex =>
    intro j
    rw [sample_index, sample_index, same.pollingNodeIndex]

end

variable {s : System n} {t : Fin n} {s' : System 1}

theorem step_other {e : Event n} (alone : Alone s t s') (unseen : ownEvent t e = none) :
    Alone (step s e) t s' := by
  cases e with
  | dispatch call =>
      have other : call.thread ≠ t := fun own => by simp [ownEvent, own] at unseen
      exact ⟨(statistics_other other).trans alone.column, alone.running⟩
  | round event => cases unseen
  | setSamplingTime input => cases unseen

theorem step_own {e : Event n} {e' : Event 1} (alone : Alone s t s')
    (seen : ownEvent t e = some e') : Alone (step s e) t (step s' e') := by
  cases e with
  | dispatch call =>
      rw [ownEvent] at seen
      split at seen
      · rename_i thread
        cases seen
        exact ⟨statistics_own alone.column thread rfl rfl rfl rfl, alone.running⟩
      · cases seen
  | round event =>
      cases seen
      rw [step, step, cpuLoadingProcess, cpuLoadingProcess, alone.running]
      split
      · exact alone
      · split
        · exact ⟨alone.column, rfl⟩
        · exact ⟨sample_alone alone.column, rfl⟩
  | setSamplingTime input =>
      cases seen
      obtain ⟨idle, total, sampling, load, index⟩ := alone.column
      cases input with
      | none => exact ⟨alone.column, alone.running⟩
      | some value => exact ⟨⟨idle, total, rfl, load, index⟩, alone.running⟩

/-- Whatever the other threads do and however their calls fall between, the counters and the load
of a thread are those of a VPP with this thread only. -/
theorem run_alone (nodeByName : Fin n → String → Option NodeIndex) (events : List (Event n))
    (t : Fin n) :
    Alone (run nodeByName events) t
      (run (fun _ => nodeByName t) (events.filterMap (ownEvent t))) := by
  induction events using List.reverseRecOn with
  | nil => exact ⟨⟨fun _ => rfl, rfl, rfl, rfl, fun _ => rfl⟩, rfl⟩
  | append_singleton events e ih =>
      rw [run_snoc, List.filterMap_append]
      cases seen : ownEvent t e with
      | none =>
          rw [List.filterMap_cons_none seen, List.filterMap_nil, List.append_nil]
          exact step_other ih seen
      | some e' =>
          rw [List.filterMap_cons_some seen, List.filterMap_nil, run_snoc]
          exact step_own ih seen

theorem system_ext {a b : System n} (t : Fin n) (running : a.running = b.running)
    (same : ∀ t, SameColumn a.cpm t b.cpm t) : a = b := by
  obtain ⟨⟨idle, total, sampling, load, index⟩, _⟩ := a
  obtain ⟨⟨idle', total', sampling', load', index'⟩, _⟩ := b
  congr
  · exact funext fun j => funext fun i => (same i).idleTime j
  · exact funext fun i => (same i).totalTime
  · exact (same t).samplingTime
  · exact funext fun i => (same i).lastCpuLoading
  · exact funext fun j => funext fun i => (same i).pollingNodeIndex j

/-- How the calls of different threads fall between each other makes no difference. -/
theorem interleavings_agree (nodeByName : Fin (n + 1) → String → Option NodeIndex)
    {events events' : List (Event (n + 1))}
    (same : ∀ t, events.filterMap (ownEvent t) = events'.filterMap (ownEvent t)) :
    run nodeByName events = run nodeByName events' := by
  have alone := run_alone nodeByName events
  have alone' := run_alone nodeByName events'
  simp only [← same] at alone'
  refine system_ext 0 ((alone 0).running.trans (alone' 0).running.symm) fun t => ?_
  exact (alone t).column.trans (alone' t).column.symm

/-- `polls` with the call of thread 1 between the other two. -/
def crossedPolls : List (Event 2) := polls.take 1 ++ polls.drop 2 ++ (polls.drop 1).take 1

theorem polls_agree : run dpdkOnly (polls ++ [.round 1]) = run dpdkOnly (crossedPolls ++ [.round 1]) :=
  interleavings_agree dpdkOnly (Fin.forall_fin_two.mpr ⟨rfl, rfl⟩)

/-! `show cpu-loading`. -/

/-- `%.2f`, also of what a division by zero gives. -/
abbrev FormatFloat : Type := Option Rat → Text

def idleLine (cpm : CpuLoadingMain n) (i : Fin n) (j : PollingNode) : Option Text :=
  if cpm.pollingNodeIndex j i = 0xFFFFFFFF then none
  else some ("\t".toList ++ (pollTypeStr j).toList ++ " idle clock: ".toList ++
    unsigned (cpm.idleTime j i).toNat)

def threadLines (float : FormatFloat) (cpm : CpuLoadingMain n) (i : Fin n) : List Text :=
  ("thread ".toList ++ unsigned i ++ ":".toList) ::
    forEachPollTypeNode.filterMap (idleLine cpm i) ++
    ["\ttotal clock: ".toList ++ unsigned (cpm.totalTime i).toNat,
      "\tlast cpu loading: ".toList ++ float (cpm.lastCpuLoading i) ++ "%".toList]

def showCpuLoading (float : FormatFloat) (cpm : CpuLoadingMain n) : List Text :=
  ("sampling time: ".toList ++ float (some cpm.samplingTime)) ::
    "---------------------".toList :: (List.finRange n).flatMap (threadLines float cpm)

theorem threadLines_alone (float : FormatFloat) {a : CpuLoadingMain n} {t : Fin n}
    {b : CpuLoadingMain 1} (same : SameColumn a t b 0) :
    threadLines float a t = ("thread ".toList ++ unsigned t ++ ":".toList) ::
      (showCpuLoading float b).drop 3 := by
  have idle : idleLine a t = idleLine b 0 := by
    funext j
    rw [idleLine, idleLine, same.pollingNodeIndex, same.idleTime]
  have single : List.finRange 1 = [0] := List.finRange_succ
  rw [threadLines, idle, same.totalTime, same.lastCpuLoading, showCpuLoading, single,
    List.flatMap_singleton]
  rfl

/-- Below its name `show cpu-loading` prints for each thread what it prints on a VPP with this
thread only. -/
theorem show_prints_threads_alone (float : FormatFloat)
    (nodeByName : Fin n → String → Option NodeIndex) (events : List (Event n)) :
    (showCpuLoading float (run nodeByName events).cpm).drop 2 =
      (List.finRange n).flatMap fun t : Fin n => ("thread ".toList ++ unsigned t ++ ":".toList) ::
        (showCpuLoading float (run (fun _ => nodeByName t)
          (events.filterMap (ownEvent t))).cpm).drop 3 := by
  rw [showCpuLoading, List.drop_succ_cons, List.drop_succ_cons, List.drop_zero]
  congr
  funext t
  exact threadLines_alone float (run_alone nodeByName events t).column

end CpuLoading
