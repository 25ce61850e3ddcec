import Mathlib.Data.Rat.Defs
import Mathlib.Logic.Function.Basic

/-! `cpu_loading.c` on a number of threads, with the percentages in exact arithmetic. -/
namespace CpuLoading

/-- `POLLING_NODE_*`. -/
inductive PollingNode where
  | dpdk
  | virtio
  deriving DecidableEq, Repr

def forEachPollTypeNode : List PollingNode := [.dpdk, .virtio]

def pollTypeStr : PollingNode → String
  | .dpdk => "dpdk-input"
  | .virtio => "virtio-input"

/-- The index of a node that exists. -/
structure NodeIndex where
  value : UInt32
  valid : value ≠ 0xFFFFFFFF
  deriving DecidableEq

/-- `cpu_loading_main_t`. A load that was divided by zero is no number. -/
structure CpuLoadingMain (n : Nat) where
  idleTime : PollingNode → Fin n → UInt64
  totalTime : Fin n → UInt64
  samplingTime : Rat
  lastCpuLoading : Fin n → Option Rat
  pollingNodeIndex : PollingNode → Fin n → UInt32

def DEFAULT_SAMPLE_TIME : Rat := 3 / 2

variable {n : Nat}

/-- The state after `cpu_loading_init` and `cpu_loading_last_init`, the latter given what
`vlib_get_node_by_name` finds on each thread. -/
def cpuLoadingLastInit (nodeByName : Fin n → String → Option NodeIndex) : CpuLoadingMain n :=
  { idleTime := fun _ _ => 0
    totalTime := fun _ => 0
    samplingTime := DEFAULT_SAMPLE_TIME
    lastCpuLoading := fun _ => some 0
    pollingNodeIndex := fun j i =>
      match nodeByName i (pollTypeStr j) with
      | some node => node.value
      | none => 0xFFFFFFFF }

/-- One call of a node's function by a thread's main loop, with the clock before and after. -/
structure DispatchCall (n : Nat) where
  thread : Fin n
  node : NodeIndex
  nVectors : UInt64
  cpuTimeNow : UInt64
  cpuTimeAfter : UInt64

def DispatchCall.delta (call : DispatchCall n) : UInt64 := call.cpuTimeAfter - call.cpuTimeNow

/-- The loop over the polling nodes, which ends at the first that matches. -/
def recordIdle (cpm : CpuLoadingMain n) (call : DispatchCall n) :
    List PollingNode → CpuLoadingMain n
  | [] => cpm
  | i :: rest =>
      if cpm.pollingNodeIndex i call.thread = call.node.value then
        { cpm with
          idleTime := Function.update cpm.idleTime i
            (Function.update (cpm.idleTime i) call.thread
              (cpm.idleTime i call.thread + call.delta)) }
      else recordIdle cpm call rest

/-- The dispatch wrapper, which also returns what the node's function returned. -/
def cpuLoadingTimeStatistics (cpm : CpuLoadingMain n) (call : DispatchCall n) :
    CpuLoadingMain n × UInt64 :=
  let cpm := { cpm with
    totalTime :=
      Function.update cpm.totalTime call.thread (cpm.totalTime call.thread + call.delta) }
  (if call.nVectors = 0 then recordIdle cpm call forEachPollTypeNode else cpm, call.nVectors)

/-- `100 - total_idle_time * 100.0 / total_time`. -/
def loading (totalIdleTime totalTime : UInt64) : Option Rat :=
  if totalTime = 0 then none else some (100 - totalIdleTime.toNat * 100 / totalTime.toNat)

/-- The body of the loop over the threads, under the barrier. -/
def sampleThread (cpm : CpuLoadingMain n) (i : Fin n) : CpuLoadingMain n :=
  let totalIdleTime := forEachPollTypeNode.foldl (fun sum j => sum + cpm.idleTime j i) 0
  { cpm with
    idleTime := fun j => Function.update (cpm.idleTime j) i 0
    lastCpuLoading :=
      Function.update cpm.lastCpuLoading i (loading totalIdleTime (cpm.totalTime i))
    totalTime := Function.update cpm.totalTime i 0 }

/-- The plugin while VPP runs; the process node ends when its loop is left. -/
structure System (n : Nat) where
  cpm : CpuLoadingMain n
  running : Bool

/-- A round of `cpu_loading_process` with what `vlib_process_get_events` returned. -/
def cpuLoadingProcess (s : System n) (event : UInt64) : System n :=
  if s.running = false then s
  else if event = 0 then { s with running := false }
  else { s with cpm := (List.finRange n).foldl sampleThread s.cpm }

/-- `set cpu-loading sampling-time`, given what `%f` reads from the command line. -/
def cpuLoadingSetSamplingTime (cpm : CpuLoadingMain n) (input : Option Rat) :
    CpuLoadingMain n × Option String :=
  match input with
  | some samplingTime => ({ cpm with samplingTime }, none)
  | none => (cpm, some "please input a valid sampling time")

inductive Event (n : Nat) where
  | dispatch (call : DispatchCall n)
  | round (event : UInt64)
  | setSamplingTime (input : Option Rat)

def step (s : System n) : Event n → System n
  | .dispatch call => { s with cpm := (cpuLoadingTimeStatistics s.cpm call).1 }
  | .round event => cpuLoadingProcess s event
  | .setSamplingTime input => { s with cpm := (cpuLoadingSetSamplingTime s.cpm input).1 }

def initial (nodeByName : Fin n → String → Option NodeIndex) : System n :=
  { cpm := cpuLoadingLastInit nodeByName, running := true }

def run (nodeByName : Fin n → String → Option NodeIndex) (events : List (Event n)) : System n :=
  events.foldl step (initial nodeByName)

end CpuLoading
