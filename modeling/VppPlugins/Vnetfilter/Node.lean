import VppPlugins.Vnetfilter.Hook
import VppPlugins.Library.Faults

/-! `node.c`: the evaluator of the hook nodes and their loop over a frame of packets. -/
namespace Vnetfilter
open FlowTable (VnetfilterAction)
open Faults Chains

variable {F B S : Type}

def VLIB_FRAME_SIZE : Nat := 256

def VNETFILTER_HOOK_NEXT_DROP : UInt16 := 0
def VNETFILTER_HOOK_NEXT_STOLEN : UInt16 := 1

/-- What the nodes take from VPP, and the functions behind the hooks. `B` stands for the
buffer pointers; what the buffers hold is part of the shared state `S`. -/
structure Vlib (F B S : Type) where
  getBuffer : UInt32 → B
  call : F → B → S → VnetfilterAction × S
  /-- What `vnet_feature_next_u16` writes through its pointer, and the state after it has
  moved the packet on in its feature arc. -/
  featureNext : B → S → UInt16 × S
  /-- `VLIB_BUFFER_IS_TRACED`. -/
  isTraced : B → Bool
  swIfIndexRx : B → S → UInt32

/-- The loop of `vnetfilter_hook_process` over the chain. `called` records the calls. -/
def hookChainLoop (call : F → B → S → VnetfilterAction × S) (b : B) :
    List (HookProcess F) → S → List F → Outcome F S VnetfilterAction
  | [], s, called => ⟨called, s, .accept⟩
  | process :: rest, s, called =>
      let (result, s) := call process.function b s
      let called := called ++ [process.function]
      if result ≠ .accept then ⟨called, s, result⟩ else hookChainLoop call b rest s called

def hookChain (call : F → B → S → VnetfilterAction × S) (processList : List (HookProcess F)) (b : B)
    (s : S) : Outcome F S VnetfilterAction :=
  hookChainLoop call b processList s []

/-- What `vnetfilter_hook_process` leaves, with the value it writes to `next[0]`. -/
structure Hooked (F S : Type) where
  called : List F
  state : S
  next : UInt16

def vnetfilterHookProcess (v : Vlib F B S) (processList : List (HookProcess F)) (b : B) (s : S) :
    Hooked F S :=
  let r := hookChain v.call processList b s
  match r.decision with
  | .drop => ⟨r.called, r.state, VNETFILTER_HOOK_NEXT_DROP⟩
  | .stolen => ⟨r.called, r.state, VNETFILTER_HOOK_NEXT_STOLEN⟩
  | .accept | .stop =>
      let (next, s) := v.featureNext b r.state
      ⟨r.called, s, next⟩

/-! The node function. -/

/-- `vlib_frame_t`, which holds at most `VLIB_FRAME_SIZE` packets. -/
structure VlibFrame where
  vectorArgs : List UInt32
  bounded : vectorArgs.length ≤ VLIB_FRAME_SIZE

def VlibFrame.nVectors (frame : VlibFrame) : Nat := frame.vectorArgs.length

/-- `vnetfilter_hook_trace_t`. -/
structure HookTrace where
  swIfIndex : UInt32
  nextIndex : UInt32
  deriving DecidableEq, Repr

inductive NodeFault where
  /-- An element of `bufs` or `nexts` that belongs to no packet of the frame. -/
  | beyondFrame
  deriving DecidableEq, Repr

/-- The variables of the node function; `b` and `next` are distances from `bufs` and
`nexts`. `traces` holds the records added so far, each with its packet, and `runs` records
on which packet the chain ran and which functions it called. -/
structure NodeState (F B S : Type) where
  shared : S
  nexts : List UInt16
  b : Nat
  next : Nat
  traces : List (B × HookTrace)
  runs : List (B × List F)

/-- `b[k]`. -/
def bufAt (bufs : List B) (st : NodeState F B S) (k : Nat) : Except NodeFault B :=
  orFault .beyondFrame bufs[st.b + k]?

/-- `next[k]`. -/
def nextAt (bufs : List B) (st : NodeState F B S) (k : Nat) : Except NodeFault UInt16 :=
  if st.next + k < bufs.length then orFault .beyondFrame st.nexts[st.next + k]?
  else .error .beyondFrame

/-- `next[k] = value`. -/
def setNext (bufs : List B) (st : NodeState F B S) (k : Nat) (value : UInt16) :
    Except NodeFault (NodeState F B S) :=
  if st.next + k < bufs.length then .ok { st with nexts := st.nexts.set (st.next + k) value }
  else .error .beyondFrame

/-- `vnetfilter_trace_buffer(b[k], next[k])`. -/
def vnetfilterTraceBuffer (v : Vlib F B S) (bufs : List B) (st : NodeState F B S) (k : Nat) :
    Except NodeFault (NodeState F B S) := do
  let b ← bufAt bufs st k
  if v.isTraced b then
    let next ← nextAt bufs st k
    let t : HookTrace := ⟨v.swIfIndexRx b st.shared, next.toUInt32⟩
    pure { st with traces := st.traces ++ [(b, t)] }
  else pure st

/-- `vnetfilter_hook_process(process_list, b[k], &next[k])`. -/
def hookProcessAt (v : Vlib F B S) (processList : List (HookProcess F)) (bufs : List B)
    (st : NodeState F B S) (k : Nat) : Except NodeFault (NodeState F B S) := do
  let b ← bufAt bufs st k
  let hooked := vnetfilterHookProcess v processList b st.shared
  let st ← setNext bufs st k hooked.next
  pure { st with shared := hooked.state, runs := st.runs ++ [(b, hooked.called)] }

def NodeState.advance (st : NodeState F B S) (k : Nat) : NodeState F B S :=
  { st with b := st.b + k, next := st.next + k }

/-- The prefetches for the round after this one. -/
def prefetchNext (bufs : List B) (nLeftFrom : Nat) (st : NodeState F B S) :
    Except NodeFault Unit :=
  if 8 ≤ nLeftFrom then do
    let _ ← bufAt bufs st 4
    let _ ← bufAt bufs st 5
    let _ ← bufAt bufs st 6
    let _ ← bufAt bufs st 7
    pure ()
  else pure ()

def traceFour (v : Vlib F B S) (isTrace : Bool) (bufs : List B) (st : NodeState F B S) :
    Except NodeFault (NodeState F B S) :=
  if isTrace then do
    let st ← vnetfilterTraceBuffer v bufs st 0
    let st ← vnetfilterTraceBuffer v bufs st 1
    let st ← vnetfilterTraceBuffer v bufs st 2
    vnetfilterTraceBuffer v bufs st 3
  else pure st

def traceOne (v : Vlib F B S) (isTrace : Bool) (bufs : List B) (st : NodeState F B S) :
    Except NodeFault (NodeState F B S) :=
  if isTrace then vnetfilterTraceBuffer v bufs st 0 else pure st

/-- The body of the loop over four packets at a time. -/
def processFour (v : Vlib F B S) (processList : List (HookProcess F)) (isTrace : Bool)
    (bufs : List B) (nLeftFrom : Nat) (st : NodeState F B S) :
    Except NodeFault (NodeState F B S) := do
  let _ ← prefetchNext bufs nLeftFrom st
  -- the chained assignment works from the right
  let st ← setNext bufs st 3 0
  let st ← setNext bufs st 2 0
  let st ← setNext bufs st 1 0
  let st ← setNext bufs st 0 0
  let st ← traceFour v isTrace bufs st
  let st ← hookProcessAt v processList bufs st 0
  let st ← hookProcessAt v processList bufs st 1
  let st ← hookProcessAt v processList bufs st 2
  let st ← hookProcessAt v processList bufs st 3
  pure (st.advance 4)

/-- The body of the loop over the packets that are left. -/
def processOne (v : Vlib F B S) (processList : List (HookProcess F)) (isTrace : Bool)
    (bufs : List B) (st : NodeState F B S) : Except NodeFault (NodeState F B S) := do
  let st ← setNext bufs st 0 0
  let st ← traceOne v isTrace bufs st
  let st ← hookProcessAt v processList bufs st 0
  pure (st.advance 1)

/-- The loop `while (n_left_from > 0)`. -/
def tailLoop (v : Vlib F B S) (processList : List (HookProcess F)) (isTrace : Bool)
    (bufs : List B) : Nat → NodeState F B S → Except NodeFault (NodeState F B S)
  | 0, st => pure st
  | nLeftFrom + 1, st => do
      let st ← processOne v processList isTrace bufs st
      tailLoop v processList isTrace bufs nLeftFrom st

/-- The loop `while (n_left_from >= 4)` and, behind it, the other one. -/
def wideLoop (v : Vlib F B S) (processList : List (HookProcess F)) (isTrace : Bool)
    (bufs : List B) : Nat → NodeState F B S → Except NodeFault (NodeState F B S)
  | nLeftFrom + 4, st => do
      let st ← processFour v processList isTrace bufs (nLeftFrom + 4) st
      wideLoop v processList isTrace bufs nLeftFrom st
  | nLeftFrom, st => tailLoop v processList isTrace bufs nLeftFrom st

/-- The arguments of `vlib_buffer_enqueue_to_next`. -/
structure EnqueueToNext where
  buffers : List UInt32
  nexts : List UInt16
  count : Nat

structure NodeRun (F B S : Type) where
  final : NodeState F B S
  enqueued : EnqueueToNext
  returned : Nat

/-- `vnetfilter_hook_process_inline`. `nexts` is what the stack array holds on entry; of
`bufs`, `vlib_get_buffers` fills the elements of the frame's packets only. -/
def vnetfilterHookProcessInline (v : Vlib F B S) (frame : VlibFrame) (isTrace : Bool)
    (processList : List (HookProcess F)) (nexts : Vector UInt16 VLIB_FRAME_SIZE) (s : S) :
    Except NodeFault (NodeRun F B S) := do
  let bufs := frame.vectorArgs.map v.getBuffer
  let st : NodeState F B S := ⟨s, nexts.toList, 0, 0, [], []⟩
  let st ← wideLoop v processList isTrace bufs frame.nVectors st
  pure ⟨st, ⟨frame.vectorArgs, st.nexts, frame.nVectors⟩, frame.nVectors⟩

/-- The function of the node of one hook point: `VLIB_NODE_FLAG_TRACE` chooses the instance. -/
def hookNode (v : Vlib F B S) (lists : HookLists F) (point : HookPoint) (nodeFlagTrace : Bool)
    (frame : VlibFrame) (nexts : Vector UInt16 VLIB_FRAME_SIZE) (s : S) :
    Except NodeFault (NodeRun F B S) :=
  if nodeFlagTrace then vnetfilterHookProcessInline v frame true (lists point) nexts s
  else vnetfilterHookProcessInline v frame false (lists point) nexts s

end Vnetfilter
