import VppPlugins.FlowTable.Buffer
import VppPlugins.Library.FixedPool
import VppPlugins.Library.HashHeap
import VppPlugins.Library.TimerWheel
import VppPlugins.Library.Faults

/-! A worker's context, its flow pool and expiration timers, and the protocol
handlers. The hash function, the operations of the hash table and what the timer wheel
decides come with the platform. -/
namespace FlowTable
open Faults

/-- Where a call stops for good. -/
inductive Fault where
  /-- `pool_get` on an exhausted fixed pool. -/
  | poolExhausted
  /-- A hash table is used after it was freed. -/
  | freedHashTable
  | nullPointer
  | nullCallback
  deriving DecidableEq, Repr

structure Platform (Mem Tbl : Type) where
  flowTableHash : FlowKey → UInt64
  table : HashHeap.Ops Mem Tbl UInt64 EntryAddr
  wheel : TimerWheel.Policy

/-- `flow_table_wrk_ctx_t` with the memory its hash table lives in. `resets` records the
calls of `tcp_send_reset`, oldest first, each with the flow it was given. -/
structure Worker (Mem Tbl : Type) where
  flows : FixedPool Flow
  flowsHashTable : Tbl
  tw : TimerWheel
  mem : Mem
  resets : List Flow

variable {Mem Tbl : Type}

def FLOW_TABLE_MAX_FLOWS : Nat := 1000000

/-- `prealloc_flows_per_wrk` of `flow_table_main_init` for `vtm->n_threads` threads. -/
def preallocFlowsPerWrk (nThreads : Nat) : Nat :=
  let numThreads := 1 + nThreads
  let nWorkers := if numThreads = 1 then 1 else nThreads
  FLOW_TABLE_MAX_FLOWS / nWorkers

theorem preallocFlowsPerWrk_le (nThreads : Nat) :
    preallocFlowsPerWrk nThreads ≤ FLOW_TABLE_MAX_FLOWS := Nat.div_le_self _ _

/-- A worker's context as `flow_table_main_init` leaves it. -/
def flowTableMainInit (P : Platform Mem Tbl) (nThreads : Nat) : Worker Mem Tbl :=
  { flows := .empty (preallocFlowsPerWrk nThreads), flowsHashTable := P.table.create.2,
    tw := .init, mem := P.table.create.1, resets := [] }

def flowTableGetFlowByIndex (w : Worker Mem Tbl) (index : UInt32) : Option Nat :=
  match w.flows.get? index.toNat with
  | none => none
  | some _ => some index.toNat

def vlibBufferGetFlow (w : Worker Mem Tbl) (b : Buffer) : Option Nat :=
  if b.flowIndex = 0xFFFFFFFF then none else flowTableGetFlowByIndex w b.flowIndex

/-! `timer.h` -/

def FLOW_EXPIRARION_TIMER_ID : Nat := 1

/-- The callback prints the index of each expired flow and does nothing else; the list
is what it prints. -/
def flowExpiredTimersDispatch (expiredTimers : List Nat) : List Nat :=
  expiredTimers.map (fun e => e &&& 0x0FFFFFFF)

def flowExpirationTimerSet (P : Platform Mem Tbl) (tw : TimerWheel) (flow : Flow) (seconds : Nat) :
    TimerWheel × Flow :=
  let (tw, handle) := tw.start P.wheel.pick flow.eltIndex FLOW_EXPIRARION_TIMER_ID seconds
  (tw, { flow with stopTimerHandle := handle })

def flowExpirationTimerReset (tw : TimerWheel) (flow : Flow) : TimerWheel :=
  if flow.stopTimerHandle = noHandle then tw.stop flow.stopTimerHandle else tw

def flowExpirationTimerUpdate (P : Platform Mem Tbl) (tw : TimerWheel) (flow : Flow)
    (seconds : Nat) : TimerWheel × Flow :=
  if flow.stopTimerHandle = noHandle then flowExpirationTimerSet P tw flow seconds
  else (tw.update flow.stopTimerHandle seconds, flow)

/-- The timer node: the wheel advances and hands its expired timers to the callback. -/
def flowTableTimerUpdateTime (P : Platform Mem Tbl) (w : Worker Mem Tbl) (ticks : Nat) :
    Worker Mem Tbl × List Nat :=
  let (tw, expired) := w.tw.expire P.wheel.fires ticks
  ({ w with tw }, flowExpiredTimersDispatch expired)

/-! `tcp.c`. The three functions below are what its callbacks do to one `flow_t`. -/

def tcpTrackSequence (b : Buffer) (direction : FlowDir) (flow : Flow) : Flow :=
  flow.setEntry direction fun e =>
    { e with tcpAttr := { e.tcpAttr with seq := b.tcpSeqNumber, ack := b.tcpAckNumber } }

def tcpInitFlow (b : Buffer) (direction : FlowDir) (flow : Flow) : Flow :=
  let flow :=
    if b.concernedFlags = TCP_FLAG_SYN then { flow with threeWayHandshake := true } else flow
  { flow with state := tcpStateTransfer .start b.tcpEvent direction }

def tcpUpdateFlow (b : Buffer) (direction : FlowDir) (flow : Flow) : Flow :=
  { flow with state := tcpStateTransfer flow.state b.tcpEvent direction }

def tcpInitState (P : Platform Mem Tbl) (w : Worker Mem Tbl) (b : Buffer) (direction : FlowDir) :
    Except Fault (Worker Mem Tbl) := do
  let index ← orFault .nullPointer (vlibBufferGetFlow w b)
  let flow ← orFault .nullPointer (w.flows.get? index)
  let flow := tcpInitFlow b direction flow
  let (tw, flow) := flowExpirationTimerUpdate P w.tw flow (tcpStateTimeout flow.state)
  let flow := tcpTrackSequence b direction flow
  pure { w with flows := w.flows.modify index (fun _ => flow), tw }

def tcpUpdateState (P : Platform Mem Tbl) (w : Worker Mem Tbl) (b : Buffer) (direction : FlowDir) :
    Except Fault (Worker Mem Tbl) := do
  let index ← orFault .nullPointer (vlibBufferGetFlow w b)
  let flow ← orFault .nullPointer (w.flows.get? index)
  let flow := tcpUpdateFlow b direction flow
  let (tw, flow) := flowExpirationTimerUpdate P w.tw flow (tcpStateTimeout flow.state)
  let flow := tcpTrackSequence b direction flow
  let w := { w with flows := w.flows.modify index (fun _ => flow), tw }
  if flow.state = .established ∧ flow.threeWayHandshake = true then
    pure { w with resets := w.resets ++ [flow] }
  else pure w

/-! `protocol.c` and the handler objects. Every handler but TCP's leaves the key and the
flow as they are. -/

inductive ProtocolHandler where
  | unimplemented
  | icmp
  | tcp
  | udp
  deriving DecidableEq, Repr

def tcpParseFlowKey (b : Buffer) (key : FlowKey) : FlowKey :=
  { key with srcPort := b.tcpSrcPort, dstPort := b.tcpDstPort }

def ProtocolHandler.parseKey : ProtocolHandler → Buffer → FlowKey → FlowKey
  | .tcp, b, key => tcpParseFlowKey b key
  | .unimplemented, _, key | .icmp, _, key | .udp, _, key => key

def ProtocolHandler.initState (P : Platform Mem Tbl) :
    ProtocolHandler → Worker Mem Tbl → Buffer → FlowDir → Except Fault (Worker Mem Tbl)
  | .tcp, w, b, direction => tcpInitState P w b direction
  | .unimplemented, w, _, _ | .icmp, w, _, _ | .udp, w, _, _ => pure w

def ProtocolHandler.updateState (P : Platform Mem Tbl) :
    ProtocolHandler → Worker Mem Tbl → Buffer → FlowDir → Except Fault (Worker Mem Tbl)
  | .tcp, w, b, direction => tcpUpdateState P w b direction
  | .unimplemented, w, _, _ | .icmp, w, _, _ | .udp, w, _, _ => pure w

def IP_PROTOCOL_ICMP : UInt8 := 1
def IP_PROTOCOL_TCP : UInt8 := 6
def IP_PROTOCOL_UDP : UInt8 := 17
def IP_PROTOCOL_RESERVED : Nat := 255

/-- `protocol_handlers`; an element nobody registered holds null callbacks. -/
abbrev ProtocolHandlers := UInt8 → Option ProtocolHandler

def protocolHandlerRegister (t : ProtocolHandlers) (protocol : UInt8) (proto : ProtocolHandler) :
    ProtocolHandlers := Function.update t protocol (some proto)

def unimplementedProtocolHandlerRegister (t : ProtocolHandlers) : ProtocolHandlers :=
  (List.range IP_PROTOCOL_RESERVED).foldl
    (fun t i => protocolHandlerRegister t (UInt8.ofNat i) .unimplemented) t

/-- The table after the init functions and the main-loop-enter functions. -/
def protocolHandlers : ProtocolHandlers :=
  let t := unimplementedProtocolHandlerRegister (fun _ => none)
  let t := protocolHandlerRegister t IP_PROTOCOL_ICMP .icmp
  let t := protocolHandlerRegister t IP_PROTOCOL_UDP .udp
  protocolHandlerRegister t IP_PROTOCOL_TCP .tcp

def protocolHandlerGet (protocol : UInt8) : Option ProtocolHandler := protocolHandlers protocol

theorem protocolHandlerRegister_apply (t : ProtocolHandlers) (p q : UInt8) (h : ProtocolHandler) :
    protocolHandlerRegister t p h q = if q = p then some h else t q := by
  simp only [protocolHandlerRegister, Function.update_apply]

/-- Registering the default handlers puts no other handler into the table. -/
theorem unimplemented_registers (t : ProtocolHandlers) (protocol : UInt8) :
    unimplementedProtocolHandlerRegister t protocol = some .unimplemented ∨
      unimplementedProtocolHandlerRegister t protocol = t protocol := by
  unfold unimplementedProtocolHandlerRegister
  generalize List.range IP_PROTOCOL_RESERVED = slots
  induction slots generalizing t with
  | nil => exact .inr rfl
  | cons i slots ih =>
      rw [List.foldl_cons]
      rcases ih (protocolHandlerRegister t (UInt8.ofNat i) .unimplemented) with default | kept
      · exact .inl default
      · rw [kept, protocolHandlerRegister_apply]
        split
        · exact .inl rfl
        · exact .inr rfl

/-- Only TCP packets reach TCP's callbacks. -/
theorem protocolHandlerGet_eq_tcp {protocol : UInt8} :
    protocolHandlerGet protocol = some .tcp ↔ protocol = IP_PROTOCOL_TCP := by
  simp only [protocolHandlerGet, protocolHandlers, protocolHandlerRegister_apply]
  constructor
  · intro found
    by_contra other
    rw [if_neg other] at found
    split at found
    · cases found
    · split at found
      · cases found
      · rcases unimplemented_registers (fun _ => none) protocol with default | kept
        · rw [default] at found; cases found
        · rw [kept] at found; cases found
  · intro tcp
    rw [if_pos tcp]

end FlowTable
