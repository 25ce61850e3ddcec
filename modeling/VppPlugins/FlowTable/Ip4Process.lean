import VppPlugins.FlowTable.Worker

/-! `ip4_input_process` and `ip4_output_process`. -/
namespace FlowTable
open Faults

variable {Mem Tbl : Type}

/-- The flow that `ip4_input_process` sets up in pool element `index` before it stores the
flow's first entry in the hash table. -/
def ip4NewFlow (b : Buffer) (key : FlowKey) (index : Nat) : Flow :=
  let flow := flowTableAllocatedFlow index
  let flow := { flow with protocol := b.ipProtocol, ipVersion := 4 }
  let flow := flowTableInitFlow index flow key b.swIfIndexRx .dirIn
  let flow := flow.setEntry .dirIn fun e =>
    { e with smac := b.mac (b.l2HdrOffset + 6), dmac := b.mac b.l2HdrOffset }
  flow.setEntry .dirIn fun e =>
    { e with
      outerVlanId := key.outerVlanId, innerVlanId := key.innerVlanId,
      vlanPresent := key.vlanPresent }

/-- What a call leaves behind: the worker, the marked buffer, and its locals. `created` tells
which of its two branches ran. -/
structure InputOutcome (Mem Tbl : Type) where
  wrk : Worker Mem Tbl
  buf : Buffer
  key : FlowKey
  flow : Nat
  direction : FlowDir
  created : Bool
  action : VnetfilterAction

/-- The key a buffer is looked up with; null callbacks give none. -/
def ip4LookupKey (b : Buffer) : Option FlowKey :=
  (protocolHandlerGet (b.ipProtocol)).map (fun h => h.parseKey b b.ip4FlowKey)

/-- The `flow` field at an entry's address. -/
def Worker.backPointer (w : Worker Mem Tbl) (a : EntryAddr) : Option Nat :=
  match w.flows.get? a.flow with
  | none => none
  | some flow => (flow.flowEntry a.dir).flow

def ip4InputProcess (P : Platform Mem Tbl) (w : Worker Mem Tbl) (b : Buffer) :
    Except Fault (InputOutcome Mem Tbl) := do
  let handler ← orFault .nullCallback (protocolHandlerGet (b.ipProtocol))
  let key := handler.parseKey b b.ip4FlowKey
  let hashKey := P.flowTableHash key
  let hashTable := w.flowsHashTable
  let flowEntries ← orFault .freedHashTable (P.table.get w.mem hashTable hashKey)
  match flowEntries with
  | none =>
      let (flows, index) ← orFault .poolExhausted (w.flows.alloc (ip4NewFlow b key))
      let b := vlibBufferSetFlow b index
      -- `hash_set` assigns the returned handle to the local variable, not to the context
      let (mem, _hashTable) ←
        orFault .freedHashTable (P.table.set3 w.mem hashTable hashKey ⟨index, .dirIn⟩)
      let w ← handler.initState P { w with flows, mem } b .dirIn
      pure ⟨w, b, key, index, .dirIn, true, .accept⟩
  | some flowEntry =>
      let flow ← orFault .nullPointer (w.backPointer flowEntry)
      let b := vlibBufferSetFlow b flow
      let direction := flowTableGetDirection flow flowEntry
      let w ← handler.updateState P w b direction
      pure ⟨w, b, key, flow, direction, false, .accept⟩

/-- One packet through both hooks. -/
def received (P : Platform Mem Tbl) (w : Worker Mem Tbl) (p : Buffer) :
    Except Fault (InputOutcome Mem Tbl) := ip4InputProcess P w (ip4PreProcess p).1

def ip4OutputProcess (P : Platform Mem Tbl) (w : Worker Mem Tbl) (b : Buffer) :
    Except Fault (Worker Mem Tbl × VnetfilterAction) :=
  match vlibBufferGetFlow w b with
  | none => pure (w, .stop)
  | some index => do
      let flow ← orFault .nullPointer (w.flows.get? index)
      if (flow.flowEntry .dirOut).flow = none then
        let key := flowKeyReverse flow.key
        let flows := w.flows.modify index (fun f => flowTableUpdateFlow index f key .dirOut)
        let hashTable := w.flowsHashTable
        let (mem, _hashTable) ←
          orFault .freedHashTable
            (P.table.set3 w.mem hashTable (P.flowTableHash key) ⟨index, .dirOut⟩)
        pure ({ w with flows, mem }, .accept)
      else pure (w, .accept)

/-! What a protocol callback may touch: of the flow the buffer is marked with, its state,
handshake flag, sequence numbers and timer handle. Everything else is its identity. -/

def FlowEntry.identity (e : FlowEntry) : FlowEntry := { e with tcpAttr := ⟨0, 0, 0⟩ }

def Flow.identity (f : Flow) : Flow :=
  { f with
    state := .start, threeWayHandshake := false, stopTimerHandle := noHandle
    flowEntry := fun d => (f.flowEntry d).identity }

@[simp] theorem identity_tcpTrackSequence (b : Buffer) (d : FlowDir) (f : Flow) :
    (tcpTrackSequence b d f).identity = f.identity := by
  have entries : (fun e => ((tcpTrackSequence b d f).flowEntry e).identity) =
      fun e => (f.flowEntry e).identity := by
    funext e
    rw [tcpTrackSequence, setEntry_entry]
    split <;> rfl
  rw [Flow.identity, entries]
  rfl

@[simp] theorem identity_tcpInitFlow (b : Buffer) (d : FlowDir) (f : Flow) :
    (tcpInitFlow b d f).identity = f.identity := by
  unfold tcpInitFlow
  dsimp only
  split <;> rfl

@[simp] theorem identity_tcpUpdateFlow (b : Buffer) (d : FlowDir) (f : Flow) :
    (tcpUpdateFlow b d f).identity = f.identity := rfl

@[simp] theorem identity_timerUpdate (P : Platform Mem Tbl) (tw : TimerWheel) (f : Flow) (n : Nat) :
    (flowExpirationTimerUpdate P tw f n).2.identity = f.identity := by
  unfold flowExpirationTimerUpdate
  split <;> rfl

/-! The effect of the two calls on the pool, entry by entry. -/

/-- The flow a TCP callback leaves in the pool, and the wheel with its timer armed. -/
def tcpSettle (P : Platform Mem Tbl) (tw : TimerWheel) (b : Buffer) (d : FlowDir) (f : Flow) :
    TimerWheel × Flow :=
  let armed := flowExpirationTimerUpdate P tw f (tcpStateTimeout f.state)
  (armed.1, tcpTrackSequence b d armed.2)

/-- What `init_state` makes of the flow it is called for. -/
def ProtocolHandler.started (P : Platform Mem Tbl) (h : ProtocolHandler) (tw : TimerWheel)
    (b : Buffer) (d : FlowDir) (f : Flow) : TimerWheel × Flow :=
  match h with
  | .tcp => tcpSettle P tw b d (tcpInitFlow b d f)
  | .unimplemented | .icmp | .udp => (tw, f)

/-- What `update_state` makes of it. -/
def ProtocolHandler.updated (P : Platform Mem Tbl) (h : ProtocolHandler) (tw : TimerWheel)
    (b : Buffer) (d : FlowDir) (f : Flow) : TimerWheel × Flow :=
  match h with
  | .tcp => tcpSettle P tw b d (tcpUpdateFlow b d f)
  | .unimplemented | .icmp | .udp => (tw, f)

@[simp] theorem identity_started (P : Platform Mem Tbl) (h : ProtocolHandler) (tw : TimerWheel)
    (b : Buffer) (d : FlowDir) (f : Flow) : (h.started P tw b d f).2.identity = f.identity := by
  cases h <;> simp [ProtocolHandler.started, tcpSettle]

@[simp] theorem identity_updated (P : Platform Mem Tbl) (h : ProtocolHandler) (tw : TimerWheel)
    (b : Buffer) (d : FlowDir) (f : Flow) : (h.updated P tw b d f).2.identity = f.identity := by
  cases h <;> simp [ProtocolHandler.updated, tcpSettle]

theorem timerUpdate_now (P : Platform Mem Tbl) (tw : TimerWheel) (f : Flow) (n : Nat) :
    (flowExpirationTimerUpdate P tw f n).1.now = tw.now := by
  unfold flowExpirationTimerUpdate
  split
  · exact TimerWheel.now_start ..
  · exact TimerWheel.now_update ..

theorem started_now (P : Platform Mem Tbl) (h : ProtocolHandler) (tw : TimerWheel) (b : Buffer)
    (d : FlowDir) (f : Flow) : (h.started P tw b d f).1.now = tw.now := by
  cases h with
  | tcp => exact timerUpdate_now ..
  | unimplemented => rfl
  | icmp => rfl
  | udp => rfl

/-- `w'` is `w` with another flow in element `index` and another wheel. -/
structure Worker.Replaced (w w' : Worker Mem Tbl) (index : Nat) (tw : TimerWheel) (f : Flow) :
    Prop where
  mem : w'.mem = w.mem
  table : w'.flowsHashTable = w.flowsHashTable
  cap : w'.flows.cap = w.flows.cap
  size : w'.flows.size = w.flows.size
  tw : w'.tw = tw
  flows : ∀ j, w'.flows.get? j = if j = index then some f else w.flows.get? j

theorem Worker.Replaced.refl {w : Worker Mem Tbl} {index : Nat} {f : Flow}
    (found : w.flows.get? index = some f) : w.Replaced w index w.tw f := by
  refine ⟨rfl, rfl, rfl, rfl, rfl, fun j => ?_⟩
  by_cases same : j = index
  · rw [if_pos same, same, found]
  · rw [if_neg same]

theorem get?_replace {p : FixedPool Flow} {index : Nat} {f : Flow} (g : Flow → Flow)
    (found : p.get? index = some f) (j : Nat) :
    (p.modify index g).get? j = if j = index then some (g f) else p.get? j := by
  rw [FixedPool.get?_modify]
  by_cases same : j = index
  · rw [if_pos same.symm, if_pos same, same, found, Option.map_some]
  · rw [if_neg (Ne.symm same), if_neg same]

/-- A buffer marked with an element of the pool resolves to it: the pool is far too
small for the mark to be `~0`. -/
theorem getFlow_setFlow {w : Worker Mem Tbl} {index : Nat} (b : Buffer)
    (cap : w.flows.cap ≤ FLOW_TABLE_MAX_FLOWS) (inside : index < w.flows.size) :
    vlibBufferGetFlow w (vlibBufferSetFlow b index) = some index := by
  have small : index < 1000000 :=
    Nat.lt_of_lt_of_le inside (Nat.le_trans w.flows.size_le_cap cap)
  have value : (UInt32.ofNat index).toNat = index := by
    rw [UInt32.toNat_ofNat', Nat.mod_eq_of_lt (by omega)]
  have unset : UInt32.ofNat index ≠ 0xFFFFFFFF := by
    intro same
    have absurd := congrArg UInt32.toNat same
    rw [value] at absurd
    change index = 4294967295 at absurd
    omega
  obtain ⟨f, found⟩ := FixedPool.get?_isSome_iff.mpr inside
  simp only [vlibBufferGetFlow, vlibBufferSetFlow, if_neg unset, flowTableGetFlowByIndex, value,
    found]

theorem getFlow_found {w : Worker Mem Tbl} {b : Buffer} {index : Nat}
    (resolved : vlibBufferGetFlow w b = some index) : ∃ f, w.flows.get? index = some f := by
  unfold vlibBufferGetFlow flowTableGetFlowByIndex at resolved
  split at resolved
  · cases resolved
  · split at resolved
    · cases resolved
    · rename_i f found
      cases resolved
      exact ⟨f, found⟩

theorem initState_replaced {P : Platform Mem Tbl} {h : ProtocolHandler} {w w' : Worker Mem Tbl}
    {b : Buffer} {d : FlowDir} {index : Nat} {f : Flow}
    (resolved : vlibBufferGetFlow w b = some index) (found : w.flows.get? index = some f)
    (done : h.initState P w b d = .ok w') :
    w.Replaced w' index (h.started P w.tw b d f).1 (h.started P w.tw b d f).2 := by
  cases h with
  | tcp =>
      simp only [ProtocolHandler.initState, tcpInitState, bind_ok, orFault_ok, pure_ok] at done
      obtain ⟨i, resolved', g, found', rfl⟩ := done
      cases resolved.symm.trans resolved'
      cases found.symm.trans found'
      exact ⟨rfl, rfl, rfl, FixedPool.size_modify .., rfl, get?_replace _ found⟩
  | unimplemented => cases pure_ok.mp done; exact .refl found
  | icmp => cases pure_ok.mp done; exact .refl found
  | udp => cases pure_ok.mp done; exact .refl found

theorem updateState_replaced {P : Platform Mem Tbl} {h : ProtocolHandler} {w w' : Worker Mem Tbl}
    {b : Buffer} {d : FlowDir} {index : Nat} {f : Flow}
    (resolved : vlibBufferGetFlow w b = some index) (found : w.flows.get? index = some f)
    (done : h.updateState P w b d = .ok w') :
    w.Replaced w' index (h.updated P w.tw b d f).1 (h.updated P w.tw b d f).2 := by
  cases h with
  | tcp =>
      simp only [ProtocolHandler.updateState, tcpUpdateState, bind_ok, orFault_ok] at done
      obtain ⟨i, resolved', g, found', done⟩ := done
      cases resolved.symm.trans resolved'
      cases found.symm.trans found'
      split at done
      · cases pure_ok.mp done
        exact ⟨rfl, rfl, rfl, FixedPool.size_modify .., rfl, get?_replace _ found⟩
      · cases pure_ok.mp done
        exact ⟨rfl, rfl, rfl, FixedPool.size_modify .., rfl, get?_replace _ found⟩
  | unimplemented => cases pure_ok.mp done; exact .refl found
  | icmp => cases pure_ok.mp done; exact .refl found
  | udp => cases pure_ok.mp done; exact .refl found

/-! The only fault of a callback is a null pointer. -/

theorem initState_fault {P : Platform Mem Tbl} {h : ProtocolHandler} {w : Worker Mem Tbl}
    {b : Buffer} {d : FlowDir} {e : Fault} (failed : h.initState P w b d = .error e) :
    e = .nullPointer := by
  cases h with
  | tcp =>
      simp only [ProtocolHandler.initState, tcpInitState, bind_error, orFault_error] at failed
      rcases failed with ⟨-, rfl⟩ | ⟨index, -, ⟨-, rfl⟩ | ⟨flow, -, ⟨⟩⟩⟩
      · rfl
      · rfl
  | unimplemented => cases failed
  | icmp => cases failed
  | udp => cases failed

theorem updateState_fault {P : Platform Mem Tbl} {h : ProtocolHandler} {w : Worker Mem Tbl}
    {b : Buffer} {d : FlowDir} {e : Fault} (failed : h.updateState P w b d = .error e) :
    e = .nullPointer := by
  cases h with
  | tcp =>
      simp only [ProtocolHandler.updateState, tcpUpdateState, bind_error, orFault_error] at failed
      rcases failed with ⟨-, rfl⟩ | ⟨index, -, ⟨-, rfl⟩ | ⟨flow, -, last⟩⟩
      · rfl
      · rfl
      · split at last <;> cases last
  | unimplemented => cases failed
  | icmp => cases failed
  | udp => cases failed

end FlowTable
