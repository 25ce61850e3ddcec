import VppPlugins.FlowTable.Ip4Process
import VppPlugins.Library.ByteReader

/-! The same functions, written as the reads they make: nothing of a packet is known but the
bytes a read returns. -/
namespace FlowTable
open Faults ByteReader

variable {Mem Tbl : Type}

def parseVlanTagsReads (b : Buffer) : ByteReader VlanTags := do
  let eth := b.l2HdrOffset
  let ethertype ← net16 (eth + 12)
  if ethertype = ETHERNET_TYPE_VLAN ∨ ethertype = ETHERNET_TYPE_DOT1AD then
    let vlan := eth + 14
    let priorityCfiAndId ← net16 vlan
    let ethertype ← net16 (vlan + 2)
    if ethertype = ETHERNET_TYPE_VLAN then
      let innerVlan := vlan + 4
      let innerPriorityCfiAndId ← net16 innerVlan
      -- the innermost type is read and not used
      let _ethertype ← net16 (innerVlan + 2)
      pure ⟨14 + 4 + 4, priorityCfiAndId &&& 0x0FFF, innerPriorityCfiAndId &&& 0x0FFF, 2⟩
    else pure ⟨14 + 4, priorityCfiAndId &&& 0x0FFF, 0, 1⟩
  else pure ⟨14, 0, 0, 0⟩

def ip4PreProcessReads (b : Buffer) : ByteReader (Buffer × VnetfilterAction) := do
  let tags ← parseVlanTagsReads b
  let b := { b with l3HdrOffset := i16 tags.l3Offset }
  let ipVersionAndHeaderLength ← byte b.l3HdrOffset
  let ihl := i16 ((ipVersionAndHeaderLength &&& 0x0F).toNat <<< 2 : Nat)
  let b := { b with l4HdrOffset := i16 (ihl + b.l3HdrOffset) }
  let b := { b with
    unused0 := Bytes.pack tags.outerVlanId tags.innerVlanId
    unused1 := tags.vlanPresent.toUInt32 }
  pure (vlibBufferInitFlow b, .accept)

def tcpParseFlowKeyReads (b : Buffer) (key : FlowKey) : ByteReader FlowKey := do
  let srcPort ← net16 b.l4HdrOffset
  let dstPort ← net16 (b.l4HdrOffset + 2)
  pure { key with srcPort, dstPort }

def tcpTrackSequenceReads (b : Buffer) (direction : FlowDir) (flow : Flow) : ByteReader Flow := do
  let seq ← net32 (b.l4HdrOffset + 4)
  let ack ← net32 (b.l4HdrOffset + 8)
  pure (flow.setEntry direction fun e => { e with tcpAttr := { e.tcpAttr with seq, ack } })

/-- The flow a callback works on, with its index. -/
def markedFlow (w : Worker Mem Tbl) (b : Buffer) : Option (Nat × Flow) := do
  let index ← vlibBufferGetFlow w b
  let flow ← w.flows.get? index
  pure (index, flow)

/-- `tcp_init_state` and `tcp_update_state` on the flow, given the concerned flags. -/
def tcpStartFlow (flags : UInt8) (direction : FlowDir) (flow : Flow) : Flow :=
  let flow := if flags = TCP_FLAG_SYN then { flow with threeWayHandshake := true } else flow
  { flow with state := tcpStateTransfer .start (flagsToEvents flags) direction }

def tcpMoveFlow (flags : UInt8) (direction : FlowDir) (flow : Flow) : Flow :=
  { flow with state := tcpStateTransfer flow.state (flagsToEvents flags) direction }

def tcpInitStateReads (P : Platform Mem Tbl) (w : Worker Mem Tbl) (b : Buffer)
    (direction : FlowDir) : ByteReader (Except Fault (Worker Mem Tbl)) := do
  let flags := (← byte (b.l4HdrOffset + 13)) &&& TCP_FLAG_CONCERNED
  match markedFlow w b with
  | none => pure (.error .nullPointer)
  | some (index, flow) =>
      let flow := tcpStartFlow flags direction flow
      let (tw, flow) := flowExpirationTimerUpdate P w.tw flow (tcpStateTimeout flow.state)
      let flow ← tcpTrackSequenceReads b direction flow
      pure (.ok { w with flows := w.flows.modify index (fun _ => flow), tw })

def tcpUpdateStateReads (P : Platform Mem Tbl) (w : Worker Mem Tbl) (b : Buffer)
    (direction : FlowDir) : ByteReader (Except Fault (Worker Mem Tbl)) := do
  let flags := (← byte (b.l4HdrOffset + 13)) &&& TCP_FLAG_CONCERNED
  match markedFlow w b with
  | none => pure (.error .nullPointer)
  | some (index, flow) =>
      let flow := tcpMoveFlow flags direction flow
      let (tw, flow) := flowExpirationTimerUpdate P w.tw flow (tcpStateTimeout flow.state)
      let flow ← tcpTrackSequenceReads b direction flow
      let w := { w with flows := w.flows.modify index (fun _ => flow), tw }
      if flow.state = .established ∧ flow.threeWayHandshake = true then
        pure (.ok { w with resets := w.resets ++ [flow] })
      else pure (.ok w)

def ProtocolHandler.parseKeyReads (b : Buffer) (key : FlowKey) :
    ProtocolHandler → ByteReader FlowKey
  | .tcp => tcpParseFlowKeyReads b key
  | .unimplemented | .icmp | .udp => pure key

def ProtocolHandler.initStateReads (P : Platform Mem Tbl) (w : Worker Mem Tbl) (b : Buffer)
    (direction : FlowDir) : ProtocolHandler → ByteReader (Except Fault (Worker Mem Tbl))
  | .tcp => tcpInitStateReads P w b direction
  | .unimplemented | .icmp | .udp => pure (.ok w)

def ProtocolHandler.updateStateReads (P : Platform Mem Tbl) (w : Worker Mem Tbl) (b : Buffer)
    (direction : FlowDir) : ProtocolHandler → ByteReader (Except Fault (Worker Mem Tbl))
  | .tcp => tcpUpdateStateReads P w b direction
  | .unimplemented | .icmp | .udp => pure (.ok w)

/-- A new flow's fields, given the addresses of its packet. -/
def ip4FillFlow (protocol : UInt8) (key : FlowKey) (swIfIndex : UInt32) (smac dmac : MacAddress)
    (index : Nat) : Flow :=
  let flow := flowTableAllocatedFlow index
  let flow := { flow with protocol, ipVersion := 4 }
  let flow := flowTableInitFlow index flow key swIfIndex .dirIn
  let flow := flow.setEntry .dirIn fun e => { e with smac, dmac }
  flow.setEntry .dirIn fun e =>
    { e with
      outerVlanId := key.outerVlanId, innerVlanId := key.innerVlanId,
      vlanPresent := key.vlanPresent }

/-- The key as `ip4_input_process` fills it, given the fields of the IP header. -/
def ip4FillKey (b : Buffer) (protocol : UInt8) (src dst : Ip4Address) : FlowKey :=
  { FlowKey.zero with
    dst := IpAddress.zero.setIp4 dst
    src := IpAddress.zero.setIp4 src
    protocol
    outerVlanId := ((b.unused0 >>> 16) &&& 0xFFFF).toUInt16
    innerVlanId := (b.unused0 &&& 0xFFFF).toUInt16
    vlanPresent := b.unused1.toUInt8 }

/-- The branch of `ip4_input_process` for a key without a flow. -/
def ip4CreateReads (P : Platform Mem Tbl) (w : Worker Mem Tbl) (b : Buffer) (protocol : UInt8)
    (handler : ProtocolHandler) (key : FlowKey) :
    ByteReader (Except Fault (InputOutcome Mem Tbl)) :=
  match w.flows.alloc flowTableAllocatedFlow with
  | none => pure (.error .poolExhausted)
  | some (flows, index) => do
      let b := vlibBufferSetFlow b index
      let smac ← vector (b.l2HdrOffset + 6) 6
      let dmac ← vector b.l2HdrOffset 6
      let flows :=
        flows.modify index fun _ => ip4FillFlow protocol key b.swIfIndexRx smac dmac index
      match P.table.set3 w.mem w.flowsHashTable (P.flowTableHash key) ⟨index, .dirIn⟩ with
      | none => pure (.error .freedHashTable)
      | some (mem, _) =>
          let called ← handler.initStateReads P { w with flows, mem } b .dirIn
          pure (called.map fun w => ⟨w, b, key, index, .dirIn, true, .accept⟩)

/-- The branch for a key that is bound. -/
def ip4FindReads (P : Platform Mem Tbl) (w : Worker Mem Tbl) (b : Buffer)
    (handler : ProtocolHandler) (key : FlowKey) (flowEntry : EntryAddr) :
    ByteReader (Except Fault (InputOutcome Mem Tbl)) :=
  match w.backPointer flowEntry with
  | none => pure (.error .nullPointer)
  | some flow => do
      let b := vlibBufferSetFlow b flow
      let direction := flowTableGetDirection flow flowEntry
      let called ← handler.updateStateReads P w b direction
      pure (called.map fun w => ⟨w, b, key, flow, direction, false, .accept⟩)

def ip4InputProcessReads (P : Platform Mem Tbl) (w : Worker Mem Tbl) (b : Buffer) :
    ByteReader (Except Fault (InputOutcome Mem Tbl)) := do
  let protocol ← byte (b.l3HdrOffset + 9)
  let src ← vector (b.l3HdrOffset + 12) 4
  let dst ← vector (b.l3HdrOffset + 16) 4
  match protocolHandlerGet protocol with
  | none => pure (.error .nullCallback)
  | some handler =>
      let key ← handler.parseKeyReads b (ip4FillKey b protocol src dst)
      match P.table.get w.mem w.flowsHashTable (P.flowTableHash key) with
      | none => pure (.error .freedHashTable)
      | some none => ip4CreateReads P w b protocol handler key
      | some (some flowEntry) => ip4FindReads P w b handler key flowEntry

/-! On unbounded data these are the functions themselves. -/

variable {P : Platform Mem Tbl} {w : Worker Mem Tbl} {b : Buffer}

theorem run_field16 (off : Int) : (ByteReader.net16 off).run b.data = b.net16 off := run_net16 off

theorem run_field32 (off : Int) : (ByteReader.net32 off).run b.data = b.net32 off := run_net32 off

theorem run_ip4 (off : Int) : (vector off 4).run b.data = b.ip4 off := run_vector off 4

theorem run_ipProtocol : (byte (b.l3HdrOffset + 9)).run b.data = b.ipProtocol := rfl

theorem ip4FillKey_eq :
    ip4FillKey b b.ipProtocol (b.ip4 (b.l3HdrOffset + 12)) (b.ip4 (b.l3HdrOffset + 16)) =
      b.ip4FlowKey := rfl

theorem run_parseVlanTagsReads : (parseVlanTagsReads b).run b.data = parseVlanTags b := by
  simp only [parseVlanTagsReads, parseVlanTags, run_bind, run_field16, run_ite, run_pure]

theorem run_ip4PreProcessReads : (ip4PreProcessReads b).run b.data = ip4PreProcess b := by
  simp only [ip4PreProcessReads, ip4PreProcess, run_bind, run_byte, run_pure,
    run_parseVlanTagsReads]

theorem run_parseKeyReads (key : FlowKey) (h : ProtocolHandler) :
    (h.parseKeyReads b key).run b.data = h.parseKey b key := by
  cases h with
  | tcp =>
      simp only [ProtocolHandler.parseKeyReads, tcpParseFlowKeyReads, run_bind, run_field16,
        run_pure]
      rfl
  | unimplemented => rfl
  | icmp => rfl
  | udp => rfl

theorem run_tcpTrackSequenceReads (d : FlowDir) (f : Flow) :
    (tcpTrackSequenceReads b d f).run b.data = tcpTrackSequence b d f := by
  simp only [tcpTrackSequenceReads, run_bind, run_field32, run_pure]
  rfl

/-- The two lookups of a callback, each of which may find a null pointer, as one. -/
theorem markedFlow_bind {Out : Type} (next : Nat → Flow → Except Fault Out) :
    (orFault .nullPointer (vlibBufferGetFlow w b) >>= fun index =>
      orFault .nullPointer (w.flows.get? index) >>= fun flow => next index flow) =
      match markedFlow w b with
      | none => .error .nullPointer
      | some (index, flow) => next index flow := by
  rw [markedFlow]
  cases vlibBufferGetFlow w b with
  | none => rfl
  | some index =>
      simp only [orFault, ok_bind, Option.bind_eq_bind, Option.bind_some]
      cases w.flows.get? index with
      | none => rfl
      | some flow => rfl

theorem run_tcpInitStateReads (d : FlowDir) :
    (tcpInitStateReads P w b d).run b.data = tcpInitState P w b d := by
  rw [tcpInitState, markedFlow_bind]
  simp only [tcpInitStateReads, run_bind, run_byte]
  cases markedFlow w b with
  | none => rfl
  | some found =>
      simp only [run_bind, run_tcpTrackSequenceReads, run_pure]
      rfl

theorem run_tcpUpdateStateReads (d : FlowDir) :
    (tcpUpdateStateReads P w b d).run b.data = tcpUpdateState P w b d := by
  rw [tcpUpdateState, markedFlow_bind]
  simp only [tcpUpdateStateReads, run_bind, run_byte]
  cases markedFlow w b with
  | none => rfl
  | some found =>
      simp only [run_bind, run_tcpTrackSequenceReads, run_ite, run_pure]
      rfl

theorem run_initStateReads (h : ProtocolHandler) (d : FlowDir) :
    (h.initStateReads P w b d).run b.data = h.initState P w b d := by
  cases h with
  | tcp => exact run_tcpInitStateReads d
  | unimplemented => rfl
  | icmp => rfl
  | udp => rfl

theorem run_updateStateReads (h : ProtocolHandler) (d : FlowDir) :
    (h.updateStateReads P w b d).run b.data = h.updateState P w b d := by
  cases h with
  | tcp => exact run_tcpUpdateStateReads d
  | unimplemented => rfl
  | icmp => rfl
  | udp => rfl

theorem run_ip4CreateReads {h : ProtocolHandler} {key : FlowKey} :
    (ip4CreateReads P w b b.ipProtocol h key).run b.data = (do
      let (flows, index) ← orFault .poolExhausted (w.flows.alloc (ip4NewFlow b key))
      let b := vlibBufferSetFlow b index
      let (mem, _) ← orFault .freedHashTable
        (P.table.set3 w.mem w.flowsHashTable (P.flowTableHash key) ⟨index, .dirIn⟩)
      let w ← h.initState P { w with flows, mem } b .dirIn
      pure ⟨w, b, key, index, .dirIn, true, .accept⟩) := by
  rw [FixedPool.alloc_then_modify w.flows (ip4NewFlow b key) flowTableAllocatedFlow, ip4CreateReads]
  cases w.flows.alloc flowTableAllocatedFlow with
  | none => rfl
  | some allocated =>
      obtain ⟨flows, index⟩ := allocated
      simp only [run_bind, run_vector, orFault, Option.map_some, ok_bind]
      cases P.table.set3 w.mem w.flowsHashTable (P.flowTableHash key) ⟨index, .dirIn⟩ with
      | none => rfl
      | some stored =>
          simp only [run_bind, run_pure, ok_bind]
          rw [map_eq]
          exact congrArg (· >>= _) (run_initStateReads (b := vlibBufferSetFlow b index) h .dirIn)

theorem run_ip4FindReads {h : ProtocolHandler} {key : FlowKey} {a : EntryAddr} :
    (ip4FindReads P w b h key a).run b.data = (do
      let flow ← orFault .nullPointer (w.backPointer a)
      let b := vlibBufferSetFlow b flow
      let direction := flowTableGetDirection flow a
      let w ← h.updateState P w b direction
      pure ⟨w, b, key, flow, direction, false, .accept⟩) := by
  rw [ip4FindReads]
  cases w.backPointer a with
  | none => rfl
  | some flow =>
      simp only [run_bind, run_pure, orFault, ok_bind]
      rw [map_eq]
      exact congrArg (· >>= _) (run_updateStateReads (b := vlibBufferSetFlow b flow) h _)

theorem run_ip4InputProcessReads :
    (ip4InputProcessReads P w b).run b.data = ip4InputProcess P w b := by
  simp only [ip4InputProcessReads, ip4InputProcess, run_bind, run_ipProtocol, run_ip4,
    ip4FillKey_eq]
  cases protocolHandlerGet b.ipProtocol with
  | none => rfl
  | some handler =>
      simp only [run_bind, run_parseKeyReads, orFault, ok_bind]
      cases P.table.get w.mem w.flowsHashTable
          (P.flowTableHash (handler.parseKey b b.ip4FlowKey)) with
      | none => rfl
      | some bound =>
          cases bound with
          | none => exact run_ip4CreateReads
          | some flowEntry => exact run_ip4FindReads

end FlowTable
