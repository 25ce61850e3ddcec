import VppPlugins.FlowTable.Dataplane
import VppPlugins.FlowTable.PacketBounds
import VppPlugins.FlowTable.Connections

/-! Packets that differ in what the plugin never looks at. -/
namespace FlowTable
open Faults Runs Vnetfilter

variable {Mem Tbl A : Type} {P : Platform Mem Tbl} {b c : Buffer}

/-- Where the plugin takes the IP header to be. -/
def Buffer.l3Start (b : Buffer) : Int := (parseVlanTags b).l3Offset

/-- Where it takes the transport header to be. -/
def Buffer.l4Start (b : Buffer) : Int := b.l3Start + 4 * (b.data b.l3Start &&& 0x0F).toNat

/-- The bytes that tell the plugin what a packet is: the Ethernet header with its tags; of the
IP header the length, the protocol and the addresses; of a TCP header the ports, the two
numbers and the flags. -/
def Buffer.Tells (b : Buffer) (off : Int) : Prop :=
  (b.l2HdrOffset ≤ off ∧ off < b.l2HdrOffset + b.l3Start) ∨
    off = b.l3Start ∨ off = b.l3Start + 9 ∨ (b.l3Start + 12 ≤ off ∧ off < b.l3Start + 20) ∨
    (b.data (b.l3Start + 9) = IP_PROTOCOL_TCP ∧
      (b.l4Start ≤ off ∧ off < b.l4Start + 12 ∨ off = b.l4Start + 13))

/-- Packets with the same metadata whose telling bytes agree. -/
structure SameHeaders (b c : Buffer) : Prop where
  fields : c = { b with data := c.data }
  bytes : ∀ off, b.Tells off → c.data off = b.data off

theorem SameHeaders.refl (b : Buffer) : SameHeaders b b := ⟨rfl, fun _ _ => rfl⟩

theorem SameHeaders.l2HdrOffset (same : SameHeaders b c) : c.l2HdrOffset = b.l2HdrOffset := by
  rw [same.fields]

theorem SameHeaders.swIfIndexRx (same : SameHeaders b c) : c.swIfIndexRx = b.swIfIndexRx := by
  rw [same.fields]

theorem SameHeaders.net16 (same : SameHeaders b c) {off : Int} (first : b.Tells off)
    (second : b.Tells (off + 1)) : c.net16 off = b.net16 off := by
  rw [Buffer.net16, same.bytes _ first, same.bytes _ second, Buffer.net16]

theorem SameHeaders.net32 (same : SameHeaders b c) {off : Int}
    (each : ∀ i, off ≤ i → i < off + 4 → b.Tells i) : c.net32 off = b.net32 off := by
  rw [Buffer.net32, same.bytes _ (each _ (by omega) (by omega)),
    same.bytes _ (each _ (by omega) (by omega)), same.bytes _ (each _ (by omega) (by omega)),
    same.bytes _ (each _ (by omega) (by omega)), Buffer.net32]

/-! The tags come first: where they end depends on bytes before their end only. -/

theorem tells_l2 {off : Int} (above : b.l2HdrOffset ≤ off)
    (below : off < b.l2HdrOffset + b.l3Start) : b.Tells off := .inl ⟨above, below⟩

theorem l3Start_bounds (b : Buffer) : 14 ≤ b.l3Start ∧ b.l3Start ≤ 22 := by
  rw [Buffer.l3Start]
  rcases l3Offset_cases b with l3 | l3 | l3 <;> rw [l3] <;> decide

theorem SameHeaders.tags (same : SameHeaders b c) : parseVlanTags c = parseVlanTags b := by
  have least := (l3Start_bounds b).1
  have ethertype : c.net16 (b.l2HdrOffset + 12) = b.net16 (b.l2HdrOffset + 12) :=
    same.net16 (tells_l2 (by omega) (by omega)) (tells_l2 (by omega) (by omega))
  simp only [parseVlanTags, same.l2HdrOffset, ethertype]
  split
  · rename_i tagged
    have longer : 18 ≤ b.l3Start := by
      simp only [Buffer.l3Start, parseVlanTags, if_pos tagged]
      split
      · change (18 : Int) ≤ 22
        decide
      · exact Int.le_refl 18
    have outer : c.net16 (b.l2HdrOffset + 14) = b.net16 (b.l2HdrOffset + 14) :=
      same.net16 (tells_l2 (by omega) (by omega)) (tells_l2 (by omega) (by omega))
    have type : c.net16 (b.l2HdrOffset + 14 + 2) = b.net16 (b.l2HdrOffset + 14 + 2) :=
      same.net16 (tells_l2 (by omega) (by omega)) (tells_l2 (by omega) (by omega))
    rw [outer, type]
    split
    · rename_i twice
      have longest : b.l3Start = 22 := by
        simp only [Buffer.l3Start, parseVlanTags, if_pos tagged, if_pos twice]
        rfl
      have inner : c.net16 (b.l2HdrOffset + 14 + 4) = b.net16 (b.l2HdrOffset + 14 + 4) :=
        same.net16 (tells_l2 (by omega) (by omega)) (tells_l2 (by omega) (by omega))
      rw [inner]
    · rfl
  · rfl

theorem SameHeaders.l3Start (same : SameHeaders b c) : c.l3Start = b.l3Start := by
  rw [Buffer.l3Start, same.tags, Buffer.l3Start]

theorem SameHeaders.l4Start (same : SameHeaders b c) : c.l4Start = b.l4Start := by
  rw [Buffer.l4Start, same.l3Start, same.bytes _ (.inr (.inl rfl)), Buffer.l4Start]

/-! What the hooks take out of a buffer. -/

theorem preProcess_l3Start (b : Buffer) : (ip4PreProcess b).1.l3HdrOffset = b.l3Start := by
  have small := l3Start_bounds b
  rw [Buffer.l3Start] at small
  rw [preProcess_l3HdrOffset, i16_small (by omega) (by omega), Buffer.l3Start]

theorem preProcess_l4Start (b : Buffer) : (ip4PreProcess b).1.l4HdrOffset = b.l4Start := by
  have small := l3Start_bounds b
  have bound := ihl_bound (b.data b.l3Start)
  rw [preProcess_l4HdrOffset, preProcess_l3Start, headerLength, i16_small (by omega) (by omega),
    Buffer.l4Start, add_comm]

/-- The telling bytes are the same wherever the other fields of a buffer point. -/
theorem starts_congr {b' : Buffer} (data : b'.data = b.data)
    (l2 : b'.l2HdrOffset = b.l2HdrOffset) :
    b'.l3Start = b.l3Start ∧ b'.l4Start = b.l4Start := by
  have net16 : ∀ i, b'.net16 i = b.net16 i := fun i => by simp only [Buffer.net16, data]
  have tags : parseVlanTags b' = parseVlanTags b := by simp only [parseVlanTags, net16, l2]
  simp only [Buffer.l4Start, Buffer.l3Start, tags, data, and_self]

theorem tells_congr {b' : Buffer} (data : b'.data = b.data) (l2 : b'.l2HdrOffset = b.l2HdrOffset)
    {off : Int} : b'.Tells off ↔ b.Tells off := by
  simp only [Buffer.Tells, starts_congr data l2, data, l2]

theorem SameHeaders.preProcess (same : SameHeaders b c) :
    SameHeaders (ip4PreProcess b).1 (ip4PreProcess c).1 := by
  have start : i16 (parseVlanTags b).l3Offset = b.l3Start :=
    (preProcess_l3HdrOffset b).symm.trans (preProcess_l3Start b)
  have length : c.data b.l3Start = b.data b.l3Start := same.bytes _ (.inr (.inl rfl))
  constructor
  · simp only [ip4PreProcess, vlibBufferInitFlow, same.tags, start, length, same.l2HdrOffset,
      same.swIfIndexRx]
  · intro off tells
    rw [preProcess_data, preProcess_data]
    exact same.bytes off ((tells_congr (preProcess_data b) (preProcess_l2HdrOffset b)).mp tells)

theorem SameHeaders.setFlow (same : SameHeaders b c) (index : Nat) :
    SameHeaders (vlibBufferSetFlow b index) (vlibBufferSetFlow c index) := by
  constructor
  · rw [vlibBufferSetFlow, same.fields, vlibBufferSetFlow]
  · intro off tells
    exact same.bytes off ((tells_congr (b := b) rfl rfl).mp tells)

/-- Buffers from which the input hook takes the same values. -/
structure SameFields (b c : Buffer) : Prop where
  flowIndex : c.flowIndex = b.flowIndex
  swIfIndexRx : c.swIfIndexRx = b.swIfIndexRx
  ipProtocol : c.ipProtocol = b.ipProtocol
  ip4FlowKey : c.ip4FlowKey = b.ip4FlowKey
  smac : c.mac (c.l2HdrOffset + 6) = b.mac (b.l2HdrOffset + 6)
  dmac : c.mac c.l2HdrOffset = b.mac b.l2HdrOffset
  tcp : b.ipProtocol = IP_PROTOCOL_TCP →
    (c.tcpSrcPort = b.tcpSrcPort ∧ c.tcpDstPort = b.tcpDstPort) ∧
      (c.tcpSeqNumber = b.tcpSeqNumber ∧ c.tcpAckNumber = b.tcpAckNumber) ∧
      c.tcpFlags = b.tcpFlags

theorem SameHeaders.sameFields (same : SameHeaders b c) (l3 : b.l3HdrOffset = b.l3Start)
    (l4 : b.l4HdrOffset = b.l4Start) : SameFields b c := by
  have least := (l3Start_bounds b).1
  have l3' : c.l3HdrOffset = b.l3Start := by rw [same.fields, l3]
  have l4' : c.l4HdrOffset = b.l4Start := by rw [same.fields, l4]
  have protocol : c.ipProtocol = b.ipProtocol := by
    rw [Buffer.ipProtocol, l3', same.bytes _ (.inr (.inr (.inl rfl))), Buffer.ipProtocol, l3]
  have address : ∀ k, 12 ≤ k → k ≤ 16 → c.ip4 (b.l3Start + k) = b.ip4 (b.l3Start + k) := by
    intro k low high
    funext i
    exact same.bytes _ (.inr (.inr (.inr (.inl (by omega)))))
  have mac : ∀ k, 0 ≤ k → k ≤ 6 → c.mac (b.l2HdrOffset + k) = b.mac (b.l2HdrOffset + k) := by
    intro k low high
    funext i
    exact same.bytes _ (tells_l2 (by omega) (by omega))
  refine ⟨?_, same.swIfIndexRx, protocol, ?_, ?_, ?_, ?_⟩
  · rw [same.fields]
  · simp only [Buffer.ip4FlowKey, protocol, l3, l3', address 16 (by decide) (by decide),
      address 12 (by decide) (by decide)]
    rw [same.fields]
  · rw [same.l2HdrOffset]
    exact mac 6 (by decide) (by decide)
  · rw [same.l2HdrOffset]
    simpa only [add_zero] using mac 0 (by decide) (by decide)
  · intro tcp
    rw [Buffer.ipProtocol, l3] at tcp
    have numbers : ∀ i, b.l4Start ≤ i → i < b.l4Start + 12 → b.Tells i := fun i above below =>
      .inr (.inr (.inr (.inr ⟨tcp, .inl ⟨above, below⟩⟩)))
    simp only [Buffer.tcpSrcPort, Buffer.tcpDstPort, Buffer.tcpSeqNumber, Buffer.tcpAckNumber,
      Buffer.tcpFlags, l4, l4']
    refine ⟨⟨?_, ?_⟩, ⟨?_, ?_⟩, ?_⟩
    · exact same.net16 (numbers _ (by omega) (by omega)) (numbers _ (by omega) (by omega))
    · exact same.net16 (numbers _ (by omega) (by omega)) (numbers _ (by omega) (by omega))
    · exact same.net32 fun i above below => numbers i (by omega) (by omega)
    · exact same.net32 fun i above below => numbers i (by omega) (by omega)
    · exact same.bytes _ (.inr (.inr (.inr (.inr ⟨tcp, .inr rfl⟩))))

/-! The calls -/

theorem parseKey_same (same : SameFields b c) {h : ProtocolHandler}
    (handler : protocolHandlerGet b.ipProtocol = some h) (key : FlowKey) :
    h.parseKey c key = h.parseKey b key := by
  cases h with
  | tcp =>
      obtain ⟨⟨src, dst⟩, -⟩ := same.tcp (protocolHandlerGet_eq_tcp.mp handler)
      simp only [ProtocolHandler.parseKey, tcpParseFlowKey, src, dst]
  | unimplemented => rfl
  | icmp => rfl
  | udp => rfl

theorem newFlow_same (same : SameFields b c) (key : FlowKey) :
    ip4NewFlow c key = ip4NewFlow b key := by
  funext index
  simp only [ip4NewFlow, same.ipProtocol, same.swIfIndexRx, same.smac, same.dmac]

section

variable (same : SameFields b c) {h : ProtocolHandler}
  (handler : protocolHandlerGet b.ipProtocol = some h) (w : Worker Mem Tbl) (index : Nat)
  (d : FlowDir)
include same handler

omit handler in
theorem tcpFlow_same (tcp : b.ipProtocol = IP_PROTOCOL_TCP) (flow : Flow) :
    (tcpInitFlow (vlibBufferSetFlow c index) d flow =
        tcpInitFlow (vlibBufferSetFlow b index) d flow ∧
      tcpUpdateFlow (vlibBufferSetFlow c index) d flow =
        tcpUpdateFlow (vlibBufferSetFlow b index) d flow) ∧
      tcpTrackSequence (vlibBufferSetFlow c index) d flow =
        tcpTrackSequence (vlibBufferSetFlow b index) d flow := by
  obtain ⟨-, ⟨seq, ack⟩, flags⟩ := same.tcp tcp
  have concerned : (vlibBufferSetFlow c index).concernedFlags =
      (vlibBufferSetFlow b index).concernedFlags := congrArg (· &&& TCP_FLAG_CONCERNED) flags
  have seq' : (vlibBufferSetFlow c index).tcpSeqNumber =
      (vlibBufferSetFlow b index).tcpSeqNumber := seq
  have ack' : (vlibBufferSetFlow c index).tcpAckNumber =
      (vlibBufferSetFlow b index).tcpAckNumber := ack
  refine ⟨⟨?_, ?_⟩, ?_⟩
  · simp only [tcpInitFlow, Buffer.tcpEvent, concerned]
  · simp only [tcpUpdateFlow, Buffer.tcpEvent, concerned]
  · simp only [tcpTrackSequence, seq', ack']

theorem initState_same :
    h.initState P w (vlibBufferSetFlow c index) d =
      h.initState P w (vlibBufferSetFlow b index) d := by
  cases h with
  | tcp =>
      have flows := tcpFlow_same same index d (protocolHandlerGet_eq_tcp.mp handler)
      simp only [ProtocolHandler.initState, tcpInitState, (flows _).1.1, (flows _).2]
      rfl
  | unimplemented => rfl
  | icmp => rfl
  | udp => rfl

theorem updateState_same :
    h.updateState P w (vlibBufferSetFlow c index) d =
      h.updateState P w (vlibBufferSetFlow b index) d := by
  cases h with
  | tcp =>
      have flows := tcpFlow_same same index d (protocolHandlerGet_eq_tcp.mp handler)
      simp only [ProtocolHandler.updateState, tcpUpdateState, (flows _).1.2, (flows _).2]
      rfl
  | unimplemented => rfl
  | icmp => rfl
  | udp => rfl

end

structure SameOutcome (o o' : InputOutcome Mem Tbl) : Prop where
  fields : o' = { o with buf := o'.buf }
  buf : SameHeaders o.buf o'.buf

theorem inputProcess_same (same : SameHeaders b c) (fields : SameFields b c)
    (w : Worker Mem Tbl) :
    Alike SameOutcome (ip4InputProcess P w b) (ip4InputProcess P w c) := by
  simp only [ip4InputProcess, fields.ipProtocol, fields.ip4FlowKey]
  cases handler : protocolHandlerGet b.ipProtocol with
  | none => exact .error _
  | some h =>
      simp only [orFault, ok_bind, parseKey_same fields handler]
      cases P.table.get w.mem w.flowsHashTable
          (P.flowTableHash (h.parseKey b b.ip4FlowKey)) with
      | none => exact .error _
      | some entries =>
          cases entries with
          | none =>
              simp only [ok_bind, newFlow_same fields]
              cases w.flows.alloc (ip4NewFlow b (h.parseKey b b.ip4FlowKey)) with
              | none => exact .error _
              | some allocated =>
                  simp only [ok_bind, initState_same fields handler]
                  cases P.table.set3 w.mem w.flowsHashTable
                      (P.flowTableHash (h.parseKey b b.ip4FlowKey)) ⟨allocated.2, .dirIn⟩ with
                  | none => exact .error _
                  | some stored =>
                      simp only [ok_bind]
                      cases h.initState P { w with flows := allocated.1, mem := stored.1 }
                          (vlibBufferSetFlow b allocated.2) .dirIn with
                      | error e => exact .error e
                      | ok w' => exact .ok ⟨rfl, same.setFlow _⟩
          | some flowEntry =>
              simp only [ok_bind, updateState_same fields handler]
              cases w.backPointer flowEntry with
              | none => exact .error _
              | some flow =>
                  simp only [ok_bind]
                  cases h.updateState P w (vlibBufferSetFlow b flow)
                      (flowTableGetDirection flow flowEntry) with
                  | error e => exact .error e
                  | ok w' => exact .ok ⟨rfl, same.setFlow _⟩

/-! Runs of a thread -/

/-- Bindings that differ in their packets' untold bytes. -/
structure SameBinding (r q : Binding) : Prop where
  fields : q = { r with packet := q.packet }
  packet : SameHeaders r.packet q.packet

structure SameSys (s t : Sys Mem Tbl) : Prop where
  wrk : t.wrk = s.wrk
  bufs : ∀ slot, SameHeaders (s.bufs slot) (t.bufs slot)
  history : List.Forall₂ SameBinding s.history t.history

theorem SameSys.write {s t : Sys Mem Tbl} (same : SameSys s t) {slot : Nat}
    (packets : SameHeaders b c) (i : Nat) :
    SameHeaders (Function.update s.bufs slot b i) (Function.update t.bufs slot c i) := by
  by_cases here : i = slot
  · rw [here, Function.update_self, Function.update_self]
    exact packets
  · rw [Function.update_of_ne here, Function.update_of_ne here]
    exact same.bufs i

theorem receive_same {s t : Sys Mem Tbl} (same : SameSys s t) (slot : Nat)
    (packets : SameHeaders b c) :
    SameSys { s with bufs := Function.update s.bufs slot b }
      { t with bufs := Function.update t.bufs slot c } :=
  ⟨same.wrk, same.write packets, same.history⟩

theorem input_same {s t : Sys Mem Tbl} (same : SameSys s t) (slot : Nat)
    (fields : SameFields (s.bufs slot) (t.bufs slot)) :
    Alike SameSys (step P s (.input slot)) (step P t (.input slot)) := by
  have called := inputProcess_same (P := P) (same.bufs slot) fields s.wrk
  simp only [step, same.wrk]
  refine called.bind fun o o' outcome => .ok ⟨?_, same.write outcome.buf, ?_⟩
  · rw [outcome.fields]
  · refine List.rel_append same.history (.cons ⟨?_, same.bufs slot⟩ .nil)
    rw [outcome.fields]
    rfl

theorem output_same {s t : Sys Mem Tbl} (same : SameSys s t) (slot : Nat) :
    Alike SameSys (step P s (.output slot)) (step P t (.output slot)) := by
  have called : ip4OutputProcess P s.wrk (t.bufs slot) =
      ip4OutputProcess P s.wrk (s.bufs slot) := by
    rw [(same.bufs slot).fields]
    rfl
  simp only [step, same.wrk, called]
  cases ip4OutputProcess P s.wrk (s.bufs slot) with
  | error e => exact .error e
  | ok result => exact .ok ⟨rfl, same.bufs, same.history⟩

theorem calls_same {s t : Sys Mem Tbl} (same : SameSys s t) (point : HookPoint) (slot : Nat) :
    Alike SameSys (run (step P) s (pluginCalls slot point))
      (run (step P) t (pluginCalls slot point)) := by
  cases point with
  | l2InputIp4 =>
      have packets := (same.bufs slot).preProcess
      obtain ⟨l3, l4⟩ := starts_congr (preProcess_data (s.bufs slot)) (preProcess_l2HdrOffset _)
      have told := packets.sameFields ((preProcess_l3Start _).trans l3.symm)
        ((preProcess_l4Start _).trans l4.symm)
      have called := input_same (P := P) (receive_same same slot packets) slot
        (by simpa only [Function.update_self] using told)
      exact (run_one (step P) _ _).symm ▸ (run_one (step P) _ _).symm ▸ called
  | l2OutputIp4 =>
      rw [pluginCalls, run_one, run_one]
      exact output_same same slot
  | l2InputIp6 => exact .ok same
  | l2OutputIp6 => exact .ok same

/-- Threads on which the same has happened to packets with the same headers. -/
structure SameThread (t u : Thread Mem Tbl A) : Prop where
  sys : SameSys t.sys u.sys
  arc : u.arc = t.arc
  enqueued : u.enqueued = t.enqueued

/-- Nodes that run on the same packets, told by their headers; what a node finds on its stack
and whether it traces may differ. -/
inductive SameInput : NodeCall A → NodeCall A → Prop
  | receive (slot : Nat) {b c : Buffer} (packets : SameHeaders b c) :
      SameInput (.receive slot b) (.receive slot c)
  | arcs (f : A → A) : SameInput (.arcs f) (.arcs f)
  | hook (point : HookPoint) (frame : VlibFrame) (trace trace' : Bool)
      (nexts nexts' : Vector UInt16 VLIB_FRAME_SIZE) :
      SameInput (.hook point trace frame nexts) (.hook point trace' frame nexts')
  | timer (ticks : Nat) : SameInput (.timer ticks) (.timer ticks)

theorem nodeStep_same (g : Graph A) {t u : Thread Mem Tbl A} {n m : NodeCall A}
    (same : SameThread t u) (input : SameInput n m) :
    Alike SameThread (nodeStep P g registeredHooks t n) (nodeStep P g registeredHooks u m) := by
  cases input with
  | receive slot packets =>
      exact .ok ⟨receive_same same.sys slot packets, same.arc, same.enqueued⟩
  | arcs f => exact .ok ⟨same.sys, congrArg f same.arc, same.enqueued⟩
  | timer ticks =>
      refine .ok ⟨⟨?_, same.sys.bufs, same.sys.history⟩, same.arc, same.enqueued⟩
      dsimp only
      rw [same.sys.wrk]
  | hook point frame trace trace' nexts nexts' =>
      rw [nodeStep_hook P g (registered_lastDecides point),
        nodeStep_hook P g (registered_lastDecides point), run_flatMap, run_flatMap, same.arc,
        same.enqueued]
      simp only [registered_calls]
      have each : ∀ (s s' : Sys Mem Tbl) (i j : Nat), SameSys s s' → i = j →
          Alike SameSys (run (step P) s (pluginCalls i point))
            (run (step P) s' (pluginCalls j point)) := by
        rintro s s' i _ related rfl
        exact calls_same related point i
      have called := run_alike each same.sys
        (List.forall₂_refl (frame.vectorArgs.map UInt32.toNat))
      generalize run _ t.sys _ = x at called ⊢
      generalize run _ u.sys _ = y at called ⊢
      cases called with
      | ok related => exact .ok ⟨related, rfl, rfl⟩
      | error e => exact .error _

/-- Nothing but the telling bytes of packets has any influence: packets that differ elsewhere,
be it in their payload, in IP or TCP options, in TTL or window, get the same flows, states,
timers and resets, are handed on alike and fault alike. -/
theorem only_telling_bytes_matter (P : Platform Mem Tbl) (nThreads : Nat) (order : StartupOrder)
    (g : Graph A) {bufs bufs' : Nat → Buffer} (arc : A) {ns ms : List (NodeCall A)}
    (found : ∀ slot, SameHeaders (bufs slot) (bufs' slot))
    (inputs : List.Forall₂ SameInput ns ms) :
    ∃ s w, startup P nThreads order = .ok s ∧ s.wrkCtx = some w ∧
      Alike SameThread (run (nodeStep P g s.hookLists) ⟨⟨w, bufs, []⟩, arc, []⟩ ns)
        (run (nodeStep P g s.hookLists) ⟨⟨w, bufs', []⟩, arc, []⟩ ms) := by
  obtain ⟨s, started, -, lists, context⟩ := startup_completes P nThreads order
  have hooks : s.hookLists = registeredHooks := lists
  refine ⟨s, _, started, context, ?_⟩
  rw [hooks]
  exact run_alike (fun _ _ _ _ => nodeStep_same g) ⟨⟨rfl, found, .nil⟩, rfl, rfl⟩ inputs

/-- The client's first packet after another hop, with a payload. -/
def routedSyn : Buffer :=
  { clientSyn.buffer 0 with
    data := fun i =>
      if i = 22 then 63 else if 54 ≤ i ∧ i < 60 then 0x41 else (clientSyn.buffer 0).data i }

theorem routedSyn_same : SameHeaders (clientSyn.buffer 0) routedSyn := by
  refine ⟨rfl, fun off tells => ?_⟩
  have l3 : (clientSyn.buffer 0).l3Start = 14 := by decide
  have l4 : (clientSyn.buffer 0).l4Start = 34 := by decide
  have l2 : (clientSyn.buffer 0).l2HdrOffset = 0 := rfl
  simp only [Buffer.Tells, l3, l4, l2] at tells
  have ttl : off ≠ 22 := by omega
  have payload : ¬ (54 ≤ off ∧ off < 60) := by omega
  simp only [routedSyn, if_neg ttl, if_neg payload]

def oneVector : VlibFrame := ⟨[0], by decide⟩

def plainOrder : StartupOrder := ⟨vlibInitFunctions, mainLoopEnterFunctions, .refl _, .refl _⟩

theorem routedSyn_treated_alike :
    ∃ s w, startup portPlatform 0 plainOrder = .ok s ∧ s.wrkCtx = some w ∧
      Alike SameThread
        (run (nodeStep portPlatform ⟨fun _ _ => (2, ()), fun _ => false⟩ s.hookLists)
          ⟨⟨w, fun _ => clientSyn.buffer 0, []⟩, (), []⟩
          [.receive 0 (clientSyn.buffer 0),
            .hook .l2InputIp4 false oneVector (Vector.replicate VLIB_FRAME_SIZE 0)])
        (run (nodeStep portPlatform ⟨fun _ _ => (2, ()), fun _ => false⟩ s.hookLists)
          ⟨⟨w, fun _ => clientSyn.buffer 0, []⟩, (), []⟩
          [.receive 0 routedSyn,
            .hook .l2InputIp4 true oneVector (Vector.replicate VLIB_FRAME_SIZE 9)]) :=
  only_telling_bytes_matter portPlatform 0 plainOrder ⟨fun _ _ => (2, ()), fun _ => false⟩ ()
    (fun _ => .refl _)
    (.cons (.receive 0 routedSyn_same) (.cons (.hook .l2InputIp4 oneVector false true _ _) .nil))

end FlowTable
