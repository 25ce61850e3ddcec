import VppPlugins.FlowTable.Resets

/-! Fragments of IPv4 datagrams. No hook looks at the fragment offset: a fragment is tracked as
a segment of its own, whose TCP header is whatever its data starts with. -/
namespace FlowTable
open Bytes Faults Runs

variable {Mem Tbl : Type} {P : Platform Mem Tbl}

/-! What a fragment is, and how it stands in a buffer. -/

/-- An IPv4 datagram that carries a TCP segment. -/
structure Datagram where
  tags : TagStack
  src : Ip4Address
  dst : Ip4Address
  segment : List UInt8

/-- A part of a datagram's data; `more` tells that others follow it. -/
structure Fragment where
  offset : Nat
  data : List UInt8
  more : Bool
  deriving DecidableEq, Repr

/-- The datagram in one piece. -/
def Datagram.whole (d : Datagram) : Fragment := ⟨0, d.segment, false⟩

/-- The fragments for pieces of data, the first of which starts at `offset`. -/
def fragmentsFrom (offset : Nat) : List (List UInt8) → List Fragment
  | [] => []
  | data :: rest => ⟨offset, data, !rest.isEmpty⟩ :: fragmentsFrom (offset + data.length) rest

/-- A way of cutting the datagram: offsets count in units of eight bytes, and the TCP header
stays in one piece. -/
structure Datagram.Cut (d : Datagram) where
  first : List UInt8
  rest : List (List UInt8)
  whole : first ++ rest.flatten = d.segment
  header : tcpHeaderSize ≤ first.length
  units : ∀ data ∈ (first :: rest).dropLast, 8 ∣ data.length

def Datagram.Cut.fragments {d : Datagram} (c : d.Cut) : List Fragment :=
  fragmentsFrom 0 (c.first :: c.rest)

/-- The length of everything before the IPv4 header. -/
def Datagram.l3 (d : Datagram) : Nat := 14 + 4 * d.tags.count

/-- The bits of `flags_and_fragment_offset` that fragmentation sets. -/
def Fragment.word (x : Fragment) : UInt16 :=
  UInt16.ofNat ((if x.more then 8192 else 0) + x.offset / 8)

/-- The fragment stands in a frame at the start of the buffer's data. Its options are its own,
and what is not named here is arbitrary. -/
structure Fragment.CarriedBy (x : Fragment) (d : Datagram) (ihl : Nat) (b : Buffer) : Prop where
  start : b.l2HdrOffset = 0
  tags : d.tags.LaidOut b 0
  bounds : 5 ≤ ihl ∧ ihl ≤ 15
  versionAndIhl : b.data d.l3 = UInt8.ofNat (4 * 16 + ihl)
  totalLength : b.net16 (d.l3 + 2) = UInt16.ofNat (4 * ihl + x.data.length)
  fragment : b.net16 (d.l3 + 6) &&& 0x3FFF = x.word
  protocol : b.data (d.l3 + 9) = IP_PROTOCOL_TCP
  src : b.ip4 (d.l3 + 12) = d.src
  dst : b.ip4 (d.l3 + 16) = d.dst
  data : b.HoldsAt (d.l3 + 4 * ihl) x.data

/-- What the hooks read of a TCP header. -/
structure TcpFields where
  srcPort : UInt16
  dstPort : UInt16
  seq : UInt32
  ack : UInt32
  flags : UInt8
  deriving DecidableEq, Repr

/-- The fields that stand at a pointer, whatever bytes these are. -/
def tcpFields (p : Pointer) : TcpFields where
  srcPort := Bytes.net16 (p 0) (p 1)
  dstPort := Bytes.net16 (p 2) (p 3)
  seq := Bytes.net32 (p 4) (p 5) (p 6) (p 7)
  ack := Bytes.net32 (p 8) (p 9) (p 10) (p 11)
  flags := p 13

/-- The datagram's TCP header. -/
def Datagram.header (d : Datagram) : TcpFields := tcpFields (pointer d.segment)

/-- The key of a segment between the datagram's hosts with the ports of this header. -/
def Datagram.key (d : Datagram) (h : TcpFields) : FlowKey :=
  { src := IpAddress.zero.setIp4 d.src, dst := IpAddress.zero.setIp4 d.dst,
    srcPort := h.srcPort, dstPort := h.dstPort, protocol := IP_PROTOCOL_TCP,
    outerVlanId := d.tags.outerVlanId, innerVlanId := d.tags.innerVlanId,
    vlanPresent := UInt8.ofNat d.tags.count }

theorem fragmentsFrom_offset {offset : Nat} {pieces : List (List UInt8)} {x : Fragment}
    (member : x ∈ fragmentsFrom offset pieces) : offset ≤ x.offset := by
  induction pieces generalizing offset with
  | nil => cases member
  | cons data rest ih =>
      rcases List.mem_cons.mp member with rfl | later
      · exact Nat.le_refl _
      · have := ih later
        omega

/-- Only the first fragment has offset zero. -/
theorem first_of_offset {d : Datagram} {c : d.Cut} {x : Fragment} (member : x ∈ c.fragments)
    (start : x.offset = 0) : x.data = c.first := by
  rcases List.mem_cons.mp member with rfl | later
  · rfl
  · have past := fragmentsFrom_offset later
    have header := c.header
    unfold tcpHeaderSize at header
    omega

theorem pointerAt_net16 (b : Buffer) (o k : Nat) :
    Bytes.net16 (b.pointerAt o k) (b.pointerAt o (k + 1)) = b.net16 ((o : Int) + k) := by
  have next : (o : Int) + k + 1 = ((o + (k + 1) : Nat) : Int) := by omega
  rw [Buffer.net16, next]
  rfl

theorem pointerAt_net32 (b : Buffer) (o k : Nat) :
    Bytes.net32 (b.pointerAt o k) (b.pointerAt o (k + 1)) (b.pointerAt o (k + 2))
      (b.pointerAt o (k + 3)) = b.net32 ((o : Int) + k) := by
  have next1 : (o : Int) + k + 1 = ((o + (k + 1) : Nat) : Int) := by omega
  have next2 : (o : Int) + k + 2 = ((o + (k + 2) : Nat) : Int) := by omega
  have next3 : (o : Int) + k + 3 = ((o + (k + 3) : Nat) : Int) := by omega
  rw [Buffer.net32, next1, next2, next3]
  rfl

/-- What the hooks take for the TCP header of a packet. -/
def Buffer.tcpHeader (b : Buffer) : TcpFields :=
  ⟨b.tcpSrcPort, b.tcpDstPort, b.tcpSeqNumber, b.tcpAckNumber, b.tcpFlags⟩

theorem tcpHeader_of_l4 {b : Buffer} {o : Nat} (l4 : b.l4HdrOffset = o) :
    b.tcpHeader = tcpFields (b.pointerAt o) := by
  have srcPort := pointerAt_net16 b o 0
  have dstPort := pointerAt_net16 b o 2
  have seq := pointerAt_net32 b o 4
  have ack := pointerAt_net32 b o 8
  rw [Nat.cast_zero, Int.add_zero] at srcPort
  simp only [Buffer.tcpHeader, Buffer.tcpSrcPort, Buffer.tcpDstPort, Buffer.tcpSeqNumber,
    Buffer.tcpAckNumber, Buffer.tcpFlags, tcpFields, l4]
  rw [srcPort, dstPort, seq, ack]
  rfl

theorem tcpFields_congr {p q : Pointer} (same : ∀ k, k < 14 → p k = q k) :
    tcpFields p = tcpFields q := by
  unfold tcpFields
  rw [same 0 (by omega), same 1 (by omega), same 2 (by omega), same 3 (by omega),
    same 4 (by omega), same 5 (by omega), same 6 (by omega), same 7 (by omega),
    same 8 (by omega), same 9 (by omega), same 10 (by omega), same 11 (by omega),
    same 13 (by omega)]

/-- Data that starts as the datagram's does has the datagram's header. -/
theorem header_of_holdsAt {d : Datagram} {b : Buffer} {o : Nat} {data rest : List UInt8}
    (holds : b.HoldsAt o data) (split : data ++ rest = d.segment)
    (long : tcpHeaderSize ≤ data.length) : tcpFields (b.pointerAt o) = d.header := by
  unfold tcpHeaderSize at long
  apply tcpFields_congr
  intro k inside
  rw [Buffer.pointerAt, holds k (by omega), pointer, ← split, List.getD_append _ _ _ _ (by omega)]

section

variable {d : Datagram} {x : Fragment} {ihl : Nat} {b : Buffer} (carried : x.CarriedBy d ihl b)
include carried

/-- The frame as the hooks read it: its ports are the first bytes of the fragment's data. -/
theorem carried_laidOut :
    Frame.LaidOut
      { tags := d.tags, ihl, ihl_bounds := carried.bounds, src := d.src, dst := d.dst,
        srcPort := (tcpFields (b.pointerAt (d.l3 + 4 * ihl))).srcPort,
        dstPort := (tcpFields (b.pointerAt (d.l3 + 4 * ihl))).dstPort } b b.l2HdrOffset := by
  have ports : (0 : Int) + (d.l3 : Int) + 4 * (ihl : Int) = ((d.l3 + 4 * ihl : Nat) : Int) := by
    omega
  rw [carried.start]
  refine ⟨carried.tags, ?_, ?_, ?_, ?_, ?_, ?_⟩
  · rw [Int.zero_add]
    exact carried.versionAndIhl
  · rw [Int.zero_add]
    exact carried.protocol
  · rw [Int.zero_add]
    exact carried.src
  · rw [Int.zero_add]
    exact carried.dst
  · have here := pointerAt_net16 b (d.l3 + 4 * ihl) 0
    rw [Nat.cast_zero, Int.add_zero, ← ports] at here
    exact here.symm
  · have here := pointerAt_net16 b (d.l3 + 4 * ihl) 2
    rw [← ports] at here
    exact here.symm

theorem carried_key :
    ip4LookupKey (ip4PreProcess b).1 =
      some (d.key (tcpFields (b.pointerAt (d.l3 + 4 * ihl)))) :=
  preProcess_key carried.start (carried_laidOut carried)

theorem carried_tcp : (ip4PreProcess b).1.ipProtocol = IP_PROTOCOL_TCP := by
  have l3 : (ip4PreProcess b).1.l3HdrOffset = d.l3 := by
    rw [preProcess_l3 (carried.start ▸ carried.tags), Datagram.l3]
    push_cast
    rfl
  rw [Buffer.ipProtocol, l3, preProcess_data]
  exact carried.protocol

/-- The hooks read the TCP header where the data starts. -/
theorem carried_header :
    (ip4PreProcess b).1.tcpHeader = tcpFields (b.pointerAt (d.l3 + 4 * ihl)) := by
  have l4 : (ip4PreProcess b).1.l4HdrOffset = (d.l3 + 4 * ihl : Nat) := by
    rw [preProcess_l4 carried.start (carried_laidOut carried)]
    rfl
  rw [tcpHeader_of_l4 l4]
  apply tcpFields_congr
  intro k _
  rw [Buffer.pointerAt, preProcess_data, Buffer.pointerAt]

end

/-! What a call makes of a packet, as far as TCP tracks it. -/

/-- What is tracked of a flow. -/
@[ext] structure TcpView where
  state : TcpState
  handshake : Bool
  attr : FlowDir → TcpFlowAttr

def Flow.tcpView (f : Flow) : TcpView :=
  ⟨f.state, f.threeWayHandshake, fun d => (f.flowEntry d).tcpAttr⟩

def TcpView.fresh : TcpView := ⟨.start, false, fun _ => ⟨0, 0, 0⟩⟩

/-- A segment with this header moves a flow on; `created` is set for the one that makes it. -/
def TcpView.after (v : TcpView) (h : TcpFields) (d : FlowDir) (created : Bool) : TcpView where
  state := tcpStateTransfer v.state (flagsToEvents (h.flags &&& TCP_FLAG_CONCERNED)) d
  handshake := v.handshake || created && h.flags &&& TCP_FLAG_CONCERNED == TCP_FLAG_SYN
  attr e := if d = e then { v.attr e with seq := h.seq, ack := h.ack } else v.attr e

/-- The flow, the side and the branch a call has chosen. -/
def InputOutcome.bound (o : InputOutcome Mem Tbl) : Nat × FlowDir × Bool :=
  (o.flow, o.direction, o.created)

/-- The flow a packet is bound to, and what is tracked of every flow then. -/
def InputOutcome.tracked (o : InputOutcome Mem Tbl) :
    (Nat × FlowDir × Bool) × (Nat → Option TcpView) :=
  (o.bound, fun j => (o.wrk.flows.get? j).map Flow.tcpView)

/-- The call moves the flow it binds the packet to as a segment with this header, and no
other. -/
def InputOutcome.Moves (o : InputOutcome Mem Tbl) (w : Worker Mem Tbl) (h : TcpFields) : Prop :=
  ∀ j, (o.wrk.flows.get? j).map Flow.tcpView =
    if j = o.flow then
      some ((((w.flows.get? o.flow).map Flow.tcpView).getD .fresh).after h o.direction o.created)
    else (w.flows.get? j).map Flow.tcpView

theorem settle_view (tw : TimerWheel) (b : Buffer) (d : FlowDir) (f : Flow) :
    (tcpSettle P tw b d f).2.tcpView =
      ⟨f.state, f.threeWayHandshake, fun e =>
        if d = e then
          { (f.flowEntry e).tcpAttr with seq := b.tcpSeqNumber, ack := b.tcpAckNumber }
        else (f.flowEntry e).tcpAttr⟩ := by
  apply TcpView.ext
  · exact settle_state P tw b d f
  · exact settle_handshake P tw b d f
  · funext e
    exact settle_attr P tw b d e f

theorem newFlow_view (b : Buffer) (key : FlowKey) (index : Nat) :
    (ip4NewFlow b key index).tcpView = .fresh := by
  obtain ⟨state, handshake⟩ := newFlow_state b key index
  apply TcpView.ext
  · exact state
  · exact handshake
  · funext e
    exact newFlow_attr b key index e

theorem initFlow_view (b : Buffer) (d : FlowDir) (f : Flow) :
    (tcpInitFlow b d f).tcpView =
      ⟨tcpStateTransfer .start b.tcpEvent d,
        f.threeWayHandshake || b.concernedFlags == TCP_FLAG_SYN, f.tcpView.attr⟩ := by
  unfold tcpInitFlow
  by_cases syn : b.concernedFlags = TCP_FLAG_SYN
  · rw [if_pos syn, syn, beq_self_eq_true, Bool.or_true]
    rfl
  · rw [if_neg syn, beq_eq_false_iff_ne.mpr syn, Bool.or_false]
    rfl

theorem started_view (tw : TimerWheel) (b : Buffer) (d : FlowDir) (f : Flow)
    (fresh : f.tcpView = .fresh) :
    (ProtocolHandler.started P .tcp tw b d f).2.tcpView =
      TcpView.fresh.after b.tcpHeader d true := by
  have view := initFlow_view b d f
  have state : (tcpInitFlow b d f).state = tcpStateTransfer .start b.tcpEvent d :=
    (congrArg TcpView.state view :)
  have handshake : (tcpInitFlow b d f).threeWayHandshake =
      (f.threeWayHandshake || b.concernedFlags == TCP_FLAG_SYN) :=
    (congrArg TcpView.handshake view :)
  have attr (e : FlowDir) : ((tcpInitFlow b d f).flowEntry e).tcpAttr = ⟨0, 0, 0⟩ := by
    have here : ((tcpInitFlow b d f).flowEntry e).tcpAttr = f.tcpView.attr e :=
      congrFun (congrArg TcpView.attr view) e
    rw [here, fresh]
    rfl
  have unset : f.threeWayHandshake = false := congrArg TcpView.handshake fresh
  rw [ProtocolHandler.started, settle_view, state, handshake, unset]
  apply TcpView.ext
  · rfl
  · rfl
  · funext e
    simp only [attr, TcpView.after]
    rfl

theorem updated_view (tw : TimerWheel) (b : Buffer) (d : FlowDir) (f : Flow) :
    (ProtocolHandler.updated P .tcp tw b d f).2.tcpView = f.tcpView.after b.tcpHeader d false := by
  rw [ProtocolHandler.updated, settle_view]
  apply TcpView.ext
  · rfl
  · exact (Bool.or_false _).symm
  · rfl

theorem input_moves {w : Worker Mem Tbl} {b : Buffer} {o : InputOutcome Mem Tbl}
    (shaped : w.Shaped) (tcp : b.ipProtocol = IP_PROTOCOL_TCP)
    (done : ip4InputProcess P w b = .ok o) : o.Moves w b.tcpHeader := by
  intro j
  have handler := protocolHandlerGet_eq_tcp.mpr tcp
  obtain ⟨h, handler', -, -, effect | ⟨a, f, effect⟩⟩ := ip4InputProcess_cases shaped done
  · cases handler.symm.trans handler'
    by_cases here : j = o.flow
    · have fresh : w.flows.get? o.flow = none :=
        List.getElem?_eq_none (Nat.le_of_eq effect.index.symm)
      rw [here, effect.after, fresh, if_pos rfl, Option.map_some, Option.map_none, Option.getD_none,
        effect.direction, effect.created, started_view _ _ _ _ (newFlow_view ..)]
    · rw [effect.flows, if_neg here, if_neg here]
  · cases handler.symm.trans handler'
    by_cases here : j = o.flow
    · rw [here, effect.after, effect.found, if_pos rfl, Option.map_some, Option.map_some,
        Option.getD_some, updated_view, effect.created]
    · rw [effect.flows, if_neg here, if_neg here]

/-- Which flow a packet is bound to depends on its key alone. -/
theorem input_bound_congr {w : Worker Mem Tbl} {b b' : Buffer} {key : FlowKey}
    {o : InputOutcome Mem Tbl} (shaped : w.Shaped) (looked : ip4LookupKey b = some key)
    (looked' : ip4LookupKey b' = some key) (done : ip4InputProcess P w b = .ok o) :
    ∃ o', ip4InputProcess P w b' = .ok o' ∧ o'.bound = o.bound := by
  obtain ⟨h, handler, parsed, -, effect | ⟨a, f, effect⟩⟩ := ip4InputProcess_cases shaped done
  · obtain rfl : o.key = key := key_of_looked handler parsed looked
    obtain ⟨t, stored⟩ := effect.stored
    rw [effect.index] at stored
    obtain ⟨o', done'⟩ := unbound_input_completes shaped looked' effect.unbound effect.room stored
    refine ⟨o', done', ?_⟩
    obtain ⟨h', handler', parsed', -, effect' | ⟨a', f', effect'⟩⟩ :=
      ip4InputProcess_cases shaped done'
    · rw [InputOutcome.bound, effect'.index, effect'.direction, effect'.created,
        InputOutcome.bound, effect.index, effect.direction, effect.created]
    · have same : o'.key = o.key := key_of_looked handler' parsed' looked'
      have bound := effect'.bound
      rw [same, effect.unbound] at bound
      cases bound
  · obtain rfl : o.key = key := key_of_looked handler parsed looked
    have found := effect.found
    have pointer := effect.pointer
    rw [effect.index] at found pointer
    obtain ⟨o', done'⟩ := bound_input_completes shaped looked' effect.bound found pointer
    refine ⟨o', done', ?_⟩
    obtain ⟨h', handler', parsed', -, effect' | ⟨a', f', effect'⟩⟩ :=
      ip4InputProcess_cases shaped done'
    · have same : o'.key = o.key := key_of_looked handler' parsed' looked'
      have unbound := effect'.unbound
      rw [same, effect.bound] at unbound
      cases unbound
    · have same : o'.key = o.key := key_of_looked handler' parsed' looked'
      have bound := effect'.bound
      rw [same, effect.bound, Option.some.injEq, Option.some.injEq] at bound
      rw [InputOutcome.bound, effect'.index, effect'.direction, effect'.created, ← bound,
        InputOutcome.bound, effect.index, effect.direction, effect.created]

theorem tracked_of_moves {w : Worker Mem Tbl} {h : TcpFields} {o o' : InputOutcome Mem Tbl}
    (moves : o.Moves w h) (moves' : o'.Moves w h) (same : o'.bound = o.bound) :
    o'.tracked = o.tracked := by
  have parts := same
  simp only [InputOutcome.bound, Prod.mk.injEq] at parts
  obtain ⟨flow, direction, created⟩ := parts
  refine Prod.ext same ?_
  funext j
  refine (moves' j).trans ?_
  rw [flow, direction, created]
  exact (moves j).symm

/-- What becomes of a fragment in state `w`: it is tracked as a segment with the header `h`
that its data starts with, and the first one as the whole datagram would be. -/
structure TrackedAlone (P : Platform Mem Tbl) (w : Worker Mem Tbl) (d : Datagram) (x : Fragment)
    (h : TcpFields) (b whole : Buffer) : Prop where
  key : ip4LookupKey (ip4PreProcess b).1 = some (d.key h)
  bound : h.srcPort = d.header.srcPort → h.dstPort = d.header.dstPort →
    (received P w b).toOption.map InputOutcome.bound =
      (received P w whole).toOption.map InputOutcome.bound
  moves : ∀ o, received P w b = .ok o → o.Moves w h
  first : x.offset = 0 → (received P w b).toOption.map InputOutcome.tracked =
    (received P w whole).toOption.map InputOutcome.tracked

/-- Each fragment is tracked as a segment of its own, whatever came before it. -/
theorem fragments_tracked_alone {nThreads : Nat} {bufs : Nat → Buffer} {cs : List Call}
    {s : Sys Mem Tbl} (reached : run (step P) (initial P nThreads bufs) cs = .ok s) {d : Datagram}
    {c : d.Cut} {x : Fragment} {ihl ihl' : Nat} {b whole : Buffer} (member : x ∈ c.fragments)
    (carried : x.CarriedBy d ihl b) (sent : d.whole.CarriedBy d ihl' whole) :
    TrackedAlone P s.wrk d x (tcpFields (b.pointerAt (d.l3 + 4 * ihl))) b whole := by
  have shaped := run_shaped reached
  have long : tcpHeaderSize ≤ d.segment.length := by
    rw [← c.whole, List.length_append]
    exact Nat.le_trans c.header (Nat.le_add_right ..)
  have header : tcpFields (whole.pointerAt (d.l3 + 4 * ihl')) = d.header :=
    header_of_holdsAt sent.data (List.append_nil _) long
  have key := carried_key carried
  have key' := carried_key sent
  rw [header] at key'
  have moves (o) (done : received P s.wrk b = .ok o) :
      o.Moves s.wrk (tcpFields (b.pointerAt (d.l3 + 4 * ihl))) := by
    rw [← carried_header carried]
    exact input_moves shaped (carried_tcp carried) done
  have moves' (o) (done : received P s.wrk whole = .ok o) : o.Moves s.wrk d.header := by
    rw [← header, ← carried_header sent]
    exact input_moves shaped (carried_tcp sent) done
  refine ⟨key, fun src dst => ?_, moves, fun start => ?_⟩
  · have same : d.key (tcpFields (b.pointerAt (d.l3 + 4 * ihl))) = d.key d.header := by
      rw [Datagram.key, src, dst]
      rfl
    rw [same] at key
    refine toOption_map_congr (fun o done => ?_) (fun o done => ?_)
    · exact input_bound_congr shaped key key' done
    · obtain ⟨o', done', -⟩ := input_bound_congr shaped key' key done
      exact ⟨o', done'⟩
  · have own : tcpFields (b.pointerAt (d.l3 + 4 * ihl)) = d.header := by
      have data := carried.data
      rw [first_of_offset member start] at data
      exact header_of_holdsAt data c.whole c.header
    rw [own] at key moves
    refine toOption_map_congr (fun o done => ?_) (fun o done => ?_)
    · obtain ⟨o', done', same⟩ := input_bound_congr shaped key key' done
      exact ⟨o', done', tracked_of_moves (moves o done) (moves' o' done') same⟩
    · obtain ⟨o', done', -⟩ := input_bound_congr shaped key' key done
      exact ⟨o', done'⟩

/-! A datagram whose data holds the header of another connection's segment. -/

/-- An IPv4 header without options. -/
def Fragment.ip4Header (x : Fragment) (d : Datagram) : List UInt8 :=
  [0x45, 0] ++ be16 (UInt16.ofNat (20 + x.data.length)) ++ [0, 0] ++ be16 x.word ++ [64, 6, 0, 0] ++
    ip4Bytes d.src ++ ip4Bytes d.dst

@[simp] theorem ip4Header_length (x : Fragment) (d : Datagram) : (x.ip4Header d).length = 20 := rfl

/-- The fragment of an untagged datagram in a frame of its own. -/
def Fragment.buffer (x : Fragment) (d : Datagram) : Buffer :=
  Buffer.filled ([0, 0, 0, 0, 0, 0, 0, 0, 0, 0, 0, 0, 0x08, 0x00] ++ x.ip4Header d ++ x.data)

theorem buffer_carries {x : Fragment} {d : Datagram} (untagged : d.tags = .untagged)
    (small : x.word &&& 0x3FFF = x.word) : x.CarriedBy d 5 (x.buffer d) := by
  have l3 : d.l3 = 14 := by
    rw [Datagram.l3, untagged]
    rfl
  have held : (x.buffer d).HoldsAt 0
      ([0, 0, 0, 0, 0, 0, 0, 0, 0, 0, 0, 0, 0x08, 0x00] ++ x.ip4Header d ++ x.data) :=
    filled_holdsAt _
  rw [holdsAt_append, holdsAt_append] at held
  obtain ⟨⟨ethernet, ip4⟩, data⟩ := held
  refine ⟨rfl, ?_, by omega, ?_, ?_, ?_, ?_, ?_, ?_, ?_⟩
  · rw [untagged]
    exact (holdsAt_net16 ethernet 12 (by decide)).trans (by decide)
  · rw [l3]
    exact ip4 0 (by simp)
  · rw [l3]
    exact (holdsAt_net16 ip4 2 (by simp)).trans (net16_hi_lo _)
  · rw [l3]
    have word := (holdsAt_net16 ip4 6 (by simp)).trans (net16_hi_lo x.word)
    exact (congrArg (· &&& 0x3FFF) word).trans small
  · rw [l3]
    exact ip4 9 (by simp)
  · rw [l3]
    exact holdsAt_ip4 ip4 12 (by simp) _ (fun k => by fin_cases k <;> rfl)
  · rw [l3]
    exact holdsAt_ip4 ip4 16 (by simp) _ (fun k => by fin_cases k <;> rfl)
  · rw [l3]
    exact data

/-- A TCP header without options. -/
def tcpHeaderBytes (h : TcpFields) : List UInt8 :=
  be16 h.srcPort ++ be16 h.dstPort ++ be32 h.seq ++ be32 h.ack ++ [0x50, h.flags, 0, 0, 0, 0, 0, 0]

/-- A segment of `clientSyn`'s connection. From its data's fourth byte on, the data reads as a
reset of the connection from port 2000. -/
def carrier : Datagram where
  tags := .untagged
  src := clientSyn.src
  dst := clientSyn.dst
  segment := tcpHeaderBytes ⟨1000, 80, 100, 0, TCP_FLAG_ACK⟩ ++ [0, 0, 0, 0] ++
    tcpHeaderBytes ⟨2000, 80, 7, 9, TCP_FLAG_RST⟩

/-- The datagram is cut behind those four bytes. -/
def carrierCut : carrier.Cut where
  first := tcpHeaderBytes ⟨1000, 80, 100, 0, TCP_FLAG_ACK⟩ ++ [0, 0, 0, 0]
  rest := [tcpHeaderBytes ⟨2000, 80, 7, 9, TCP_FLAG_RST⟩]
  whole := rfl
  header := by decide
  units := by decide

def firstFragment : Fragment :=
  ⟨0, tcpHeaderBytes ⟨1000, 80, 100, 0, TCP_FLAG_ACK⟩ ++ [0, 0, 0, 0], true⟩

def secondFragment : Fragment := ⟨24, tcpHeaderBytes ⟨2000, 80, 7, 9, TCP_FLAG_RST⟩, false⟩

/-- The connection from port 2000 is opened, and the first fragment comes. -/
def beforeSecond : List Call :=
  [.receive 0 ({ clientSyn with srcPort := 2000 }.buffer 0), .preProcess 0, .input 0,
    .receive 1 (firstFragment.buffer carrier), .preProcess 1, .input 1]

theorem secondFragment_tracked_alone :
    ∃ s, run (step portPlatform) portStart beforeSecond = .ok s ∧
      TrackedAlone portPlatform s.wrk carrier secondFragment
        (tcpFields ((secondFragment.buffer carrier).pointerAt (carrier.l3 + 4 * 5)))
        (secondFragment.buffer carrier) (carrier.whole.buffer carrier) := by
  obtain ⟨s, reached, -⟩ := completed (x := run (step portPlatform) portStart beforeSecond)
    (fun s => s.history.length) (b := 2) (by decide +kernel)
  exact ⟨s, reached, fragments_tracked_alone reached (c := carrierCut) (by decide)
    (buffer_carries rfl (by decide)) (buffer_carries rfl (by decide))⟩

/-- The datagram belongs to the flow of port 1000. Its second fragment is bound to the flow of
port 2000, and closes it. -/
theorem fragment_closes_other_flow :
    ∃ s, run (step portPlatform) portStart beforeSecond = .ok s ∧
      secondFragment ∈ carrierCut.fragments ∧ secondFragment.offset ≠ 0 ∧
      secondFragment.CarriedBy carrier 5 (secondFragment.buffer carrier) ∧
      carrier.whole.CarriedBy carrier 5 (carrier.whole.buffer carrier) ∧
      (received portPlatform s.wrk (carrier.whole.buffer carrier)).toOption.map
        InputOutcome.flow = some 1 ∧
      (s.wrk.flows.get? 0).map Flow.state = some .synSent ∧
      ∃ o, received portPlatform s.wrk (secondFragment.buffer carrier) = .ok o ∧ o.flow = 0 ∧
        (o.wrk.flows.get? 0).map Flow.state = some .close := by
  obtain ⟨s, reached, facts⟩ := completed (x := run (step portPlatform) portStart beforeSecond)
    (fun s => ((received portPlatform s.wrk (carrier.whole.buffer carrier)).toOption.map
        InputOutcome.flow, (s.wrk.flows.get? 0).map Flow.state,
      (received portPlatform s.wrk (secondFragment.buffer carrier)).toOption.map fun o =>
        (o.flow, (o.wrk.flows.get? 0).map Flow.state)))
    (b := (some 1, some .synSent, some (0, some .close))) (by decide +kernel)
  simp only [Prod.mk.injEq] at facts
  obtain ⟨whole, before, second⟩ := facts
  obtain ⟨o, done, answer⟩ := completed _ second
  obtain ⟨flow, closed⟩ := Prod.mk.inj answer
  exact ⟨s, reached, by decide, by decide, buffer_carries rfl (by decide),
    buffer_carries rfl (by decide), whole, before, o, done, flow, closed⟩

end FlowTable
