import VppPlugins.FlowTable.Checksums
import VppPlugins.FlowTable.Frames

/-! The frames that `tcp_send_reset` builds, read back by the hooks. -/
namespace FlowTable
open Bytes InternetChecksum

/-- The bytes stand in the buffer's data from offset `o` on; the others are arbitrary. -/
def Buffer.HoldsAt (b : Buffer) (o : Nat) (bytes : List UInt8) : Prop :=
  ∀ k, k < bytes.length → b.data ((o + k : Nat) : Int) = bytes.getD k 0

theorem holdsAt_append {b : Buffer} {o : Nat} {front back : List UInt8} :
    b.HoldsAt o (front ++ back) ↔ b.HoldsAt o front ∧ b.HoldsAt (o + front.length) back := by
  constructor
  · intro holds
    constructor
    · intro k inside
      rw [holds k (by rw [List.length_append]; omega), List.getD_append _ _ _ _ inside]
    · intro k inside
      rw [Nat.add_assoc, holds (front.length + k) (by rw [List.length_append]; omega),
        List.getD_append_right _ _ _ _ (Nat.le_add_right ..), Nat.add_sub_cancel_left]
  · rintro ⟨first, second⟩ k inside
    rw [List.length_append] at inside
    by_cases early : k < front.length
    · rw [first k early, List.getD_append _ _ _ _ early]
    · have position : o + k = o + front.length + (k - front.length) := by omega
      rw [position, second (k - front.length) (by omega),
        List.getD_append_right _ _ _ _ (by omega)]

theorem holdsAt_net16 {b : Buffer} {o : Nat} {bytes : List UInt8} (holds : b.HoldsAt o bytes)
    (k : Nat) (inside : k + 1 < bytes.length) :
    b.net16 ((o + k : Nat) : Int) = Bytes.net16 (bytes.getD k 0) (bytes.getD (k + 1) 0) := by
  have next : ((o + k : Nat) : Int) + 1 = ((o + (k + 1) : Nat) : Int) := by omega
  rw [Buffer.net16, next, holds k (by omega), holds (k + 1) inside]

theorem holdsAt_ip4 {b : Buffer} {o : Nat} {bytes : List UInt8} (holds : b.HoldsAt o bytes)
    (k : Nat) (inside : k + 3 < bytes.length) (a : Ip4Address)
    (value : ∀ i : Fin 4, bytes.getD (k + i.val) 0 = a i) : b.ip4 ((o + k : Nat) : Int) = a := by
  funext i
  have next : ((o + k : Nat) : Int) + i.val = ((o + (k + i.val) : Nat) : Int) := by omega
  rw [Buffer.ip4, next, holds (k + i.val) (by omega), value]

/-- The memory behind offset `o` of the buffer's data. -/
def Buffer.pointerAt (b : Buffer) (o : Nat) : Pointer := fun i => b.data ((o + i : Nat) : Int)

theorem holdsAt_slice {b : Buffer} {o : Nat} {bytes : List UInt8} (holds : b.HoldsAt o bytes) :
    (b.pointerAt o).slice 0 bytes.length = bytes := by
  apply List.ext_getElem
  · rw [slice_length]
  · intro k _ inside
    simp only [Pointer.slice, List.getElem_map, List.getElem_range, Buffer.pointerAt, Nat.zero_add]
    rw [holds k inside, List.getD_eq_getElem _ _ inside]

/-- The entry's VLAN fields are those of a packet with zero, one or two tags. -/
structure FlowEntry.Tagged (e : FlowEntry) : Prop where
  present : e.vlanPresent = 0 ∨ e.vlanPresent = 1 ∨ e.vlanPresent = 2
  outer : e.outerVlanId.toNat < 4096
  inner : e.innerVlanId.toNat < 4096
  noOuter : e.vlanPresent = 0 → e.outerVlanId = 0
  noInner : e.vlanPresent ≠ 2 → e.innerVlanId = 0

/-- The key of an entry of an IPv4 flow, filled in as `ip4_input_process` fills its own. -/
def FlowEntry.ip4Key (e : FlowEntry) : FlowKey :=
  { src := IpAddress.zero.setIp4 e.src.ip4, dst := IpAddress.zero.setIp4 e.dst.ip4,
    srcPort := e.srcPort, dstPort := e.dstPort, protocol := IP_PROTOCOL_TCP,
    outerVlanId := e.outerVlanId, innerVlanId := e.innerVlanId, vlanPresent := e.vlanPresent }

def FlowEntry.tagStack (e : FlowEntry) : TagStack :=
  if e.vlanPresent = 2 then .double .dot1q e.outerVlanId e.innerVlanId
  else if e.vlanPresent = 1 then .single .dot1q e.outerVlanId
  else .untagged

theorem minimal_ihl : 5 ≤ 5 ∧ 5 ≤ 15 := by omega

/-- The reset of an entry as a frame on the wire. -/
def FlowEntry.resetWire (e : FlowEntry) : Frame :=
  { tags := e.tagStack, ihl := 5, ihl_bounds := minimal_ihl, src := e.dst.ip4, dst := e.src.ip4,
    srcPort := e.dstPort, dstPort := e.srcPort }

theorem vlanId_small {id : UInt16} (small : id.toNat < 4096) : vlanId id = id := by
  rw [vlanId, Nat.mod_eq_of_lt small, UInt16.ofNat_toNat]

section

variable {e : FlowEntry} (tagged : e.Tagged)
include tagged

theorem tagStack_cases :
    (e.vlanPresent = 0 ∧ e.tagStack = .untagged) ∨
      (e.vlanPresent = 1 ∧ e.tagStack = .single .dot1q e.outerVlanId) ∨
      (e.vlanPresent = 2 ∧ e.tagStack = .double .dot1q e.outerVlanId e.innerVlanId) := by
  rcases tagged.present with none | one | two
  · exact .inl ⟨none, by rw [FlowEntry.tagStack, none]; rfl⟩
  · exact .inr (.inl ⟨one, by rw [FlowEntry.tagStack, one]; rfl⟩)
  · exact .inr (.inr ⟨two, by rw [FlowEntry.tagStack, two]; rfl⟩)

theorem resetWire_key : e.resetWire.key = flowKeyReverse e.ip4Key := by
  have outer := vlanId_small tagged.outer
  have inner := vlanId_small tagged.inner
  have fields : e.tagStack.outerVlanId = e.outerVlanId ∧ e.tagStack.innerVlanId = e.innerVlanId ∧
      UInt8.ofNat e.tagStack.count = e.vlanPresent := by
    rcases tagStack_cases tagged with ⟨present, tags⟩ | ⟨present, tags⟩ | ⟨present, tags⟩
    · rw [tags, present, tagged.noOuter present, tagged.noInner (by rw [present]; decide)]
      exact ⟨rfl, rfl, rfl⟩
    · rw [tags, present, tagged.noInner (by rw [present]; decide)]
      exact ⟨outer, rfl, rfl⟩
    · rw [tags, present]
      exact ⟨outer, inner, rfl⟩
  simp only [Frame.key, FlowEntry.resetWire, fields.1, fields.2.1, fields.2.2]
  rfl

theorem resetL3Offset_eq : resetL3Offset e = e.resetWire.l3 := by
  rcases tagStack_cases tagged with ⟨present, tags⟩ | ⟨present, tags⟩ | ⟨present, tags⟩
  · rw [resetL3Offset, Frame.l3, FlowEntry.resetWire, present, tags]; rfl
  · rw [resetL3Offset, Frame.l3, FlowEntry.resetWire, present, tags]; rfl
  · rw [resetL3Offset, Frame.l3, FlowEntry.resetWire, present, tags]; rfl

theorem resetVlanTags_length : 12 + (resetVlanTags 4 e).length = e.resetWire.l3 := by
  rcases tagStack_cases tagged with ⟨present, tags⟩ | ⟨present, tags⟩ | ⟨present, tags⟩
  · rw [resetVlanTags, Frame.l3, FlowEntry.resetWire, present, tags]; rfl
  · rw [resetVlanTags, Frame.l3, FlowEntry.resetWire, present, tags]; rfl
  · rw [resetVlanTags, Frame.l3, FlowEntry.resetWire, present, tags]; rfl

/-- The tags stand where the parser looks for them. -/
theorem resetVlanTags_laidOut {b : Buffer} (holds : b.HoldsAt 12 (resetVlanTags 4 e)) :
    e.tagStack.LaidOut b 0 := by
  rcases tagStack_cases tagged with ⟨present, tags⟩ | ⟨present, tags⟩ | ⟨present, tags⟩
  · rw [tags]
    have bytes : resetVlanTags 4 e = be16 ETHERNET_TYPE_IP4 := by rw [resetVlanTags, present]; rfl
    rw [bytes] at holds
    exact (holdsAt_net16 holds 0 (by decide)).trans (by decide)
  · rw [tags]
    have bytes : resetVlanTags 4 e = be16 ETHERNET_TYPE_VLAN ++
        be16 (e.outerVlanId &&& 0x0FFF) ++ be16 ETHERNET_TYPE_IP4 := by
      rw [resetVlanTags, present]
      rfl
    rw [bytes, mask_vlanId, vlanId_small tagged.outer] at holds
    refine ⟨?_, ?_, ?_⟩
    · exact (holdsAt_net16 holds 0 (by simp [be16])).trans (net16_hi_lo _)
    · exact (holdsAt_net16 holds 2 (by simp [be16])).trans (net16_hi_lo _)
    · exact (holdsAt_net16 holds 4 (by simp [be16])).trans (net16_hi_lo _)
  · rw [tags]
    have bytes : resetVlanTags 4 e = be16 ETHERNET_TYPE_VLAN ++
        be16 (e.outerVlanId &&& 0x0FFF) ++ be16 ETHERNET_TYPE_VLAN ++
        be16 (e.innerVlanId &&& 0x0FFF) ++ be16 ETHERNET_TYPE_IP4 := by
      rw [resetVlanTags, present]
      rfl
    rw [bytes, mask_vlanId, mask_vlanId, vlanId_small tagged.outer,
      vlanId_small tagged.inner] at holds
    refine ⟨?_, ?_, ?_, ?_, ?_⟩
    · exact (holdsAt_net16 holds 0 (by simp [be16])).trans (net16_hi_lo _)
    · exact (holdsAt_net16 holds 2 (by simp [be16])).trans (net16_hi_lo _)
    · exact (holdsAt_net16 holds 4 (by simp [be16])).trans (net16_hi_lo _)
    · exact (holdsAt_net16 holds 6 (by simp [be16])).trans (net16_hi_lo _)
    · exact (holdsAt_net16 holds 8 (by simp [be16])).trans (net16_hi_lo _)

end

@[simp] theorem resetIp4_length (e : FlowEntry) : (resetIp4 e).length = 20 := rfl

@[simp] theorem resetTcp_length (e : FlowEntry) : (resetTcp 4 e).length = 20 := rfl

/-- A reset's three parts in a buffer: the tags, the IPv4 header and the TCP header. -/
structure ResetHeld (flow : Flow) (i : FlowDir) (b : Buffer) : Prop where
  tags : b.HoldsAt 12 (resetVlanTags 4 (flow.flowEntry i))
  ip4 : b.HoldsAt (flow.flowEntry i).resetWire.l3 (resetIp4 (flow.flowEntry i))
  tcp : b.HoldsAt ((flow.flowEntry i).resetWire.l3 + 20) (resetTcp 4 (flow.flowEntry i))

theorem resetHeld_of_holdsAt {flow : Flow} {i : FlowDir} {b : Buffer} (version : flow.ipVersion = 4)
    (tagged : (flow.flowEntry i).Tagged) (holds : b.HoldsAt 0 (resetFrame flow i).bytes) :
    ResetHeld flow i b := by
  have bytes : (resetFrame flow i).bytes = (macBytes (flow.flowEntry i).smac ++
      macBytes (flow.flowEntry i).dmac) ++ resetVlanTags 4 (flow.flowEntry i) ++
      resetIp4 (flow.flowEntry i) ++ resetTcp 4 (flow.flowEntry i) := by
    simp only [resetFrame, version, if_pos]
  have length := resetVlanTags_length tagged
  rw [bytes, holdsAt_append, holdsAt_append, holdsAt_append] at holds
  obtain ⟨⟨⟨_, tags⟩, ip4⟩, tcp⟩ := holds
  have macs : (macBytes (flow.flowEntry i).smac ++ macBytes (flow.flowEntry i).dmac).length = 12 :=
    rfl
  refine ⟨?_, ?_, ?_⟩
  · rwa [Nat.zero_add, macs] at tags
  · rwa [List.length_append, Nat.zero_add, macs, length] at ip4
  · rwa [List.length_append, List.length_append, Nat.zero_add, macs, length, resetIp4_length] at tcp

theorem reset_laidOut {flow : Flow} {i : FlowDir} {b : Buffer}
    (tagged : (flow.flowEntry i).Tagged) (held : ResetHeld flow i b) :
    (flow.flowEntry i).resetWire.LaidOut b 0 := by
  obtain ⟨tags, ip4, tcp⟩ := held
  refine ⟨resetVlanTags_laidOut tagged tags, ?_, ?_, ?_, ?_, ?_, ?_⟩
  · rw [Int.zero_add]
    exact ip4 0 (by simp)
  · rw [Int.zero_add]
    exact ip4 9 (by simp)
  · rw [Int.zero_add]
    exact holdsAt_ip4 ip4 12 (by simp) _ (fun k => by fin_cases k <;> rfl)
  · rw [Int.zero_add]
    exact holdsAt_ip4 ip4 16 (by simp) _ (fun k => by fin_cases k <;> rfl)
  · rw [Int.zero_add]
    exact (holdsAt_net16 tcp 0 (by simp)).trans (net16_hi_lo _)
  · rw [Int.zero_add]
    exact (holdsAt_net16 tcp 2 (by simp)).trans (net16_hi_lo _)

theorem resetIp4_completed (e : FlowEntry) : onesSum (resetIp4 e) = 0xFFFF :=
  ip4Checksum_completes (pointer (resetIp4Header e 0)) 10 rfl (by omega) ⟨rfl, rfl⟩

/-- The pseudo header is made of the addresses and the protocol. -/
theorem pseudoPacket_congr {ip4 ip4' tcp tcp' : Pointer} {n : UInt16}
    (header : ∀ k, k < 20 → ip4 k = ip4' k) (segment : tcp.slice 0 n.toNat = tcp'.slice 0 n.toNat) :
    ip4PseudoPacket ip4 tcp n = ip4PseudoPacket ip4' tcp' n := by
  have addresses : ip4.slice 12 8 = ip4'.slice 12 8 := by
    apply List.map_congr_left
    intro k member
    have := List.mem_range.mp member
    exact header _ (by omega)
  rw [ip4PseudoPacket, ip4PseudoPacket, ip4PseudoHeader, ip4PseudoHeader, addresses, segment,
    header 9 (by omega)]

theorem resetTcp_completed {e : FlowEntry} {b : Buffer} {l3 : Nat}
    (ip4 : b.HoldsAt l3 (resetIp4 e)) (tcp : b.HoldsAt (l3 + 20) (resetTcp 4 e)) :
    onesSum (ip4PseudoPacket (b.pointerAt l3) (b.pointerAt (l3 + 20)) 20) = 0xFFFF := by
  have summed := tcpChecksum_completes (pointer (resetIp4 e)) (pointer (resetTcpHeader e 0)) 20 16
    rfl (by decide) ⟨rfl, rfl⟩
  rw [← summed]
  congr 1
  apply pseudoPacket_congr
  · intro k inside
    exact ip4 k inside
  · exact holdsAt_slice tcp

/-- The reset frame of direction `i` in a buffer, as the hooks and a receiver read it. -/
structure ResetAgrees (flow : Flow) (i : FlowDir) (b : Buffer) : Prop where
  key : ip4LookupKey (ip4PreProcess b).1 = some (flowKeyReverse (flow.flowEntry i).ip4Key)
  l3 : (ip4PreProcess b).1.l3HdrOffset = (resetFrame flow i).l3HdrOffset
  l4 : (ip4PreProcess b).1.l4HdrOffset = (resetFrame flow i).l4HdrOffset
  l4_l3 : (resetFrame flow i).l4HdrOffset = (resetFrame flow i).l3HdrOffset + ip4HeaderSize
  length : (resetFrame flow i).currentLength = (resetFrame flow i).bytes.length
  totalLength : (resetFrame flow i).l3HdrOffset +
    (b.net16 ((resetFrame flow i).l3HdrOffset + 2)).toNat = (resetFrame flow i).currentLength
  headerSum : onesSum ((b.pointerAt (resetFrame flow i).l3HdrOffset).slice 0 ip4HeaderSize) = 0xFFFF
  segmentSum : onesSum (ip4PseudoPacket (b.pointerAt (resetFrame flow i).l3HdrOffset)
    (b.pointerAt (resetFrame flow i).l4HdrOffset) (UInt16.ofNat tcpHeaderSize)) = 0xFFFF

theorem reset_agrees {flow : Flow} {i : FlowDir} {b : Buffer} (version : flow.ipVersion = 4)
    (tagged : (flow.flowEntry i).Tagged) (start : b.l2HdrOffset = 0)
    (holds : b.HoldsAt 0 (resetFrame flow i).bytes) : ResetAgrees flow i b := by
  have held := resetHeld_of_holdsAt version tagged holds
  have layout : (flow.flowEntry i).resetWire.LaidOut b b.l2HdrOffset :=
    start ▸ reset_laidOut tagged held
  have l3 : (resetFrame flow i).l3HdrOffset = (flow.flowEntry i).resetWire.l3 :=
    resetL3Offset_eq tagged
  have l4 : (resetFrame flow i).l4HdrOffset = (flow.flowEntry i).resetWire.l3 + 20 := by
    rw [← l3]
    simp only [resetFrame, version, if_pos]
    rfl
  have current : (resetFrame flow i).currentLength = (flow.flowEntry i).resetWire.l3 + 40 := by
    rw [← l3]
    simp only [resetFrame, version, if_pos]
    rfl
  have total := holdsAt_net16 held.ip4 2 (by simp)
  refine ⟨?_, ?_, ?_, ?_, ?_, ?_, ?_, ?_⟩
  · rw [preProcess_key start layout, resetWire_key tagged]
  · rw [preProcess_l3 layout.tags, l3, Frame.l3]
    push_cast
    rfl
  · rw [preProcess_l4 start layout, l4]
    push_cast
    rfl
  · rw [l4, l3]
    rfl
  · have tags := resetVlanTags_length tagged
    have macs : (macBytes (flow.flowEntry i).smac ++ macBytes (flow.flowEntry i).dmac).length =
      12 := rfl
    rw [current]
    simp only [resetFrame, version, if_pos]
    rw [List.length_append, List.length_append, List.length_append, macs, tags, resetIp4_length,
      resetTcp_length]
  · rw [current, l3]
    have value : Bytes.net16 ((resetIp4 (flow.flowEntry i)).getD 2 0)
        ((resetIp4 (flow.flowEntry i)).getD (2 + 1) 0) = 40 := net16_hi_lo 40
    rw [value] at total
    have position : (((flow.flowEntry i).resetWire.l3 : Nat) : Int) + 2 =
      (((flow.flowEntry i).resetWire.l3 + 2 : Nat) : Int) := by push_cast; rfl
    rw [position, total]
    rfl
  · rw [l3]
    exact (congrArg onesSum (holdsAt_slice held.ip4)).trans (resetIp4_completed _)
  · rw [l3, l4]
    exact resetTcp_completed held.ip4 held.tcp

/-- The two sides' sequence numbers change places as their addresses do. -/
theorem reset_segment {flow : Flow} {i : FlowDir} {b : Buffer} (version : flow.ipVersion = 4)
    (tagged : (flow.flowEntry i).Tagged) (start : b.l2HdrOffset = 0)
    (holds : b.HoldsAt 0 (resetFrame flow i).bytes) :
    (ip4PreProcess b).1.tcpFlags = TCP_FLAG_RST ||| TCP_FLAG_ACK ∧
      (ip4PreProcess b).1.tcpSeqNumber = (flow.flowEntry i).tcpAttr.ack ∧
      (ip4PreProcess b).1.tcpAckNumber = (flow.flowEntry i).tcpAttr.seq := by
  have held := resetHeld_of_holdsAt version tagged holds
  have layout : (flow.flowEntry i).resetWire.LaidOut b b.l2HdrOffset :=
    start ▸ reset_laidOut tagged held
  have l4 : (ip4PreProcess b).1.l4HdrOffset =
      (((flow.flowEntry i).resetWire.l3 + 20 : Nat) : Int) := preProcess_l4 start layout
  have tcp := held.tcp
  have word : ∀ k, k + 3 < (resetTcp 4 (flow.flowEntry i)).length →
      (ip4PreProcess b).1.net32 ((ip4PreProcess b).1.l4HdrOffset + k) =
        Bytes.net32 ((resetTcp 4 (flow.flowEntry i)).getD k 0)
          ((resetTcp 4 (flow.flowEntry i)).getD (k + 1) 0)
          ((resetTcp 4 (flow.flowEntry i)).getD (k + 2) 0)
          ((resetTcp 4 (flow.flowEntry i)).getD (k + 3) 0) := by
    intro k inside
    rw [l4, Buffer.net32, preProcess_data, ← tcp k (by omega), ← tcp (k + 1) (by omega),
      ← tcp (k + 2) (by omega), ← tcp (k + 3) inside]
    rfl
  refine ⟨?_, ?_, ?_⟩
  · rw [Buffer.tcpFlags, l4, preProcess_data]
    exact tcp 13 (by simp)
  · exact (word 4 (by simp)).trans (net32_be32 _)
  · exact (word 8 (by simp)).trans (net32_be32 _)

/-- A buffer whose data starts with the bytes. -/
def Buffer.filled (bytes : List UInt8) : Buffer :=
  { data := fun i => bytes.getD i.toNat 0, l2HdrOffset := 0, l3HdrOffset := 0, l4HdrOffset := 0,
    swIfIndexRx := 0, unused0 := 0, unused1 := 0, flowIndex := 0 }

theorem filled_holdsAt (bytes : List UInt8) : (Buffer.filled bytes).HoldsAt 0 bytes := by
  intro k _
  have position : ((0 + k : Nat) : Int).toNat = k := by omega
  simp only [Buffer.filled, position]

/-- A flow whose client sits behind two tags. -/
def taggedFlow : Flow :=
  { flowTableAllocatedFlow 0 with
    ipVersion := 4
    flowEntry := fun _ =>
      { FlowEntry.zero with
        src := IpAddress.zero.setIp4 (addr 10 0 0 1), srcPort := 1000
        dst := IpAddress.zero.setIp4 (addr 10 0 0 2), dstPort := 80
        outerVlanId := 100, innerVlanId := 200, vlanPresent := 2, tcpAttr := ⟨7, 11, 0⟩ } }

theorem taggedFlow_reset_agrees :
    ResetAgrees taggedFlow .dirIn (Buffer.filled (resetFrame taggedFlow .dirIn).bytes) :=
  reset_agrees rfl
    ⟨.inr (.inr rfl), by decide, by decide, fun none => absurd none (by decide),
      fun other => absurd rfl other⟩
    rfl (filled_holdsAt _)

end FlowTable
