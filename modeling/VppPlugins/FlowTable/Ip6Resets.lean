import VppPlugins.FlowTable.ResetSequence
import VppPlugins.Library.Ip6Segment

/-! The resets of flows that are not IPv4, as a receiver of IPv6 reads them. -/
namespace FlowTable
open Bytes InternetChecksum

def FlowEntry.vlanIds (e : FlowEntry) : List UInt16 :=
  if e.vlanPresent = 0 then []
  else if e.vlanPresent = 2 then [e.outerVlanId &&& 0x0FFF, e.innerVlanId &&& 0x0FFF]
  else [e.outerVlanId &&& 0x0FFF]

/-- What the sender of an entry's packets is to get: its own addresses, ports and numbers, with
the sides exchanged. -/
def FlowEntry.resetSegment (e : FlowEntry) : Ip6Segment.Segment :=
  { dmac := macBytes e.smac, smac := macBytes e.dmac, vlanIds := e.vlanIds
    src := List.ofFn e.dst.ip, dst := List.ofFn e.src.ip
    srcPort := e.dstPort, dstPort := e.srcPort
    seq := e.tcpAttr.ack, ack := e.tcpAttr.seq, flags := TCP_FLAG_RST ||| TCP_FLAG_ACK }

variable {version : UInt8}

theorem resetEtherType_ip6 (other : version ≠ 4) :
    resetEtherType version = Ip6Segment.ip6EtherType := if_neg other

theorem masked_twice (id : UInt16) : (id &&& 0x0FFF) &&& 0x0FFF = id &&& 0x0FFF := by
  rw [UInt16.and_assoc, UInt16.and_self]

theorem untag_etherType (other : version ≠ 4) (packet : List UInt8) :
    Ip6Segment.untag (be16 (resetEtherType version) ++ packet) =
      ([], Ip6Segment.ip6EtherType, packet) := by
  rw [resetEtherType_ip6 other]
  exact Ip6Segment.untag_plain (by decide)

theorem untag_tag (id : UInt16) (behind : List UInt8) :
    Ip6Segment.untag (be16 ETHERNET_TYPE_VLAN ++ (be16 (id &&& 0x0FFF) ++ behind)) =
      ((id &&& 0x0FFF) :: (Ip6Segment.untag behind).1, (Ip6Segment.untag behind).2.1,
        (Ip6Segment.untag behind).2.2) := by
  have read : Ip6Segment.untag (hi ETHERNET_TYPE_VLAN :: lo ETHERNET_TYPE_VLAN ::
      hi (id &&& 0x0FFF) :: lo (id &&& 0x0FFF) :: behind) = _ :=
    Ip6Segment.untag_tagged (net16_hi_lo _)
  rw [net16_hi_lo, masked_twice] at read
  exact read

theorem untag_reset (other : version ≠ 4) (e : FlowEntry) (packet : List UInt8) :
    Ip6Segment.untag (resetVlanTags version e ++ packet) =
      (e.vlanIds, Ip6Segment.ip6EtherType, packet) := by
  have plain := untag_etherType other packet
  unfold resetVlanTags FlowEntry.vlanIds
  by_cases none : e.vlanPresent = 0
  · rw [none, if_neg (by decide), if_pos rfl]
    exact plain
  · have tagged : 1 ≤ e.vlanPresent := by
      rw [UInt8.le_iff_toNat_le]
      exact Nat.one_le_iff_ne_zero.mpr fun zero => none (UInt8.toNat_inj.mp zero)
    rw [if_pos tagged, if_neg none]
    by_cases double : e.vlanPresent = 2
    · rw [if_pos double, if_pos double]
      simp only [List.append_assoc, untag_tag, plain]
    · rw [if_neg double, if_neg double]
      simp only [List.append_assoc, untag_tag, plain]

theorem resetTcp_ip6 (other : version ≠ 4) (e : FlowEntry) :
    ∃ checksum, resetTcp version e = resetTcpHeader e checksum ∧
      store16 checksum = be16 (InternetChecksum.checksum
        (ip6PseudoPacket (pointer (resetIp6Header e)) (pointer (resetTcpHeader e 0)) 20)) :=
  ⟨_, if_neg other, (tcpChecksumIp6_computes ..).stored⟩

theorem reset_accepted (other : version ≠ 4) (e : FlowEntry) :
    Ip6Segment.Accepted (resetIp6Header e ++ resetTcp version e) := by
  obtain ⟨checksum, segment, stored⟩ := resetTcp_ip6 other e
  have completed : onesSum (ip6PseudoHeader (pointer (resetIp6Header e)) 20 ++
      ((pointer (resetTcpHeader e 0)).store 16 checksum).slice 0 20) = 0xFFFF :=
    store_completes _ (by rw [ip6PseudoHeader_length]) rfl (by omega) ⟨rfl, rfl⟩ stored
  have size : (resetIp6Header e ++ resetTcpHeader e checksum).length = 60 := rfl
  have word : Ip6Segment.wordAt (resetIp6Header e ++ resetTcpHeader e checksum) 4 = 20 :=
    net16_hi_lo 20
  rw [segment]
  have first : (0x60 : UInt8) >>> 4 = 6 := by decide
  refine ⟨first, rfl, ?_, ?_, completed⟩
  · rw [size]
    exact Nat.le_refl 60
  · rw [size, word]
    rfl

theorem reset_fields (other : version ≠ 4) (e : FlowEntry) :
    Ip6Segment.fields (macBytes e.smac ++ macBytes e.dmac) e.vlanIds
      (resetIp6Header e ++ resetTcp version e) = e.resetSegment := by
  obtain ⟨checksum, segment, -⟩ := resetTcp_ip6 other e
  rw [segment]
  apply Ip6Segment.Segment.ext
  · rfl
  · rfl
  · rfl
  · rfl
  · rfl
  · exact net16_hi_lo e.dstPort
  · exact net16_hi_lo e.srcPort
  · exact net32_be32 e.tcpAttr.ack
  · exact net32_be32 e.tcpAttr.seq
  · rfl

theorem resetFrame_ip6 {flow : Flow} (other : flow.ipVersion ≠ 4) (i : FlowDir) :
    (resetFrame flow i).bytes = (macBytes (flow.flowEntry i).smac ++
      macBytes (flow.flowEntry i).dmac) ++ (resetVlanTags flow.ipVersion (flow.flowEntry i) ++
        (resetIp6Header (flow.flowEntry i) ++ resetTcp flow.ipVersion (flow.flowEntry i))) := by
  simp only [resetFrame, if_neg other, List.append_assoc]

theorem resetFrame_ip6_length {flow : Flow} (other : flow.ipVersion ≠ 4) (i : FlowDir) :
    (resetFrame flow i).currentLength = (resetFrame flow i).bytes.length := by
  have tags := resetVlanTags_size flow.ipVersion (flow.flowEntry i)
  obtain ⟨checksum, segment, -⟩ := resetTcp_ip6 other (flow.flowEntry i)
  have packet : (resetIp6Header (flow.flowEntry i) ++
      resetTcp flow.ipVersion (flow.flowEntry i)).length = 60 := by rw [segment]; rfl
  have macs (m : MacAddress) : (macBytes m).length = 6 := rfl
  rw [resetFrame_ip6 other, List.length_append, List.length_append, List.length_append, macs, macs,
    packet]
  simp only [resetFrame, if_neg other, ip6HeaderSize, tcpHeaderSize]
  omega

/-- Whatever interfaces and buffers `tcp_send_reset` finds, each frame that it sends for a flow
that is not IPv4 is an IPv6 packet that its receiver accepts, from the other end of the flow to the
entry's sender, with the numbers exchanged and in the tags that the sender uses. -/
theorem ip6_resets_received {flow : Flow} (other : flow.ipVersion ≠ 4) (vnm : Vnet) :
    ∀ sent ∈ (tcpSendReset vnm flow).2,
      sent.frame.currentLength = sent.frame.bytes.length ∧
        Ip6Segment.decode sent.frame.bytes = some (flow.flowEntry sent.dir).resetSegment := by
  intro sent member
  obtain ⟨-, frame, -⟩ := sent_frame member
  rw [frame]
  refine ⟨resetFrame_ip6_length other sent.dir, ?_⟩
  rw [resetFrame_ip6 other, Ip6Segment.decode_accepted rfl (untag_reset other _ _)
    (reset_accepted other _), reset_fields other]

/-- A flow between two IPv6 hosts behind a tag each. -/
def ip6Flow : Flow :=
  { flowTableAllocatedFlow 0 with
    ipVersion := 6
    flowEntry := fun _ =>
      { FlowEntry.zero with
        src := ⟨fun i => UInt8.ofNat i, 6⟩, srcPort := 1000, dst := ⟨fun _ => 1, 6⟩, dstPort := 80
        smac := fun _ => 2, dmac := fun _ => 3, outerVlanId := 100, vlanPresent := 1
        tcpAttr := ⟨7, 11, 0⟩ } }

theorem ip6Flow_resets_received :
    (tcpSendReset hardwareOnly ip6Flow).2.length = 2 ∧
      ∀ sent ∈ (tcpSendReset hardwareOnly ip6Flow).2,
        sent.frame.currentLength = sent.frame.bytes.length ∧
          Ip6Segment.decode sent.frame.bytes = some (ip6Flow.flowEntry sent.dir).resetSegment :=
  ⟨by decide +kernel, ip6_resets_received (by decide) hardwareOnly⟩

end FlowTable
