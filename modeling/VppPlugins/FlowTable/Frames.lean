import VppPlugins.FlowTable.Ip4Process
import Mathlib.Tactic.IntervalCases
import Mathlib.Tactic.FinCases
import Mathlib.Data.Fintype.Basic

/-! Frames as they stand on the wire, and what the hooks read out of them. Nothing here is
taken from the parser: a frame is described by the fields at their offsets. -/
namespace FlowTable
open Bytes

inductive OuterTpid where
  | dot1q
  | dot1ad
  deriving DecidableEq, Repr

def OuterTpid.value : OuterTpid → UInt16
  | .dot1q => 0x8100
  | .dot1ad => 0x88A8

/-- The tags between the Ethernet header and the IPv4 header; a TCI is arbitrary. -/
inductive TagStack where
  | untagged
  | single (tpid : OuterTpid) (tci : UInt16)
  | double (tpid : OuterTpid) (outerTci innerTci : UInt16)
  deriving DecidableEq, Repr

/-- The twelve low bits of a TCI. -/
def vlanId (tci : UInt16) : UInt16 := UInt16.ofNat (tci.toNat % 4096)

namespace TagStack

def count : TagStack → Nat
  | untagged => 0
  | single _ _ => 1
  | double _ _ _ => 2

def outerVlanId : TagStack → UInt16
  | untagged => 0
  | single _ tci => vlanId tci
  | double _ outerTci _ => vlanId outerTci

def innerVlanId : TagStack → UInt16
  | untagged | single _ _ => 0
  | double _ _ innerTci => vlanId innerTci

/-- The tags and the EtherType of IPv4 stand from `o + 12` on. -/
def LaidOut (b : Buffer) (o : Int) : TagStack → Prop
  | untagged => b.net16 (o + 12) = 0x0800
  | single tpid tci => b.net16 (o + 12) = tpid.value ∧ b.net16 (o + 14) = tci ∧
      b.net16 (o + 16) = 0x0800
  | double tpid outerTci innerTci => b.net16 (o + 12) = tpid.value ∧
      b.net16 (o + 14) = outerTci ∧ b.net16 (o + 16) = 0x8100 ∧
      b.net16 (o + 18) = innerTci ∧ b.net16 (o + 20) = 0x0800

end TagStack

structure Frame where
  tags : TagStack
  ihl : Nat
  ihl_bounds : 5 ≤ ihl ∧ ihl ≤ 15
  src : Ip4Address
  dst : Ip4Address
  srcPort : UInt16
  dstPort : UInt16

/-- The length of everything before the IPv4 header. -/
def Frame.l3 (f : Frame) : Nat := 14 + 4 * f.tags.count

/-- The frame stands in the buffer's data from offset `o` on. -/
structure Frame.LaidOut (f : Frame) (b : Buffer) (o : Int) : Prop where
  tags : f.tags.LaidOut b o
  versionAndIhl : b.data (o + f.l3) = UInt8.ofNat (4 * 16 + f.ihl)
  protocol : b.data (o + f.l3 + 9) = IP_PROTOCOL_TCP
  src : b.ip4 (o + f.l3 + 12) = f.src
  dst : b.ip4 (o + f.l3 + 16) = f.dst
  srcPort : b.net16 (o + f.l3 + 4 * f.ihl) = f.srcPort
  dstPort : b.net16 (o + f.l3 + 4 * f.ihl + 2) = f.dstPort

/-- The key that names the frame's connection. -/
def Frame.key (f : Frame) : FlowKey :=
  { src := IpAddress.zero.setIp4 f.src, dst := IpAddress.zero.setIp4 f.dst,
    srcPort := f.srcPort, dstPort := f.dstPort, protocol := IP_PROTOCOL_TCP,
    outerVlanId := f.tags.outerVlanId, innerVlanId := f.tags.innerVlanId,
    vlanPresent := UInt8.ofNat f.tags.count }

/-- What the two hooks have to make of the frame. -/
structure Parsed (f : Frame) (b : Buffer) : Prop where
  l3 : (ip4PreProcess b).1.l3HdrOffset = b.l2HdrOffset + f.l3
  l4 : (ip4PreProcess b).1.l4HdrOffset = (ip4PreProcess b).1.l3HdrOffset + 4 * f.ihl
  key : ip4LookupKey (ip4PreProcess b).1 = some f.key

theorem mask_vlanId (tci : UInt16) : tci &&& 0x0FFF = vlanId tci := by
  apply UInt16.toNat.inj
  have bound : tci.toNat < 65536 := tci.toNat_lt
  rw [UInt16.toNat_and, vlanId, UInt16.toNat_ofNat']
  change tci.toNat &&& (2 ^ 12 - 1) = _
  rw [Nat.and_two_pow_sub_one_eq_mod]
  omega

theorem OuterTpid.recognised (tpid : OuterTpid) :
    tpid.value = ETHERNET_TYPE_VLAN ∨ tpid.value = ETHERNET_TYPE_DOT1AD := by
  cases tpid <;> decide

/-- The IPv4 EtherType is no tag. -/
theorem ip4_not_tagged :
    ¬ ((0x0800 : UInt16) = ETHERNET_TYPE_VLAN ∨ 0x0800 = ETHERNET_TYPE_DOT1AD) := by decide

/-- The tag parser reads relative to the Ethernet header, wherever that is. -/
theorem parseVlanTags_laidOut {b : Buffer} {tags : TagStack} (h : tags.LaidOut b b.l2HdrOffset) :
    parseVlanTags b =
      ⟨14 + 4 * tags.count, tags.outerVlanId, tags.innerVlanId, UInt8.ofNat tags.count⟩ := by
  have at16 : b.l2HdrOffset + 14 + 2 = b.l2HdrOffset + 16 := by omega
  have at18 : b.l2HdrOffset + 14 + 4 = b.l2HdrOffset + 18 := by omega
  cases tags with
  | untagged =>
      have plain : b.net16 (b.l2HdrOffset + 12) = 0x0800 := h
      simp only [parseVlanTags, plain, if_neg ip4_not_tagged]
      rfl
  | single tpid tci =>
      obtain ⟨outer, id, ip⟩ := h
      have innermost := (not_or.mp ip4_not_tagged).1
      simp only [parseVlanTags, outer, if_pos tpid.recognised, at16, ip, if_neg innermost, id,
        mask_vlanId]
      rfl
  | double tpid outerTci innerTci =>
      obtain ⟨outer, id, inner, innerId, _⟩ := h
      have second : (0x8100 : UInt16) = ETHERNET_TYPE_VLAN := rfl
      simp only [parseVlanTags, outer, if_pos tpid.recognised, at16, inner, if_pos second, at18, id,
        innerId, mask_vlanId]
      rfl

theorem i16_small {x : Int} (low : 0 ≤ x) (high : x < 32768) : i16 x = x := by
  unfold i16
  omega

theorem count_le (tags : TagStack) : tags.count ≤ 2 := by
  cases tags <;> simp [TagStack.count]

/-- The offset the hook stores counts from the Ethernet header. -/
theorem preProcess_l3 {b : Buffer} {tags : TagStack} (h : tags.LaidOut b b.l2HdrOffset) :
    (ip4PreProcess b).1.l3HdrOffset = 14 + 4 * tags.count := by
  have small := count_le tags
  have offset : i16 ((14 + 4 * tags.count : Nat) : Int) = 14 + 4 * tags.count := by
    rw [i16_small (by omega) (by omega)]
    push_cast
    rfl
  rw [preProcess_l3HdrOffset, parseVlanTags_laidOut h, offset]

theorem ihl_length {ihl : Nat} (bounds : 5 ≤ ihl ∧ ihl ≤ 15) :
    (UInt8.ofNat (4 * 16 + ihl) &&& 0x0F).toNat <<< 2 = 4 * ihl := by
  obtain ⟨low, high⟩ := bounds
  interval_cases ihl <;> rfl

section AtBufferStart

variable {f : Frame} {b : Buffer} (start : b.l2HdrOffset = 0) (layout : f.LaidOut b b.l2HdrOffset)
include start layout

theorem preProcess_l4 : (ip4PreProcess b).1.l4HdrOffset = f.l3 + 4 * f.ihl := by
  have small := count_le f.tags
  have bounds := f.ihl_bounds
  have l3 := preProcess_l3 layout.tags
  have first : b.data (14 + 4 * f.tags.count) = UInt8.ofNat (4 * 16 + f.ihl) := by
    have := layout.versionAndIhl
    rw [start, Int.zero_add] at this
    exact this
  have length : i16 ((4 * f.ihl : Nat) : Int) = 4 * f.ihl := by
    rw [i16_small (by omega) (by omega)]
    push_cast
    rfl
  rw [preProcess_l4HdrOffset, l3, first, ihl_length bounds, length,
    i16_small (by omega) (by omega)]
  simp only [Frame.l3]
  push_cast
  omega

theorem preProcess_key : ip4LookupKey (ip4PreProcess b).1 = some f.key := by
  have l3 : (ip4PreProcess b).1.l3HdrOffset = f.l3 := by
    rw [preProcess_l3 layout.tags, Frame.l3]
    push_cast
    rfl
  have l4 := preProcess_l4 start layout
  have tags := parseVlanTags_laidOut layout.tags
  have protocol : (ip4PreProcess b).1.ipProtocol = IP_PROTOCOL_TCP := by
    have := layout.protocol
    rw [start, Int.zero_add] at this
    rw [Buffer.ipProtocol, l3]
    exact this
  have src : b.ip4 (f.l3 + 12) = f.src := by
    have := layout.src
    rwa [start, Int.zero_add] at this
  have dst : b.ip4 (f.l3 + 16) = f.dst := by
    have := layout.dst
    rwa [start, Int.zero_add] at this
  have srcPort : b.net16 (f.l3 + 4 * f.ihl) = f.srcPort := by
    have := layout.srcPort
    rwa [start, Int.zero_add] at this
  have dstPort : b.net16 (f.l3 + 4 * f.ihl + 2) = f.dstPort := by
    have := layout.dstPort
    rwa [start, Int.zero_add] at this
  have present : (UInt8.ofNat f.tags.count).toUInt32.toUInt8 = UInt8.ofNat f.tags.count := by
    cases f.tags <;> rfl
  have handler : protocolHandlerGet (ip4PreProcess b).1.ipProtocol = some .tcp :=
    protocolHandlerGet_eq_tcp.mpr protocol
  rw [ip4LookupKey, handler, Option.map_some, ProtocolHandler.parseKey, tcpParseFlowKey,
    Buffer.ip4FlowKey, protocol, preProcess_unused0, preProcess_unused1, tags, pack_high, pack_low,
    present, l3, Buffer.tcpSrcPort, Buffer.tcpDstPort, l4, preProcess_ip4, preProcess_ip4,
    preProcess_net16, preProcess_net16, src, dst, srcPort, dstPort]
  rfl

end AtBufferStart

/-! Untagged segments with minimal headers, in which only the fields that the hooks read
are set. -/

def addr (a b c d : UInt8) : Ip4Address
  | 0 => a
  | 1 => b
  | 2 => c
  | 3 => d

structure Segment where
  src : Ip4Address
  dst : Ip4Address
  srcPort : UInt16
  dstPort : UInt16
  flags : UInt8

def Segment.bytes (p : Segment) : List UInt8 :=
  [0, 0, 0, 0, 0, 0, 0, 0, 0, 0, 0, 0, 0x08, 0x00] ++
    [0x45, 0, 0, 0, 0, 0, 0, 0, 0, 6, 0, 0,
      p.src 0, p.src 1, p.src 2, p.src 3, p.dst 0, p.dst 1, p.dst 2, p.dst 3] ++
    [hi p.srcPort, lo p.srcPort, hi p.dstPort, lo p.dstPort,
      0, 0, 0, 0, 0, 0, 0, 0, 0x50, p.flags, 0, 0, 0, 0, 0, 0]

/-- The buffer in which the segment starts at `o`. -/
def Segment.buffer (p : Segment) (o : Int) : Buffer :=
  { data := fun i => p.bytes.getD (i - o).toNat 0, l2HdrOffset := o, l3HdrOffset := 0,
    l4HdrOffset := 0, swIfIndexRx := 0, unused0 := 0, unused1 := 0, flowIndex := 0 }

def Segment.frame (p : Segment) : Frame :=
  { tags := .untagged, ihl := 5, ihl_bounds := by omega, src := p.src, dst := p.dst,
    srcPort := p.srcPort, dstPort := p.dstPort }

theorem segment_data (p : Segment) (o : Int) (k : Nat) :
    (p.buffer o).data (o + k) = p.bytes.getD k 0 := by
  have position : (o + k - o).toNat = k := by omega
  simp only [Segment.buffer, position]

theorem segment_ip4 (p : Segment) (o : Int) (k : Nat) (a : Ip4Address)
    (bytes : ∀ i : Fin 4, p.bytes.getD (k + i.val) 0 = a i) : (p.buffer o).ip4 (o + k) = a := by
  funext i
  have offset : o + k + i.val = o + ((k + i.val : Nat) : Int) := by omega
  rw [Buffer.ip4, offset, segment_data, bytes]

theorem segment_net16 (p : Segment) (o : Int) (k : Nat) :
    (p.buffer o).net16 (o + k) = Bytes.net16 (p.bytes.getD k 0) (p.bytes.getD (k + 1) 0) := by
  have next : o + k + 1 = o + ((k + 1 : Nat) : Int) := by omega
  rw [Buffer.net16, next, segment_data, segment_data]

theorem segment_laidOut (p : Segment) (o : Int) : p.frame.LaidOut (p.buffer o) o := by
  have header : o + (p.frame.l3 : Int) = o + (14 : Nat) := rfl
  have ports : o + (p.frame.l3 : Int) + 4 * p.frame.ihl = o + (34 : Nat) := by
    simp only [Frame.l3, Segment.frame, TagStack.count]
    push_cast
    omega
  have src : p.bytes.getD 34 0 = hi p.srcPort ∧ p.bytes.getD 35 0 = lo p.srcPort := ⟨rfl, rfl⟩
  have dst : p.bytes.getD 36 0 = hi p.dstPort ∧ p.bytes.getD 37 0 = lo p.dstPort := ⟨rfl, rfl⟩
  have ethertype : p.bytes.getD 12 0 = 0x08 ∧ p.bytes.getD 13 0 = 0x00 := ⟨rfl, rfl⟩
  refine ⟨?_, ?_, ?_, ?_, ?_, ?_, ?_⟩
  · change (p.buffer o).net16 (o + (12 : Nat)) = 0x0800
    rw [segment_net16, ethertype.1, ethertype.2]
    decide
  · rw [header, segment_data]
    rfl
  · rw [header, add_assoc]
    exact segment_data p o 23
  · rw [header, add_assoc]
    exact segment_ip4 p o 26 p.src (fun i => by fin_cases i <;> rfl)
  · rw [header, add_assoc]
    exact segment_ip4 p o 30 p.dst (fun i => by fin_cases i <;> rfl)
  · rw [ports, segment_net16, src.1, src.2]
    exact net16_hi_lo p.srcPort
  · have second : o + ((34 : Nat) : Int) + 2 = o + (36 : Nat) := by omega
    rw [ports, second, segment_net16, dst.1, dst.2]
    exact net16_hi_lo p.dstPort

def Segment.key (p : Segment) : FlowKey := p.frame.key

/-- A segment at the start of its buffer is looked up under its own key. -/
theorem segment_lookup (p : Segment) :
    ip4LookupKey (ip4PreProcess (p.buffer 0)).1 = some p.key :=
  preProcess_key rfl (segment_laidOut p 0)

/-- The answering segment of the other side. -/
def Segment.reply (p : Segment) (flags : UInt8) : Segment :=
  { src := p.dst, dst := p.src, srcPort := p.dstPort, dstPort := p.srcPort, flags }

theorem reply_key (p : Segment) (flags : UInt8) : (p.reply flags).key = flowKeyReverse p.key := rfl

theorem start_of_parsed {f : Frame} {b : Buffer} (layout : f.LaidOut b b.l2HdrOffset)
    (parsed : Parsed f b) : b.l2HdrOffset = 0 := by
  have claimed := parsed.l3
  rw [preProcess_l3 layout.tags, Frame.l3] at claimed
  push_cast at claimed
  omega

/-- The offset the parser stores forgets where the Ethernet header stands, so that a frame
is parsed exactly when its header starts the buffer. -/
theorem frame_parsed_iff {f : Frame} {b : Buffer} (layout : f.LaidOut b b.l2HdrOffset) :
    Parsed f b ↔ b.l2HdrOffset = 0 := by
  refine ⟨start_of_parsed layout, fun start => ⟨?_, ?_, preProcess_key start layout⟩⟩
  · rw [preProcess_l3 layout.tags, start, Frame.l3]
    push_cast
    omega
  · rw [preProcess_l4 start layout, preProcess_l3 layout.tags, Frame.l3]
    push_cast
    omega

def sampleSegment : Segment :=
  { src := addr 10 0 0 1, dst := addr 10 0 0 2, srcPort := 1000, dstPort := 80,
    flags := TCP_FLAG_SYN }

theorem frame_parsed_at_start :
    Parsed sampleSegment.frame (sampleSegment.buffer 0) ↔ (sampleSegment.buffer 0).l2HdrOffset = 0 :=
  frame_parsed_iff (segment_laidOut sampleSegment 0)

theorem frame_unparsed_after_headroom :
    sampleSegment.frame.LaidOut (sampleSegment.buffer 4) (sampleSegment.buffer 4).l2HdrOffset ∧
      ¬ Parsed sampleSegment.frame (sampleSegment.buffer 4) := by
  refine ⟨segment_laidOut sampleSegment 4, fun parsed => ?_⟩
  have start := start_of_parsed (segment_laidOut sampleSegment 4) parsed
  exact absurd start (by decide)

end FlowTable
