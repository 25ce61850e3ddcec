import VppPlugins.FlowTable.Worker
import VppPlugins.Library.InternetChecksum

/-! `tcp_control.h`: the checksums over packet headers and the resets built from them. -/
namespace FlowTable
open Bytes

/-- The bytes from a pointer on. -/
abbrev Pointer := Nat → UInt8

/-- `((u16 *) p)[i]` on a little-endian host, converted for the addition. -/
def load16 (p : Pointer) (i : Nat) : UInt32 := (net16 (p (2 * i + 1)) (p (2 * i))).toUInt32

def htons (x : UInt16) : UInt16 := net16 (lo x) (hi x)

theorem high_half (sum : UInt32) : (sum >>> 16).toNat = sum.toNat / 65536 := by
  rw [UInt32.toNat_shiftRight]
  exact Nat.shiftRight_eq_div_pow ..

theorem low_half (sum : UInt32) : (sum &&& 0xFFFF).toNat = sum.toNat % 65536 := by
  rw [UInt32.toNat_and]
  exact Nat.and_two_pow_sub_one_eq_mod sum.toNat 16

theorem high_half_eq_zero {sum : UInt32} : sum >>> 16 = 0 ↔ sum.toNat < 65536 := by
  rw [← UInt32.toNat_inj, high_half]
  change sum.toNat / 65536 = 0 ↔ _
  omega

/-- The body of `while (sum >> 16)`. -/
def foldStep (sum : UInt32) : UInt32 := (sum &&& (0xFFFF : UInt32)) + (sum >>> 16)

theorem foldStep_toNat (sum : UInt32) :
    (foldStep sum).toNat = sum.toNat % 65536 + sum.toNat / 65536 := by
  have bound : sum.toNat < 4294967296 := sum.toNat_lt
  rw [foldStep, UInt32.toNat_add, high_half, low_half]
  omega

/-- The loop; its accumulator shrinks. -/
def foldCarries (sum : UInt32) : UInt32 :=
  if sum >>> 16 = 0 then sum else foldCarries (foldStep sum)
termination_by sum.toNat
decreasing_by
  rename_i carries
  rw [high_half_eq_zero] at carries
  rw [foldStep_toNat]
  omega

/-! The three checksums differ in what they add to `sum`; `terms` lists that in the order of
the source. -/

def accumulate (terms : List UInt32) : UInt32 := terms.foldl (fun sum term => sum + term) 0

/-- Folding the accumulator, and `return ~sum`. -/
def checksumOf (terms : List UInt32) : UInt16 := (~~~ foldCarries (accumulate terms)).toUInt16

def flowTableIp4Terms (ip4 : Pointer) : List UInt32 := (List.range 10).map (load16 ip4)

def flowTableIp4Checksum (ip4 : Pointer) : UInt16 := checksumOf (flowTableIp4Terms ip4)

/-- The loop over the segment and its odd byte. -/
def segmentTerms (tcp : Pointer) (tcpLen : UInt16) : List UInt32 :=
  (List.range (tcpLen.toNat / 2)).map (load16 tcp) ++
    if tcpLen &&& 1 ≠ 0 then [(tcp (tcpLen.toNat - 1)).toUInt32] else []

def flowTableTcpTerms (ip4 tcp : Pointer) (tcpLen : UInt16) : List UInt32 :=
  let p : Pointer := fun i => ip4 (12 + i)
  [load16 p 0 + load16 p 1 + load16 p 2 + load16 p 3,
    (htons (ip4 9).toUInt16).toUInt32,
    (htons tcpLen).toUInt32] ++ segmentTerms tcp tcpLen

def flowTableTcpChecksum (ip4 tcp : Pointer) (tcpLen : UInt16) : UInt16 :=
  checksumOf (flowTableTcpTerms ip4 tcp tcpLen)

/-- `tcp_len >> 16` shifts an `int`. -/
def flowTableTcpTermsIp6 (ip6 tcp : Pointer) (tcpLen : UInt16) : List UInt32 :=
  (List.range 8).map (load16 fun i => ip6 (8 + i)) ++
    (List.range 8).map (load16 fun i => ip6 (24 + i)) ++
    [(htons (UInt16.ofNat (tcpLen.toNat >>> 16))).toUInt32,
      (htons (tcpLen &&& 0xFFFF)).toUInt32,
      (htons (ip6 6).toUInt16).toUInt32] ++ segmentTerms tcp tcpLen

def flowTableTcpChecksumIp6 (ip6 tcp : Pointer) (tcpLen : UInt16) : UInt16 :=
  checksumOf (flowTableTcpTermsIp6 ip6 tcp tcpLen)

/-! `tcp_send_reset` -/

def ETHERNET_TYPE_IP4 : UInt16 := 0x0800
def ETHERNET_TYPE_IP6 : UInt16 := 0x86DD

/-- `sizeof (ethernet_header_t)` and so on. -/
def ethernetHeaderSize : Nat := 14
def ip4HeaderSize : Nat := 20
def ip6HeaderSize : Nat := 40
def tcpHeaderSize : Nat := 20

/-- The flags set on a reset's buffer. -/
inductive BufferFlag where
  | isIp4
  | isIp6
  | totalLengthValid
  | locallyOriginated
  | l2HdrOffsetValid
  | l3HdrOffsetValid
  | l4HdrOffsetValid
  deriving DecidableEq, Repr

/-- A buffer that `tcp_send_reset` hands to a node: the bytes it wrote from `data` on, and
the metadata it set. -/
structure ResetFrame where
  bytes : List UInt8
  flags : List BufferFlag
  currentData : Nat
  currentLength : Nat
  totalLengthNotIncludingFirstBuffer : Nat
  l2HdrOffset : Nat
  l3HdrOffset : Nat
  l4HdrOffset : Nat
  swIfIndexRx : UInt32
  swIfIndexTx : UInt32

def pointer (bytes : List UInt8) : Pointer := fun i => bytes.getD i 0

def be16 (x : UInt16) : List UInt8 := [hi x, lo x]

/-- A `u16` stored as it is. -/
def store16 (x : UInt16) : List UInt8 := [lo x, hi x]

def macBytes (m : MacAddress) : List UInt8 := List.ofFn m

def ip4Bytes (a : Ip4Address) : List UInt8 := List.ofFn a

/-- The EtherType of the flow's IP version. -/
def resetEtherType (ipVersion : UInt8) : UInt16 :=
  if ipVersion = 4 then ETHERNET_TYPE_IP4 else ETHERNET_TYPE_IP6

def resetVlanTags (ipVersion : UInt8) (e : FlowEntry) : List UInt8 :=
  if 1 ≤ e.vlanPresent then
    let tci := e.outerVlanId &&& 0x0FFF
    if e.vlanPresent = 2 then
      let innerTci := e.innerVlanId &&& 0x0FFF
      be16 ETHERNET_TYPE_VLAN ++ be16 tci ++ be16 ETHERNET_TYPE_VLAN ++ be16 innerTci ++
        be16 (resetEtherType ipVersion)
    else be16 ETHERNET_TYPE_VLAN ++ be16 tci ++ be16 (resetEtherType ipVersion)
  else be16 (resetEtherType ipVersion)

def resetL3Offset (e : FlowEntry) : Nat :=
  if 1 ≤ e.vlanPresent then
    if e.vlanPresent = 2 then ethernetHeaderSize + 8 else ethernetHeaderSize + 4
  else ethernetHeaderSize

def resetIp4Header (e : FlowEntry) (checksum : UInt16) : List UInt8 :=
  [0x45, 0] ++ be16 (UInt16.ofNat (ip4HeaderSize + tcpHeaderSize)) ++ [0, 0, 0, 0, 64,
    IP_PROTOCOL_TCP] ++ store16 checksum ++ ip4Bytes e.dst.ip4 ++ ip4Bytes e.src.ip4

def resetIp6Header (e : FlowEntry) : List UInt8 :=
  [0x60, 0, 0, 0] ++ be16 (UInt16.ofNat tcpHeaderSize) ++ [IP_PROTOCOL_TCP, 64] ++
    List.ofFn e.dst.ip ++ List.ofFn e.src.ip

def resetTcpHeader (e : FlowEntry) (checksum : UInt16) : List UInt8 :=
  be16 e.dstPort ++ be16 e.srcPort ++ be32 e.tcpAttr.ack ++ be32 e.tcpAttr.seq ++
    [0x50, TCP_FLAG_RST ||| TCP_FLAG_ACK, 0, 0] ++ store16 checksum ++ [0, 0]

/-- The IPv4 header with its checksum. -/
def resetIp4 (e : FlowEntry) : List UInt8 :=
  resetIp4Header e (flowTableIp4Checksum (pointer (resetIp4Header e 0)))

/-- The TCP header with the checksum of the flow's IP version. -/
def resetTcp (ipVersion : UInt8) (e : FlowEntry) : List UInt8 :=
  let tcp := pointer (resetTcpHeader e 0)
  let tcpLen := UInt16.ofNat tcpHeaderSize
  if ipVersion = 4 then
    resetTcpHeader e (flowTableTcpChecksum (pointer (resetIp4 e)) tcp tcpLen)
  else resetTcpHeader e (flowTableTcpChecksumIp6 (pointer (resetIp6Header e)) tcp tcpLen)

/-- The frame that one iteration of the loop builds. -/
def resetFrame (flow : Flow) (i : FlowDir) : ResetFrame :=
  let e := flow.flowEntry i
  let l3Offset := resetL3Offset e
  let ipHeaderSize := if flow.ipVersion = 4 then ip4HeaderSize else ip6HeaderSize
  let ip := if flow.ipVersion = 4 then resetIp4 e else resetIp6Header e
  { bytes := macBytes e.smac ++ macBytes e.dmac ++ resetVlanTags flow.ipVersion e ++ ip ++
      resetTcp flow.ipVersion e
    flags := [if flow.ipVersion = 4 then .isIp4 else .isIp6, .totalLengthValid,
      .locallyOriginated, .l2HdrOffsetValid, .l3HdrOffsetValid, .l4HdrOffsetValid]
    currentData := 0
    currentLength := l3Offset + ipHeaderSize + tcpHeaderSize
    totalLengthNotIncludingFirstBuffer := 0
    l2HdrOffset := 0
    l3HdrOffset := l3Offset
    l4HdrOffset := l3Offset + ipHeaderSize
    swIfIndexRx := 0
    swIfIndexTx := e.swIfIndex }

/-- VPP as `tcp_send_reset` finds it. `supSwInterface` tells of an index whether it is free,
and else whether its super interface is of type hardware; `bufferAlloc` tells for which
iterations a buffer is to be had. -/
structure Vnet where
  supSwInterface : UInt32 → Option Bool
  outputNodeIndex : UInt32 → UInt32
  bufferAlloc : FlowDir → Bool

/-- A frame put to a node. -/
structure SentFrame where
  dir : FlowDir
  nextNodeIdx : UInt32
  frame : ResetFrame

def zeroMac : MacAddress := fun _ => 0

/-- The iterations of the loop for the directions still to come; an interface that does not
exist ends them all. -/
def tcpSendResetLoop (vnm : Vnet) (flow : Flow) : List FlowDir → Int × List SentFrame
  | [] => (0, [])
  | i :: dirs =>
      let e := flow.flowEntry i
      match vnm.supSwInterface e.swIfIndex with
      | none => (-1, [])
      | some hardware =>
          if hardware = false then tcpSendResetLoop vnm flow dirs
          else if (∀ k, e.smac k = zeroMac k) ∨ (∀ k, e.dmac k = zeroMac k) then
            tcpSendResetLoop vnm flow dirs
          else if vnm.bufferAlloc i = false then tcpSendResetLoop vnm flow dirs
          else
            let (result, sent) := tcpSendResetLoop vnm flow dirs
            (result, ⟨i, vnm.outputNodeIndex e.swIfIndex, resetFrame flow i⟩ :: sent)

def tcpSendReset (vnm : Vnet) (flow : Flow) : Int × List SentFrame :=
  tcpSendResetLoop vnm flow [.dirIn, .dirOut]

end FlowTable
