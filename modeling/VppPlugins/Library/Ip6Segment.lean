import VppPlugins.Library.Bytes
import VppPlugins.Library.InternetChecksum

/-! TCP segments in IPv6 packets in Ethernet frames, as a receiver reads them. -/
namespace Ip6Segment
open Bytes InternetChecksum

@[ext] structure Segment where
  dmac : List UInt8
  smac : List UInt8
  vlanIds : List UInt16
  src : List UInt8
  dst : List UInt8
  srcPort : UInt16
  dstPort : UInt16
  seq : UInt32
  ack : UInt32
  flags : UInt8
  deriving DecidableEq

def vlanTpid : UInt16 := 0x8100
def ip6EtherType : UInt16 := 0x86DD
def tcpNextHeader : UInt8 := 6
def ip6HeaderLength : Nat := 40
def tcpHeaderLength : Nat := 20

/-- The identifiers in the tags, the EtherType behind them and what follows it. -/
def untag : List UInt8 → List UInt16 × UInt16 × List UInt8
  | h :: l :: rest =>
      if net16 h l = vlanTpid then
        match rest with
        | a :: b :: behind =>
            let (ids, etherType, payload) := untag behind
            ((net16 a b &&& 0x0FFF) :: ids, etherType, payload)
        | cut => ([], vlanTpid, cut)
      else ([], net16 h l, rest)
  | cut => ([], 0, cut)

def byteAt (bytes : List UInt8) (k : Nat) : UInt8 := bytes.getD k 0

def wordAt (bytes : List UInt8) (k : Nat) : UInt16 := net16 (byteAt bytes k) (byteAt bytes (k + 1))

def longAt (bytes : List UInt8) (k : Nat) : UInt32 :=
  net32 (byteAt bytes k) (byteAt bytes (k + 1)) (byteAt bytes (k + 2)) (byteAt bytes (k + 3))

def pseudoHeader (packet : List UInt8) : List UInt8 :=
  (packet.drop 8).take 32 ++ [0, 0, byteAt packet 4, byteAt packet 5, 0, 0, 0, byteAt packet 6]

/-- The packet is of version 6, holds a TCP segment of the length it tells, and its checksum
agrees. -/
structure Accepted (packet : List UInt8) : Prop where
  version : byteAt packet 0 >>> 4 = 6
  nextHeader : byteAt packet 6 = tcpNextHeader
  header : ip6HeaderLength + tcpHeaderLength ≤ packet.length
  length : packet.length = ip6HeaderLength + (wordAt packet 4).toNat
  sum : onesSum (pseudoHeader packet ++ packet.drop ip6HeaderLength) = 0xFFFF

instance (packet : List UInt8) : Decidable (Accepted packet) :=
  decidable_of_iff
    (byteAt packet 0 >>> 4 = 6 ∧ byteAt packet 6 = tcpNextHeader ∧
      ip6HeaderLength + tcpHeaderLength ≤ packet.length ∧
      packet.length = ip6HeaderLength + (wordAt packet 4).toNat ∧
      onesSum (pseudoHeader packet ++ packet.drop ip6HeaderLength) = 0xFFFF)
    ⟨fun h => ⟨h.1, h.2.1, h.2.2.1, h.2.2.2.1, h.2.2.2.2⟩,
      fun h => ⟨h.version, h.nextHeader, h.header, h.length, h.sum⟩⟩

/-- The fields of an accepted packet. -/
def fields (macs : List UInt8) (vlanIds : List UInt16) (packet : List UInt8) : Segment :=
  let tcp := packet.drop ip6HeaderLength
  { dmac := macs.take 6, smac := macs.drop 6, vlanIds
    src := (packet.drop 8).take 16, dst := (packet.drop 24).take 16
    srcPort := wordAt tcp 0, dstPort := wordAt tcp 2
    seq := longAt tcp 4, ack := longAt tcp 8, flags := byteAt tcp 13 }

def decode (frame : List UInt8) : Option Segment :=
  let (vlanIds, etherType, packet) := untag (frame.drop 12)
  if etherType = ip6EtherType ∧ Accepted packet then
    some (fields (frame.take 12) vlanIds packet)
  else none

theorem untag_plain {h l : UInt8} {rest : List UInt8} (plain : net16 h l ≠ vlanTpid) :
    untag (h :: l :: rest) = ([], net16 h l, rest) := by
  unfold untag
  exact if_neg plain

theorem untag_tagged {h l a b : UInt8} {rest : List UInt8} (tagged : net16 h l = vlanTpid) :
    untag (h :: l :: a :: b :: rest) =
      ((net16 a b &&& 0x0FFF) :: (untag rest).1, (untag rest).2.1, (untag rest).2.2) := by
  rw [untag.eq_def]
  exact if_pos tagged

theorem decode_accepted {macs behind packet : List UInt8} {vlanIds : List UInt16}
    (length : macs.length = 12) (tags : untag behind = (vlanIds, ip6EtherType, packet))
    (accepted : Accepted packet) :
    decode (macs ++ behind) = some (fields macs vlanIds packet) := by
  rw [decode, List.drop_left' length, List.take_left' length, tags]
  exact if_pos ⟨rfl, accepted⟩

end Ip6Segment
