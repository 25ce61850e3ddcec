import VppPlugins.FlowTable.HeaderReads
import VppPlugins.FlowTable.Frames
import VppPlugins.FlowTable.System

/-! Which packets are long enough for the reads that the hooks make of them. -/
namespace FlowTable
open Faults ByteReader

variable {Mem Tbl : Type}

/-- A buffer with `current_length` bytes from its Ethernet header on. -/
structure Packet where
  buf : Buffer
  currentLength : Nat
  l2 : buf.l2HdrOffset = 0
  ethernet : 14 ≤ currentLength

namespace Packet

def l3 (p : Packet) : Nat := (parseVlanTags p.buf).l3Offset

/-- Where the IHL says that the transport header starts. -/
def l4 (p : Packet) : Nat := p.l3 + 4 * (p.buf.data p.l3 &&& 0x0F).toNat

def protocol (p : Packet) : UInt8 := p.buf.data (p.l3 + 9)

/-- The packet holds the fixed part of its IP header and, for TCP, the first 14 bytes of the
transport header. -/
def Long (p : Packet) : Prop :=
  p.l3 + 20 ≤ p.currentLength ∧ (p.protocol = IP_PROTOCOL_TCP → p.l4 + 14 ≤ p.currentLength)

instance (p : Packet) : Decidable p.Long := inferInstanceAs (Decidable (_ ∧ _))

end Packet

def receivedReads (P : Platform Mem Tbl) (w : Worker Mem Tbl) (b : Buffer) :
    ByteReader (Except Fault (InputOutcome Mem Tbl)) := do
  let (b, _) ← ip4PreProcessReads b
  ip4InputProcessReads P w b

variable {P : Platform Mem Tbl} {w : Worker Mem Tbl} {b : Buffer} {p : Packet} {n : Nat}

theorem run_receivedReads : (receivedReads P w b).run b.data = received P w b := by
  rw [receivedReads, run_bind, run_ip4PreProcessReads]
  exact preProcess_data b ▸ run_ip4InputProcessReads

/-! The offsets of the headers. -/

theorem l3Offset_cases (b : Buffer) : (parseVlanTags b).l3Offset = 14 ∨
    (parseVlanTags b).l3Offset = 18 ∨ (parseVlanTags b).l3Offset = 22 := by
  simp only [parseVlanTags]
  split
  · split
    · exact .inr (.inr rfl)
    · exact .inr (.inl rfl)
  · exact .inl rfl

theorem preProcess_packet_l3 (p : Packet) : (ip4PreProcess p.buf).1.l3HdrOffset = p.l3 := by
  have small := l3Offset_cases p.buf
  rw [preProcess_l3HdrOffset, Packet.l3, i16_small] <;> omega

theorem ihl_bound (x : UInt8) : (x &&& 0x0F).toNat ≤ 15 := by
  rw [UInt8.toNat_and]
  exact Nat.and_le_right

theorem headerLength (x : UInt8) :
    i16 ((x &&& 0x0F).toNat <<< 2 : Nat) = 4 * (x &&& 0x0F).toNat := by
  have bound := ihl_bound x
  rw [Nat.shiftLeft_eq, i16_small] <;> omega

theorem preProcess_packet_l4 (p : Packet) : (ip4PreProcess p.buf).1.l4HdrOffset = p.l4 := by
  have small := l3Offset_cases p.buf
  have bound := ihl_bound (p.buf.data p.l3)
  have start : p.l3 ≤ 22 := by
    rw [Packet.l3]
    omega
  rw [preProcess_l4HdrOffset, preProcess_packet_l3, headerLength, i16_small]
  · simp only [Packet.l4]
    omega
  · omega
  · omega

/-! The reads of `ip4_pre_process`. -/

theorem inside_parseVlanTagsReads (p : Packet) :
    (parseVlanTagsReads p.buf).Inside p.buf.data p.currentLength ↔ p.l3 ≤ p.currentLength := by
  have ethernet := p.ethernet
  simp only [parseVlanTagsReads, Packet.l3, parseVlanTags, inside_bind, inside_net16, run_field16,
    p.l2]
  split
  · simp only [inside_bind, inside_net16, run_field16]
    split
    · simp only [inside_bind, inside_net16, inside_pure, and_true]
      omega
    · simp only [inside_pure, and_true]
      omega
  · simp only [inside_pure, and_true]
    omega

theorem inside_ip4PreProcessReads (p : Packet) :
    (ip4PreProcessReads p.buf).Inside p.buf.data p.currentLength ↔ p.l3 < p.currentLength := by
  have small := l3Offset_cases p.buf
  have offset : i16 (parseVlanTags p.buf).l3Offset = p.l3 :=
    (preProcess_l3HdrOffset p.buf).symm.trans (preProcess_packet_l3 p)
  simp only [ip4PreProcessReads, inside_bind, inside_parseVlanTagsReads, run_parseVlanTagsReads,
    inside_byte, inside_pure, and_true, offset]
  omega

/-! The reads of `ip4_input_process`. -/

section Transport

variable (start : 0 ≤ b.l4HdrOffset)
include start

theorem inside_tcpTrackSequenceReads {d : FlowDir} {f : Flow} :
    (tcpTrackSequenceReads b d f).Inside b.data n ↔ b.l4HdrOffset + 12 ≤ n := by
  simp only [tcpTrackSequenceReads, inside_bind, inside_net32, inside_pure, and_true]
  omega

theorem inside_tcpInitStateReads {d : FlowDir} :
    (tcpInitStateReads P w b d).Inside b.data n ↔ b.l4HdrOffset + 14 ≤ n := by
  simp only [tcpInitStateReads, inside_bind, inside_byte]
  cases markedFlow w b with
  | none =>
      simp only [inside_pure, and_true]
      omega
  | some marked =>
      simp only [inside_bind, inside_tcpTrackSequenceReads start, inside_pure, and_true]
      omega

theorem inside_tcpUpdateStateReads {d : FlowDir} :
    (tcpUpdateStateReads P w b d).Inside b.data n ↔ b.l4HdrOffset + 14 ≤ n := by
  simp only [tcpUpdateStateReads, inside_bind, inside_byte]
  cases markedFlow w b with
  | none =>
      simp only [inside_pure, and_true]
      omega
  | some marked =>
      simp only [inside_bind, inside_tcpTrackSequenceReads start, inside_ite, inside_pure, ite_self,
        and_true]
      omega

theorem inside_parseKeyReads {h : ProtocolHandler} {key : FlowKey} :
    (h.parseKeyReads b key).Inside b.data n ↔ (h = .tcp → b.l4HdrOffset + 4 ≤ n) := by
  cases h with
  | tcp =>
      simp only [ProtocolHandler.parseKeyReads, tcpParseFlowKeyReads, inside_bind, inside_net16,
        inside_pure, and_true, forall_const]
      omega
  | unimplemented | icmp | udp => exact iff_of_true trivial (fun tcp => by cases tcp)

theorem inside_initStateReads {h : ProtocolHandler} {d : FlowDir} :
    (h.initStateReads P w b d).Inside b.data n ↔ (h = .tcp → b.l4HdrOffset + 14 ≤ n) := by
  cases h with
  | tcp => exact (inside_tcpInitStateReads start).trans ⟨fun room _ => room, fun room => room rfl⟩
  | unimplemented | icmp | udp => exact iff_of_true trivial (fun tcp => by cases tcp)

theorem inside_updateStateReads {h : ProtocolHandler} {d : FlowDir} :
    (h.updateStateReads P w b d).Inside b.data n ↔ (h = .tcp → b.l4HdrOffset + 14 ≤ n) := by
  cases h with
  | tcp => exact (inside_tcpUpdateStateReads start).trans ⟨fun room _ => room, fun room => room rfl⟩
  | unimplemented | icmp | udp => exact iff_of_true trivial (fun tcp => by cases tcp)

theorem needs_ip4FindReads {h : ProtocolHandler} {key : FlowKey} {a : EntryAddr} :
    Needs b.data n (ip4FindReads P w b h key a) (h = .tcp → b.l4HdrOffset + 14 ≤ n) := by
  rw [ip4FindReads]
  cases w.backPointer a with
  | none => exact needs_error
  | some flow =>
      apply needs_of_iff
      simp only [inside_bind, inside_pure, and_true]
      exact inside_updateStateReads (b := vlibBufferSetFlow b flow) start

theorem needs_ip4CreateReads {h : ProtocolHandler} {key : FlowKey} {protocol : UInt8}
    (l2 : b.l2HdrOffset = 0) (ethernet : 14 ≤ n) :
    Needs b.data n (ip4CreateReads P w b protocol h key)
      (h = .tcp → b.l4HdrOffset + 14 ≤ n) := by
  rw [ip4CreateReads]
  cases w.flows.alloc flowTableAllocatedFlow with
  | none => exact needs_error
  | some allocated =>
      obtain ⟨flows, index⟩ := allocated
      have addresses : ∀ off : Int, 0 ≤ off → off ≤ 8 → ((vector off 6).Inside b.data n ↔ True) := by
        intro off low high
        refine iff_true_intro ((inside_vector off 6).mpr ?_)
        omega
      simp only [vlibBufferSetFlow, l2]
      refine (needs_bind (addresses 6 (by omega) (by omega))
        (needs_bind (addresses 0 (by omega) (by omega)) ?_)).congr (by rw [true_and, true_and])
      cases P.table.set3 w.mem w.flowsHashTable (P.flowTableHash key) ⟨index, .dirIn⟩ with
      | none => exact needs_error
      | some stored =>
          apply needs_of_iff
          simp only [inside_bind, inside_pure, and_true]
          exact inside_initStateReads (b := vlibBufferSetFlow b index) start

theorem needs_ip4InputProcessReads (l2 : b.l2HdrOffset = 0) (ethernet : 14 ≤ n)
    (network : 0 ≤ b.l3HdrOffset) :
    Needs b.data n (ip4InputProcessReads P w b)
      (b.l3HdrOffset + 20 ≤ n ∧ (b.ipProtocol = IP_PROTOCOL_TCP → b.l4HdrOffset + 14 ≤ n)) := by
  rw [ip4InputProcessReads]
  refine (needs_bind (inside_byte _) (needs_bind (inside_vector _ _)
    (needs_bind (inside_vector _ _) (show Needs b.data n _
      (b.ipProtocol = IP_PROTOCOL_TCP → b.l4HdrOffset + 14 ≤ n) from ?_)))).congr ?_
  · simp only [run_ipProtocol, run_ip4, ip4FillKey_eq, ← protocolHandlerGet_eq_tcp]
    cases protocolHandlerGet b.ipProtocol with
    | none => exact needs_error
    | some h =>
        refine (needs_bind (inside_parseKeyReads start) (show Needs b.data n _
          (h = .tcp → b.l4HdrOffset + 14 ≤ n) from ?_)).congr ?_
        · cases P.table.get w.mem w.flowsHashTable
              (P.flowTableHash ((h.parseKeyReads b b.ip4FlowKey).run b.data)) with
          | none => exact needs_error
          | some bound =>
              cases bound with
              | none => exact needs_ip4CreateReads start l2 ethernet
              | some a => exact needs_ip4FindReads start
        · rw [Option.some.injEq, and_iff_right_iff_imp]
          intro room tcp
          have inside := room tcp
          omega
  · rw [← and_assoc, ← and_assoc]
    exact and_congr_left fun _ => by omega

end Transport

/-! A packet's way through both hooks. -/

theorem needs_receivedReads (p : Packet) :
    Needs p.buf.data p.currentLength (receivedReads P w p.buf) p.Long := by
  have l3 := preProcess_packet_l3 p
  have l4 := preProcess_packet_l4 p
  have l2 : (ip4PreProcess p.buf).1.l2HdrOffset = 0 := by
    simp only [ip4PreProcess, vlibBufferInitFlow, p.l2]
  have protocol : (ip4PreProcess p.buf).1.ipProtocol = p.protocol := by
    rw [Buffer.ipProtocol, l3, preProcess_data, Packet.protocol]
  have served := needs_ip4InputProcessReads (P := P) (w := w) (b := (ip4PreProcess p.buf).1)
    (n := p.currentLength) (by omega) l2 p.ethernet (by omega)
  rw [l3, l4, protocol, preProcess_data] at served
  rw [← run_ip4PreProcessReads] at served
  refine (needs_bind (inside_ip4PreProcessReads p) served).congr ?_
  constructor
  · rintro ⟨_, header, ports⟩
    exact ⟨by omega, fun tcp => by have room := ports tcp; omega⟩
  · rintro ⟨header, ports⟩
    exact ⟨by omega, by omega, fun tcp => by have room := ports tcp; omega⟩

/-- A long packet is processed without a read past its end, and no packet that is processed
to the end does with less. -/
theorem header_reads_inside (P : Platform Mem Tbl) (w : Worker Mem Tbl) (p : Packet) :
    (p.Long → (receivedReads P w p.buf).checked p.buf.data p.currentLength =
        some (received P w p.buf)) ∧
      ∀ o, received P w p.buf = .ok o →
        (receivedReads P w p.buf).checked p.buf.data p.currentLength ≠ none → p.Long := by
  have needs := needs_receivedReads (P := P) (w := w) p
  constructor
  · intro long
    rw [checked_eq _ (needs.enough long), run_receivedReads]
  · intro o done checked
    obtain ⟨result, checked⟩ := Option.ne_none_iff_exists'.mp checked
    exact needs.needed o (run_receivedReads.trans done) (inside_of_checked checked)

def singleBinding : Platform (UInt64 → Option EntryAddr) Unit :=
  mapPlatform (fun _ => 0) (TimerWheel.slotted noHandle)

def samplePacket : Packet := ⟨sampleSegment.buffer 0, 54, rfl, by decide⟩

theorem samplePacket_reads_inside :
    (receivedReads singleBinding (flowTableMainInit singleBinding 0) samplePacket.buf).checked
        samplePacket.buf.data samplePacket.currentLength =
      some (received singleBinding (flowTableMainInit singleBinding 0) samplePacket.buf) :=
  (header_reads_inside singleBinding (flowTableMainInit singleBinding 0) samplePacket).1
    (by decide +kernel)

/-- The same segment in the shortest Ethernet frame, with an IHL of 15. -/
def cutOptions : Packet :=
  { buf := { sampleSegment.buffer 0 with
      data := fun i => (sampleSegment.bytes.set 14 0x4F).getD i.toNat 0 }
    currentLength := 60
    l2 := rfl
    ethernet := by decide }

theorem cutOptions_read_outside :
    (receivedReads singleBinding (flowTableMainInit singleBinding 0) cutOptions.buf).checked
      cutOptions.buf.data cutOptions.currentLength = none :=
  Option.isNone_iff_eq_none.mp (by decide +kernel)

end FlowTable
