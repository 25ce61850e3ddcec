import VppPlugins.FlowTable.Learning

/-! The sequence numbers of resets. A reset carries the acknowledgment field that the last
segment of its receiver had, whether that segment acknowledged anything or not. -/
namespace FlowTable
open Bytes Faults Runs

variable {Mem Tbl : Type} {P : Platform Mem Tbl}

/-- The sequence number in the TCP header of the frame. -/
def ResetFrame.seqNumber (fr : ResetFrame) : UInt32 :=
  Bytes.net32 (fr.bytes.getD (fr.l4HdrOffset + 4) 0) (fr.bytes.getD (fr.l4HdrOffset + 5) 0)
    (fr.bytes.getD (fr.l4HdrOffset + 6) 0) (fr.bytes.getD (fr.l4HdrOffset + 7) 0)

theorem resetVlanTags_size (version : UInt8) (e : FlowEntry) :
    12 + (resetVlanTags version e).length = resetL3Offset e := by
  unfold resetVlanTags resetL3Offset
  by_cases tagged : 1 ≤ e.vlanPresent
  · by_cases double : e.vlanPresent = 2
    · rw [if_pos tagged, if_pos tagged, if_pos double, if_pos double]
      rfl
    · rw [if_pos tagged, if_pos tagged, if_neg double, if_neg double]
      rfl
  · rw [if_neg tagged, if_neg tagged]
    rfl

/-- The TCP header stands where the buffer's metadata says. -/
theorem resetFrame_tcp (flow : Flow) (i : FlowDir) :
    (resetFrame flow i).bytes.drop (resetFrame flow i).l4HdrOffset =
      resetTcp flow.ipVersion (flow.flowEntry i) := by
  apply List.drop_left'
  have tags := resetVlanTags_size flow.ipVersion (flow.flowEntry i)
  by_cases four : flow.ipVersion = 4
  · simp only [resetFrame, if_pos four, List.length_append, resetIp4_length, ip4HeaderSize,
      macBytes, List.length_ofFn]
    omega
  · simp only [resetFrame, if_neg four, List.length_append, resetIp6Header, ip6HeaderSize, macBytes,
      be16, List.length_ofFn, List.length_cons, List.length_nil]
    omega

theorem resetFrame_seqNumber (flow : Flow) (i : FlowDir) :
    (resetFrame flow i).seqNumber = (flow.flowEntry i).tcpAttr.ack := by
  have byte (k : Nat) : (resetFrame flow i).bytes.getD ((resetFrame flow i).l4HdrOffset + k) 0 =
      (resetTcp flow.ipVersion (flow.flowEntry i)).getD k 0 := by
    rw [← resetFrame_tcp, List.getD_eq_getElem?_getD, List.getD_eq_getElem?_getD,
      List.getElem?_drop]
  rw [ResetFrame.seqNumber, byte, byte, byte, byte, resetTcp]
  split <;> exact net32_be32 _

/-! The frames of one reset. -/

/-- Where every interface is of hardware, a frame goes out in every direction with MAC
addresses. -/
theorem sent_of_linked {flow : Flow} {i : FlowDir} {dirs : List FlowDir} (member : i ∈ dirs)
    (linked : (flow.flowEntry i).Linked) :
    ∃ sent ∈ (tcpSendResetLoop hardwareOnly flow dirs).2, sent.dir = i := by
  induction dirs with
  | nil => cases member
  | cons j dirs ih =>
      have known : ¬ ((∀ k, (flow.flowEntry i).smac k = zeroMac k) ∨
          ∀ k, (flow.flowEntry i).dmac k = zeroMac k) := by
        rintro (zero | zero)
        · exact linked.1 (funext zero)
        · exact linked.2 (funext zero)
      by_cases here : i = j
      · subst here
        refine ⟨⟨i, (flow.flowEntry i).swIfIndex, resetFrame flow i⟩, ?_, rfl⟩
        simp [tcpSendResetLoop, hardwareOnly, known]
      · obtain ⟨sent, rest, dir⟩ := ih ((List.mem_cons.mp member).resolve_left here)
        refine ⟨sent, ?_, dir⟩
        unfold tcpSendResetLoop
        simp only [hardwareOnly, Bool.true_eq_false, if_false]
        split
        · exact rest
        · exact List.mem_cons_of_mem _ rest

/-! The segments an endpoint has sent. -/

/-- The ACK flag. -/
def Buffer.hasAck (b : Buffer) : Bool := b.tcpFlags &&& TCP_FLAG_ACK != 0

/-- The TCP packets of flow `j` in direction `i`, oldest first. -/
def sentBy (j : Nat) (i : FlowDir) (history : List Binding) : List Buffer :=
  ((tcpPackets j history).filter fun r => r.direction == i).map Binding.packet

/-- The last of the segments with the ACK flag. -/
def lastAcked (segments : List Buffer) : Option Buffer := (segments.filter Buffer.hasAck).getLast?

/-- The last segment carries the ACK flag, or repeats the acknowledgment number of the last one
that does. -/
def AckRecorded (segments : List Buffer) : Prop :=
  ∃ last ∈ segments.getLast?, last.hasAck = true ∨
    ∃ p ∈ lastAcked segments, last.tcpAckNumber = p.tcpAckNumber

instance (segments : List Buffer) : Decidable (AckRecorded segments) :=
  inferInstanceAs (Decidable (∃ last ∈ segments.getLast?, _ ∨ ∃ p ∈ lastAcked segments, _))

theorem lastSeen_sentBy (g : Buffer → UInt32) (j : Nat) (i : FlowDir) (history : List Binding) :
    lastSeen g j i history = ((sentBy j i history).getLast?.map g).getD 0 := by
  rw [lastSeen, sentBy, List.getLast?_map, Option.map_map]
  rfl

theorem sentBy_hit {r : Binding} (i : FlowDir) (history : List Binding)
    (tcp : r.packet.ipProtocol = IP_PROTOCOL_TCP) :
    sentBy r.flow i (history ++ [r]) =
      sentBy r.flow i history ++ if r.direction = i then [r.packet] else [] := by
  rw [sentBy, tcpPackets_hit history rfl tcp, List.filter_append, List.map_append,
    List.filter_singleton]
  by_cases own : r.direction = i
  · rw [if_pos own, beq_iff_eq.mpr own]
    rfl
  · rw [if_neg own, beq_eq_false_iff_ne.mpr own]
    rfl

/-- What the flow entry records is an acknowledgment exactly where `AckRecorded` says so. -/
theorem ackRecorded_iff (segments : List Buffer) :
    AckRecorded segments ↔ ∃ p ∈ lastAcked segments,
      (segments.getLast?.map Buffer.tcpAckNumber).getD 0 = p.tcpAckNumber := by
  rcases List.eq_nil_or_concat segments with rfl | ⟨front, last, rfl⟩
  · constructor
    · rintro ⟨last, none, -⟩
      cases none
    · rintro ⟨p, none, -⟩
      cases none
  · rw [List.concat_eq_append, AckRecorded, List.getLast?_concat, Option.map_some, Option.getD_some]
    simp only [Option.mem_some_iff, exists_eq_left']
    constructor
    · rintro (acked | repeated)
      · refine ⟨last, ?_, rfl⟩
        rw [lastAcked, List.filter_append, List.filter_cons_of_pos acked, List.filter_nil,
          List.getLast?_concat]
        rfl
      · exact repeated
    · exact Or.inr

/-- Every frame of a reset that the call leads to, whatever interfaces VPP has, carries the
acknowledgment number of the last ACK segment from the endpoint it goes to. -/
def SeqAcceptable (s : Sys Mem Tbl) (_ : Call) (t : Sys Mem Tbl) : Prop :=
  ∀ g, t.wrk.resets = s.wrk.resets ++ [g] → ∀ vnm, ∀ sent ∈ (tcpSendReset vnm g).2,
    ∃ p ∈ lastAcked (sentBy g.eltIndex sent.dir t.history),
      sent.frame.seqNumber = p.tcpAckNumber

/-- A TCP packet that keeps a tracked flow established, or makes it so, finds in every entry with
MAC addresses an acknowledgment recorded, this packet's own included. -/
def AcksRecorded (P : Platform Mem Tbl) (s : Sys Mem Tbl) : Call → Prop
  | .input slot => ∀ found ∈ flowFound P s.wrk (s.bufs slot),
      (s.bufs slot).ipProtocol = IP_PROTOCOL_TCP → found.1.threeWayHandshake = true →
      tcpStateTransfer found.1.state (s.bufs slot).tcpEvent found.2 = .established →
      ∀ i, (found.1.flowEntry i).Linked →
        AckRecorded (sentBy found.1.eltIndex i s.history ++
          if found.2 = i then [s.bufs slot] else [])
  | _ => True

theorem linked_of_identity {f g : Flow} (same : g.identity = f.identity) (d : FlowDir) :
    (g.flowEntry d).Linked ↔ (f.flowEntry d).Linked := by
  have link := link_of_identity same d
  have smac : (g.flowEntry d).smac = (f.flowEntry d).smac := congrArg Link.smac link
  have dmac : (g.flowEntry d).dmac = (f.flowEntry d).dmac := congrArg Link.dmac link
  rw [FlowEntry.Linked, smac, dmac, FlowEntry.Linked]

/-- The frames of a reset of the flow that the update leaves. -/
theorem TcpUpdate.seqAcceptable_iff {s t : Sys Mem Tbl} {r : Binding} {f g : Flow}
    (u : TcpUpdate P s t r f g) (before : s.Tracks) (after : t.Tracks) :
    (∀ vnm, ∀ sent ∈ (tcpSendReset vnm g).2,
      ∃ p ∈ lastAcked (sentBy g.eltIndex sent.dir t.history),
        sent.frame.seqNumber = p.tcpAckNumber) ↔
      ∀ i, (f.flowEntry i).Linked → AckRecorded (sentBy f.eltIndex i s.history ++
        if r.direction = i then [r.packet] else []) := by
  have index : f.eltIndex = r.flow := (before.shaped.flow _ f u.before).eltIndex
  have index' : g.eltIndex = r.flow := (after.shaped.flow _ g u.after).eltIndex
  have same : g.identity = f.identity := by
    rw [u.settled]
    exact identity_updated P .tcp s.wrk.tw r.packet r.direction f
  have segments (i : FlowDir) : sentBy f.eltIndex i s.history ++
      (if r.direction = i then [r.packet] else []) = sentBy g.eltIndex i t.history := by
    rw [index, index', u.history, sentBy_hit i s.history u.tcp]
  have recorded (i : FlowDir) : (resetFrame g i).seqNumber =
      ((sentBy g.eltIndex i t.history).getLast?.map Buffer.tcpAckNumber).getD 0 := by
    rw [resetFrame_seqNumber, (after.tracked _ g u.after).ack i, lastSeen_sentBy, index']
  constructor
  · intro acceptable i linked
    have visited : i ∈ [FlowDir.dirIn, FlowDir.dirOut] := by cases i <;> simp
    obtain ⟨sent, member, rfl⟩ := sent_of_linked visited ((linked_of_identity same i).mpr linked)
    obtain ⟨p, acked, number⟩ := acceptable hardwareOnly sent member
    rw [segments, ackRecorded_iff]
    refine ⟨p, acked, ?_⟩
    rw [← recorded, ← (sent_frame member).2.1]
    exact number
  · intro answered vnm sent member
    obtain ⟨-, frame, linked⟩ := sent_frame member
    have acked := answered sent.dir ((linked_of_identity same sent.dir).mp linked)
    rw [segments, ackRecorded_iff] at acked
    obtain ⟨p, last, number⟩ := acked
    exact ⟨p, last, by rw [frame, recorded, number]⟩

theorem step_seqAcceptable_iff {s t : Sys Mem Tbl} {c : Call} (tracks : s.Tracks)
    (done : step P s c = .ok t) : SeqAcceptable s c t ↔ AcksRecorded P s c := by
  have guard : AcksRecorded P s c ↔ BeforeReset P s (fun b f d => ∀ i, (f.flowEntry i).Linked →
      AckRecorded (sentBy f.eltIndex i s.history ++ if d = i then [b] else [])) c := by
    cases c <;> exact Iff.rfl
  rw [guard]
  refine step_resets_iff tracks.shaped done fun r f g u _ _ => ?_
  exact u.seqAcceptable_iff tracks (step_tracks tracks done)

/-- Resets carry acceptable sequence numbers exactly in the runs in which each of them finds an
acknowledgment recorded for every endpoint it goes to. -/
theorem resets_acceptable_iff (P : Platform Mem Tbl) (nThreads : Nat) (bufs : Nat → Buffer)
    (cs : List Call) :
    EachStep (step P) SeqAcceptable (initial P nThreads bufs) cs ↔
      Guarded (step P) (AcksRecorded P) (initial P nThreads bufs) cs :=
  eachStep_iff_guarded Sys.Tracks (fun _ _ _ => step_tracks)
    (fun _ _ _ => step_seqAcceptable_iff) (initial_tracks P nThreads bufs)

/-- The client's SYN is answered by an ACK without SYN. -/
def ackAnswered : List Call :=
  [.receive 0 clientSyn.linked, .preProcess 0, .input 0, .output 0,
    .receive 1 (clientSyn.reply TCP_FLAG_ACK).linked, .preProcess 1]

/-- The reset goes to the client, which has not sent an acknowledgment yet. -/
theorem reset_before_any_ack :
    ∃ s, run (step portPlatform) portStart (ackAnswered ++ [.input 1]) = .ok s ∧
      (s.wrk.resets.map fun g => (tcpSendReset hardwareOnly g).2.map SentFrame.dir) = [[.dirIn]] ∧
      lastAcked (sentBy 0 .dirIn s.history) = none ∧
      ¬ EachStep (step portPlatform) SeqAcceptable portStart (ackAnswered ++ [.input 1]) := by
  obtain ⟨t, total, facts⟩ := completed
    (x := run (step portPlatform) portStart (ackAnswered ++ [.input 1]))
    (fun s => ((s.wrk.resets.map fun g => (tcpSendReset hardwareOnly g).2.map SentFrame.dir),
      s.wrk.resets.map Flow.eltIndex, (lastAcked (sentBy 0 .dirIn s.history)).isNone))
    (b := ([[.dirIn]], [0], true)) (by decide +kernel)
  simp only [Prod.mk.injEq] at facts
  obtain ⟨frames, indices, unacked⟩ := facts
  have none : lastAcked (sentBy 0 .dirIn t.history) = none := Option.isNone_iff_eq_none.mp unacked
  obtain ⟨s, reached, input⟩ := run_snoc_ok.mp total
  obtain ⟨s', reached', before⟩ := completed (x := run (step portPlatform) portStart ackAnswered)
    (fun s => s.wrk.resets.length) (b := 0) (by decide +kernel)
  cases reached.symm.trans reached'
  refine ⟨t, total, frames, none, fun each => ?_⟩
  obtain ⟨g, one, index⟩ := List.map_eq_singleton_iff.mp indices
  rw [one] at frames
  obtain ⟨sent, member, dir⟩ := List.map_eq_singleton_iff.mp (List.singleton_inj.mp frames)
  have grown : t.wrk.resets = s.wrk.resets ++ [g] := by
    rw [List.length_eq_zero_iff.mp before, one]
    rfl
  obtain ⟨p, acked, -⟩ := eachStep_last reached input each g grown hardwareOnly sent
    (by rw [member]; exact List.mem_cons_self)
  rw [index, dir, none] at acked
  cases acked

end FlowTable
