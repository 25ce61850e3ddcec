import VppPlugins.FlowTable.Resets

/-! Which handshakes the tracker has really seen when it resets a connection. The table takes
a flow into the handshake's states by segments of either side. -/
namespace FlowTable
open Faults Runs

variable {Mem Tbl : Type} {P : Platform Mem Tbl}

namespace Seen

def IsRst (p : Seen) : Prop := p.flags &&& TCP_FLAG_RST ≠ 0

/-- A SYN of the client, without ACK. -/
def Opens (p : Seen) : Prop :=
  p.flags &&& TCP_FLAG_SYN ≠ 0 ∧ p.flags &&& TCP_FLAG_ACK = 0 ∧ p.direction = .dirIn

/-- A SYN of the server, with ACK. -/
def Answers (p : Seen) : Prop :=
  p.flags &&& TCP_FLAG_SYN ≠ 0 ∧ p.flags &&& TCP_FLAG_ACK ≠ 0 ∧ p.direction = .dirOut

/-- An ACK of the client. -/
def Completes (p : Seen) : Prop := p.flags &&& TCP_FLAG_ACK ≠ 0 ∧ p.direction = .dirIn

end Seen

/-- The segments end with `rest`, which follows a client's SYN and holds no RST. -/
def SinceSyn (ps rest : List Seen) : Prop :=
  ∃ before syn, ps = before ++ syn :: rest ∧ syn.Opens ∧ ∀ p ∈ rest, ¬ p.IsRst

def SynSeen (ps : List Seen) : Prop := ∃ rest, SinceSyn ps rest

def SynAckSeen (ps : List Seen) : Prop := ∃ rest, SinceSyn ps rest ∧ ∃ p ∈ rest, p.Answers

/-- The three segments of the handshake in their order, and no reset since the first. -/
def HandshakeSeen (ps : List Seen) : Prop :=
  ∃ rest, SinceSyn ps rest ∧ ∃ synAck ack, List.Sublist [synAck, ack] rest ∧ synAck.Answers ∧
    ack.Completes

theorem sinceSyn_snoc {ps rest : List Seen} {p : Seen} (since : SinceSyn ps rest)
    (quiet : ¬ p.IsRst) : SinceSyn (ps ++ [p]) (rest ++ [p]) := by
  obtain ⟨before, syn, rfl, opens, none⟩ := since
  refine ⟨before, syn, by rw [List.append_assoc, List.cons_append], opens, ?_⟩
  rw [List.forall_mem_append, List.forall_mem_singleton]
  exact ⟨none, quiet⟩

theorem synSeen_snoc {ps : List Seen} {p : Seen} (seen : SynSeen ps) (quiet : ¬ p.IsRst) :
    SynSeen (ps ++ [p]) := by
  obtain ⟨rest, since⟩ := seen
  exact ⟨rest ++ [p], sinceSyn_snoc since quiet⟩

theorem synSeen_opened (ps : List Seen) {p : Seen} (opens : p.Opens) : SynSeen (ps ++ [p]) :=
  ⟨[], ps, p, rfl, opens, fun _ member => absurd member List.not_mem_nil⟩

theorem synAckSeen_answered {ps : List Seen} {p : Seen} (seen : SynSeen ps) (quiet : ¬ p.IsRst)
    (answers : p.Answers) : SynAckSeen (ps ++ [p]) := by
  obtain ⟨rest, since⟩ := seen
  exact ⟨rest ++ [p], sinceSyn_snoc since quiet, p,
    List.mem_append_right _ List.mem_cons_self, answers⟩

theorem handshakeSeen_completed {ps : List Seen} {p : Seen} (seen : SynAckSeen ps)
    (quiet : ¬ p.IsRst) (completes : p.Completes) : HandshakeSeen (ps ++ [p]) := by
  obtain ⟨rest, since, synAck, member, answers⟩ := seen
  refine ⟨rest ++ [p], sinceSyn_snoc since quiet, synAck, p, ?_, answers, completes⟩
  exact (List.singleton_sublist.mpr member).append (List.Sublist.refl [p])

theorem handshakeSeen_snoc {ps : List Seen} {p : Seen} (seen : HandshakeSeen ps)
    (quiet : ¬ p.IsRst) : HandshakeSeen (ps ++ [p]) := by
  obtain ⟨rest, since, synAck, ack, order, answers, completes⟩ := seen
  exact ⟨rest ++ [p], sinceSyn_snoc since quiet, synAck, ack,
    order.trans (List.sublist_append_left ..), answers, completes⟩

theorem synSeen_of_handshake {ps : List Seen} (seen : HandshakeSeen ps) : SynSeen ps := by
  obtain ⟨rest, since, _⟩ := seen
  exact ⟨rest, since⟩

/-- What a flow that was opened by a SYN has seen when it is in a state. -/
def Evidence (state : TcpState) (ps : List Seen) : Prop :=
  match state with
  | .start => False
  | .synSent => SynSeen ps
  | .synRcvd => SynAckSeen ps
  | .established | .finWait | .closeWait | .timeWait => HandshakeSeen ps
  | .close | .unknown => True

/-- The segment takes the flow through the handshake from the side that may: a SYN is answered
by the server's SYN with ACK, the answer is acknowledged by the client, and a closed flow is
opened by the client's SYN and by nothing else. -/
def InOrder (old : TcpState) (p : Seen) : Prop :=
  (old = .synSent → p.event = .syn →
    p.masked = TCP_FLAG_SYN ||| TCP_FLAG_ACK ∧ p.direction = .dirOut) ∧
  (old = .synRcvd → p.event = .ack → p.direction = .dirIn) ∧
  (p.event = .ack → old ≠ .synSent ∧ old ≠ .close) ∧
  (old = .close → p.event = .syn → p.masked = TCP_FLAG_SYN ∧ p.direction = .dirIn)

instance (old : TcpState) (p : Seen) : Decidable (InOrder old p) :=
  inferInstanceAs (Decidable (_ ∧ _ ∧ _ ∧ _))

/-- The flags behind each event. -/
theorem event_flags (p : Seen) :
    (p.event = .syn ∨ p.event = .ack ∨ p.event = .fin → ¬ p.IsRst) ∧
      (p.event = .ack → p.flags &&& TCP_FLAG_ACK ≠ 0) ∧
      (p.masked = TCP_FLAG_SYN → p.flags &&& TCP_FLAG_SYN ≠ 0 ∧ p.flags &&& TCP_FLAG_ACK = 0) ∧
      (p.masked = TCP_FLAG_SYN ||| TCP_FLAG_ACK →
        p.flags &&& TCP_FLAG_SYN ≠ 0 ∧ p.flags &&& TCP_FLAG_ACK ≠ 0) := by
  have every : ∀ n : Fin 256,
      let flags := UInt8.ofFin n
      let masked := flags &&& TCP_FLAG_CONCERNED
      let event := flagsToEvents masked
      (event = .syn ∨ event = .ack ∨ event = .fin → ¬ flags &&& TCP_FLAG_RST ≠ 0) ∧
        (event = .ack → flags &&& TCP_FLAG_ACK ≠ 0) ∧
        (masked = TCP_FLAG_SYN → flags &&& TCP_FLAG_SYN ≠ 0 ∧ flags &&& TCP_FLAG_ACK = 0) ∧
        (masked = TCP_FLAG_SYN ||| TCP_FLAG_ACK →
          flags &&& TCP_FLAG_SYN ≠ 0 ∧ flags &&& TCP_FLAG_ACK ≠ 0) := by decide +kernel
  exact every p.flags.toFin

/-- One segment in order keeps the evidence. -/
theorem evidence_step {old : TcpState} {ps : List Seen} {p : Seen} (evidence : Evidence old ps)
    (order : InOrder old p) :
    Evidence (tcpStateTransfer old p.event p.direction) (ps ++ [p]) := by
  obtain ⟨quiet, acknowledges, opens, answers⟩ := event_flags p
  obtain ⟨answered, completed, entered, reopened⟩ := order
  cases event : p.event with
  | unknown => rw [transfer_unknown]; trivial
  | rst =>
      rw [transfer_rst]
      split
      · trivial
      · trivial
  | syn =>
      have silent := quiet (.inl event)
      rw [transfer_syn]
      cases old with
      | start => exact evidence.elim
      | close =>
          obtain ⟨syn, side⟩ := reopened rfl event
          exact synSeen_opened ps ⟨(opens syn).1, (opens syn).2, side⟩
      | timeWait => exact synSeen_snoc (synSeen_of_handshake evidence) silent
      | synSent =>
          obtain ⟨synAck, side⟩ := answered rfl event
          exact synAckSeen_answered evidence silent ⟨(answers synAck).1, (answers synAck).2, side⟩
      | synRcvd => trivial
      | established => trivial
      | finWait => trivial
      | closeWait => trivial
      | unknown => trivial
  | ack =>
      have silent := quiet (.inr (.inl event))
      rw [transfer_ack]
      cases old with
      | start => exact evidence.elim
      | close => exact absurd rfl (entered event).2
      | synSent => exact absurd rfl (entered event).1
      | synRcvd =>
          exact handshakeSeen_completed evidence silent ⟨acknowledges event, completed rfl event⟩
      | established => exact handshakeSeen_snoc evidence silent
      | finWait => exact handshakeSeen_snoc evidence silent
      | closeWait => exact handshakeSeen_snoc evidence silent
      | timeWait => trivial
      | unknown => trivial
  | fin =>
      have silent := quiet (.inr (.inr event))
      rw [transfer_fin]
      cases old with
      | start => exact evidence.elim
      | close => trivial
      | synSent => trivial
      | synRcvd => trivial
      | closeWait => trivial
      | established =>
          cases p.direction with
          | dirIn => exact handshakeSeen_snoc evidence silent
          | dirOut => exact handshakeSeen_snoc evidence silent
      | finWait => exact handshakeSeen_snoc evidence silent
      | timeWait => trivial
      | unknown => trivial

/-- The segments of flow `i` that the tracker has seen. -/
def segmentsOf (i : Nat) (history : List Binding) : List Seen :=
  (tcpPackets i history).map Binding.seen

theorem segmentsOf_hit {r : Binding} (history : List Binding)
    (tcp : r.packet.ipProtocol = IP_PROTOCOL_TCP) :
    segmentsOf r.flow (history ++ [r]) = segmentsOf r.flow history ++ [r.seen] := by
  rw [segmentsOf, tcpPackets_hit history rfl tcp, List.map_append]
  rfl

theorem segmentsOf_miss {i : Nat} {r : Binding} (history : List Binding)
    (miss : ¬ (r.flow = i ∧ r.packet.ipProtocol = IP_PROTOCOL_TCP)) :
    segmentsOf i (history ++ [r]) = segmentsOf i history := by
  rw [segmentsOf, tcpPackets_snoc, if_neg miss]
  rfl

/-- While the handshake is tracked, a TCP packet takes its flow through it in order. -/
def HandshakeInOrder (P : Platform Mem Tbl) (s : Sys Mem Tbl) : Call → Prop
  | .input slot => ∀ found ∈ flowFound P s.wrk (s.bufs slot),
      (s.bufs slot).ipProtocol = IP_PROTOCOL_TCP → found.1.threeWayHandshake = true →
        InOrder found.1.state ⟨(s.bufs slot).tcpFlags, found.2⟩
  | _ => True

instance (P : Platform Mem Tbl) (s : Sys Mem Tbl) (c : Call) :
    Decidable (HandshakeInOrder P s c) := by
  cases c with
  | input slot => unfold HandshakeInOrder; infer_instance
  | receive slot b => exact isTrue trivial
  | preProcess slot => exact isTrue trivial
  | output slot => exact isTrue trivial
  | advance ticks => exact isTrue trivial

/-- A call that resets a connection comes after its handshake. -/
def ResetsSeen (s : Sys Mem Tbl) (_ : Call) (t : Sys Mem Tbl) : Prop :=
  t.wrk.resets ≠ s.wrk.resets →
    ∃ r, t.history = s.history ++ [r] ∧ HandshakeSeen (segmentsOf r.flow t.history)

/-- The invariant: a flow whose handshake is tracked has seen what its state stands for. -/
structure Sys.Evidenced (s : Sys Mem Tbl) : Prop where
  tracks : s.Tracks
  seen : ∀ i f, s.wrk.flows.get? i = some f → f.threeWayHandshake = true →
    Evidence f.state (segmentsOf i s.history)

theorem seen_snoc {s t : Sys Mem Tbl} {r : Binding} {g : Flow} (evidenced : s.Evidenced)
    (history : t.history = s.history ++ [r])
    (flows : ∀ j, t.wrk.flows.get? j = if j = r.flow then some g else s.wrk.flows.get? j)
    (hit : g.threeWayHandshake = true → Evidence g.state (segmentsOf r.flow (s.history ++ [r])))
    {i : Nat} {f : Flow} (found : t.wrk.flows.get? i = some f)
    (tracked : f.threeWayHandshake = true) : Evidence f.state (segmentsOf i t.history) := by
  rw [history]
  rcases FixedPool.found_replaced flows found with ⟨rfl, rfl⟩ | ⟨other, before⟩
  · exact hit tracked
  · rw [segmentsOf_miss _ fun named => other named.1.symm]
    exact evidenced.seen i f before tracked

/-- The segment that makes a flow with the handshake to be tracked is the client's SYN. -/
theorem started_seen {tw : TimerWheel} {h : ProtocolHandler} {r : Binding} (key : FlowKey)
    (history : List Binding) (handler : protocolHandlerGet r.packet.ipProtocol = some h)
    (direction : r.direction = .dirIn)
    (tracked : (h.started P tw r.packet .dirIn
      (ip4NewFlow r.packet key r.flow)).2.threeWayHandshake = true) :
    Evidence (h.started P tw r.packet .dirIn (ip4NewFlow r.packet key r.flow)).2.state
      (segmentsOf r.flow (history ++ [r])) := by
  obtain ⟨_, plain⟩ := newFlow_state r.packet key r.flow
  cases h with
  | tcp =>
      have tcp := protocolHandlerGet_eq_tcp.mp handler
      rw [ProtocolHandler.started, settle_handshake] at tracked
      rw [ProtocolHandler.started, settle_state, segmentsOf_hit history tcp]
      by_cases syn : r.packet.concernedFlags = TCP_FLAG_SYN
      · have state : (tcpInitFlow r.packet .dirIn (ip4NewFlow r.packet key r.flow)).state =
            .synSent := by
          rw [tcpInitFlow, Buffer.tcpEvent, syn]
          rfl
        rw [state]
        have flags := (event_flags r.seen).2.2.1 syn
        exact synSeen_opened _ ⟨flags.1, flags.2, direction⟩
      · simp only [tcpInitFlow, if_neg syn] at tracked
        rw [plain] at tracked
        cases tracked
  | unimplemented => exact absurd (plain.symm.trans tracked) (by decide)
  | icmp => exact absurd (plain.symm.trans tracked) (by decide)
  | udp => exact absurd (plain.symm.trans tracked) (by decide)

theorem updated_seen {tw : TimerWheel} {h : ProtocolHandler} {r : Binding} {f : Flow}
    {history : List Binding} (handler : protocolHandlerGet r.packet.ipProtocol = some h)
    (seen : f.threeWayHandshake = true → Evidence f.state (segmentsOf r.flow history))
    (order : r.packet.ipProtocol = IP_PROTOCOL_TCP → f.threeWayHandshake = true →
      InOrder f.state r.seen)
    (tracked : (h.updated P tw r.packet r.direction f).2.threeWayHandshake = true) :
    Evidence (h.updated P tw r.packet r.direction f).2.state
      (segmentsOf r.flow (history ++ [r])) := by
  cases h with
  | tcp =>
      have tcp := protocolHandlerGet_eq_tcp.mp handler
      rw [ProtocolHandler.updated, settle_handshake] at tracked
      rw [ProtocolHandler.updated, settle_state, segmentsOf_hit history tcp]
      exact evidence_step (p := r.seen) (seen tracked) (order tcp tracked)
  | unimplemented | icmp | udp =>
      have other : r.packet.ipProtocol ≠ IP_PROTOCOL_TCP := by
        intro tcp
        cases handler.symm.trans (protocolHandlerGet_eq_tcp.mpr tcp)
      rw [segmentsOf_miss _ fun named => other named.2]
      exact seen tracked

theorem step_evidenced {s t : Sys Mem Tbl} {c : Call} (evidenced : s.Evidenced)
    (order : HandshakeInOrder P s c) (done : step P s c = .ok t) : t.Evidenced := by
  refine ⟨step_tracks evidenced.tracks done, ?_⟩
  intro i f found tracked
  cases step_cases evidenced.tracks.shaped done with
  | receive slot b => exact evidenced.seen i f found tracked
  | preProcess slot => exact evidenced.seen i f found tracked
  | idle slot nothing => exact evidenced.seen i f found tracked
  | advance ticks => exact evidenced.seen i f found tracked
  | creates slot h o handler key buf effect =>
      exact seen_snoc evidenced rfl effect.flows
        (started_seen (r := o.binding (s.bufs slot) s.wrk.tw.now) o.key s.history handler
          effect.direction)
        found tracked
  | finds slot h o a g handler key buf effect =>
      have looked : ip4LookupKey (s.bufs slot) = some o.key := lookupKey_of_parsed handler key
      refine seen_snoc evidenced rfl effect.flows
        (updated_seen (r := o.binding (s.bufs slot) s.wrk.tw.now) handler
          (evidenced.seen _ g effect.found) ?_) found tracked
      exact order (g, o.direction) (flowFound_of_finds looked effect)
  | mirrors slot index g w effect =>
      rcases FixedPool.found_replaced effect.replaced.flows found with ⟨rfl, rfl⟩ | ⟨_, before⟩
      · exact evidenced.seen _ g effect.found tracked
      · exact evidenced.seen i f before tracked

/-- A reset is called for in the state `established` only. -/
theorem resets_seen {s t : Sys Mem Tbl} {c : Call} (evidenced : s.Evidenced)
    (after : t.Evidenced) (done : step P s c = .ok t) : ResetsSeen s c t := by
  intro grown
  rcases step_resets evidenced.tracks.shaped done with same | ⟨r, f, g, update⟩
  · exact absurd same grown
  · refine ⟨r, update.history, ?_⟩
    have resets := update.resets
    rw [ProtocolHandler.emitted] at resets
    split at resets
    · rename_i complete
      have seen := after.seen _ g update.after complete.2
      rw [complete.1] at seen
      exact seen
    · rw [List.append_nil] at resets
      exact absurd resets grown

/-- In the runs that take every tracked handshake in order, connections are reset only after
the handshake has been seen. -/
theorem resets_follow_handshakes {nThreads : Nat} {bufs : Nat → Buffer} {cs : List Call}
    (order : Guarded (step P) (HandshakeInOrder P) (initial P nThreads bufs) cs) :
    EachStep (step P) ResetsSeen (initial P nThreads bufs) cs := by
  refine eachStep_of_guarded Sys.Evidenced ?_ ?_ order
  · intro s c t evidenced meets done
    have after := step_evidenced evidenced meets done
    exact ⟨after, resets_seen evidenced after done⟩
  · exact ⟨initial_tracks P nThreads bufs, fun _ _ found => (nomatch found)⟩

/-- A complete handshake, each packet through both hooks. -/
def threeWay : List Call :=
  [.receive 0 (clientSyn.buffer 0), .preProcess 0, .input 0, .output 0,
    .receive 1 (serverSynAck.buffer 0), .preProcess 1, .input 1, .output 1,
    .receive 2 ({ clientSyn with flags := TCP_FLAG_ACK }.buffer 0), .preProcess 2, .input 2]

theorem threeWay_reset_follows :
    (run (step portPlatform) portStart threeWay).toOption.map
        (fun s => s.wrk.resets.map Flow.state) = some [.established] ∧
      EachStep (step portPlatform) ResetsSeen portStart threeWay :=
  ⟨by decide +kernel, resets_follow_handshakes (by decide +kernel)⟩

/-- The client's SYN and the client's ACK suffice for a reset. -/
theorem reset_without_server :
    ∃ s, run (step portPlatform) portStart (opened TCP_FLAG_ACK ++ [.input 1]) = .ok s ∧
      s.wrk.resets.map Flow.state = [.established] ∧
      (segmentsOf 0 s.history).map Seen.direction = [.dirIn, .dirIn] ∧
      ¬ EachStep (step portPlatform) ResetsSeen portStart (opened TCP_FLAG_ACK ++ [.input 1]) := by
  obtain ⟨t, total, facts⟩ := completed
    (x := run (step portPlatform) portStart (opened TCP_FLAG_ACK ++ [.input 1]))
    (fun s => (s.wrk.resets.map Flow.state, (segmentsOf 0 s.history).map Seen.direction,
      s.history.map Binding.flow))
    (b := ([.established], [.dirIn, .dirIn], [0, 0])) (by decide +kernel)
  simp only [Prod.mk.injEq] at facts
  obtain ⟨resets, directions, flows⟩ := facts
  obtain ⟨s, reached, input⟩ := run_snoc_ok.mp total
  obtain ⟨s', reached', before⟩ := completed
    (x := run (step portPlatform) portStart (opened TCP_FLAG_ACK))
    (fun s => s.wrk.resets.map Flow.state) (b := []) (by decide +kernel)
  cases reached.symm.trans reached'
  refine ⟨t, total, resets, directions, fun each => ?_⟩
  have grown : t.wrk.resets ≠ s.wrk.resets := by
    intro same
    rw [same, before] at resets
    cases resets
  obtain ⟨r, bound, rest, ⟨front, syn, split, _, _⟩, synAck, ack, order, answers, _⟩ :=
    eachStep_last reached input each grown
  have here : r.flow = 0 := by
    have member : r.flow ∈ t.history.map Binding.flow := by
      rw [bound]
      exact List.mem_map_of_mem (List.mem_append_right _ List.mem_cons_self)
    rw [flows] at member
    simpa using member
  have seen : synAck ∈ segmentsOf 0 t.history := by
    rw [← here, split]
    exact List.mem_append_right _ (List.mem_cons_of_mem _ (order.subset List.mem_cons_self))
  have side : synAck.direction ∈ [FlowDir.dirIn, .dirIn] :=
    directions ▸ List.mem_map_of_mem seen
  rw [answers.2.2] at side
  exact absurd side (by decide)

end FlowTable
