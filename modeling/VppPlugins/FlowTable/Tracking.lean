import VppPlugins.FlowTable.System

/-! Each flow tracks the TCP packets bound to it, and nothing else. Neither the hash
function nor the hash table matters for this, so the platform is arbitrary. -/
namespace FlowTable
open Faults Runs

variable {Mem Tbl : Type}

/-- The TCP packets bound to flow `i`, in the order of their arrival. -/
def tcpPackets (i : Nat) (history : List Binding) : List Binding :=
  history.filter fun r => r.flow == i && r.packet.ipProtocol == IP_PROTOCOL_TCP

/-- The field `g` of the last of them seen in direction `d`. -/
def lastSeen (g : Buffer → UInt32) (i : Nat) (d : FlowDir) (history : List Binding) : UInt32 :=
  (((tcpPackets i history).filter fun r => r.direction == d).getLast?.map fun r => g r.packet).getD 0

def foldedState (i : Nat) (history : List Binding) : TcpState :=
  (tcpPackets i history).foldl
    (fun state r => tcpStateTransfer state r.packet.tcpEvent r.direction) .start

/-- `r` creates flow `i` with a TCP packet whose masked flags are a bare SYN. -/
def Binding.Opens (r : Binding) (i : Nat) : Prop :=
  r.flow = i ∧ r.created = true ∧ r.packet.ipProtocol = IP_PROTOCOL_TCP ∧
    r.packet.concernedFlags = TCP_FLAG_SYN

structure Tracked (history : List Binding) (i : Nat) (f : Flow) : Prop where
  state : f.state = foldedState i history
  seq : ∀ d, (f.flowEntry d).tcpAttr.seq = lastSeen Buffer.tcpSeqNumber i d history
  ack : ∀ d, (f.flowEntry d).tcpAttr.ack = lastSeen Buffer.tcpAckNumber i d history
  handshake : f.threeWayHandshake = true ↔ ∃ r ∈ history, r.Opens i

theorem tcpPackets_snoc (i : Nat) (history : List Binding) (r : Binding) :
    tcpPackets i (history ++ [r]) =
      if r.flow = i ∧ r.packet.ipProtocol = IP_PROTOCOL_TCP then tcpPackets i history ++ [r]
      else tcpPackets i history := by
  simp only [tcpPackets, List.filter_append, List.filter_singleton, Bool.cond_eq_ite,
    Bool.and_eq_true, beq_iff_eq]
  split
  · rfl
  · exact List.append_nil _

theorem tcpPackets_hit {i : Nat} {r : Binding} (history : List Binding) (here : r.flow = i)
    (tcp : r.packet.ipProtocol = IP_PROTOCOL_TCP) :
    tcpPackets i (history ++ [r]) = tcpPackets i history ++ [r] := by
  rw [tcpPackets_snoc, if_pos ⟨here, tcp⟩]

theorem lastSeen_hit {i : Nat} {r : Binding} (g : Buffer → UInt32) (d : FlowDir)
    (history : List Binding) (here : r.flow = i) (tcp : r.packet.ipProtocol = IP_PROTOCOL_TCP) :
    lastSeen g i d (history ++ [r]) =
      if r.direction = d then g r.packet else lastSeen g i d history := by
  simp only [lastSeen, tcpPackets_hit history here tcp, List.filter_append, List.filter_singleton,
    Bool.cond_eq_ite, beq_iff_eq]
  split
  · rw [List.getLast?_concat, Option.map_some, Option.getD_some]
  · rw [List.append_nil]

theorem opens_snoc {i : Nat} {r : Binding} {history : List Binding} :
    (∃ q ∈ history ++ [r], q.Opens i) ↔ (∃ q ∈ history, q.Opens i) ∨ r.Opens i := by
  simp only [List.mem_append, List.mem_singleton, or_and_right, exists_or, exists_eq_left]

/-- A packet of another flow, or of another protocol, changes nothing. -/
theorem tracked_miss {history : List Binding} {i : Nat} {f : Flow} {r : Binding}
    (tracked : Tracked history i f)
    (miss : ¬ (r.flow = i ∧ r.packet.ipProtocol = IP_PROTOCOL_TCP)) :
    Tracked (history ++ [r]) i f := by
  have packets : tcpPackets i (history ++ [r]) = tcpPackets i history := by
    rw [tcpPackets_snoc, if_neg miss]
  have quiet : ¬ r.Opens i := fun opens => miss ⟨opens.1, opens.2.2.1⟩
  refine ⟨?_, ?_, ?_, ?_⟩
  · rw [foldedState, packets]; exact tracked.state
  · intro d; rw [lastSeen, packets]; exact tracked.seq d
  · intro d; rw [lastSeen, packets]; exact tracked.ack d
  · rw [opens_snoc, tracked.handshake]
    exact ⟨.inl, fun h => h.resolve_right quiet⟩

/-- Only the tracked fields of a flow matter. -/
theorem tracked_congr {history : List Binding} {i : Nat} {f g : Flow}
    (tracked : Tracked history i f) (state : g.state = f.state)
    (attr : ∀ d, (g.flowEntry d).tcpAttr = (f.flowEntry d).tcpAttr)
    (handshake : g.threeWayHandshake = f.threeWayHandshake) : Tracked history i g :=
  ⟨state.trans tracked.state, fun d => by rw [attr]; exact tracked.seq d,
    fun d => by rw [attr]; exact tracked.ack d, by rw [handshake]; exact tracked.handshake⟩

theorem tracked_fresh {history : List Binding} {i : Nat} {f : Flow}
    (fresh : ∀ r ∈ history, r.flow ≠ i) (state : f.state = .start)
    (attr : ∀ d, (f.flowEntry d).tcpAttr = ⟨0, 0, 0⟩) (handshake : f.threeWayHandshake = false) :
    Tracked history i f := by
  have packets : tcpPackets i history = [] := by
    rw [tcpPackets, List.filter_eq_nil_iff]
    intro r member
    simp [fresh r member]
  refine ⟨?_, ?_, ?_, ?_⟩
  · rw [foldedState, packets, state]; rfl
  · intro d; rw [lastSeen, packets, attr]; rfl
  · intro d; rw [lastSeen, packets, attr]; rfl
  · rw [handshake]
    constructor
    · intro h; cases h
    · rintro ⟨r, member, opens⟩
      exact absurd opens.1 (fresh r member)

/-! What a TCP callback does to the tracked fields. -/

theorem timerUpdate_fields (P : Platform Mem Tbl) (tw : TimerWheel) (f : Flow) (n : Nat) :
    (flowExpirationTimerUpdate P tw f n).2.state = f.state ∧
      (flowExpirationTimerUpdate P tw f n).2.flowEntry = f.flowEntry ∧
      (flowExpirationTimerUpdate P tw f n).2.threeWayHandshake = f.threeWayHandshake := by
  unfold flowExpirationTimerUpdate
  split
  · exact ⟨rfl, rfl, rfl⟩
  · exact ⟨rfl, rfl, rfl⟩

theorem settle_state (P : Platform Mem Tbl) (tw : TimerWheel) (b : Buffer) (d : FlowDir)
    (f : Flow) : (tcpSettle P tw b d f).2.state = f.state :=
  (timerUpdate_fields P tw f (tcpStateTimeout f.state)).1

theorem settle_handshake (P : Platform Mem Tbl) (tw : TimerWheel) (b : Buffer) (d : FlowDir)
    (f : Flow) : (tcpSettle P tw b d f).2.threeWayHandshake = f.threeWayHandshake :=
  (timerUpdate_fields P tw f (tcpStateTimeout f.state)).2.2

theorem settle_attr (P : Platform Mem Tbl) (tw : TimerWheel) (b : Buffer) (d e : FlowDir)
    (f : Flow) :
    ((tcpSettle P tw b d f).2.flowEntry e).tcpAttr =
      if d = e then
        { (f.flowEntry e).tcpAttr with seq := b.tcpSeqNumber, ack := b.tcpAckNumber }
      else (f.flowEntry e).tcpAttr := by
  have entries := (timerUpdate_fields P tw f (tcpStateTimeout f.state)).2.1
  rw [tcpSettle, tcpTrackSequence, setEntry_entry, entries]
  by_cases same : e = d
  · rw [if_pos same, if_pos same.symm]
  · rw [if_neg same, if_neg (Ne.symm same)]

/-- A TCP packet bound to the flow, the state set from the flow's own. -/
theorem tracked_hit {P : Platform Mem Tbl} {tw : TimerWheel} {history : List Binding} {i : Nat}
    {f g : Flow} {r : Binding} (tracked : Tracked history i f) (here : r.flow = i)
    (tcp : r.packet.ipProtocol = IP_PROTOCOL_TCP)
    (state : g.state = tcpStateTransfer f.state r.packet.tcpEvent r.direction)
    (entries : g.flowEntry = f.flowEntry)
    (handshake : g.threeWayHandshake = true ↔ f.threeWayHandshake = true ∨ r.Opens i) :
    Tracked (history ++ [r]) i (tcpSettle P tw r.packet r.direction g).2 := by
  refine ⟨?_, ?_, ?_, ?_⟩
  · rw [settle_state, state, foldedState, tcpPackets_hit history here tcp, List.foldl_concat,
      tracked.state, foldedState]
  · intro d
    rw [settle_attr, lastSeen_hit _ d history here tcp, entries, ← tracked.seq d]
    split
    · rfl
    · rfl
  · intro d
    rw [settle_attr, lastSeen_hit _ d history here tcp, entries, ← tracked.ack d]
    split
    · rfl
    · rfl
  · rw [settle_handshake, handshake, opens_snoc, tracked.handshake]

theorem updated_tracked {P : Platform Mem Tbl} {tw : TimerWheel} {history : List Binding} {i : Nat}
    {f : Flow} {h : ProtocolHandler} {r : Binding} (tracked : Tracked history i f)
    (here : r.flow = i) (handler : protocolHandlerGet r.packet.ipProtocol = some h)
    (old : r.created = false) :
    Tracked (history ++ [r]) i (h.updated P tw r.packet r.direction f).2 := by
  by_cases tcp : r.packet.ipProtocol = IP_PROTOCOL_TCP
  · cases handler.symm.trans (protocolHandlerGet_eq_tcp.mpr tcp)
    have quiet : ¬ r.Opens i := fun opens =>
      Bool.false_ne_true (old.symm.trans opens.2.1)
    refine tracked_hit tracked here tcp ?_ ?_ ?_
    · rfl
    · rfl
    · exact ⟨.inl, fun set => set.resolve_right quiet⟩
  · have same : (h.updated P tw r.packet r.direction f).2 = f := by
      cases h with
      | tcp => exact absurd (protocolHandlerGet_eq_tcp.mp handler) tcp
      | unimplemented => rfl
      | icmp => rfl
      | udp => rfl
    rw [same]
    exact tracked_miss tracked fun hit => tcp hit.2

theorem newFlow_attr (b : Buffer) (key : FlowKey) (index : Nat) (d : FlowDir) :
    ((ip4NewFlow b key index).flowEntry d).tcpAttr = ⟨0, 0, 0⟩ := by
  cases d with
  | dirOut => rw [ip4NewFlow_out]; rfl
  | dirIn =>
      simp only [ip4NewFlow, setEntry_same, flowTableInitFlow, flowTableUpdateFlow]
      split <;> simp [flowTableAllocatedFlow, FlowEntry.zero]

theorem newFlow_state (b : Buffer) (key : FlowKey) (index : Nat) :
    (ip4NewFlow b key index).state = .start ∧
      (ip4NewFlow b key index).threeWayHandshake = false := by
  simp only [ip4NewFlow, flowTableInitFlow]
  split
  · exact ⟨rfl, rfl⟩
  · exact ⟨rfl, rfl⟩

theorem started_tracked {P : Platform Mem Tbl} {tw : TimerWheel} {history : List Binding} {i : Nat}
    {h : ProtocolHandler} {r : Binding} (key : FlowKey) (fresh : ∀ q ∈ history, q.flow ≠ i)
    (here : r.flow = i) (handler : protocolHandlerGet r.packet.ipProtocol = some h)
    (new : r.created = true) (direction : r.direction = .dirIn) :
    Tracked (history ++ [r]) i (h.started P tw r.packet .dirIn (ip4NewFlow r.packet key i)).2 := by
  obtain ⟨state, handshake⟩ := newFlow_state r.packet key i
  have tracked := tracked_fresh fresh state (newFlow_attr r.packet key i) handshake
  by_cases tcp : r.packet.ipProtocol = IP_PROTOCOL_TCP
  · cases handler.symm.trans (protocolHandlerGet_eq_tcp.mpr tcp)
    rw [← direction]
    refine tracked_hit tracked here tcp ?_ ?_ ?_
    · rw [state]; rfl
    · unfold tcpInitFlow
      dsimp only
      split <;> rfl
    · unfold tcpInitFlow
      dsimp only
      split
      · rename_i syn
        exact ⟨fun _ => .inr ⟨here, new, tcp, syn⟩, fun _ => rfl⟩
      · rename_i other
        exact ⟨.inl, fun set => set.resolve_right fun opens => other opens.2.2.2⟩
  · have same : (h.started P tw r.packet .dirIn (ip4NewFlow r.packet key i)).2 =
        ip4NewFlow r.packet key i := by
      cases h with
      | tcp => exact absurd (protocolHandlerGet_eq_tcp.mp handler) tcp
      | unimplemented => rfl
      | icmp => rfl
      | udp => rfl
    rw [same]
    exact tracked_miss tracked fun hit => tcp hit.2

/-- The invariant: every flow is tracked, and bindings name allocated flows only. -/
structure Sys.Tracks (s : Sys Mem Tbl) : Prop where
  shaped : s.wrk.Shaped
  inside : ∀ r ∈ s.history, r.flow < s.wrk.flows.size
  tracked : ∀ i f, s.wrk.flows.get? i = some f → Tracked s.history i f

theorem inside_snoc {history : List Binding} {r : Binding} {n m : Nat}
    (inside : ∀ q ∈ history, q.flow < n) (grown : n ≤ m) (new : r.flow < m) :
    ∀ q ∈ history ++ [r], q.flow < m := by
  rw [List.forall_mem_append, List.forall_mem_singleton]
  exact ⟨fun q old => Nat.lt_of_lt_of_le (inside q old) grown, new⟩

/-- A binding tracks when the flow it names does, in the state the callback left it. -/
theorem tracks_snoc {s t : Sys Mem Tbl} {r : Binding} {g : Flow} (tracks : s.Tracks)
    (shaped : t.wrk.Shaped) (history : t.history = s.history ++ [r])
    (grown : s.wrk.flows.size ≤ t.wrk.flows.size) (inside : r.flow < t.wrk.flows.size)
    (flows : ∀ j, t.wrk.flows.get? j = if j = r.flow then some g else s.wrk.flows.get? j)
    (hit : Tracked (s.history ++ [r]) r.flow g) : t.Tracks := by
  refine ⟨shaped, ?_, ?_⟩
  · rw [history]
    exact inside_snoc tracks.inside grown inside
  · intro i f found
    rw [history]
    rcases FixedPool.found_replaced flows found with ⟨rfl, rfl⟩ | ⟨other, before⟩
    · exact hit
    · exact tracked_miss (tracks.tracked i f before) fun named => other named.1.symm

theorem step_tracks {P : Platform Mem Tbl} {s t : Sys Mem Tbl} {c : Call} (tracks : s.Tracks)
    (done : step P s c = .ok t) : t.Tracks := by
  have shaped := step_shaped tracks.shaped done
  cases step_cases tracks.shaped done with
  | receive slot b => exact ⟨shaped, tracks.inside, tracks.tracked⟩
  | preProcess slot => exact ⟨shaped, tracks.inside, tracks.tracked⟩
  | idle slot nothing => exact ⟨shaped, tracks.inside, tracks.tracked⟩
  | advance ticks => exact ⟨shaped, tracks.inside, tracks.tracked⟩
  | creates slot h o handler key buf effect =>
      apply tracks_snoc tracks shaped rfl effect.grown effect.inside effect.flows
      refine started_tracked (r := o.binding (s.bufs slot) s.wrk.tw.now) o.key ?_ rfl handler
        effect.created effect.direction
      intro q member
      exact Nat.ne_of_lt (Nat.lt_of_lt_of_eq (tracks.inside q member) effect.index.symm)
  | finds slot h o a g handler key buf effect =>
      apply tracks_snoc tracks shaped rfl (Nat.le_of_eq effect.size.symm) effect.inside effect.flows
      exact updated_tracked (r := o.binding (s.bufs slot) s.wrk.tw.now)
        (tracks.tracked _ g effect.found) rfl handler effect.created
  | mirrors slot index g w effect =>
      refine ⟨shaped, ?_, ?_⟩
      · have size := effect.replaced.size
        intro r member
        exact Nat.lt_of_lt_of_eq (tracks.inside r member) size.symm
      · intro i f found
        rcases FixedPool.found_replaced effect.replaced.flows found with ⟨rfl, rfl⟩ | ⟨_, before⟩
        · refine tracked_congr (tracks.tracked _ g effect.found) rfl ?_ rfl
          intro d
          rw [flowTableUpdateFlow, setEntry_entry]
          split <;> rfl
        · exact tracks.tracked i f before

theorem initial_tracks (P : Platform Mem Tbl) (nThreads : Nat) (bufs : Nat → Buffer) :
    (initial P nThreads bufs).Tracks :=
  ⟨initial_shaped P nThreads bufs, fun _ member => (nomatch member),
    fun _ _ found => (nomatch found)⟩

/-- The flows of a worker refine independent TCP automata, one for each flow, that step on
the TCP packets bound to it. -/
theorem flows_track_their_packets (P : Platform Mem Tbl) (nThreads : Nat) (bufs : Nat → Buffer)
    (cs : List Call) :
    Always (step P) (fun s => ∀ i f, s.wrk.flows.get? i = some f → Tracked s.history i f)
      (initial P nThreads bufs) cs :=
  always_of_invariant Sys.Tracks (fun _ _ _ => step_tracks) (fun _ h => h.tracked)
    (initial_tracks P nThreads bufs)

end FlowTable
