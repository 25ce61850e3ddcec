import VppPlugins.FlowTable.Tracking

/-! Orderly TCP connections and the states the transfer table takes them through. -/
namespace FlowTable
open Faults Runs

/-- A segment of one flow, as far as the tracker sees it. -/
structure Seen where
  flags : UInt8
  direction : FlowDir

def Seen.masked (p : Seen) : UInt8 := p.flags &&& TCP_FLAG_CONCERNED

def Seen.event (p : Seen) : TcpEvent := flagsToEvents p.masked

def stateFrom (old : TcpState) (ps : List Seen) : TcpState :=
  ps.foldl (fun state p => tcpStateTransfer state p.event p.direction) old

theorem stateFrom_append (old : TcpState) (ps qs : List Seen) :
    stateFrom old (ps ++ qs) = stateFrom (stateFrom old ps) qs := List.foldl_append

theorem stateFrom_cons (old : TcpState) (p : Seen) (ps : List Seen) :
    stateFrom old (p :: ps) = stateFrom (tcpStateTransfer old p.event p.direction) ps := rfl

theorem stateFrom_single (old : TcpState) (p : Seen) :
    stateFrom old [p] = tcpStateTransfer old p.event p.direction := rfl

def Binding.seen (r : Binding) : Seen := ⟨r.packet.tcpFlags, r.direction⟩

/-- In every run the state of a flow is the one its segments lead to. -/
theorem state_of_seen {Mem Tbl : Type} {P : Platform Mem Tbl} {nThreads : Nat} {bufs : Nat → Buffer}
    {cs : List Call} {s : Sys Mem Tbl} {i : Nat} {f : Flow}
    (reached : run (step P) (initial P nThreads bufs) cs = .ok s)
    (found : s.wrk.flows.get? i = some f) :
    f.state = stateFrom .start ((tcpPackets i s.history).map Binding.seen) := by
  have tracks : s.Tracks := run_invariant Sys.Tracks (fun _ _ _ => step_tracks)
    (initial_tracks P nThreads bufs) reached
  rw [(tracks.tracked i f found).state, foldedState, stateFrom, List.foldl_map]
  rfl

def IsAck (p : Seen) : Prop := p.masked = TCP_FLAG_ACK
def IsFinAck (p : Seen) : Prop := p.masked = TCP_FLAG_FIN ||| TCP_FLAG_ACK

theorem event_of_ack {p : Seen} (ack : IsAck p) : p.event = .ack := by
  rw [Seen.event, ack]
  decide

theorem event_of_finAck {p : Seen} (fin : IsFinAck p) : p.event = .fin := by
  rw [Seen.event, fin]
  decide

def FlowDir.opposite : FlowDir → FlowDir
  | .dirIn => .dirOut
  | .dirOut => .dirIn

/-- A connection from its SYN to the acknowledgement of its second FIN. Flag bits the
tracker does not look at are arbitrary. -/
structure Conversation where
  syn : Seen
  synAck : Seen
  ack : Seen
  early : List Seen
  fin : Seen
  middle : List Seen
  finReply : Seen
  lastAck : Seen
  trailing : List Seen
  syn_shape : syn.masked = TCP_FLAG_SYN ∧ syn.direction = .dirIn
  synAck_shape : synAck.masked = TCP_FLAG_SYN ||| TCP_FLAG_ACK ∧ synAck.direction = .dirOut
  ack_shape : IsAck ack ∧ ack.direction = .dirIn
  early_acks : ∀ p ∈ early, IsAck p
  fin_shape : IsFinAck fin
  middle_acks : ∀ p ∈ middle, IsAck p
  finReply_shape : IsFinAck finReply ∧ finReply.direction = fin.direction.opposite
  lastAck_shape : IsAck lastAck
  trailing_acks : ∀ p ∈ trailing, IsAck p

namespace Conversation

def handshake (c : Conversation) : List Seen := [c.syn, c.synAck, c.ack]

def untilFinReply (c : Conversation) : List Seen :=
  c.handshake ++ c.early ++ [c.fin] ++ c.middle ++ [c.finReply]

def afterwards (c : Conversation) : List Seen := c.lastAck :: c.trailing

def segments (c : Conversation) : List Seen := c.untilFinReply ++ c.afterwards

/-- The tracker follows the connection. -/
structure Followed (c : Conversation) : Prop where
  established : ∀ n, stateFrom .start (c.handshake ++ c.early.take n) = .established
  known : ∀ n, stateFrom .start (c.segments.take n) ≠ .unknown
  closed : ∀ n, stateFrom .start (c.untilFinReply ++ c.afterwards.take n) = .close ∨
    stateFrom .start (c.untilFinReply ++ c.afterwards.take n) = .timeWait

end Conversation

/-- States in which an acknowledgement changes nothing. -/
def Settled (state : TcpState) : Prop := ∀ d, tcpStateTransfer state .ack d = state

theorem stateFrom_acks {state : TcpState} (settled : Settled state) {ps : List Seen}
    (acks : ∀ p ∈ ps, IsAck p) : stateFrom state ps = state := by
  induction ps with
  | nil => rfl
  | cons p ps ih =>
      have head := event_of_ack (acks p List.mem_cons_self)
      rw [stateFrom_cons, head, settled p.direction]
      exact ih fun q member => acks q (List.mem_cons_of_mem p member)

theorem established_settled : Settled .established := fun d => transfer_ack .established d
theorem finWait_settled : Settled .finWait := fun d => transfer_ack .finWait d
theorem closeWait_settled : Settled .closeWait := fun d => transfer_ack .closeWait d

namespace Conversation

theorem handshake_establishes (c : Conversation) :
    stateFrom .start c.handshake = .established := by
  have syn : c.syn.event = .syn := by rw [Seen.event, c.syn_shape.1]; decide
  have synAck : c.synAck.event = .syn := by rw [Seen.event, c.synAck_shape.1]; decide
  have ack := event_of_ack c.ack_shape.1
  rw [handshake, stateFrom_cons, stateFrom_cons, stateFrom_single, syn, synAck, ack, transfer_syn,
    transfer_syn, transfer_ack]

theorem established_until_fin (c : Conversation) (n : Nat) :
    stateFrom .start (c.handshake ++ c.early.take n) = .established := by
  rw [stateFrom_append, handshake_establishes]
  exact stateFrom_acks established_settled
    fun p member => c.early_acks p (List.mem_of_mem_take member)

/-- Which state the first FIN leads to tells who sent it. -/
def halfClosed : FlowDir → TcpState
  | .dirIn => .finWait
  | .dirOut => .closeWait

theorem state_until_finReply (c : Conversation) :
    stateFrom .start (c.handshake ++ c.early ++ [c.fin] ++ c.middle) =
      halfClosed c.fin.direction := by
  have early := c.established_until_fin c.early.length
  rw [List.take_length] at early
  have fin := event_of_finAck c.fin_shape
  rw [stateFrom_append, stateFrom_append, early, stateFrom_single, fin, transfer_fin]
  cases c.fin.direction with
  | dirIn => exact stateFrom_acks finWait_settled c.middle_acks
  | dirOut => exact stateFrom_acks closeWait_settled c.middle_acks

/-- The second FIN ends the connection in the state it should. -/
def ended : FlowDir → TcpState
  | .dirIn => .timeWait
  | .dirOut => .close

theorem state_at_finReply (c : Conversation) :
    stateFrom .start c.untilFinReply = ended c.fin.direction := by
  have reply := event_of_finAck c.finReply_shape.1
  rw [untilFinReply, stateFrom_append, state_until_finReply, stateFrom_single, reply, transfer_fin]
  cases c.fin.direction with
  | dirIn => rfl
  | dirOut => rfl

/-- The acknowledgement of the second FIN leaves that state again: the connection is
unknown when the IN side closed first, and established once more when the OUT side did. -/
theorem state_at_lastAck (c : Conversation) :
    stateFrom .start (c.untilFinReply ++ c.afterwards.take 1) =
      match c.fin.direction with
      | .dirIn => .unknown
      | .dirOut => .established := by
  have ack := event_of_ack c.lastAck_shape
  rw [stateFrom_append, state_at_finReply, afterwards, List.take_succ_cons, List.take_zero,
    stateFrom_single, ack, transfer_ack]
  cases c.fin.direction with
  | dirIn => rfl
  | dirOut => rfl

theorem not_closed_at_lastAck (c : Conversation) :
    ¬ (stateFrom .start (c.untilFinReply ++ c.afterwards.take 1) = .close ∨
      stateFrom .start (c.untilFinReply ++ c.afterwards.take 1) = .timeWait) := by
  rw [state_at_lastAck]
  cases c.fin.direction with
  | dirIn => simp
  | dirOut => simp

end Conversation

/-- No orderly connection is followed to its end. -/
theorem no_conversation_followed (c : Conversation) : ¬ c.Followed :=
  fun followed => c.not_closed_at_lastAck (followed.closed 1)

/-- The client opens, asks, and closes first. -/
def clientCloses : Conversation where
  syn := ⟨TCP_FLAG_SYN, .dirIn⟩
  synAck := ⟨TCP_FLAG_SYN ||| TCP_FLAG_ACK, .dirOut⟩
  ack := ⟨TCP_FLAG_ACK, .dirIn⟩
  early := [⟨TCP_FLAG_ACK, .dirIn⟩, ⟨TCP_FLAG_ACK, .dirOut⟩]
  fin := ⟨TCP_FLAG_FIN ||| TCP_FLAG_ACK, .dirIn⟩
  middle := [⟨TCP_FLAG_ACK, .dirOut⟩]
  finReply := ⟨TCP_FLAG_FIN ||| TCP_FLAG_ACK, .dirOut⟩
  lastAck := ⟨TCP_FLAG_ACK, .dirIn⟩
  trailing := []
  syn_shape := by decide
  synAck_shape := by decide
  ack_shape := ⟨rfl, rfl⟩
  early_acks := fun p member => by
    simp only [List.mem_cons, List.not_mem_nil, or_false] at member
    rcases member with rfl | rfl <;> rfl
  fin_shape := rfl
  middle_acks := fun p member => by rw [List.mem_singleton.mp member]; rfl
  finReply_shape := ⟨rfl, rfl⟩
  lastAck_shape := rfl
  trailing_acks := fun _ member => (nomatch member)

theorem clientCloses_ends_unknown :
    stateFrom .start clientCloses.segments = .unknown ∧ ¬ clientCloses.Followed :=
  ⟨clientCloses.state_at_lastAck,
    fun followed => clientCloses.not_closed_at_lastAck (followed.closed 1)⟩

end FlowTable
