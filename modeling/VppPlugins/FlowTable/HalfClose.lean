import VppPlugins.FlowTable.Connections
import VppPlugins.FlowTable.Conversations

/-! Which side half-closed an established flow first, read off the state alone. The
three closing states are given as languages over all sequences of events. -/
namespace FlowTable
open Runs

/-- What `tcp_state_transfer` reads of a segment. -/
abbrev TcpInput := TcpEvent × FlowDir

/-- The state after `tcp_state_transfer` was applied to `w` from `TCP_STATE_START`. -/
def stateAfter (w : List TcpInput) : TcpState :=
  w.foldl (fun old e => tcpStateTransfer old e.1 e.2) .start

/-- `d` half-closed the flow first: its FIN met the flow established, and no FIN has
met it established since. -/
def HalfClosedFirst (w : List TcpInput) (d : FlowDir) : Prop :=
  ∃ u rest, w = u ++ (.fin, d) :: rest ∧ stateAfter u = .established ∧
    ∀ v e tail, rest = v ++ (.fin, e) :: tail → stateAfter (u ++ (.fin, d) :: v) ≠ .established

/-- The state in which an established flow waits once the side of `d` has closed. -/
def halfClosed : FlowDir → TcpState
  | .dirIn => .finWait
  | .dirOut => .closeWait

/-! The rows of the table that lead into the three states. -/

theorem transfer_into_halfClosed (d : FlowDir) (old : TcpState) (e : TcpInput) :
    tcpStateTransfer old e.1 e.2 = halfClosed d ↔
      (old = .established ∧ e = (.fin, d)) ∨ old = halfClosed d ∧ e.1 = .ack := by
  obtain ⟨event, dir⟩ := e
  cases d <;> cases event with
  | unknown => simp [halfClosed, transfer_unknown]
  | syn => rw [transfer_syn]; cases old <;> simp [halfClosed]
  | ack => rw [transfer_ack]; cases old <;> simp [halfClosed]
  | fin => rw [transfer_fin]; cases old <;> cases dir <;> simp [halfClosed]
  | rst => rw [transfer_rst]; split <;> simp [halfClosed]

theorem transfer_into_timeWait (old : TcpState) (e : TcpInput) :
    tcpStateTransfer old e.1 e.2 = .timeWait ↔
      (old = .finWait ∧ e.1 = .fin) ∨ old = .timeWait ∧ False := by
  obtain ⟨event, dir⟩ := e
  cases event with
  | unknown => simp [transfer_unknown]
  | syn => rw [transfer_syn]; cases old <;> simp
  | ack => rw [transfer_ack]; cases old <;> simp
  | fin => rw [transfer_fin]; cases old <;> cases dir <;> simp
  | rst => rw [transfer_rst]; split <;> simp

/-! The languages: what enters each state, and what stays in it. -/

theorem stateAfter_halfClosed (w : List TcpInput) (d : FlowDir) :
    stateAfter w = halfClosed d ↔
      ∃ u acks, w = u ++ (.fin, d) :: acks ∧ stateAfter u = .established ∧
        ∀ e ∈ acks, e.1 = .ack := by
  rw [stateAfter, foldl_reaches_iff (transfer_into_halfClosed d) (by cases d <;> decide)]
  constructor
  · rintro ⟨u, e, acks, split, ⟨established, rfl⟩, stays⟩
    exact ⟨u, acks, split, established, stays⟩
  · rintro ⟨u, acks, split, established, stays⟩
    exact ⟨u, _, acks, split, ⟨established, rfl⟩, stays⟩

theorem stateAfter_timeWait (w : List TcpInput) :
    stateAfter w = .timeWait ↔ ∃ v d, w = v ++ [(.fin, d)] ∧ stateAfter v = .finWait := by
  rw [stateAfter, foldl_reaches_iff transfer_into_timeWait (by decide)]
  constructor
  · rintro ⟨v, ⟨event, d⟩, after, split, ⟨waiting, rfl⟩, stays⟩
    cases after with
    | nil => exact ⟨v, d, split, waiting⟩
    | cons e after => exact (stays e List.mem_cons_self).elim
  · rintro ⟨v, d, split, waiting⟩
    exact ⟨v, _, [], split, ⟨waiting, rfl⟩, fun e member => (List.not_mem_nil member).elim⟩

/-! Attribution: the FIN that half-closed the flow is the last one that met it established. -/

theorem HalfClosedFirst.unique {w : List TcpInput} {d e : FlowDir} (first : HalfClosedFirst w d)
    (other : HalfClosedFirst w e) : d = e := by
  obtain ⟨u, rest, rfl, established, last⟩ := first
  obtain ⟨u', rest', split, established', last'⟩ := other
  obtain ⟨gap, rfl, tail⟩ | ⟨gap, rfl, tail⟩ := List.append_eq_append_iff.mp split
  · cases gap with
    | nil => cases tail; rfl
    | cons g gap =>
        cases tail
        exact (last gap e rest' rfl established').elim
  · cases gap with
    | nil => cases tail; rfl
    | cons g gap =>
        cases tail
        exact (last' gap d rest rfl established).elim

/-- The half-close stands as long as no FIN meets an established flow again. -/
theorem HalfClosedFirst.snoc {w : List TcpInput} {d : FlowDir} (first : HalfClosedFirst w d)
    {e : TcpInput} (quiet : stateAfter w ≠ .established ∨ e.1 ≠ .fin) :
    HalfClosedFirst (w ++ [e]) d := by
  obtain ⟨u, rest, rfl, established, last⟩ := first
  refine ⟨u, rest ++ [e], by simp, established, ?_⟩
  intro v c tail split
  rcases List.eq_nil_or_concat tail with rfl | ⟨inner, x, rfl⟩
  · obtain ⟨rfl, same⟩ := List.append_inj' split rfl
    cases same
    exact quiet.resolve_right (fun other => other rfl)
  · rw [List.concat_eq_append, ← List.cons_append, ← List.append_assoc] at split
    exact last v c inner (List.append_inj' split rfl).1

theorem halfClosedFirst_of_acks {u acks : List TcpInput} {d : FlowDir}
    (established : stateAfter u = .established) (stays : ∀ e ∈ acks, e.1 = .ack) :
    HalfClosedFirst (u ++ (.fin, d) :: acks) d := by
  refine ⟨u, acks, rfl, established, ?_⟩
  rintro v c tail rfl
  cases stays (.fin, c) (by simp)

theorem halfClosed_first {w : List TcpInput} {d : FlowDir}
    (waiting : stateAfter w = halfClosed d) : HalfClosedFirst w d := by
  obtain ⟨u, acks, rfl, established, stays⟩ := (stateAfter_halfClosed w d).mp waiting
  exact halfClosedFirst_of_acks established stays

theorem timeWait_first {w : List TcpInput} (waiting : stateAfter w = .timeWait) :
    HalfClosedFirst w .dirIn := by
  obtain ⟨v, d, rfl, before⟩ := (stateAfter_timeWait w).mp waiting
  have first : HalfClosedFirst v .dirIn := halfClosed_first before
  exact first.snoc (Or.inl (by rw [before]; decide))

theorem HalfClosedFirst.iff {w : List TcpInput} {d e : FlowDir} (first : HalfClosedFirst w d) :
    HalfClosedFirst w e ↔ e = d :=
  ⟨fun other => other.unique first, fun same => same ▸ first⟩

/-- The three states, and the side each of them tells. -/
structure HalfCloseAttribution (w : List TcpInput) : Prop where
  finWait : stateAfter w = .finWait ↔
    ∃ u acks, w = u ++ (.fin, .dirIn) :: acks ∧ stateAfter u = .established ∧
      ∀ e ∈ acks, e.1 = .ack
  closeWait : stateAfter w = .closeWait ↔
    ∃ u acks, w = u ++ (.fin, .dirOut) :: acks ∧ stateAfter u = .established ∧
      ∀ e ∈ acks, e.1 = .ack
  timeWait : stateAfter w = .timeWait ↔
    ∃ v d, w = v ++ [(.fin, d)] ∧ stateAfter v = .finWait
  closedIn : stateAfter w = .finWait ∨ stateAfter w = .timeWait →
    ∀ d, HalfClosedFirst w d ↔ d = .dirIn
  closedOut : stateAfter w = .closeWait → ∀ d, HalfClosedFirst w d ↔ d = .dirOut

theorem half_close_attribution (w : List TcpInput) : HalfCloseAttribution w where
  finWait := stateAfter_halfClosed w .dirIn
  closeWait := stateAfter_halfClosed w .dirOut
  timeWait := stateAfter_timeWait w
  closedIn := by
    intro waiting d
    have first : HalfClosedFirst w .dirIn :=
      waiting.elim (fun closed => halfClosed_first closed) timeWait_first
    exact first.iff
  closedOut := by
    intro waiting d
    have first : HalfClosedFirst w .dirOut := halfClosed_first waiting
    exact first.iff

/-! The flows of the worker follow these sequences. -/

def Seen.input (p : Seen) : TcpInput := (p.event, p.direction)

theorem stateFrom_start (ps : List Seen) :
    stateFrom .start ps = stateAfter (ps.map Seen.input) := by
  rw [stateFrom, stateAfter, List.foldl_map]
  rfl

/-- In every run a flow in `TCP_STATE_FIN_WAIT` was half-closed by the side that opened it,
one in `TCP_STATE_CLOSE_WAIT` by the other side. -/
theorem tracked_flow_half_closed {Mem Tbl : Type} {P : Platform Mem Tbl} {nThreads : Nat}
    {bufs : Nat → Buffer} {cs : List Call} {s : Sys Mem Tbl} {i : Nat} {f : Flow}
    (reached : run (step P) (initial P nThreads bufs) cs = .ok s)
    (found : s.wrk.flows.get? i = some f) :
    (f.state = .finWait →
      HalfClosedFirst ((tcpPackets i s.history).map fun r => r.seen.input) .dirIn) ∧
    (f.state = .closeWait →
      HalfClosedFirst ((tcpPackets i s.history).map fun r => r.seen.input) .dirOut) := by
  have led : f.state = stateAfter ((tcpPackets i s.history).map fun r => r.seen.input) := by
    rw [state_of_seen reached found, stateFrom_start, List.map_map]
    rfl
  rw [led]
  exact ⟨fun closed => halfClosed_first closed, fun closed => halfClosed_first closed⟩

/-- The client closes after the handshake. -/
def closingCalls : List Call :=
  inTurn ++
    [.receive 2 (Segment.buffer { clientSyn with flags := TCP_FLAG_ACK } 0), .preProcess 2,
      .input 2,
      .receive 3 (Segment.buffer { clientSyn with flags := TCP_FLAG_FIN ||| TCP_FLAG_ACK } 0),
      .preProcess 3, .input 3]

theorem client_half_closed : ∃ s : MapSys,
    run (step portPlatform) portStart closingCalls = .ok s ∧
      HalfClosedFirst ((tcpPackets 0 s.history).map fun r => r.seen.input) .dirIn := by
  obtain ⟨s, reached, states⟩ := completed (x := run (step portPlatform) portStart closingCalls)
    (fun s : MapSys => (s.wrk.flows.get? 0).map Flow.state) (b := some .finWait)
    (by decide +kernel)
  obtain ⟨f, found, waiting⟩ := Option.map_eq_some_iff.mp states
  exact ⟨s, reached, (tracked_flow_half_closed (P := portPlatform) reached found).1 waiting⟩

end FlowTable
