import VppPlugins.FlowTable.Conversations
import VppPlugins.FlowTable.Connections
import VppPlugins.FlowTable.ResetFrames

/-! The resets that `tcp_update_state` calls for, and the segments that reset a flow. -/
namespace FlowTable
open Faults Runs

variable {Mem Tbl : Type} {P : Platform Mem Tbl}

/-- The flows a handler hands to `tcp_send_reset`, given the flow it has updated. -/
def ProtocolHandler.emitted : ProtocolHandler → Flow → List Flow
  | .tcp, g => if g.state = .established ∧ g.threeWayHandshake = true then [g] else []
  | .unimplemented, _ | .icmp, _ | .udp, _ => []

theorem initState_resets {h : ProtocolHandler} {w w' : Worker Mem Tbl} {b : Buffer} {d : FlowDir}
    (done : h.initState P w b d = .ok w') : w'.resets = w.resets := by
  cases h with
  | tcp =>
      simp only [ProtocolHandler.initState, tcpInitState, bind_ok, pure_ok] at done
      obtain ⟨_, _, _, _, rfl⟩ := done
      rfl
  | unimplemented => cases pure_ok.mp done; rfl
  | icmp => cases pure_ok.mp done; rfl
  | udp => cases pure_ok.mp done; rfl

theorem updateState_resets {h : ProtocolHandler} {w w' : Worker Mem Tbl} {b : Buffer} {d : FlowDir}
    {index : Nat} {f : Flow} (resolved : vlibBufferGetFlow w b = some index)
    (found : w.flows.get? index = some f) (done : h.updateState P w b d = .ok w') :
    w'.resets = w.resets ++ h.emitted (h.updated P w.tw b d f).2 := by
  cases h with
  | tcp =>
      simp only [ProtocolHandler.updateState, tcpUpdateState, bind_ok, orFault_ok] at done
      obtain ⟨i, resolved', g, found', done⟩ := done
      cases resolved.symm.trans resolved'
      cases found.symm.trans found'
      split at done
      · rename_i complete
        cases pure_ok.mp done
        exact congrArg (w.resets ++ ·) (if_pos complete).symm
      · rename_i incomplete
        cases pure_ok.mp done
        exact (List.append_nil _).symm.trans (congrArg (w.resets ++ ·) (if_neg incomplete).symm)
  | unimplemented => cases pure_ok.mp done; exact (List.append_nil _).symm
  | icmp => cases pure_ok.mp done; exact (List.append_nil _).symm
  | udp => cases pure_ok.mp done; exact (List.append_nil _).symm

/-- An input call that updates flow `f` into `g` with a TCP packet. -/
structure TcpUpdate (P : Platform Mem Tbl) (s t : Sys Mem Tbl) (r : Binding) (f g : Flow) :
    Prop where
  history : t.history = s.history ++ [r]
  old : r.created = false
  tcp : r.packet.ipProtocol = IP_PROTOCOL_TCP
  before : s.wrk.flows.get? r.flow = some f
  settled : g = (tcpSettle P s.wrk.tw r.packet r.direction
    (tcpUpdateFlow r.packet r.direction f)).2
  flows : ∀ j, t.wrk.flows.get? j = if j = r.flow then some g else s.wrk.flows.get? j
  resets : t.wrk.resets = s.wrk.resets ++ ProtocolHandler.emitted .tcp g

namespace TcpUpdate

variable {s t : Sys Mem Tbl} {r : Binding} {f g : Flow}

theorem after (u : TcpUpdate P s t r f g) : t.wrk.flows.get? r.flow = some g := by
  rw [u.flows, if_pos rfl]

theorem state (u : TcpUpdate P s t r f g) :
    g.state = tcpStateTransfer f.state r.packet.tcpEvent r.direction := by
  rw [u.settled, settle_state]
  rfl

theorem handshake (u : TcpUpdate P s t r f g) : g.threeWayHandshake = f.threeWayHandshake := by
  rw [u.settled, settle_handshake]
  rfl

end TcpUpdate

theorem input_resets {w : Worker Mem Tbl} {b : Buffer} {o : InputOutcome Mem Tbl}
    (shaped : w.Shaped) (done : ip4InputProcess P w b = .ok o) :
    (o.created = true ∧ o.wrk.resets = w.resets) ∨
      ∃ h f, protocolHandlerGet b.ipProtocol = some h ∧ o.created = false ∧
        w.flows.get? o.flow = some f ∧
        o.wrk.resets = w.resets ++ h.emitted (h.updated P w.tw b o.direction f).2 := by
  simp only [ip4InputProcess, bind_ok, orFault_ok] at done
  obtain ⟨h, handler, entries, looked, done⟩ := done
  cases entries with
  | none =>
      simp only [bind_ok, orFault_ok, pure_ok] at done
      obtain ⟨⟨flows, index⟩, alloc, ⟨mem, t⟩, stored, w', callback, rfl⟩ := done
      have same := initState_resets callback
      exact .inl ⟨rfl, same⟩
  | some a =>
      simp only [bind_ok, orFault_ok, pure_ok] at done
      obtain ⟨index, pointed, w', callback, rfl⟩ := done
      obtain ⟨own, f, found, pointer⟩ := backPointer_own shaped pointed
      subst own
      have inside := FixedPool.lt_size_of_get? found
      have resets := updateState_resets (getFlow_setFlow b shaped.cap inside) found callback
      exact .inr ⟨h, f, handler, rfl, found, resets⟩

theorem output_resets {w w' : Worker Mem Tbl} {b : Buffer} {a : VnetfilterAction}
    (done : ip4OutputProcess P w b = .ok (w', a)) : w'.resets = w.resets := by
  unfold ip4OutputProcess at done
  cases marked : vlibBufferGetFlow w b with
  | none =>
      simp only [marked, pure_ok, Prod.mk.injEq] at done
      rw [← done.1]
  | some index =>
      simp only [marked, bind_ok, orFault_ok] at done
      obtain ⟨f, found, done⟩ := done
      split at done
      · simp only [bind_ok, orFault_ok, pure_ok, Prod.mk.injEq] at done
        obtain ⟨⟨mem, t⟩, stored, rfl, _⟩ := done
        rfl
      · simp only [pure_ok, Prod.mk.injEq] at done
        rw [← done.1]

/-- An input call that binds a TCP packet to a flow that exists updates it. -/
theorem input_updates {s t : Sys Mem Tbl} {slot : Nat} {r : Binding} (shaped : s.wrk.Shaped)
    (done : step P s (.input slot) = .ok t) (bound : t.history = s.history ++ [r])
    (old : r.created = false) (tcp : r.packet.ipProtocol = IP_PROTOCOL_TCP) :
    ∃ f g, TcpUpdate P s t r f g := by
  simp only [step, bind_ok, pure_ok] at done
  obtain ⟨o, called, rfl⟩ := done
  obtain rfl : o.binding (s.bufs slot) s.wrk.tw.now = r :=
    List.singleton_inj.mp (List.append_cancel_left bound)
  have handler := protocolHandlerGet_eq_tcp.mpr tcp
  obtain ⟨h, handler', _, _, effect | ⟨a, f, effect⟩⟩ := ip4InputProcess_cases shaped called
  · exact absurd (effect.created.symm.trans old) (by decide)
  · cases handler.symm.trans handler'
    rcases input_resets shaped called with ⟨new, _⟩ | ⟨h, f', handler'', _, found, resets⟩
    · exact absurd (new.symm.trans old) (by decide)
    · cases handler.symm.trans handler''
      cases effect.found.symm.trans found
      exact ⟨f, _, rfl, old, tcp, found, rfl, effect.flows, resets⟩

/-- Only updates by TCP packets call for resets. -/
theorem step_resets {s t : Sys Mem Tbl} {c : Call} (shaped : s.wrk.Shaped)
    (done : step P s c = .ok t) :
    t.wrk.resets = s.wrk.resets ∨ ∃ r f g, TcpUpdate P s t r f g := by
  cases c with
  | receive slot b => cases pure_ok.mp done; exact .inl rfl
  | preProcess slot => cases pure_ok.mp done; exact .inl rfl
  | advance ticks => cases pure_ok.mp done; exact .inl rfl
  | output slot =>
      simp only [step, bind_ok, pure_ok] at done
      obtain ⟨⟨w, action⟩, called, rfl⟩ := done
      exact .inl (output_resets called)
  | input slot =>
      have again := done
      simp only [step, bind_ok, pure_ok] at again
      obtain ⟨o, called, rfl⟩ := again
      rcases input_resets shaped called with ⟨_, same⟩ | ⟨h, f, handler, old, _, resets⟩
      · exact .inl same
      · by_cases tcp : (s.bufs slot).ipProtocol = IP_PROTOCOL_TCP
        · obtain ⟨f, g, update⟩ := input_updates shaped done rfl old tcp
          exact .inr ⟨_, f, g, update⟩
        · have none : h.emitted (h.updated P s.wrk.tw (s.bufs slot) o.direction f).2 = [] := by
            cases h with
            | tcp => exact absurd (protocolHandlerGet_eq_tcp.mp handler) tcp
            | unimplemented => rfl
            | icmp => rfl
            | udp => rfl
          rw [none, List.append_nil] at resets
          exact .inl resets

/-- The flow a packet's key leads to, and the side its sender is on. -/
def flowFound (P : Platform Mem Tbl) (w : Worker Mem Tbl) (b : Buffer) :
    Option (Flow × FlowDir) := do
  let key ← ip4LookupKey b
  let a ← (P.table.get w.mem w.flowsHashTable (P.flowTableHash key)).join
  let f ← w.flows.get? a.flow
  pure (f, a.dir)

theorem flowFound_of_finds {w : Worker Mem Tbl} {b : Buffer} {h : ProtocolHandler}
    {o : InputOutcome Mem Tbl} {a : EntryAddr} {f : Flow} (looked : ip4LookupKey b = some o.key)
    (finds : InputFinds P w b h o a f) : flowFound P w b = some (f, o.direction) := by
  have found := finds.found
  rw [finds.index] at found
  simp only [flowFound, looked, finds.bound, found, finds.direction, Option.join_some,
    Option.bind_eq_bind, Option.bind_some, Option.pure_def]

theorem flowFound_of_creates {w : Worker Mem Tbl} {b : Buffer} {h : ProtocolHandler}
    {o : InputOutcome Mem Tbl} (looked : ip4LookupKey b = some o.key)
    (creates : InputCreates P w b h o) : flowFound P w b = none := by
  simp only [flowFound, looked, creates.unbound, Option.join_some, Option.bind_eq_bind,
    Option.bind_some, Option.bind_none]

/-- `K` holds of the packet, the flow it finds and its side whenever the call is to keep this
flow established, or to make it so, after a handshake, which resets it. -/
def BeforeReset (P : Platform Mem Tbl) (s : Sys Mem Tbl) (K : Buffer → Flow → FlowDir → Prop) :
    Call → Prop
  | .input slot => ∀ found ∈ flowFound P s.wrk (s.bufs slot),
      (s.bufs slot).ipProtocol = IP_PROTOCOL_TCP → found.1.threeWayHandshake = true →
      tcpStateTransfer found.1.state (s.bufs slot).tcpEvent found.2 = .established →
      K (s.bufs slot) found.1 found.2
  | _ => True

/-- A call resets one flow at most. -/
theorem TcpUpdate.only_reset {s t : Sys Mem Tbl} {r : Binding} {f g : Flow} {Q : Flow → Prop}
    (u : TcpUpdate P s t r f g) (state : g.state = .established)
    (handshake : g.threeWayHandshake = true) :
    (∀ x, t.wrk.resets = s.wrk.resets ++ [x] → Q x) ↔ Q g := by
  have resets := u.resets
  rw [ProtocolHandler.emitted, if_pos ⟨state, handshake⟩] at resets
  constructor
  · intro each
    exact each g resets
  · intro holds x grown
    obtain rfl : g = x := List.singleton_inj.mp (List.append_cancel_left (resets.symm.trans grown))
    exact holds

theorem no_reset_of_same {s t : Sys Mem Tbl} {Q : Flow → Prop}
    (same : t.wrk.resets = s.wrk.resets) : ∀ x, t.wrk.resets = s.wrk.resets ++ [x] → Q x := by
  intro x grown
  rw [same] at grown
  exact absurd (congrArg List.length grown) (by simp)

/-- What holds of each flow that a step resets is settled before the step by what makes it reset
one. -/
theorem step_resets_iff {s t : Sys Mem Tbl} {c : Call} {Q : Flow → Prop}
    {K : Buffer → Flow → FlowDir → Prop} (shaped : s.wrk.Shaped) (done : step P s c = .ok t)
    (agree : ∀ r f g, TcpUpdate P s t r f g → g.state = .established →
      g.threeWayHandshake = true → (Q g ↔ K r.packet f r.direction)) :
    (∀ x, t.wrk.resets = s.wrk.resets ++ [x] → Q x) ↔ BeforeReset P s K c := by
  cases c with
  | receive slot b => cases pure_ok.mp done; exact iff_of_true (no_reset_of_same rfl) trivial
  | preProcess slot => cases pure_ok.mp done; exact iff_of_true (no_reset_of_same rfl) trivial
  | advance ticks => cases pure_ok.mp done; exact iff_of_true (no_reset_of_same rfl) trivial
  | output slot =>
      simp only [step, bind_ok, pure_ok] at done
      obtain ⟨⟨w, action⟩, called, rfl⟩ := done
      exact iff_of_true (no_reset_of_same (output_resets called)) trivial
  | input slot =>
      cases step_cases shaped done with
      | creates _ h o handler key buf effect =>
          have looked := lookupKey_of_parsed handler key
          refine iff_of_true (no_reset_of_same ?_) ?_
          · rcases step_resets shaped done with same | ⟨r, f, g, u⟩
            · exact same
            · obtain rfl := List.singleton_inj.mp (List.append_cancel_left u.history)
              cases effect.created.symm.trans u.old
          · intro found member
            rw [flowFound_of_creates looked effect] at member
            cases member
      | finds _ h o a f handler key buf effect =>
          have looked := lookupKey_of_parsed handler key
          have guard : BeforeReset P s K (.input slot) ↔
              ((s.bufs slot).ipProtocol = IP_PROTOCOL_TCP → f.threeWayHandshake = true →
                tcpStateTransfer f.state (s.bufs slot).tcpEvent o.direction = .established →
                K (s.bufs slot) f o.direction) := by
            simp only [BeforeReset, flowFound_of_finds looked effect, Option.mem_some_iff,
              forall_eq']
          rw [guard]
          by_cases tcp : (s.bufs slot).ipProtocol = IP_PROTOCOL_TCP
          · obtain ⟨f', g, u⟩ := input_updates shaped done rfl effect.created tcp
            cases effect.found.symm.trans u.before
            by_cases complete : g.state = .established ∧ g.threeWayHandshake = true
            · rw [u.only_reset complete.1 complete.2, agree _ f g u complete.1 complete.2]
              rw [u.state, u.handshake] at complete
              exact ⟨fun holds _ _ _ => holds, fun holds => holds tcp complete.2 complete.1⟩
            · refine iff_of_true (no_reset_of_same ?_) fun _ handshake state => ?_
              · have resets := u.resets
                rw [ProtocolHandler.emitted, if_neg complete, List.append_nil] at resets
                exact resets
              · rw [u.state, u.handshake] at complete
                exact (complete ⟨state, handshake⟩).elim
          · refine iff_of_true (no_reset_of_same ?_) fun other => (tcp other).elim
            rcases step_resets shaped done with same | ⟨r, f, g, u⟩
            · exact same
            · obtain rfl := List.singleton_inj.mp (List.append_cancel_left u.history)
              exact absurd u.tcp tcp

/-! The frames of one reset. -/

def FlowEntry.Linked (e : FlowEntry) : Prop := e.smac ≠ zeroMac ∧ e.dmac ≠ zeroMac

/-- What goes out in a direction is the frame built for it, and that entry has MAC addresses. -/
theorem sent_frame {vnm : Vnet} {flow : Flow} {dirs : List FlowDir} {sent : SentFrame}
    (member : sent ∈ (tcpSendResetLoop vnm flow dirs).2) :
    sent.dir ∈ dirs ∧ sent.frame = resetFrame flow sent.dir ∧
      (flow.flowEntry sent.dir).Linked := by
  induction dirs with
  | nil => cases member
  | cons i dirs ih =>
      have later (m : sent ∈ (tcpSendResetLoop vnm flow dirs).2) : sent.dir ∈ i :: dirs ∧
          sent.frame = resetFrame flow sent.dir ∧ (flow.flowEntry sent.dir).Linked :=
        ⟨List.mem_cons_of_mem i (ih m).1, (ih m).2⟩
      unfold tcpSendResetLoop at member
      dsimp only at member
      split at member
      · cases member
      · split at member
        · exact later member
        · split at member
          · exact later member
          · rename_i unknown
            split at member
            · exact later member
            · rcases List.mem_cons.mp member with rfl | member
              · refine ⟨List.mem_cons_self, rfl, fun zero => ?_, fun zero => ?_⟩
                · exact unknown (Or.inl fun k => congrFun zero k)
                · exact unknown (Or.inr fun k => congrFun zero k)
              · exact later member

/-! Segments with RST and neither SYN nor FIN. -/

structure IsReset (flags : UInt8) : Prop where
  rst : flags &&& TCP_FLAG_RST ≠ 0
  syn : flags &&& TCP_FLAG_SYN = 0
  fin : flags &&& TCP_FLAG_FIN = 0

/-- `for_each_tcp_event` has a row for RST alone, and none for RST with ACK. -/
theorem event_of_reset {flags : UInt8} (reset : IsReset flags) :
    flagsToEvents (flags &&& TCP_FLAG_CONCERNED) =
      if flags &&& TCP_FLAG_ACK = 0 then .rst else .unknown := by
  have every : ∀ n : Fin 256, UInt8.ofFin n &&& TCP_FLAG_RST ≠ 0 →
      UInt8.ofFin n &&& TCP_FLAG_SYN = 0 → UInt8.ofFin n &&& TCP_FLAG_FIN = 0 →
      flagsToEvents (UInt8.ofFin n &&& TCP_FLAG_CONCERNED) =
        if UInt8.ofFin n &&& TCP_FLAG_ACK = 0 then .rst else .unknown := by decide +kernel
  exact every flags.toFin reset.rst reset.syn reset.fin

theorem reset_transfer {old : TcpState} {d : FlowDir} {b : Buffer} (known : old ≠ .unknown)
    (reset : IsReset b.tcpFlags) :
    tcpStateTransfer old b.tcpEvent d =
      if b.tcpFlags &&& TCP_FLAG_ACK = 0 then .close else .unknown := by
  rw [Buffer.tcpEvent, Buffer.concernedFlags, event_of_reset reset]
  split
  · rw [transfer_rst, if_neg known]
  · rw [transfer_unknown]

/-- A reset closes the flow it is bound to exactly when it does not acknowledge anything. -/
theorem reset_closes_iff {nThreads : Nat} {bufs : Nat → Buffer} {cs : List Call} {s t : Sys Mem Tbl}
    {slot : Nat} {r : Binding} {f : Flow}
    (reached : run (step P) (initial P nThreads bufs) cs = .ok s)
    (input : step P s (.input slot) = .ok t) (bound : t.history = s.history ++ [r])
    (old : r.created = false) (tcp : r.packet.ipProtocol = IP_PROTOCOL_TCP)
    (found : s.wrk.flows.get? r.flow = some f) (known : f.state ≠ .unknown)
    (reset : IsReset r.packet.tcpFlags) :
    ∃ g, t.wrk.flows.get? r.flow = some g ∧
      (g.state = .close ↔ r.packet.tcpFlags &&& TCP_FLAG_ACK = 0) := by
  obtain ⟨f', g, update⟩ := input_updates (run_shaped reached) input bound old tcp
  cases found.symm.trans update.before
  refine ⟨g, update.after, ?_⟩
  rw [update.state, reset_transfer known reset]
  split
  · rename_i bare
    exact ⟨fun _ => bare, fun _ => rfl⟩
  · rename_i acknowledging
    exact ⟨fun closed => (nomatch closed), fun bare => absurd bare acknowledging⟩

/-- The resets that `tcp_send_reset` builds acknowledge, so that a tracker on their way loses
the flow. -/
theorem own_reset_unknown {flow : Flow} {i : FlowDir} {b : Buffer} (version : flow.ipVersion = 4)
    (tagged : (flow.flowEntry i).Tagged) (start : b.l2HdrOffset = 0)
    (holds : b.HoldsAt 0 (resetFrame flow i).bytes) (old : TcpState) (d : FlowDir) :
    IsReset (ip4PreProcess b).1.tcpFlags ∧
      tcpStateTransfer old (ip4PreProcess b).1.tcpEvent d = .unknown := by
  have flags := (reset_segment version tagged start holds).1
  have event : (ip4PreProcess b).1.tcpEvent = .unknown := by
    rw [Buffer.tcpEvent, Buffer.concernedFlags, flags]
    decide
  rw [flags, event, transfer_unknown]
  exact ⟨⟨by decide, by decide, by decide⟩, rfl⟩

/-- The client's SYN is tracked, and a segment of the client with the given flags waits in
the next slot. -/
def opened (flags : UInt8) : List Call :=
  [.receive 0 (clientSyn.buffer 0), .preProcess 0, .input 0,
    .receive 1 ({ clientSyn with flags }.buffer 0), .preProcess 1]

/-- What can be read off the evaluated run. -/
def trackedView (s : MapSys) : List TcpState × List (Nat × Bool × UInt8 × UInt8) :=
  (s.wrk.flows.elts.map Flow.state,
    s.history.map fun r => (r.flow, r.created, r.packet.ipProtocol, r.packet.tcpFlags))

theorem opened_reset (flags : UInt8) (states : List TcpState)
    (before : (run (step portPlatform) portStart (opened flags)).toOption.map trackedView =
      some ([.synSent], [(0, true, 6, TCP_FLAG_SYN)]))
    (after : (run (step portPlatform) portStart (opened flags ++ [.input 1])).toOption.map
      trackedView = some (states, [(0, true, 6, TCP_FLAG_SYN), (0, false, 6, flags)])) :
    ∃ s t r f, run (step portPlatform) portStart (opened flags) = .ok s ∧
      step portPlatform s (.input 1) = .ok t ∧ t.history = s.history ++ [r] ∧
      r.created = false ∧ r.packet.ipProtocol = IP_PROTOCOL_TCP ∧ r.packet.tcpFlags = flags ∧
      s.wrk.flows.get? r.flow = some f ∧ f.state = .synSent ∧
      (t.wrk.flows.get? r.flow).map Flow.state = states[0]? := by
  obtain ⟨t, total, viewT⟩ := completed trackedView after
  obtain ⟨s, reached, input⟩ := run_snoc_ok.mp total
  obtain ⟨s', reached', viewS⟩ := completed trackedView before
  cases reached.symm.trans reached'
  obtain ⟨r, bound, _, _⟩ := input_answer (run_shaped reached) input
  obtain ⟨stateS, historyS⟩ := Prod.mk.inj viewS
  obtain ⟨stateT, historyT⟩ := Prod.mk.inj viewT
  rw [bound, List.map_append, historyS] at historyT
  have last := List.singleton_inj.mp (List.cons.inj historyT).2
  simp only [Prod.mk.injEq] at last
  obtain ⟨flow, old, tcp, same⟩ := last
  have at0 := congrArg (fun states : List TcpState => states[0]?) stateS
  simp only [List.getElem?_map] at at0
  obtain ⟨f, found, state⟩ := Option.map_eq_some_iff.mp at0
  refine ⟨s, t, r, f, reached, input, bound, old, tcp, same, flow ▸ found, state, ?_⟩
  rw [flow, ← stateT, List.getElem?_map]
  rfl

theorem bare_reset_closes :
    ∃ s t : MapSys, run (step portPlatform) portStart (opened TCP_FLAG_RST) = .ok s ∧
      step portPlatform s (.input 1) = .ok t ∧ ∃ r, t.history = s.history ++ [r] ∧
        ∃ g, t.wrk.flows.get? r.flow = some g ∧
          (g.state = .close ↔ r.packet.tcpFlags &&& TCP_FLAG_ACK = 0) := by
  obtain ⟨s, t, r, f, reached, input, bound, old, tcp, flags, found, state, _⟩ :=
    opened_reset TCP_FLAG_RST [.close] (by decide +kernel)
      (by decide +kernel)
  refine ⟨s, t, reached, input, r, bound, ?_⟩
  exact reset_closes_iff reached input bound old tcp found (by rw [state]; decide)
    (by rw [flags]; exact ⟨by decide, by decide, by decide⟩)

theorem acknowledging_reset_unknown :
    ∃ s t : MapSys, run (step portPlatform) portStart (opened (TCP_FLAG_RST ||| TCP_FLAG_ACK)) =
        .ok s ∧ step portPlatform s (.input 1) = .ok t ∧ ∃ r f g, t.history = s.history ++ [r] ∧
        r.created = false ∧ r.packet.ipProtocol = IP_PROTOCOL_TCP ∧ IsReset r.packet.tcpFlags ∧
        s.wrk.flows.get? r.flow = some f ∧ f.state = .synSent ∧
        t.wrk.flows.get? r.flow = some g ∧ g.state = .unknown := by
  obtain ⟨s, t, r, f, reached, input, bound, old, tcp, flags, found, state, after⟩ :=
    opened_reset (TCP_FLAG_RST ||| TCP_FLAG_ACK) [.unknown] (by decide +kernel)
      (by decide +kernel)
  obtain ⟨g, found', state'⟩ := Option.map_eq_some_iff.mp after
  refine ⟨s, t, reached, input, r, f, g, bound, old, tcp, ?_, found, state, found', state'⟩
  rw [flags]
  exact ⟨by decide, by decide, by decide⟩

end FlowTable
