import VppPlugins.FlowTable.Timers
import VppPlugins.FlowTable.Tracking

/-! Whom the expiry callback reports. Until the first expiry every flow with a TCP packet has one
timer, set by its last packet. When a timer fires is left to the wheel. -/
namespace FlowTable
open Faults Runs

variable {Mem Tbl : Type} {P : Platform Mem Tbl}

/-- The flow has no TCP packet and no timer, or its timer runs from its last TCP packet on. -/
def Timed (tw : TimerWheel) (history : List Binding) (i : Nat) (f : Flow) : Prop :=
  (f.stopTimerHandle = noHandle ∧ tcpPackets i history = []) ∨
    f.stopTimerHandle ≠ noHandle ∧ ∃ r ∈ (tcpPackets i history).getLast?,
      tw.live f.stopTimerHandle =
        some ⟨i, FLOW_EXPIRARION_TIMER_ID, r.tick, tcpStateTimeout f.state⟩

theorem timed_congr {tw tw' : TimerWheel} {history : List Binding} {i : Nat} {f g : Flow}
    (timed : Timed tw history i f) (handle : g.stopTimerHandle = f.stopTimerHandle)
    (state : g.state = f.state) (live : ∀ h, tw'.live h = tw.live h) :
    Timed tw' history i g := by
  rw [Timed, handle, state, live]
  exact timed

theorem timed_miss {tw : TimerWheel} {history : List Binding} {i : Nat} {f : Flow} {r : Binding}
    (timed : Timed tw history i f)
    (miss : ¬ (r.flow = i ∧ r.packet.ipProtocol = IP_PROTOCOL_TCP)) :
    Timed tw (history ++ [r]) i f := by
  rw [Timed, tcpPackets_snoc, if_neg miss]
  exact timed

/-- The packet's own flow, whose state the callback has changed before. -/
theorem settle_timed (real : ∀ w, P.wheel.pick w ≠ noHandle) {tw : TimerWheel}
    {history : List Binding} {i : Nat} {f g : Flow} {r : Binding} (timed : Timed tw history i f)
    (handle : g.stopTimerHandle = f.stopTimerHandle) (index : g.eltIndex = i) (here : r.flow = i)
    (tcp : r.packet.ipProtocol = IP_PROTOCOL_TCP) (now : r.tick = tw.now) (d : FlowDir) :
    Timed (tcpSettle P tw r.packet d g).1 (history ++ [r]) i (tcpSettle P tw r.packet d g).2 := by
  have last : r ∈ (tcpPackets i (history ++ [r])).getLast? := by
    rw [tcpPackets_hit history here tcp, List.getLast?_concat]
    exact rfl
  rw [Timed, settle_state]
  refine .inr ?_
  by_cases none : g.stopTimerHandle = noHandle
  · have arms := settle_arms P tw r.packet d none
    rw [arms.2, arms.1, TimerWheel.live_start, if_pos rfl, index, ← now]
    exact ⟨real tw, r, last, rfl⟩
  · have rearms := settle_rearms P tw r.packet d none
    rcases timed with ⟨without, -⟩ | ⟨-, q, -, alive⟩
    · exact absurd (handle.trans without) none
    · rw [rearms.2, rearms.1, TimerWheel.live_update, if_pos rfl, handle, alive, ← now]
      exact ⟨handle ▸ none, r, last, rfl⟩

/-- The timers of the other flows. -/
theorem settle_others (fresh : TimerWheel.Fresh P.wheel.pick) {tw : TimerWheel}
    {history : List Binding} {i j : Nat} {f g x : Flow} (timed : Timed tw history i f)
    (handle : g.stopTimerHandle = f.stopTimerHandle) (other : j ≠ i)
    (elsewhere : Timed tw history j x) (b : Buffer) (d : FlowDir) :
    Timed (tcpSettle P tw b d g).1 history j x := by
  rcases elsewhere with idle | ⟨held, q, last, alive⟩
  · exact .inl idle
  · refine .inr ⟨held, q, last, ?_⟩
    by_cases none : g.stopTimerHandle = noHandle
    · have free : x.stopTimerHandle ≠ P.wheel.pick tw := fun same => by
        rw [same, fresh tw] at alive
        cases alive
      have arms := settle_arms P tw b d none
      rw [arms.1, TimerWheel.live_start, if_neg free, alive]
    · have apart : x.stopTimerHandle ≠ g.stopTimerHandle := fun same => by
        rcases timed with ⟨without, -⟩ | ⟨-, q', -, alive'⟩
        · exact none (handle.trans without)
        · rw [same, handle, alive', Option.some.injEq, Timer.mk.injEq] at alive
          exact other alive.1.symm
      have rearms := settle_rearms P tw b d none
      rw [rearms.1, TimerWheel.live_update, if_neg apart, alive]

/-! Runs in which nothing expires. -/

structure Sys.Clocked (s : Sys Mem Tbl) : Prop where
  tracks : s.Tracks
  timed : ∀ i f, s.wrk.flows.get? i = some f → Timed s.wrk.tw s.history i f

/-- A state callback leaves the flow alone, or settles it for a TCP packet. -/
inductive Settles (P : Platform Mem Tbl) (tw : TimerWheel) (b : Buffer) (d : FlowDir) (f : Flow) :
    TimerWheel × Flow → Prop
  | alone (other : b.ipProtocol ≠ IP_PROTOCOL_TCP) : Settles P tw b d f (tw, f)
  | tcp (tcp : b.ipProtocol = IP_PROTOCOL_TCP) (g : Flow)
      (handle : g.stopTimerHandle = f.stopTimerHandle) (index : g.eltIndex = f.eltIndex) :
      Settles P tw b d f (tcpSettle P tw b d g)

/-- Of the handlers only the TCP one does something in its state callbacks. -/
theorem settles_of_callback {h : ProtocolHandler} {b : Buffer}
    (handler : protocolHandlerGet b.ipProtocol = some h) {tw : TimerWheel} {d : FlowDir} {f : Flow}
    {out : TimerWheel × Flow} (others : h ≠ .tcp → out = (tw, f))
    (callback : h = .tcp → ∃ g, g.stopTimerHandle = f.stopTimerHandle ∧
      g.eltIndex = f.eltIndex ∧ out = tcpSettle P tw b d g) : Settles P tw b d f out := by
  by_cases tcp : h = .tcp
  · obtain ⟨g, handle, index, rfl⟩ := callback tcp
    exact .tcp (protocolHandlerGet_eq_tcp.mp (tcp ▸ handler)) g handle index
  · rw [others tcp]
    refine .alone fun protocol => tcp ?_
    exact Option.some.inj (handler.symm.trans (protocolHandlerGet_eq_tcp.mpr protocol))

theorem started_settles {h : ProtocolHandler} {b : Buffer}
    (handler : protocolHandlerGet b.ipProtocol = some h) (tw : TimerWheel) (d : FlowDir)
    (f : Flow) : Settles P tw b d f (h.started P tw b d f) := by
  refine settles_of_callback handler (fun other => ?_) ?_
  · cases h with
    | tcp => exact absurd rfl other
    | unimplemented => rfl
    | icmp => rfl
    | udp => rfl
  · rintro rfl
    have timer := initFlow_timer b d f
    exact ⟨tcpInitFlow b d f, timer.1, timer.2, rfl⟩

theorem updated_settles {h : ProtocolHandler} {b : Buffer}
    (handler : protocolHandlerGet b.ipProtocol = some h) (tw : TimerWheel) (d : FlowDir)
    (f : Flow) : Settles P tw b d f (h.updated P tw b d f) := by
  refine settles_of_callback handler (fun other => ?_) ?_
  · cases h with
    | tcp => exact absurd rfl other
    | unimplemented => rfl
    | icmp => rfl
    | udp => rfl
  · rintro rfl
    exact ⟨tcpUpdateFlow b d f, rfl, rfl, rfl⟩

/-- A packet bound to flow `f`, which was in the pool or has just been put there. -/
theorem bound_clocked (fresh : TimerWheel.Fresh P.wheel.pick)
    (real : ∀ w, P.wheel.pick w ≠ noHandle) {s t : Sys Mem Tbl} {r : Binding} {d : FlowDir}
    {f : Flow} {out : TimerWheel × Flow} (clocked : s.Clocked) (tracks : t.Tracks)
    (settles : Settles P s.wrk.tw r.packet d f out) (timed : Timed s.wrk.tw s.history r.flow f)
    (index : f.eltIndex = r.flow) (now : r.tick = s.wrk.tw.now) (wheel : t.wrk.tw = out.1)
    (history : t.history = s.history ++ [r])
    (flows : ∀ j, t.wrk.flows.get? j = if j = r.flow then some out.2 else s.wrk.flows.get? j) :
    t.Clocked := by
  refine ⟨tracks, fun j x found => ?_⟩
  rw [history, wheel]
  cases settles with
  | alone other =>
      refine timed_miss ?_ fun named => other named.2
      rcases FixedPool.found_replaced flows found with ⟨rfl, rfl⟩ | ⟨_, before⟩
      · exact timed
      · exact clocked.timed j x before
  | tcp tcp g handle same =>
      rcases FixedPool.found_replaced flows found with ⟨rfl, rfl⟩ | ⟨other, before⟩
      · exact settle_timed real timed handle (same.trans index) rfl tcp now d
      · refine timed_miss ?_ fun named => other named.1.symm
        exact settle_others fresh timed handle other (clocked.timed j x before) r.packet d

theorem step_clocked (fresh : TimerWheel.Fresh P.wheel.pick)
    (real : ∀ w, P.wheel.pick w ≠ noHandle) {s t : Sys Mem Tbl} {c : Call} (clocked : s.Clocked)
    (nothing : NothingDue P s c) (done : step P s c = .ok t) : t.Clocked := by
  have tracks := step_tracks clocked.tracks done
  cases step_cases clocked.tracks.shaped done with
  | receive slot b => exact ⟨tracks, clocked.timed⟩
  | preProcess slot => exact ⟨tracks, clocked.timed⟩
  | idle slot _ => exact ⟨tracks, clocked.timed⟩
  | advance ticks =>
      refine ⟨tracks, fun i f found => ?_⟩
      exact timed_congr (clocked.timed i f found) rfl rfl (TimerWheel.live_expire_nothing nothing)
  | mirrors slot index f w effect =>
      refine ⟨tracks, fun i g found => ?_⟩
      have wheel : w.tw = s.wrk.tw := effect.replaced.tw
      rcases FixedPool.found_replaced effect.replaced.flows found with ⟨rfl, rfl⟩ | ⟨_, before⟩
      · exact timed_congr (clocked.timed _ f effect.found) rfl rfl fun h => by rw [wheel]
      · exact timed_congr (clocked.timed i g before) rfl rfl fun h => by rw [wheel]
  | creates slot h o handler key buf effect =>
      have unseen : tcpPackets o.flow s.history = [] := by
        rw [tcpPackets, List.filter_eq_nil_iff]
        intro q member
        have earlier := Nat.lt_of_lt_of_eq (clocked.tracks.inside q member) effect.index.symm
        simp [Nat.ne_of_lt earlier]
      exact bound_clocked fresh real (r := o.binding (s.bufs slot) s.wrk.tw.now) clocked tracks
        (started_settles handler s.wrk.tw .dirIn _) (.inl ⟨newFlow_timer .., unseen⟩)
        (ip4NewFlow_shaped ..).eltIndex rfl effect.tw rfl effect.flows
  | finds slot h o a f handler key buf effect =>
      exact bound_clocked fresh real (r := o.binding (s.bufs slot) s.wrk.tw.now) clocked tracks
        (updated_settles handler s.wrk.tw o.direction f) (clocked.timed _ f effect.found)
        (clocked.tracks.shaped.flow _ f effect.found).eltIndex rfl effect.tw rfl effect.flows

theorem run_clocked (fresh : TimerWheel.Fresh P.wheel.pick) (real : ∀ w, P.wheel.pick w ≠ noHandle)
    {nThreads : Nat} {bufs : Nat → Buffer} {cs : List Call} {s : Sys Mem Tbl}
    (reached : run (step P) (initial P nThreads bufs) cs = .ok s)
    (nothing : Guarded (step P) (NothingDue P) (initial P nThreads bufs) cs) : s.Clocked := by
  have start : (initial P nThreads bufs).Clocked :=
    ⟨initial_tracks P nThreads bufs, fun _ _ found => (nomatch found)⟩
  have always := always_of_guarded (fun _ => True) (P := Sys.Clocked)
    (fun _ _ _ _ clocked nothing done _ =>
      ⟨trivial, step_clocked fresh real clocked nothing done⟩) always_true trivial start nothing
  exact always_iff_prefix.mp always cs s List.prefix_rfl reached

/-- A flow that has had a packet is in the pool. -/
theorem packet_flow {s : Sys Mem Tbl} (tracks : s.Tracks) {i : Nat} {r : Binding}
    (last : (tcpPackets i s.history).getLast? = some r) : ∃ f, s.wrk.flows.get? i = some f := by
  have member := List.mem_of_getLast? last
  rw [tcpPackets, List.mem_filter] at member
  simp only [Bool.and_eq_true, beq_iff_eq] at member
  have inside := tracks.inside r member.1
  rw [member.2.1] at inside
  exact FixedPool.get?_isSome_iff.mpr inside

/-- The callback gets the index back out of the handle that the wheel hands it. -/
theorem dispatched_index {t : Timer} (id : t.timerId = FLOW_EXPIRARION_TIMER_ID)
    (small : t.userId < FLOW_TABLE_MAX_FLOWS) :
    TimerWheel.userHandle t &&& 0x0FFFFFFF = t.userId := by
  have bound : t.userId < 2 ^ 28 := Nat.lt_trans small (by decide)
  rw [TimerWheel.userHandle, id, show (0x0FFFFFFF : Nat) = 2 ^ 28 - 1 from rfl,
    Nat.and_two_pow_sub_one_eq_mod, ← Nat.shiftLeft_add_eq_or_of_lt (Nat.lt_trans bound (by decide))]
  change (2147483648 + t.userId) % 268435456 = t.userId
  omega

/-- A live timer is the one that the last TCP packet of the flow it names has set. -/
theorem live_timer (real : ∀ w, P.wheel.pick w ≠ noHandle) {nThreads : Nat} {bufs : Nat → Buffer}
    {cs : List Call} {s : Sys Mem Tbl}
    (reached : run (step P) (initial P nThreads bufs) cs = .ok s) (clocked : s.Clocked)
    {h : Nat} {t : Timer} (alive : s.wrk.tw.live h = some t) :
    TimerWheel.userHandle t &&& 0x0FFFFFFF = t.userId ∧
      ∃ f r, s.wrk.flows.get? t.userId = some f ∧ f.stopTimerHandle = h ∧
        (tcpPackets t.userId s.history).getLast? = some r ∧
        t = ⟨t.userId, FLOW_EXPIRARION_TIMER_ID, r.tick, tcpStateTimeout f.state⟩ := by
  obtain ⟨held, f, found, handle⟩ := (run_owned real reached).owner h t alive
  rcases clocked.timed _ f found with ⟨without, -⟩ | ⟨-, r, last, timer⟩
  · exact absurd (handle.symm.trans without) held
  · rw [handle, alive, Option.some.injEq] at timer
    have inside := Nat.lt_of_lt_of_le (FixedPool.lt_size_of_get? found)
      (Nat.le_trans s.wrk.flows.size_le_cap clocked.tracks.shaped.cap)
    exact ⟨dispatched_index (congrArg Timer.timerId timer) inside, f, r, found, handle, last, timer⟩

/-- What the callback is handed comes back as flow indices. -/
theorem reported_eq (P : Platform Mem Tbl) (w : Worker Mem Tbl) (ticks : Nat) :
    (flowTableTimerUpdateTime P w ticks).2 =
      (w.tw.due P.wheel.fires ticks).map fun e => TimerWheel.userHandle e.2 &&& 0x0FFFFFFF :=
  List.map_map

theorem reported_once (real : ∀ w, P.wheel.pick w ≠ noHandle) {nThreads : Nat}
    {bufs : Nat → Buffer} {cs : List Call} {s : Sys Mem Tbl}
    (reached : run (step P) (initial P nThreads bufs) cs = .ok s) (clocked : s.Clocked)
    (ticks : Nat) : (flowTableTimerUpdateTime P s.wrk ticks).2.Nodup := by
  rw [reported_eq]
  refine List.Nodup.map_on ?_ (s.wrk.tw.timers.nodupKeys.nodup.filter _)
  rintro ⟨h, t⟩ member ⟨h', t'⟩ member' same
  obtain ⟨alive, -⟩ := TimerWheel.mem_due.mp member
  obtain ⟨alive', -⟩ := TimerWheel.mem_due.mp member'
  obtain ⟨index, f, r, found, handle, -⟩ := live_timer real reached clocked alive
  obtain ⟨index', f', r', found', handle', -⟩ := live_timer real reached clocked alive'
  rw [index, index'] at same
  -- one flow, and it holds the handle of both timers
  rw [← same, found, Option.some.injEq] at found'
  have handles : h = h' := by rw [← handle, ← handle', found']
  subst handles
  cases alive.symm.trans alive'
  rfl

theorem mem_reported_iff (real : ∀ w, P.wheel.pick w ≠ noHandle) {nThreads : Nat}
    {bufs : Nat → Buffer} {cs : List Call} {s : Sys Mem Tbl}
    (reached : run (step P) (initial P nThreads bufs) cs = .ok s) (clocked : s.Clocked)
    (ticks i : Nat) :
    i ∈ (flowTableTimerUpdateTime P s.wrk ticks).2 ↔
      ∃ r, (tcpPackets i s.history).getLast? = some r ∧
        P.wheel.fires s.wrk.tw ticks
          ⟨i, FLOW_EXPIRARION_TIMER_ID, r.tick, tcpStateTimeout (foldedState i s.history)⟩ := by
  rw [reported_eq, List.mem_map]
  constructor
  · rintro ⟨⟨h, t⟩, member, rfl⟩
    obtain ⟨alive, fired⟩ := TimerWheel.mem_due.mp member
    obtain ⟨index, f, r, found, -, last, timer⟩ := live_timer real reached clocked alive
    rw [index]
    rw [timer, (clocked.tracks.tracked _ f found).state] at fired
    exact ⟨r, last, fired⟩
  · rintro ⟨r, last, fired⟩
    obtain ⟨f, found⟩ := packet_flow clocked.tracks last
    rcases clocked.timed i f found with ⟨-, none⟩ | ⟨-, q, last', alive⟩
    · rw [none] at last
      cases last
    · cases last.symm.trans last'
      rw [← (clocked.tracks.tracked _ f found).state] at fired
      exact ⟨⟨_, _⟩, TimerWheel.mem_due.mpr ⟨alive, fired⟩,
        (live_timer real reached clocked alive).1⟩

/-- As long as nothing has expired, whatever makes a timer fire: the next advance of the wheel
reports each flow for which a timer fires that was set when its last TCP packet came, for the
timeout of the state this packet left it in. It reports it once, and no other flow. -/
theorem first_expiry_reports_silent (fresh : TimerWheel.Fresh P.wheel.pick)
    (real : ∀ w, P.wheel.pick w ≠ noHandle) {nThreads : Nat} {bufs : Nat → Buffer}
    {cs : List Call} {s : Sys Mem Tbl}
    (reached : run (step P) (initial P nThreads bufs) cs = .ok s)
    (nothing : Guarded (step P) (NothingDue P) (initial P nThreads bufs) cs) (ticks : Nat) :
    (flowTableTimerUpdateTime P s.wrk ticks).2.Nodup ∧
      ∀ i, i ∈ (flowTableTimerUpdateTime P s.wrk ticks).2 ↔
        ∃ r, (tcpPackets i s.history).getLast? = some r ∧
          P.wheel.fires s.wrk.tw ticks
            ⟨i, FLOW_EXPIRARION_TIMER_ID, r.tick, tcpStateTimeout (foldedState i s.history)⟩ := by
  have clocked := run_clocked fresh real reached nothing
  constructor
  · exact reported_once real reached clocked ticks
  · exact fun i => mem_reported_iff real reached clocked ticks i

instance (P : Platform Mem Tbl) (s : Sys Mem Tbl) (c : Call) : Decidable (NothingDue P s c) :=
  match c with
  | .advance ticks =>
      decidable_of_iff ((s.wrk.tw.due P.wheel.fires ticks).isEmpty = true) List.isEmpty_iff
  | .receive _ _ | .preProcess _ | .input _ | .output _ => isTrue trivial

/-- Two clients, of which the first has been silent for four ticks. -/
def twoClients : List Call :=
  [.receive 0 (clientSyn.buffer 0), .preProcess 0, .input 0, .advance 4,
    .receive 1 (Segment.buffer { clientSyn with srcPort := 2000 } 0), .preProcess 1, .input 1]

theorem twoClients_report : ∃ s : MapSys,
    run (step portPlatform) portStart twoClients = .ok s ∧
      (flowTableTimerUpdateTime portPlatform s.wrk 2).2.Nodup ∧
      ∀ i, i ∈ (flowTableTimerUpdateTime portPlatform s.wrk 2).2 ↔
        ∃ r, (tcpPackets i s.history).getLast? = some r ∧
          portPlatform.wheel.fires s.wrk.tw 2
            ⟨i, FLOW_EXPIRARION_TIMER_ID, r.tick,
              tcpStateTimeout (foldedState i s.history)⟩ := by
  obtain ⟨s, reached, -⟩ := completed (x := run (step portPlatform) portStart twoClients)
    (fun s : MapSys => s.wrk.flows.size) (b := 2) (by decide +kernel)
  exact ⟨s, reached, first_expiry_reports_silent (P := portPlatform)
    (TimerWheel.lifo_fresh noHandle) (TimerWheel.lifo_ne_reserved noHandle) reached
    (by decide +kernel) 2⟩

end FlowTable
