import VppPlugins.FlowTable.TableGrowth
import VppPlugins.FlowTable.Resets

/-! A packet that comes a second time: what the worker keeps of the first time, and when the
second changes it. -/
namespace FlowTable
open Faults Runs HashHeap

/-- `q` carries the bytes of `p` and came in over the same interface. -/
structure Copy (p q : Buffer) : Prop where
  data : q.data = p.data
  l2HdrOffset : q.l2HdrOffset = p.l2HdrOffset
  swIfIndexRx : q.swIfIndexRx = p.swIfIndexRx

theorem preProcess_copy {p q : Buffer} (copy : Copy p q) : ip4PreProcess q = ip4PreProcess p := by
  cases p with
  | mk data l2 l3 l4 rx unused0 unused1 flowIndex =>
      cases q with
      | mk data' l2' l3' l4' rx' unused0' unused1' flowIndex' =>
          obtain ⟨rfl, rfl, rfl⟩ := copy
          rfl

/-- A flow but for its timer. -/
def Flow.tracking (f : Flow) : Flow := { f with stopTimerHandle := noHandle }

/-- The two workers hold the same table and the same flows, timers aside. -/
structure SameTracking {Mem Tbl : Type} (w w' : Worker Mem Tbl) : Prop where
  mem : w'.mem = w.mem
  table : w'.flowsHashTable = w.flowsHashTable
  flows : ∀ i, (w'.flows.get? i).map Flow.tracking = (w.flows.get? i).map Flow.tracking

/-- A segment that comes again takes the flow on: into the handshake, or out of it. -/
def MovesOn (old : TcpState) (event : TcpEvent) : Prop :=
  (event = .syn ∧ (old = .start ∨ old = .close ∨ old = .timeWait ∨ old = .synSent)) ∨
    (event = .fin ∧ (old = .established ∨ old = .finWait))

theorem transfer_twice (old : TcpState) (event : TcpEvent) (d : FlowDir) :
    tcpStateTransfer (tcpStateTransfer old event d) event d = tcpStateTransfer old event d ↔
      ¬ MovesOn old event := by
  cases event with
  | unknown => simp [transfer_unknown, MovesOn]
  | rst =>
      rw [transfer_rst, transfer_rst]
      cases old <;> simp [MovesOn]
  | syn => cases old <;> simp [transfer_syn, MovesOn]
  | ack => cases old <;> simp [transfer_ack, MovesOn]
  | fin => cases old <;> cases d <;> simp [transfer_fin, MovesOn]

section

variable {Mem Tbl : Type} {P : Platform Mem Tbl}

theorem tracking_eq {f g : Flow} (state : g.state = f.state) (entries : g.flowEntry = f.flowEntry)
    (handshake : g.threeWayHandshake = f.threeWayHandshake) (identity : g.identity = f.identity) :
    g.tracking = f.tracking := by
  cases f
  cases g
  simp only [Flow.identity, Flow.mk.injEq] at identity
  simp only at state entries handshake
  simp only [Flow.tracking, Flow.mk.injEq, and_true]
  exact ⟨identity.1, identity.2.1, entries, identity.2.2.2.1, identity.2.2.2.2.1, state, handshake,
    identity.2.2.2.2.2.2.2.1⟩

theorem settle_entries (tw : TimerWheel) (b : Buffer) (d : FlowDir) (f : Flow) :
    (tcpSettle P tw b d f).2.flowEntry = (tcpTrackSequence b d f).flowEntry := by
  have entries := (timerUpdate_fields P tw f (tcpStateTimeout f.state)).2.1
  funext e
  rw [tcpSettle, tcpTrackSequence, tcpTrackSequence, setEntry_entry, setEntry_entry, entries]

/-- Tracking the sequence numbers of a segment again changes nothing. -/
theorem trackSequence_twice (b : Buffer) (d : FlowDir) (f : Flow) :
    (tcpTrackSequence b d (tcpTrackSequence b d f)).flowEntry =
      (tcpTrackSequence b d f).flowEntry := by
  funext e
  simp only [tcpTrackSequence, setEntry_entry]
  split
  · rfl
  · rfl

/-- A flow that a segment has just updated is left alone by the same segment exactly when
its state is. -/
theorem settled_twice {tw : TimerWheel} {b : Buffer} {d : FlowDir} {f g : Flow} (tw' : TimerWheel)
    (once : g = (tcpSettle P tw b d f).2) :
    (tcpSettle P tw' b d (tcpUpdateFlow b d g)).2.tracking = g.tracking ↔
      tcpStateTransfer g.state b.tcpEvent d = g.state := by
  have entries : (tcpSettle P tw' b d (tcpUpdateFlow b d g)).2.flowEntry = g.flowEntry := by
    have first : g.flowEntry = (tcpTrackSequence b d f).flowEntry := by
      rw [once, settle_entries]
    funext e
    have here := congrFun (trackSequence_twice b d f) e
    rw [settle_entries, first, ← here]
    simp only [tcpTrackSequence, setEntry_entry, tcpUpdateFlow, first]
  constructor
  · intro same
    have state : (tcpSettle P tw' b d (tcpUpdateFlow b d g)).2.state = g.state :=
      (congrArg Flow.state same :)
    rwa [settle_state] at state
  · intro still
    refine tracking_eq ?_ entries ?_ ?_
    · rw [settle_state]
      exact still
    · rw [settle_handshake]
      rfl
    · simp [tcpSettle]

theorem input_shaped {w : Worker Mem Tbl} {b : Buffer} {o : InputOutcome Mem Tbl}
    (shaped : w.Shaped) (done : ip4InputProcess P w b = .ok o) : o.wrk.Shaped := by
  obtain ⟨h, _, _, _, effect | ⟨a, f, effect⟩⟩ := ip4InputProcess_cases shaped done
  · exact shaped_of_flows shaped effect.cap effect.flows
      (shaped_of_identity (identity_started ..) (ip4NewFlow_shaped ..))
  · exact shaped_of_flows shaped effect.cap effect.flows
      (shaped_of_identity (identity_updated ..) (shaped.flow _ _ effect.found))

/-- The state the packet finds its flow in; a packet of an unbound key finds a new flow. -/
def stateFound (P : Platform Mem Tbl) (w : Worker Mem Tbl) (b : Buffer) : TcpState :=
  ((flowFound P w b).map fun found => found.1.state).getD .start

/-- The same call twice, when the table still leads to the flow: the second leaves everything
as it is exactly when the segment does not move the flow on. -/
theorem again_same_iff {b : Buffer} {o : InputOutcome Mem Tbl}
    {tw : TimerWheel} {d : FlowDir} {f g : Flow} (shaped : o.wrk.Shaped)
    (tcp : b.ipProtocol = IP_PROTOCOL_TCP) (looked : ip4LookupKey b = some o.key)
    (bound : P.table.get o.wrk.mem o.wrk.flowsHashTable (P.flowTableHash o.key) =
      some (some ⟨o.flow, d⟩))
    (found : o.wrk.flows.get? o.flow = some g) (pointer : (g.flowEntry d).flow = some o.flow)
    (once : g = (tcpSettle P tw b d f).2) :
    (∃ o', ip4InputProcess P o.wrk b = .ok o' ∧ SameTracking o.wrk o'.wrk) ↔
      tcpStateTransfer g.state b.tcpEvent d = g.state := by
  obtain ⟨o', again⟩ := bound_input_completes shaped looked bound found pointer
  obtain ⟨h, handler, key, _, effect⟩ := ip4InputProcess_cases shaped again
  have same : o'.key = o.key := key_of_looked handler key looked
  cases handler.symm.trans (protocolHandlerGet_eq_tcp.mpr tcp)
  rcases effect with creates | ⟨a, f', finds⟩
  · have unbound := creates.unbound
    rw [same, bound] at unbound
    cases unbound
  · have named := finds.bound
    rw [same, bound, Option.some.injEq, Option.some.injEq] at named
    subst named
    have index : o'.flow = o.flow := finds.index
    have direction : o'.direction = d := finds.direction
    have stored := finds.found
    rw [index, found] at stored
    cases stored
    have flows := finds.flows
    rw [index, direction] at flows
    rw [← settled_twice (P := P) o.wrk.tw once]
    constructor
    · rintro ⟨o'', again', kept⟩
      cases again.symm.trans again'
      have here := kept.flows o.flow
      rw [flows, if_pos rfl, found] at here
      exact Option.some.inj here
    · intro still
      refine ⟨o', again, finds.mem, finds.table, ?_⟩
      intro i
      rw [flows]
      by_cases here : i = o.flow
      · rw [if_pos here, here, found]
        exact congrArg some still
      · rw [if_neg here]

end

variable {hash : FlowKey → UInt64} {wheel : TimerWheel.Policy}

abbrev VppWorker := Worker (Heap UInt64 EntryAddr) Nat

/-- The packet's key is bound, or fewer than 47 hashes are. -/
def RoomFor (hash : FlowKey → UInt64) (w : VppWorker) (b : Buffer) : Prop :=
  ∀ key t, ip4LookupKey b = some key → w.mem.live w.flowsHashTable = some t →
    t.pairs.lookup (hash key) = none → t.elements < 47

/-- A table that is still named by the context has never grown. -/
theorem step_unresized {s t : VppSys} {c : Call} (unresized : Unresized s)
    (done : step (vppPlatform hash wheel) s c = .ok t) : Unresized t := by
  have shaped := step_shaped unresized.shaped done
  obtain ⟨handle, ⟨mem, _⟩ | ⟨h, v, tbl, _, _, stored⟩⟩ := step_table unresized.shaped done
  · refine ⟨shaped, ?_, ?_⟩
    · rw [handle, mem]; exact unresized.capacity
    · rw [handle, mem]; exact unresized.elements
  · cases alive : s.wrk.mem.live s.wrk.flowsHashTable with
    | none => simp only [set3, alive, reduceCtorEq] at stored
    | some u =>
        have capacity := unresized.capacity u alive
        by_cases crowded : (u.store h v).crowded
        · obtain ⟨m, _, result, freed, _⟩ := set3_crowded alive crowded
          cases result.symm.trans stored
          refine ⟨shaped, ?_, ?_⟩
          · intro t named
            rw [handle, freed] at named
            cases named
          · intro t named
            rw [handle, freed] at named
            cases named
        · obtain ⟨m, result, kept, _⟩ := set3_roomy alive crowded
          cases result.symm.trans stored
          have size : (u.store h v).capacity = 64 := capacity
          refine ⟨shaped, ?_, ?_⟩
          · intro t named
            rw [handle, kept, Option.some.injEq] at named
            rw [← named]
            exact size
          · intro t named
            rw [handle, kept, Option.some.injEq] at named
            simp only [Table.crowded, size] at crowded
            rw [← named]
            omega

theorem run_unresized {nThreads : Nat} {bufs : Nat → Buffer} {cs : List Call} {s : VppSys}
    (reached : run (step (vppPlatform hash wheel)) (initial (vppPlatform hash wheel) nThreads bufs)
      cs = .ok s) : Unresized s :=
  run_invariant Unresized (fun _ _ _ => step_unresized)
    (initial_unresized hash wheel nThreads bufs).1 reached

/-- The first packet of a key: the table holds its entry afterwards when there is room, and is
lost to the context otherwise. -/
theorem created_lookup {w : VppWorker} {b : Buffer} {h : ProtocolHandler}
    {o : InputOutcome (Heap UInt64 EntryAddr) Nat}
    (unresized : ∀ t, w.mem.live w.flowsHashTable = some t → t.capacity = 64 ∧ t.elements ≤ 47)
    (looked : ip4LookupKey b = some o.key) (creates : InputCreates (vppPlatform hash wheel) w b h o) :
    (RoomFor hash w b →
      get o.wrk.mem o.wrk.flowsHashTable (hash o.key) = some (some ⟨o.flow, .dirIn⟩)) ∧
      (¬ RoomFor hash w b → ∀ k, get o.wrk.mem o.wrk.flowsHashTable k = none) := by
  obtain ⟨t, alive, fresh⟩ := live_of_get creates.unbound
  obtain ⟨tbl, stored⟩ := creates.stored
  obtain ⟨capacity, elements⟩ := unresized t alive
  have room : RoomFor hash w b ↔ t.elements < 47 := by
    constructor
    · intro fits
      exact fits o.key t looked alive fresh
    · intro few key u looked' alive' _
      cases alive.symm.trans alive'
      exact few
  rw [room, creates.table]
  constructor
  · intro few
    obtain ⟨roomy, _⟩ := roomy_of_room (v := ⟨o.flow, .dirIn⟩) capacity elements
      (fun _ : t.pairs.lookup (hash o.key) = none => few)
    obtain ⟨m, result, kept, _⟩ := set3_roomy alive roomy
    cases result.symm.trans stored
    rw [get_live kept, congrFun (Table.lookup_store t (hash o.key) _) (hash o.key),
      Function.update_self]
  · intro full k
    obtain ⟨m, _, result, freed, _⟩ := set3_crowded alive
      (crowded_of_full (v := (⟨o.flow, .dirIn⟩ : EntryAddr)) capacity fresh full)
    cases result.symm.trans stored
    simp only [HashHeap.get, freed]

/-- A packet seen twice is tracked as if seen once exactly when it does not fill the hash
table and its segment does not move its flow on. -/
theorem retransmission_harmless_iff {nThreads : Nat} {bufs : Nat → Buffer} {cs : List Call}
    {s : VppSys} {p q : Buffer} {o : InputOutcome (Heap UInt64 EntryAddr) Nat}
    (reached : run (step (vppPlatform hash wheel)) (initial (vppPlatform hash wheel) nThreads bufs)
      cs = .ok s)
    (tcp : (ip4PreProcess p).1.ipProtocol = IP_PROTOCOL_TCP) (copy : Copy p q)
    (first : received (vppPlatform hash wheel) s.wrk p = .ok o) :
    (∃ o', received (vppPlatform hash wheel) o.wrk q = .ok o' ∧ SameTracking o.wrk o'.wrk) ↔
      RoomFor hash s.wrk (ip4PreProcess p).1 ∧
        ¬ MovesOn (stateFound (vppPlatform hash wheel) s.wrk (ip4PreProcess p).1)
          (ip4PreProcess p).1.tcpEvent := by
  have unresized := run_unresized reached
  simp only [received, preProcess_copy copy] at first ⊢
  generalize (ip4PreProcess p).1 = b at tcp first ⊢
  have kept := input_shaped unresized.shaped first
  obtain ⟨h, handler, key, _, effect⟩ := ip4InputProcess_cases unresized.shaped first
  have looked : ip4LookupKey b = some o.key := lookupKey_of_parsed handler key
  cases handler.symm.trans (protocolHandlerGet_eq_tcp.mpr tcp)
  rcases effect with creates | ⟨a, f, finds⟩
  · obtain ⟨fits, lost⟩ := created_lookup
      (fun t alive => ⟨unresized.capacity t alive, unresized.elements t alive⟩) looked creates
    have found : stateFound (vppPlatform hash wheel) s.wrk b = .start := by
      rw [stateFound, flowFound_of_creates looked creates]
      rfl
    have after := creates.after
    have pointer := (kept.flow _ _ after).inPointer
    by_cases room : RoomFor hash s.wrk b
    · rw [again_same_iff kept tcp looked (fits room) after pointer rfl, found, and_iff_right room,
        ← transfer_twice .start b.tcpEvent .dirIn]
      have state : (ProtocolHandler.tcp.started (vppPlatform hash wheel) s.wrk.tw b .dirIn
          (ip4NewFlow b o.key o.flow)).2.state = tcpStateTransfer .start b.tcpEvent .dirIn := by
        rw [ProtocolHandler.started, settle_state, tcpInitFlow]
      rw [state]
    · refine iff_of_false ?_ fun both => room both.1
      rintro ⟨o', again, _⟩
      obtain ⟨h', handler', _, _, creates' | ⟨a, f, finds⟩⟩ := ip4InputProcess_cases kept again
      · exact absurd ((lost room _).symm.trans creates'.unbound) (by simp)
      · exact absurd ((lost room _).symm.trans finds.bound) (by simp)
  · have room : RoomFor hash s.wrk b := by
      intro key' t looked' alive fresh
      cases looked.symm.trans looked'
      have bound := finds.bound
      obtain ⟨u, alive', here⟩ := live_of_get bound
      cases alive.symm.trans alive'
      exact absurd (fresh.symm.trans here) (by simp)
    have found : stateFound (vppPlatform hash wheel) s.wrk b = f.state := by
      rw [stateFound, flowFound_of_finds looked finds]
      rfl
    have after := finds.after
    have bound : get o.wrk.mem o.wrk.flowsHashTable (hash o.key) =
        some (some ⟨o.flow, o.direction⟩) := by
      rw [finds.mem, finds.table, finds.index, finds.direction]
      exact finds.bound
    have pointer := (identity_pointer (identity_updated (vppPlatform hash wheel) .tcp s.wrk.tw b
      o.direction f) o.direction).trans (finds.direction ▸ finds.pointer)
    rw [again_same_iff kept tcp looked bound after pointer rfl, found, and_iff_right room,
      ← transfer_twice f.state b.tcpEvent o.direction]
    have state : (ProtocolHandler.tcp.updated (vppPlatform hash wheel) s.wrk.tw b o.direction
        f).2.state = tcpStateTransfer f.state b.tcpEvent o.direction := by
      rw [ProtocolHandler.updated, settle_state]
      rfl
    rw [state]

def growingPlatform : Platform (Heap UInt64 EntryAddr) Nat :=
  vppPlatform portHash (TimerWheel.slotted noHandle)

def growingStart : VppSys := initial growingPlatform 0 (fun _ => clientSyn.buffer 0)

/-- The client's SYN once more, in a buffer with other metadata. -/
def synCopy : Buffer := { clientSyn.buffer 0 with l3HdrOffset := 9, unused0 := 3, flowIndex := 7 }

theorem synCopy_harmless_iff :
    ∃ o, received growingPlatform growingStart.wrk (clientSyn.buffer 0) = .ok o ∧
      ((∃ o', received growingPlatform o.wrk synCopy = .ok o' ∧ SameTracking o.wrk o'.wrk) ↔
        RoomFor portHash growingStart.wrk (ip4PreProcess (clientSyn.buffer 0)).1 ∧
          ¬ MovesOn (stateFound growingPlatform growingStart.wrk
            (ip4PreProcess (clientSyn.buffer 0)).1)
            (ip4PreProcess (clientSyn.buffer 0)).1.tcpEvent) := by
  obtain ⟨o, first, _⟩ := completed InputOutcome.created
    (x := received growingPlatform growingStart.wrk (clientSyn.buffer 0)) (b := true)
    (by decide +kernel)
  exact ⟨o, first, retransmission_harmless_iff (run_nil (step growingPlatform) growingStart)
    (by decide +kernel) ⟨rfl, rfl, rfl⟩ first⟩

/-- A SYN sent twice is taken for a SYN and its answer. -/
theorem retransmitted_syn_received :
    ∃ o o', received growingPlatform growingStart.wrk (clientSyn.buffer 0) = .ok o ∧
      received growingPlatform o.wrk synCopy = .ok o' ∧
      o.wrk.flows.elts.map Flow.state = [.synSent] ∧
      o'.wrk.flows.elts.map Flow.state = [.synRcvd] ∧ ¬ SameTracking o.wrk o'.wrk := by
  obtain ⟨o, first, facts⟩ := completed
    (x := received growingPlatform growingStart.wrk (clientSyn.buffer 0))
    (fun o => (o.wrk.flows.elts.map Flow.state,
      (received growingPlatform o.wrk synCopy).toOption.map
        fun o' => o'.wrk.flows.elts.map Flow.state))
    (b := ([.synSent], some [.synRcvd])) (by decide +kernel)
  obtain ⟨once, again⟩ := Prod.mk.inj facts
  obtain ⟨o', second, twice⟩ := completed _ again
  refine ⟨o, o', first, second, once, twice, ?_⟩
  intro same
  have states := congrArg (Option.map Flow.state) (same.flows 0)
  have at0 := congrArg (fun l : List TcpState => l[0]?) once
  have at0' := congrArg (fun l : List TcpState => l[0]?) twice
  simp only [List.getElem?_map] at at0 at0'
  rw [Option.map_map, Option.map_map] at states
  exact absurd (at0'.symm.trans (states.trans at0)) (by decide)

end FlowTable
