import VppPlugins.FlowTable.TableGrowth

/-! What taking the table as a map leaves out is the loss of the table only: as long as
calls complete, flows, timers and packets are those of a worker that keeps a map. -/
namespace FlowTable
open Faults Runs HashHeap

variable {hash : FlowKey → UInt64} {wheel : TimerWheel.Policy}

structure Matches (hash : FlowKey → UInt64) (s : VppSys) (m : MapSys) : Prop where
  shaped : s.wrk.Shaped
  sound : m.Sound hash
  flows : m.wrk.flows = s.wrk.flows
  tw : m.wrk.tw = s.wrk.tw
  bufs : m.bufs = s.bufs
  history : m.history = s.history
  table : ∀ t, s.wrk.mem.live s.wrk.flowsHashTable = some t →
    ∀ h, t.pairs.lookup h = m.wrk.mem h

theorem started_congr {Mem Tbl Mem' Tbl' : Type} {P : Platform Mem Tbl} {Q : Platform Mem' Tbl'}
    (same : P.wheel.pick = Q.wheel.pick) (h : ProtocolHandler) (tw : TimerWheel) (b : Buffer)
    (d : FlowDir) (f : Flow) : h.started P tw b d f = h.started Q tw b d f := by
  cases h with
  | tcp =>
      simp only [ProtocolHandler.started, tcpSettle, flowExpirationTimerUpdate,
        flowExpirationTimerSet, same]
  | unimplemented => rfl
  | icmp => rfl
  | udp => rfl

theorem updated_congr {Mem Tbl Mem' Tbl' : Type} {P : Platform Mem Tbl} {Q : Platform Mem' Tbl'}
    (same : P.wheel.pick = Q.wheel.pick) (h : ProtocolHandler) (tw : TimerWheel) (b : Buffer)
    (d : FlowDir) (f : Flow) : h.updated P tw b d f = h.updated Q tw b d f := by
  cases h with
  | tcp =>
      simp only [ProtocolHandler.updated, tcpSettle, flowExpirationTimerUpdate,
        flowExpirationTimerSet, same]
  | unimplemented => rfl
  | icmp => rfl
  | udp => rfl

theorem getFlow_congr {Mem Tbl Mem' Tbl' : Type} {w : Worker Mem Tbl} {v : Worker Mem' Tbl'}
    (same : w.flows = v.flows) (b : Buffer) : vlibBufferGetFlow w b = vlibBufferGetFlow v b := by
  simp only [vlibBufferGetFlow, flowTableGetFlowByIndex, same]

/-- Equal pools stay equal when the same flow is put into the same element. -/
theorem replaced_congr {p q p' q' : FixedPool Flow} {i : Nat} {f : Flow} (same : q = p)
    (cap : p'.cap = p.cap) (flows : ∀ j, p'.get? j = if j = i then some f else p.get? j)
    (cap' : q'.cap = q.cap) (flows' : ∀ j, q'.get? j = if j = i then some f else q.get? j) :
    q' = p' := by
  apply FixedPool.ext_get?
  · rw [cap', cap, same]
  · intro j
    rw [flows', flows, same]

theorem presented_matched {s : VppSys} {m : MapSys} {slot : Nat} {h : ProtocolHandler}
    {key : FlowKey} (related : Matches hash s m)
    (handler : protocolHandlerGet (s.bufs slot).ipProtocol = some h)
    (parsed : key = h.parseKey (s.bufs slot) (s.bufs slot).ip4FlowKey) :
    ip4LookupKey (m.bufs slot) = some key := by
  rw [related.bufs]
  exact lookupKey_of_parsed handler parsed

theorem creates_matched {s t : VppSys} {m : MapSys} {slot : Nat} {h : ProtocolHandler}
    {o : InputOutcome (Heap UInt64 EntryAddr) Nat} (related : Matches hash s m)
    (handler : protocolHandlerGet (s.bufs slot).ipProtocol = some h)
    (key : o.key = h.parseKey (s.bufs slot) (s.bufs slot).ip4FlowKey)
    (buf : o.buf = vlibBufferSetFlow (s.bufs slot) o.flow)
    (effect : InputCreates (vppPlatform hash wheel) s.wrk (s.bufs slot) h o)
    (result : t = { wrk := o.wrk, bufs := Function.update s.bufs slot o.buf,
                    history := s.history ++ [o.binding (s.bufs slot) s.wrk.tw.now] })
    (shaped : t.wrk.Shaped) :
    ∃ m', step (mapPlatform hash wheel) m (.input slot) = .ok m' ∧ Matches hash t m' := by
  obtain ⟨tbl, alive, fresh⟩ := live_of_get effect.unbound
  have unbound : m.wrk.mem (hash o.key) = none := (related.table tbl alive _).symm.trans fresh
  have looked := presented_matched related handler key
  have room : m.wrk.flows.size < m.wrk.flows.cap := by rw [related.flows]; exact effect.room
  have completes : ∃ m', step (mapPlatform hash wheel) m (.input slot) = .ok m' :=
    (step_completes_iff related.sound).mpr ⟨o.key, looked, fun _ => room⟩
  obtain ⟨m', done⟩ := completes
  refine ⟨m', done, ?_⟩
  have sound := step_sound related.sound done
  cases step_cases related.sound.shaped done with
  | finds _ h' o' a f handler' key' _ effect' =>
      have same : o'.key = o.key := key_of_looked handler' key' looked
      have bound : m.wrk.mem (hash o'.key) = some a := Option.some.inj effect'.bound
      rw [same, unbound] at bound
      cases bound
  | creates _ h' o' handler' key' buf' effect' =>
      rw [related.bufs] at handler' key' buf'
      cases handler.symm.trans handler'
      have sameKey : o'.key = o.key := key'.trans key.symm
      have sameFlow : o'.flow = o.flow := by rw [effect'.index, effect.index, related.flows]
      have sameBuf : o'.buf = o.buf := by rw [buf', buf, sameFlow]
      have callback := started_congr (P := mapPlatform hash wheel) (Q := vppPlatform hash wheel) rfl h
        s.wrk.tw (s.bufs slot) .dirIn (ip4NewFlow (s.bufs slot) o.key o.flow)
      have flows' := effect'.flows
      rw [related.tw, related.bufs, sameKey, sameFlow, callback] at flows'
      have binding : o'.binding (m.bufs slot) m.wrk.tw.now =
          o.binding (s.bufs slot) s.wrk.tw.now := by
        simp only [InputOutcome.binding, sameFlow, sameKey, effect'.direction, effect.direction,
          effect'.created, effect.created, related.bufs, related.tw]
      obtain ⟨_, stored⟩ := effect.stored
      obtain ⟨_, stored'⟩ := effect'.stored
      rw [result] at shaped ⊢
      refine ⟨shaped, sound, ?_, ?_, ?_, ?_, ?_⟩
      · exact replaced_congr related.flows effect.cap effect.flows effect'.cap flows'
      · dsimp only
        rw [effect'.tw, effect.tw, related.tw, related.bufs, sameKey, sameFlow, callback]
      · rw [related.bufs, sameBuf]
      · rw [related.history, binding]
      · intro u named g
        dsimp only at named ⊢
        rw [effect.table] at named
        rw [stored_mem stored', sameKey, sameFlow]
        exact lookup_of_set3 related.table stored named g

theorem finds_matched {s t : VppSys} {m : MapSys} {slot : Nat} {h : ProtocolHandler}
    {o : InputOutcome (Heap UInt64 EntryAddr) Nat} {a : EntryAddr} {f : Flow}
    (related : Matches hash s m)
    (handler : protocolHandlerGet (s.bufs slot).ipProtocol = some h)
    (key : o.key = h.parseKey (s.bufs slot) (s.bufs slot).ip4FlowKey)
    (buf : o.buf = vlibBufferSetFlow (s.bufs slot) o.flow)
    (effect : InputFinds (vppPlatform hash wheel) s.wrk (s.bufs slot) h o a f)
    (result : t = { wrk := o.wrk, bufs := Function.update s.bufs slot o.buf,
                    history := s.history ++ [o.binding (s.bufs slot) s.wrk.tw.now] })
    (shaped : t.wrk.Shaped) :
    ∃ m', step (mapPlatform hash wheel) m (.input slot) = .ok m' ∧ Matches hash t m' := by
  obtain ⟨tbl, alive, finds⟩ := live_of_get effect.bound
  have bound : m.wrk.mem (hash o.key) = some a := (related.table tbl alive _).symm.trans finds
  have looked := presented_matched related handler key
  have completes : ∃ m', step (mapPlatform hash wheel) m (.input slot) = .ok m' := by
    refine (step_completes_iff related.sound).mpr ⟨o.key, looked, fun unbound => ?_⟩
    rw [bound] at unbound
    cases unbound
  obtain ⟨m', done⟩ := completes
  refine ⟨m', done, ?_⟩
  have sound := step_sound related.sound done
  cases step_cases related.sound.shaped done with
  | creates _ h' o' handler' key' _ effect' =>
      have same : o'.key = o.key := key_of_looked handler' key' looked
      have unbound : m.wrk.mem (hash o'.key) = none := Option.some.inj effect'.unbound
      rw [same, bound] at unbound
      cases unbound
  | finds _ h' o' a' f' handler' key' buf' effect' =>
      rw [related.bufs] at handler' key' buf'
      cases handler.symm.trans handler'
      have sameKey : o'.key = o.key := key'.trans key.symm
      have bound' : m.wrk.mem (hash o'.key) = some a' := Option.some.inj effect'.bound
      rw [sameKey, bound] at bound'
      cases bound'
      have sameFlow : o'.flow = o.flow := effect'.index.trans effect.index.symm
      have sameBuf : o'.buf = o.buf := by rw [buf', buf, sameFlow]
      have sameDir : o'.direction = o.direction := effect'.direction.trans effect.direction.symm
      have found' := effect'.found
      rw [sameFlow, related.flows, effect.found] at found'
      cases found'
      have callback := updated_congr (P := mapPlatform hash wheel) (Q := vppPlatform hash wheel) rfl h
        s.wrk.tw (s.bufs slot) o.direction f
      have flows' := effect'.flows
      rw [related.tw, related.bufs, sameDir, sameFlow, callback] at flows'
      have binding : o'.binding (m.bufs slot) m.wrk.tw.now =
          o.binding (s.bufs slot) s.wrk.tw.now := by
        simp only [InputOutcome.binding, sameFlow, sameKey, sameDir, effect'.created,
          effect.created, related.bufs, related.tw]
      rw [result] at shaped ⊢
      refine ⟨shaped, sound, ?_, ?_, ?_, ?_, ?_⟩
      · exact replaced_congr related.flows effect.cap effect.flows effect'.cap flows'
      · dsimp only
        rw [effect'.tw, effect.tw, related.tw, related.bufs, sameDir, callback]
      · rw [related.bufs, sameBuf]
      · rw [related.history, binding]
      · dsimp only
        rw [effect'.mem, effect.mem, effect.table]
        exact related.table

theorem mirrors_matched {s t : VppSys} {m : MapSys} {slot index : Nat} {f : Flow}
    {w : Worker (Heap UInt64 EntryAddr) Nat} (related : Matches hash s m)
    (effect : OutputMirrors (vppPlatform hash wheel) s.wrk (s.bufs slot) w index f)
    (result : t = { s with wrk := w }) (shaped : t.wrk.Shaped) :
    ∃ m', step (mapPlatform hash wheel) m (.output slot) = .ok m' ∧ Matches hash t m' := by
  have completes : ∃ m', step (mapPlatform hash wheel) m (.output slot) = .ok m' :=
    (step_completes_iff related.sound).mpr trivial
  obtain ⟨m', done⟩ := completes
  refine ⟨m', done, ?_⟩
  have sound := step_sound related.sound done
  have marked : vlibBufferGetFlow m.wrk (m.bufs slot) = some index := by
    rw [related.bufs, getFlow_congr related.flows]
    exact effect.marked
  have found : m.wrk.flows.get? index = some f := by rw [related.flows]; exact effect.found
  cases step_cases related.sound.shaped done with
  | idle _ nothing => exact absurd effect.absent (nothing index f marked found)
  | mirrors _ index' f' w' effect' =>
      cases marked.symm.trans effect'.marked
      cases found.symm.trans effect'.found
      obtain ⟨_, stored⟩ := effect.stored
      obtain ⟨_, stored'⟩ := effect'.stored
      rw [result] at shaped ⊢
      refine ⟨shaped, sound, ?_, ?_, related.bufs, related.history, ?_⟩
      · exact replaced_congr related.flows effect.replaced.cap effect.replaced.flows
          effect'.replaced.cap effect'.replaced.flows
      · exact effect'.replaced.tw.trans (related.tw.trans effect.replaced.tw.symm)
      · intro u named g
        dsimp only at named ⊢
        rw [stored_mem stored']
        exact lookup_of_set3 related.table stored (effect.replaced.table ▸ named) g

theorem idle_matched {s : VppSys} {m : MapSys} {slot : Nat} (related : Matches hash s m)
    (nothing : OutputIdle s.wrk (s.bufs slot)) :
    ∃ m', step (mapPlatform hash wheel) m (.output slot) = .ok m' ∧ Matches hash s m' := by
  have completes : ∃ m', step (mapPlatform hash wheel) m (.output slot) = .ok m' :=
    (step_completes_iff related.sound).mpr trivial
  obtain ⟨m', done⟩ := completes
  refine ⟨m', done, ?_⟩
  cases step_cases related.sound.shaped done with
  | idle _ _ => exact related
  | mirrors _ index f w effect =>
      have marked : vlibBufferGetFlow s.wrk (s.bufs slot) = some index := by
        rw [← related.bufs, ← getFlow_congr related.flows]
        exact effect.marked
      have found : s.wrk.flows.get? index = some f := by rw [← related.flows]; exact effect.found
      exact absurd effect.absent (nothing index f marked found)

theorem step_matched {s t : VppSys} {m : MapSys} {c : Call} (related : Matches hash s m)
    (done : step (vppPlatform hash wheel) s c = .ok t) :
    ∃ m', step (mapPlatform hash wheel) m c = .ok m' ∧ Matches hash t m' := by
  have shaped := step_shaped related.shaped done
  cases step_cases related.shaped done with
  | receive slot b =>
      refine ⟨_, rfl, shaped, ⟨related.sound.shaped, related.sound.directory⟩, related.flows,
        related.tw, ?_, related.history, related.table⟩
      rw [related.bufs]
  | preProcess slot =>
      refine ⟨_, rfl, shaped, ⟨related.sound.shaped, related.sound.directory⟩, related.flows,
        related.tw, ?_, related.history, related.table⟩
      rw [related.bufs]
  | creates slot h o handler key buf effect =>
      exact creates_matched related handler key buf effect rfl shaped
  | finds slot h o a f handler key buf effect =>
      exact finds_matched related handler key buf effect rfl shaped
  | idle slot nothing => exact idle_matched related nothing
  | mirrors slot index f w effect => exact mirrors_matched related effect rfl shaped
  | advance ticks =>
      have forward : step (mapPlatform hash wheel) m (.advance ticks) =
          .ok { m with wrk := (flowTableTimerUpdateTime (mapPlatform hash wheel) m.wrk ticks).1 } :=
        rfl
      refine ⟨_, forward, shaped, step_sound related.sound forward, related.flows, ?_,
        related.bufs, related.history, related.table⟩
      simp only [flowTableTimerUpdateTime, related.tw]
      rfl

theorem initial_matched (hash : FlowKey → UInt64) (wheel : TimerWheel.Policy) (nThreads : Nat)
    (bufs : Nat → Buffer) :
    Matches hash (initial (vppPlatform hash wheel) nThreads bufs)
      (initial (mapPlatform hash wheel) nThreads bufs) := by
  refine ⟨initial_shaped _ nThreads bufs, initial_sound hash wheel nThreads bufs, rfl, rfl, rfl,
    rfl, ?_⟩
  intro t alive h
  have created : t = { capacity := 64, pairs := ∅ } := (Option.some.inj alive).symm
  rw [created]
  rfl

/-- A run the worker completes is a run of the worker with a map: the flows, the wheel, the
packets and the bindings are the same, and so is what the table finds while it lives. -/
theorem vpp_run_refines_map {nThreads : Nat} {bufs : Nat → Buffer} {cs : List Call} {s : VppSys}
    (done : run (step (vppPlatform hash wheel)) (initial (vppPlatform hash wheel) nThreads bufs) cs =
      .ok s) :
    ∃ m, run (step (mapPlatform hash wheel)) (initial (mapPlatform hash wheel) nThreads bufs) cs =
      .ok m ∧ Matches hash s m :=
  run_simulates (fun _ _ _ _ => step_matched) (initial_matched hash wheel nThreads bufs) done

theorem connection_refines_map :
    ∃ s m, run (step (vppPlatform portHash (TimerWheel.slotted noHandle)))
        (initial (vppPlatform portHash (TimerWheel.slotted noHandle)) 0 fun _ => clientSyn.buffer 0)
        inTurn = .ok s ∧
      run (step portPlatform) portStart inTurn = .ok m ∧ Matches portHash s m := by
  obtain ⟨s, done, -⟩ := completed (fun s => s.wrk.flows.size)
    (x := run (step (vppPlatform portHash (TimerWheel.slotted noHandle)))
      (initial (vppPlatform portHash (TimerWheel.slotted noHandle)) 0 fun _ => clientSyn.buffer 0)
      inTurn)
    (b := 1) (by decide +kernel)
  obtain ⟨m, same, related⟩ := vpp_run_refines_map done
  exact ⟨s, m, done, same, related⟩

end FlowTable
