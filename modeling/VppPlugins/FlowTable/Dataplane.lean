import VppPlugins.FlowTable.Startup
import VppPlugins.Vnetfilter.NodeLoop
import VppPlugins.Library.Composition

/-! The plugin inside VPP's graph: the hook nodes of `node.c` run the functions that
`process.h` registers, frame by frame, and the timer node runs between them. -/
namespace FlowTable
open Faults Runs Vnetfilter Chains

variable {Mem Tbl A : Type}

/-! `ip6_process.c` -/

def ip6PreProcess (b : Buffer) : Buffer × VnetfilterAction := (b, .accept)
def ip6InputProcess (b : Buffer) : Buffer × VnetfilterAction := (b, .accept)
def ip6OutputProcess (b : Buffer) : Buffer × VnetfilterAction := (b, .accept)

/-- A function that works on the packet only. -/
def Sys.onPacket (s : Sys Mem Tbl) (slot : Nat) (r : Buffer × VnetfilterAction) :
    Sys Mem Tbl × VnetfilterAction :=
  ({ s with bufs := Function.update s.bufs slot r.1 }, r.2)

/-- A call of a hook function on the packet in a buffer. -/
def applyHook (P : Platform Mem Tbl) (slot : Nat) (s : Sys Mem Tbl) :
    HookFunction → Except Fault (Sys Mem Tbl × VnetfilterAction)
  | .ip4PreProcess => pure (s.onPacket slot (ip4PreProcess (s.bufs slot)))
  | .ip4InputProcess => do
      let o ← ip4InputProcess P s.wrk (s.bufs slot)
      pure
        ({ wrk := o.wrk, bufs := Function.update s.bufs slot o.buf,
           history := s.history ++ [o.binding (s.bufs slot) s.wrk.tw.now] }, o.action)
  | .ip4OutputProcess => do
      let (wrk, action) ← ip4OutputProcess P s.wrk (s.bufs slot)
      pure ({ s with wrk }, action)
  | .ip6PreProcess => pure (s.onPacket slot (ip6PreProcess (s.bufs slot)))
  | .ip6InputProcess => pure (s.onPacket slot (ip6InputProcess (s.bufs slot)))
  | .ip6OutputProcess => pure (s.onPacket slot (ip6OutputProcess (s.bufs slot)))

/-- What the hook nodes of a thread work on: the worker with its buffers, or the fault that
ended the process, and what VPP keeps about the packets' ways through the feature arcs. -/
structure Shared (Mem Tbl A : Type) where
  process : Except Fault (Sys Mem Tbl)
  arc : A

/-- No call comes back from a faulted process, so the answer there is of no account. -/
def callHook (P : Platform Mem Tbl) (f : HookFunction) (slot : Nat) (s : Shared Mem Tbl A) :
    VnetfilterAction × Shared Mem Tbl A :=
  match s.process with
  | .error _ => (.stop, s)
  | .ok sys =>
      match applyHook P slot sys f with
      | .ok (sys, action) => (action, { s with process := .ok sys })
      | .error e => (.stop, { s with process := .error e })

/-- VPP's part: `vnet_feature_next_u16` and the trace flag of a buffer. -/
structure Graph (A : Type) where
  featureNext : Nat → A → UInt16 × A
  isTraced : Nat → Bool

def Graph.vlib (g : Graph A) (P : Platform Mem Tbl) : Vlib HookFunction Nat (Shared Mem Tbl A) where
  getBuffer := UInt32.toNat
  call := callHook P
  featureNext := fun slot s => ((g.featureNext slot s.arc).1,
    { s with arc := (g.featureNext slot s.arc).2 })
  isTraced := g.isTraced
  swIfIndexRx := fun slot s =>
    match s.process with
    | .ok sys => (sys.bufs slot).swIfIndexRx
    | .error _ => 0

/-- A thread; `enqueued` records the calls of `vlib_buffer_enqueue_to_next`, oldest first,
each with its packets and their next indices. -/
structure Thread (Mem Tbl A : Type) where
  sys : Sys Mem Tbl
  arc : A
  enqueued : List (List (UInt32 × UInt16))

inductive ThreadFault where
  | node (e : NodeFault)
  | call (e : Fault)
  deriving DecidableEq, Repr

/-- What runs on a thread: a hook node on a frame, with any bytes in its stack array, the
timer node, and the other nodes, which write packets and move them through the arcs. -/
inductive NodeCall (A : Type) where
  | receive (slot : Nat) (b : Buffer)
  | arcs (f : A → A)
  | hook (point : HookPoint) (trace : Bool) (frame : VlibFrame)
      (nexts : Vector UInt16 VLIB_FRAME_SIZE)
  | timer (ticks : Nat)

def nodeStep (P : Platform Mem Tbl) (g : Graph A) (lists : HookLists HookFunction)
    (t : Thread Mem Tbl A) : NodeCall A → Except ThreadFault (Thread Mem Tbl A)
  | .receive slot b =>
      .ok { t with sys := { t.sys with bufs := Function.update t.sys.bufs slot b } }
  | .arcs f => .ok { t with arc := f t.arc }
  | .hook point trace frame nexts =>
      match hookNode (g.vlib P) lists point trace frame nexts ⟨.ok t.sys, t.arc⟩ with
      | .error e => .error (.node e)
      | .ok r =>
          match r.final.shared.process with
          | .error e => .error (.call e)
          | .ok sys =>
              .ok
                { sys, arc := r.final.shared.arc,
                  enqueued := t.enqueued ++
                    [r.enqueued.buffers.zip (r.enqueued.nexts.take r.enqueued.count)] }
  | .timer ticks =>
      .ok { t with sys := { t.sys with wrk := (flowTableTimerUpdateTime P t.sys.wrk ticks).1 } }

/-! The calls on single packets behind a node's run. -/

def HookFunction.calls (slot : Nat) : HookFunction → List Call
  | .ip4PreProcess => [.preProcess slot]
  | .ip4InputProcess => [.input slot]
  | .ip4OutputProcess => [.output slot]
  | .ip6PreProcess | .ip6InputProcess | .ip6OutputProcess => []

/-- The calls a node makes for one packet when its hooks are the plugin's. -/
def pluginCalls (slot : Nat) : HookPoint → List Call
  | .l2InputIp4 => [.preProcess slot, .input slot]
  | .l2OutputIp4 => [.output slot]
  | .l2InputIp6 | .l2OutputIp6 => []

def NodeCall.calls : NodeCall A → List Call
  | .receive slot b => [.receive slot b]
  | .arcs _ => []
  | .hook point _ frame _ => frame.vectorArgs.flatMap fun bi => pluginCalls bi.toNat point
  | .timer ticks => [.advance ticks]

theorem apply_calls (P : Platform Mem Tbl) (slot : Nat) (s : Sys Mem Tbl) (f : HookFunction) :
    (applyHook P slot s f).map Prod.fst = run (step P) s (f.calls slot) := by
  cases f with
  | ip4PreProcess => rfl
  | ip4InputProcess =>
      rw [applyHook, HookFunction.calls, run, step]
      cases ip4InputProcess P s.wrk (s.bufs slot) with
      | ok o => rfl
      | error e => rfl
  | ip4OutputProcess =>
      rw [applyHook, HookFunction.calls, run, step]
      cases ip4OutputProcess P s.wrk (s.bufs slot) with
      | ok o => rfl
      | error e => rfl
  | ip6PreProcess =>
      change Except.ok { s with bufs := Function.update s.bufs slot (s.bufs slot) } = _
      rw [Function.update_eq_self]
      rfl
  | ip6InputProcess =>
      change Except.ok { s with bufs := Function.update s.bufs slot (s.bufs slot) } = _
      rw [Function.update_eq_self]
      rfl
  | ip6OutputProcess =>
      change Except.ok { s with bufs := Function.update s.bufs slot (s.bufs slot) } = _
      rw [Function.update_eq_self]
      rfl

theorem outputProcess_action {P : Platform Mem Tbl} {w w' : Worker Mem Tbl} {b : Buffer}
    {action : VnetfilterAction} (done : ip4OutputProcess P w b = .ok (w', action)) :
    action = .accept ∨ action = .stop := by
  rw [ip4OutputProcess] at done
  split at done
  · cases pure_ok.mp done
    exact .inr rfl
  · simp only [bind_ok] at done
    obtain ⟨flow, -, rest⟩ := done
    split at rest
    · simp only [bind_ok] at rest
      obtain ⟨r, -, last⟩ := rest
      cases pure_ok.mp last
      exact .inl rfl
    · cases pure_ok.mp rest
      exact .inl rfl

theorem inputProcess_action {P : Platform Mem Tbl} {w : Worker Mem Tbl} {b : Buffer}
    {o : InputOutcome Mem Tbl} (done : ip4InputProcess P w b = .ok o) : o.action = .accept := by
  simp only [ip4InputProcess, bind_ok] at done
  obtain ⟨handler, -, entries, -, rest⟩ := done
  cases entries with
  | none =>
      simp only [bind_ok] at rest
      obtain ⟨p, -, m, -, w', -, last⟩ := rest
      cases pure_ok.mp last
      rfl
  | some flowEntry =>
      simp only [bind_ok] at rest
      obtain ⟨flow, -, w', -, last⟩ := rest
      cases pure_ok.mp last
      rfl

/-- Only the output hook ever ends a chain, and no hook drops or steals a packet. -/
theorem apply_action {P : Platform Mem Tbl} {slot : Nat} {s t : Sys Mem Tbl} {f : HookFunction}
    {action : VnetfilterAction} (done : applyHook P slot s f = .ok (t, action)) :
    action = .accept ∨ f = .ip4OutputProcess ∧ action = .stop := by
  cases f with
  | ip4InputProcess =>
      simp only [applyHook, bind_ok] at done
      obtain ⟨o, called, last⟩ := done
      cases pure_ok.mp last
      exact .inl (inputProcess_action called)
  | ip4OutputProcess =>
      simp only [applyHook, bind_ok] at done
      obtain ⟨⟨w, a⟩, called, last⟩ := done
      cases pure_ok.mp last
      exact (outputProcess_action called).imp_right fun stops => ⟨rfl, stops⟩
  | ip4PreProcess => cases pure_ok.mp done; exact .inl rfl
  | ip6PreProcess => cases pure_ok.mp done; exact .inl rfl
  | ip6InputProcess => cases pure_ok.mp done; exact .inl rfl
  | ip6OutputProcess => cases pure_ok.mp done; exact .inl rfl

/-! A chain of the hooks, and a frame of packets through it. -/

/-- A chain that a function other than the last one never ends. -/
def LastDecides (fs : List HookFunction) : Prop := ∀ f ∈ fs.dropLast, f ≠ .ip4OutputProcess

theorem LastDecides.tail {f : HookFunction} {fs : List HookFunction} (last : LastDecides (f :: fs)) :
    LastDecides fs := by
  cases fs with
  | nil => exact fun _ member => (List.not_mem_nil member).elim
  | cons g fs => exact fun h member => last h (List.mem_cons_of_mem _ member)

theorem LastDecides.eq_nil {fs : List HookFunction} (last : LastDecides (.ip4OutputProcess :: fs)) :
    fs = [] := by
  cases fs with
  | nil => rfl
  | cons g fs => exact absurd rfl (last _ List.mem_cons_self)

/-- The calls of a chain of functions on one packet. -/
def chainCalls (fs : List HookFunction) (slot : Nat) : List Call :=
  fs.flatMap (HookFunction.calls slot)

theorem runChain_faulted (P : Platform Mem Tbl) (slot : Nat) (fs : List HookFunction) (e : Fault)
    (arc : A) :
    (runChain (onBuffer (callHook P) slot) .accept fs ⟨.error e, arc⟩).state = ⟨.error e, arc⟩ := by
  cases fs with
  | nil => rfl
  | cons f fs => rfl

theorem runChain_calls (P : Platform Mem Tbl) (slot : Nat) {fs : List HookFunction}
    (last : LastDecides fs) (s : Sys Mem Tbl) (arc : A) :
    (runChain (onBuffer (callHook P) slot) .accept fs ⟨.ok s, arc⟩).state =
      ⟨run (step P) s (chainCalls fs slot), arc⟩ := by
  induction fs generalizing s with
  | nil => rfl
  | cons f fs ih =>
      have alone := apply_calls P slot s f
      rw [chainCalls, List.flatMap_cons, run_append, ← alone]
      cases called : applyHook P slot s f with
      | error e =>
          have answer : onBuffer (callHook P) slot f (⟨.ok s, arc⟩ : Shared Mem Tbl A) =
              (.stop, ⟨.error e, arc⟩) := by
            simp only [onBuffer, callHook, called]
          have stops : (onBuffer (callHook P) slot f (⟨.ok s, arc⟩ : Shared Mem Tbl A)).1 ≠
              .accept := by
            rw [answer]
            exact VnetfilterAction.noConfusion
          rw [runChain_stop stops, answer]
          rfl
      | ok r =>
          obtain ⟨t, action⟩ := r
          have answer : onBuffer (callHook P) slot f (⟨.ok s, arc⟩ : Shared Mem Tbl A) =
              (action, ⟨.ok t, arc⟩) := by
            simp only [onBuffer, callHook, called]
          rcases apply_action called with rfl | ⟨rfl, rfl⟩
          · rw [runChain_go (congrArg Prod.fst answer), answer]
            exact ih last.tail t
          · have stops : (onBuffer (callHook P) slot .ip4OutputProcess
                (⟨.ok s, arc⟩ : Shared Mem Tbl A)).1 ≠ .accept := by
              rw [answer]
              exact VnetfilterAction.noConfusion
            rw [runChain_stop stops, answer, last.eq_nil]
            rfl

/-- What a faulted call answers is `stop` as well, so the chain's answer is always one that
sends the packet on. -/
theorem runChain_decides (P : Platform Mem Tbl) (slot : Nat) (fs : List HookFunction)
    (s : Shared Mem Tbl A) :
    (runChain (onBuffer (callHook P) slot) .accept fs s).decision = .accept ∨
      (runChain (onBuffer (callHook P) slot) .accept fs s).decision = .stop := by
  induction fs generalizing s with
  | nil => exact .inl rfl
  | cons f fs ih =>
      by_cases goes : (onBuffer (callHook P) slot f s).1 = .accept
      · rw [runChain_go goes]
        exact ih _
      · rw [runChain_stop goes]
        refine .inr ?_
        obtain ⟨process, arc⟩ := s
        cases process with
        | error e => rfl
        | ok s =>
            simp only [onBuffer, callHook] at goes ⊢
            cases called : applyHook P slot s f with
            | error e => rfl
            | ok r =>
                rw [called] at goes
                exact ((apply_action called).resolve_left goes).2

/-- The next indices that a sequence of packets gets from its arcs, and the arcs afterwards. -/
def Graph.forward (g : Graph A) : List Nat → A → List UInt16 × A
  | [], arc => ([], arc)
  | slot :: slots, arc =>
      let (next, arc) := g.featureNext slot arc
      let (nexts, arc) := g.forward slots arc
      (next :: nexts, arc)

/-- The hooks on one packet: the calls of the chain, and then its arc alone decides. -/
theorem hookProcess_calls (P : Platform Mem Tbl) (g : Graph A)
    {processList : List (HookProcess HookFunction)} (last : LastDecides (functions processList))
    (slot : Nat) (process : Except Fault (Sys Mem Tbl)) (arc : A) :
    (vnetfilterHookProcess (g.vlib P) processList slot ⟨process, arc⟩).next =
        (g.featureNext slot arc).1 ∧
      (vnetfilterHookProcess (g.vlib P) processList slot ⟨process, arc⟩).state =
        ⟨process.bind fun s => run (step P) s (chainCalls (functions processList) slot),
          (g.featureNext slot arc).2⟩ := by
  have state : (hookChain (callHook P) processList slot ⟨process, arc⟩).state =
      ⟨process.bind fun s => run (step P) s (chainCalls (functions processList) slot), arc⟩ := by
    rw [hookChain_eq]
    cases process with
    | error e => exact runChain_faulted P slot _ e arc
    | ok s => exact runChain_calls P slot last s arc
  have decides := runChain_decides P slot (functions processList) (⟨process, arc⟩ : Shared Mem Tbl A)
  rw [← hookChain_eq] at decides
  simp only [vnetfilterHookProcess, Graph.vlib]
  rcases decides with accepts | stops
  · rw [accepts, state]
    exact ⟨rfl, rfl⟩
  · rw [stops, state]
    exact ⟨rfl, rfl⟩

theorem oneAtATime_calls (P : Platform Mem Tbl) (g : Graph A)
    {processList : List (HookProcess HookFunction)} (last : LastDecides (functions processList))
    (slots : List Nat) (process : Except Fault (Sys Mem Tbl)) (arc : A) :
    (oneAtATime (g.vlib P) processList slots ⟨process, arc⟩).nexts = (g.forward slots arc).1 ∧
      (oneAtATime (g.vlib P) processList slots ⟨process, arc⟩).shared =
        ⟨process.bind fun s =>
            run (step P) s (slots.flatMap (chainCalls (functions processList))),
          (g.forward slots arc).2⟩ := by
  induction slots generalizing process arc with
  | nil =>
      refine ⟨rfl, ?_⟩
      cases process with
      | error e => rfl
      | ok s => rfl
  | cons slot slots ih =>
      obtain ⟨next, state⟩ := hookProcess_calls P g last slot process arc
      obtain ⟨nexts, shared⟩ := ih
        (process.bind fun s => run (step P) s (chainCalls (functions processList) slot))
        (g.featureNext slot arc).2
      rw [oneAtATime, state, next, nexts, shared]
      refine ⟨rfl, ?_⟩
      simp only [Graph.forward, List.flatMap_cons]
      congr 1
      cases process with
      | error e => rfl
      | ok s => exact (run_append (step P) s _ _).symm

/-! Runs of a thread. -/

theorem nodeStep_hook (P : Platform Mem Tbl) (g : Graph A) {lists : HookLists HookFunction}
    {point : HookPoint} (last : LastDecides (functions (lists point))) (trace : Bool)
    (frame : VlibFrame) (stack : Vector UInt16 VLIB_FRAME_SIZE) (t : Thread Mem Tbl A) :
    nodeStep P g lists t (.hook point trace frame stack) =
      ((run (step P) t.sys ((frame.vectorArgs.map UInt32.toNat).flatMap
        (chainCalls (functions (lists point))))).mapError .call).map fun sys =>
          { sys, arc := (g.forward (frame.vectorArgs.map UInt32.toNat) t.arc).2,
            enqueued := t.enqueued ++ [frame.vectorArgs.zip
              (g.forward (frame.vectorArgs.map UInt32.toNat) t.arc).1] } := by
  obtain ⟨r, ran, final, enqueued, -⟩ := inline_progress (g.vlib P) frame trace (lists point) stack
    (⟨.ok t.sys, t.arc⟩ : Shared Mem Tbl A)
  obtain ⟨nexts, shared⟩ := oneAtATime_calls P g last (frame.vectorArgs.map UInt32.toNat)
    (.ok t.sys) t.arc
  have node : hookNode (g.vlib P) lists point trace frame stack ⟨.ok t.sys, t.arc⟩ = .ok r := by
    cases trace with
    | false => exact ran
    | true => exact ran
  have size : (frame.vectorArgs.map UInt32.toNat).length = frame.nVectors := List.length_map ..
  have written : r.final.nexts.take (frame.vectorArgs.map UInt32.toNat).length =
      (oneAtATime (g.vlib P) (lists point) (frame.vectorArgs.map UInt32.toNat)
        ⟨.ok t.sys, t.arc⟩).nexts := final.written
  have left : r.final.shared =
      (oneAtATime (g.vlib P) (lists point) (frame.vectorArgs.map UInt32.toNat)
        ⟨.ok t.sys, t.arc⟩).shared := final.shared
  rw [size] at written
  simp only [nodeStep, node, left, shared, enqueued, written, nexts, Except.bind]
  cases run (step P) t.sys ((frame.vectorArgs.map UInt32.toNat).flatMap
      (chainCalls (functions (lists point)))) with
  | ok s => rfl
  | error e => rfl

/-- The hooks of `for_each_flow_table_hook` once they are registered. -/
def registeredHooks : HookLists HookFunction :=
  forEachFlowTableHook.foldl
    (fun lists row => (hookRegister lists row.2.2 (some ⟨row.1, row.2.1⟩)).2) .empty

theorem registered_lastDecides (point : HookPoint) :
    LastDecides (functions (registeredHooks point)) := by
  unfold LastDecides
  cases point <;> decide

theorem registered_calls (point : HookPoint) (slot : Nat) :
    chainCalls (functions (registeredHooks point)) slot = pluginCalls slot point := by
  cases point <;> rfl

theorem nodeStep_calls (P : Platform Mem Tbl) (g : Graph A) (t : Thread Mem Tbl A)
    (n : NodeCall A) :
    (nodeStep P g registeredHooks t n).map Thread.sys =
      (run (step P) t.sys n.calls).mapError .call := by
  cases n with
  | receive slot b => rfl
  | arcs f => rfl
  | timer ticks => rfl
  | hook point trace frame stack =>
      rw [nodeStep_hook P g (registered_lastDecides point), NodeCall.calls, List.flatMap_map]
      simp only [registered_calls]
      cases run (step P) t.sys (frame.vectorArgs.flatMap fun bi => pluginCalls bi.toNat point) with
      | ok s => rfl
      | error e => rfl

/-- What a run of nodes does to the thread is what the calls on single packets do, frame
after frame and packet after packet, faults included: whatever order the start-up functions
ran in, however the packets are put into frames, with tracing on or off. -/
theorem dataplane_refines_calls (P : Platform Mem Tbl) (nThreads : Nat) (order : StartupOrder)
    (g : Graph A) (bufs : Nat → Buffer) (arc : A) (ns : List (NodeCall A)) :
    ∃ s w, startup P nThreads order = .ok s ∧ s.wrkCtx = some w ∧
      (run (nodeStep P g s.hookLists) ⟨⟨w, bufs, []⟩, arc, []⟩ ns).map Thread.sys =
        (run (step P) (initial P nThreads bufs) (ns.flatMap NodeCall.calls)).mapError .call := by
  obtain ⟨s, started, -, lists, context⟩ := startup_completes P nThreads order
  refine ⟨s, _, started, context, ?_⟩
  have hooks : s.hookLists = registeredHooks := lists
  rw [hooks]
  exact run_expands (nodeStep_calls P g) _ ns

/-- Two threads for the rest of the graph: their packets stand in the same arcs and were
handed on alike. -/
structure SameTraffic (t u : Thread Mem Tbl A) : Prop where
  arc : t.arc = u.arc
  enqueued : t.enqueued = u.enqueued

theorem empty_step (P : Platform Mem Tbl) (g : Graph A) {t u v : Thread Mem Tbl A} {n : NodeCall A}
    (same : SameTraffic t u) (done : nodeStep P g registeredHooks t n = .ok v) :
    ∃ w, nodeStep P g .empty u n = .ok w ∧ SameTraffic v w := by
  cases n with
  | receive slot b =>
      cases done
      exact ⟨_, rfl, same.arc, same.enqueued⟩
  | arcs f =>
      cases done
      exact ⟨_, rfl, congrArg f same.arc, same.enqueued⟩
  | timer ticks =>
      cases done
      exact ⟨_, rfl, same.arc, same.enqueued⟩
  | hook point trace frame stack =>
      rw [nodeStep_hook P g (registered_lastDecides point)] at done
      have bare : LastDecides (functions (HookLists.empty point)) :=
        fun _ member => (List.not_mem_nil member).elim
      have none : (frame.vectorArgs.map UInt32.toNat).flatMap
          (chainCalls (functions (HookLists.empty point))) = [] := by
        simp [chainCalls, functions, HookLists.empty]
      rw [nodeStep_hook P g bare, none]
      cases calls : run (step P) t.sys ((frame.vectorArgs.map UInt32.toNat).flatMap
          (chainCalls (functions (registeredHooks point)))) with
      | error e =>
          rw [calls] at done
          cases done
      | ok s =>
          rw [calls] at done
          cases done
          refine ⟨_, rfl, ?_, ?_⟩
          · exact congrArg (fun a => (g.forward _ a).2) same.arc
          · rw [same.arc, same.enqueued]

/-- The plugin only watches: as long as none of its calls faults, every packet of every
frame goes on to the next index its arc gives it, and the arcs stand as they would without
any hook. -/
theorem hooks_are_transparent (P : Platform Mem Tbl) (nThreads : Nat) (order : StartupOrder)
    (g : Graph A) (bufs : Nat → Buffer) (arc : A) (ns : List (NodeCall A)) :
    ∃ s w, startup P nThreads order = .ok s ∧ s.wrkCtx = some w ∧
      ((∃ e, run (step P) (initial P nThreads bufs) (ns.flatMap NodeCall.calls) = .error e) ∨
        ∃ t u, run (nodeStep P g s.hookLists) ⟨⟨w, bufs, []⟩, arc, []⟩ ns = .ok t ∧
          run (nodeStep P g .empty) ⟨⟨w, bufs, []⟩, arc, []⟩ ns = .ok u ∧ SameTraffic t u) := by
  obtain ⟨s, started, -, lists, context⟩ := startup_completes P nThreads order
  refine ⟨s, _, started, context, ?_⟩
  have hooks : s.hookLists = registeredHooks := lists
  rw [hooks]
  have calls := run_expands (nodeStep_calls P g)
    (⟨initial P nThreads bufs, arc, []⟩ : Thread Mem Tbl A) ns
  cases finely : run (step P) (initial P nThreads bufs) (ns.flatMap NodeCall.calls) with
  | error e => exact .inl ⟨e, rfl⟩
  | ok sys =>
      rw [finely] at calls
      obtain ⟨t, ran, -⟩ : ∃ t, run (nodeStep P g registeredHooks)
          (⟨initial P nThreads bufs, arc, []⟩ : Thread Mem Tbl A) ns = .ok t ∧ t.sys = sys := by
        cases ran : run (nodeStep P g registeredHooks)
            (⟨initial P nThreads bufs, arc, []⟩ : Thread Mem Tbl A) ns with
        | ok t =>
            rw [ran] at calls
            exact ⟨t, rfl, Except.ok.inj calls⟩
        | error e =>
            rw [ran] at calls
            cases calls
      have bare : ∃ u, run (nodeStep P g .empty)
          (⟨initial P nThreads bufs, arc, []⟩ : Thread Mem Tbl A) ns = .ok u ∧ SameTraffic t u :=
        run_simulates (fun _ _ _ _ => empty_step P g) ⟨rfl, rfl⟩ ran
      obtain ⟨u, bare, same⟩ := bare
      exact .inr ⟨t, u, ran, bare, same⟩

end FlowTable
