import VppPlugins.FlowTable.Startup
import VppPlugins.FlowTable.Threads
import VppPlugins.Library.TextFormat

/-! `show flow-table` and the functions that format a flow. -/
namespace FlowTable
open Faults Runs TextFormat

variable {Mem Tbl : Type} {nThreads : Nat}

/-- `tcp_state_name`. -/
def tcpStateName : TcpState → String
  | .start => "start"
  | .close => "close"
  | .synSent => "syn-sent"
  | .synRcvd => "syn-recv"
  | .established => "established"
  | .finWait => "fin-wait"
  | .closeWait => "close-wait"
  | .timeWait => "time-wait"
  | .unknown => "unknown"

/-- VPP's own functions behind `%U`. -/
structure Formatters where
  formatIp4Address : Ip4Address → Text
  formatIp6Address : (Fin 16 → UInt8) → Text
  formatIpProtocol : UInt8 → Text

/-- The two calls of `format` for the two IP versions differ in this function only. -/
def Formatters.address (F : Formatters) (ipVersion : UInt8) (a : IpAddress) : Text :=
  if ipVersion = 4 then F.formatIp4Address a.ip4 else F.formatIp6Address a.ip

def formatFlowVlan (flowEntry : FlowEntry) : Text :=
  if flowEntry.vlanPresent = 0 then format "  VLAN: none\n" []
  else if flowEntry.vlanPresent = 1 then
    format "  VLAN: %d (802.1Q)\n" [signed flowEntry.outerVlanId.toUInt32]
  else if flowEntry.vlanPresent = 2 then
    format "  VLAN: %d.%d (QinQ/802.1ad)\n"
      [signed flowEntry.outerVlanId.toUInt32, signed flowEntry.innerVlanId.toUInt32]
  else []

/-- The body that `icmp.c` and `unimplemented.c` share. -/
def portlessFlowFormat (F : Formatters) (flow : Flow) : Text :=
  let e := flow.flowEntry .dirIn
  format "sw_if_index %d %d, src %U, dst %U, protocol %U\n"
      [signed e.swIfIndex, signed (flow.flowEntry .dirOut).swIfIndex,
        F.address flow.ipVersion e.src, F.address flow.ipVersion e.dst,
        F.formatIpProtocol flow.protocol] ++
    formatFlowVlan e

def icmpFlowFormat (F : Formatters) (flow : Flow) : Text := portlessFlowFormat F flow

def umimplementedFlowFormat (F : Formatters) (flow : Flow) : Text := portlessFlowFormat F flow

def udpFlowFormat (F : Formatters) (flow : Flow) : Text :=
  let e := flow.flowEntry .dirIn
  format "sw_if_index %d %d, src %U:%d, dst %U:%d, protocol %U\n"
      [signed e.swIfIndex, signed (flow.flowEntry .dirOut).swIfIndex,
        F.address flow.ipVersion e.src, signed e.srcPort.toUInt32,
        F.address flow.ipVersion e.dst, signed e.dstPort.toUInt32,
        F.formatIpProtocol flow.protocol] ++
    formatFlowVlan e

def tcpFlowFormat (F : Formatters) (flow : Flow) : Text :=
  let e := flow.flowEntry .dirIn
  let r := flow.flowEntry .dirOut
  format "sw_if_index %d %d, src %U:%d, dst %U:%d, protocol %U, state %s\n"
      [signed e.swIfIndex, signed r.swIfIndex,
        F.address flow.ipVersion e.src, signed e.srcPort.toUInt32,
        F.address flow.ipVersion e.dst, signed e.dstPort.toUInt32,
        F.formatIpProtocol flow.protocol, (tcpStateName flow.state).toList] ++
    formatFlowVlan e ++
    format "  seq[0] %u, ack[0] %u, seq[1] %u, ack[1] %u\n"
      [unsigned e.tcpAttr.seq.toNat, unsigned e.tcpAttr.ack.toNat,
        unsigned r.tcpAttr.seq.toNat, unsigned r.tcpAttr.ack.toNat]

def ProtocolHandler.formatFlow (F : Formatters) : ProtocolHandler → Flow → Text
  | .unimplemented, flow => umimplementedFlowFormat F flow
  | .icmp, flow => icmpFlowFormat F flow
  | .tcp, flow => tcpFlowFormat F flow
  | .udp, flow => udpFlowFormat F flow

/-- An element of the pool as `memset` leaves it. -/
def Flow.zero : Flow := { flowTableAllocatedFlow 0 with refcount := 0, stopTimerHandle := 0 }

/-- What `vec_foreach` visits: the elements of the pool, allocated or not. -/
def Worker.elements (w : Worker Mem Tbl) : List Flow :=
  (List.range w.flows.cap).map fun i => (w.flows.get? i).getD .zero

/-- What the loops print for the elements they visit. -/
def displayFlows (F : Formatters) (t : HandlerTable) : List Flow → Except Fault (List Text)
  | [] => .ok []
  | flow :: flows =>
      if flow.refcount = 0 then displayFlows F t flows
      else do
        let formatFlow ← orFault .nullCallback (t.get flow.protocol).formatFlow
        let rest ← displayFlows F t flows
        pure (formatFlow.formatFlow F flow :: rest)

/-- The texts handed to `vlib_cli_output`, one for each flow. -/
def flowTableDisplayCommandFn (F : Formatters) (t : HandlerTable)
    (wrkCtx : WorkerThread nThreads → Worker Mem Tbl) : Except Fault (List Text) :=
  displayFlows F t ((workerThreads nThreads).flatMap fun thread => (wrkCtx thread).elements)

/-! Nothing is left out and nothing printed twice. -/

/-- A flow the command prints, by a function that is there. -/
structure Flow.Listed (f : Flow) : Prop where
  refcount : f.refcount = 1
  handler : protocolHandlerGet f.protocol ≠ none

/-- The text of a flow. -/
def flowText (F : Formatters) (f : Flow) : Text :=
  match protocolHandlerGet f.protocol with
  | some h => h.formatFlow F f
  | none => []

theorem displayFlows_listed {F : Formatters} {t : HandlerTable}
    (represents : t.Represents protocolHandlers) {flows : List Flow}
    (each : ∀ f ∈ flows, f.Listed ∨ f.refcount = 0) :
    displayFlows F t flows =
      .ok ((flows.filter fun f => f.refcount ≠ 0).map (flowText F)) := by
  induction flows with
  | nil => rfl
  | cons flow flows ih =>
      have rest := ih fun f member => each f (List.mem_cons_of_mem _ member)
      by_cases free : flow.refcount = 0
      · rw [displayFlows, if_pos free, rest, List.filter_cons_of_neg (by simp [free])]
      · have listed := (each flow List.mem_cons_self).resolve_right free
        obtain ⟨h, handler⟩ := Option.ne_none_iff_exists'.mp listed.handler
        have found : (t.get flow.protocol).formatFlow = some h := by
          have element := represents flow.protocol
          rw [protocolHandlerGet] at handler
          rw [element, handler, objectOf]
        rw [displayFlows, if_neg free, found, rest, List.filter_cons_of_pos (by simp [free]),
          List.map_cons, flowText, handler]
        rfl

theorem elements_eq (w : Worker Mem Tbl) :
    w.elements = w.flows.elts ++ List.replicate (w.flows.cap - w.flows.elts.length) .zero := by
  have bounded := w.flows.bounded
  apply List.ext_getElem
  · simp only [Worker.elements, List.length_map, List.length_range, List.length_append,
      List.length_replicate]
    omega
  · intro i _ _
    simp only [Worker.elements, List.getElem_map, List.getElem_range, FixedPool.get?,
      List.getElem_append]
    split
    · rename_i used
      rw [List.getElem?_eq_getElem used, Option.getD_some]
    · rename_i free
      rw [List.getElem?_eq_none (Nat.le_of_not_lt free), Option.getD_none,
        List.getElem_replicate]

theorem elements_listed {w : Worker Mem Tbl}
    (listed : ∀ i f, w.flows.get? i = some f → f.Listed) :
    (∀ f ∈ w.elements, f.Listed ∨ f.refcount = 0) ∧
      w.elements.filter (fun f => f.refcount ≠ 0) = w.flows.elts := by
  have used : ∀ f ∈ w.flows.elts, f.Listed := fun f member => by
    obtain ⟨i, found⟩ := List.mem_iff_getElem?.mp member
    exact listed i f found
  rw [elements_eq]
  constructor
  · intro f member
    rcases List.mem_append.mp member with flow | free
    · exact .inl (used f flow)
    · rw [List.eq_of_mem_replicate free]
      exact .inr rfl
  · rw [List.filter_append, List.filter_eq_self.mpr, List.filter_eq_nil_iff.mpr, List.append_nil]
    · intro f free
      rw [List.eq_of_mem_replicate free]
      simp [Flow.zero]
    · intro f member
      simp [(used f member).refcount]

/-- A property of flows that callbacks cannot touch and the reverse entry does not end holds of
every flow when it holds of the new ones. -/
theorem step_flows {P : Platform Mem Tbl} {Q : Flow → Prop} {s t : Sys Mem Tbl} {c : Call}
    (shaped : s.wrk.Shaped) (done : step P s c = .ok t)
    (new : ∀ slot h index, c = .input slot →
      protocolHandlerGet (s.bufs slot).ipProtocol = some h →
      Q (ip4NewFlow (s.bufs slot) (h.parseKey (s.bufs slot) (s.bufs slot).ip4FlowKey) index))
    (untouched : ∀ f g : Flow, g.identity = f.identity → Q f → Q g)
    (mirrored : ∀ f index, Q f → Q (flowTableUpdateFlow index f (flowKeyReverse f.key) .dirOut))
    (before : ∀ i f, s.wrk.flows.get? i = some f → Q f) :
    ∀ i f, t.wrk.flows.get? i = some f → Q f := by
  intro i g found
  cases step_cases shaped done with
  | receive slot b => exact before i g found
  | preProcess slot => exact before i g found
  | idle slot nothing => exact before i g found
  | advance ticks => exact before i g found
  | creates slot h o handler key buf effect =>
      rcases FixedPool.found_replaced effect.flows found with ⟨-, rfl⟩ | ⟨-, old⟩
      · rw [key]
        exact untouched _ _ (identity_started ..) (new slot h _ rfl handler)
      · exact before i g old
  | finds slot h o a f handler key buf effect =>
      rcases FixedPool.found_replaced effect.flows found with ⟨-, rfl⟩ | ⟨-, old⟩
      · exact untouched _ _ (identity_updated ..) (before _ f effect.found)
      · exact before i g old
  | mirrors slot index f w effect =>
      rcases FixedPool.found_replaced effect.replaced.flows found with ⟨-, rfl⟩ | ⟨-, old⟩
      · exact mirrored f index (before _ f effect.found)
      · exact before i g old

theorem ip4NewFlow_refcount (b : Buffer) (key : FlowKey) (index : Nat) :
    (ip4NewFlow b key index).refcount = 1 := by
  unfold ip4NewFlow flowTableInitFlow
  dsimp only
  split <;> rfl

theorem step_listed {P : Platform Mem Tbl} {s t : Sys Mem Tbl} {c : Call} (shaped : s.wrk.Shaped)
    (done : step P s c = .ok t) (listed : ∀ i f, s.wrk.flows.get? i = some f → f.Listed) :
    ∀ i f, t.wrk.flows.get? i = some f → f.Listed := by
  refine step_flows shaped done ?_ ?_ (fun f index before => ⟨before.refcount, before.handler⟩)
    listed
  · intro slot h index _ handler
    refine ⟨ip4NewFlow_refcount .., ?_⟩
    rw [ip4NewFlow_protocol, handler]
    exact Option.some_ne_none h
  · intro f g same before
    have protocol : g.protocol = f.protocol := (congrArg Flow.protocol same :)
    exact ⟨(congrArg Flow.refcount same :).trans before.refcount, protocol ▸ before.handler⟩

theorem run_listed {P : Platform Mem Tbl} {bufs : Nat → Buffer} {cs : List Call} {s : Sys Mem Tbl}
    (reached : run (step P) (initial P nThreads bufs) cs = .ok s) :
    ∀ i f, s.wrk.flows.get? i = some f → f.Listed := by
  have kept := run_invariant
    (fun s : Sys Mem Tbl => s.wrk.Shaped ∧ ∀ i f, s.wrk.flows.get? i = some f → f.Listed)
    (fun _ _ _ inv done => ⟨step_shaped inv.1 done, step_listed inv.1 done inv.2⟩)
    ⟨initial_shaped P nThreads bufs, fun _ _ found => (nomatch found)⟩ reached
  exact kept.2

/-- At any moment `show flow-table` prints every flow of every thread once, in the order of
the threads and of the pool, skips the free elements, and never calls a null function. -/
theorem show_prints_each_flow_once (P : Platform Mem Tbl) (nThreads : Nat) (order : StartupOrder)
    (F : Formatters) (bufs : WorkerThread nThreads → Nat → Buffer)
    (ls : List (WorkerThread nThreads × Call)) :
    ∃ p, startup P nThreads order = .ok p ∧
      Always (threadsStep P)
        (fun s => flowTableDisplayCommandFn F p.protocolHandlers (fun thread => (s thread).wrk) =
          .ok ((workerThreads nThreads).flatMap fun thread =>
            (s thread).wrk.flows.elts.map (flowText F)))
        (threadsStart P nThreads bufs) ls := by
  obtain ⟨p, started, represents, -⟩ := startup_completes P nThreads order
  refine ⟨p, started, always_iff_prefix.mpr fun ms s _ reached => ?_⟩
  have listed := fun thread => elements_listed (run_listed (thread_reachable reached thread))
  rw [flowTableDisplayCommandFn, displayFlows_listed represents]
  · rw [List.filter_flatMap, List.map_flatMap]
    simp only [(listed _).2]
  · intro f member
    obtain ⟨thread, -, visited⟩ := List.mem_flatMap.mp member
    exact (listed thread).1 f visited

end FlowTable
