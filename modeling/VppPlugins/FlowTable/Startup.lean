import VppPlugins.FlowTable.System
import VppPlugins.Vnetfilter.Hook
import VppPlugins.Library.Runs

/-! Start-up: what the plugin's init functions and main-loop-enter functions leave, and
the handler objects a packet finds afterwards. -/
namespace FlowTable
open Faults Runs Vnetfilter

variable {Mem Tbl : Type}

/-- `protocol_handler_t`. A callback is named by the handler whose function it is; NULL is
`none`. -/
structure HandlerObject where
  parseKey : Option ProtocolHandler
  initState : Option ProtocolHandler
  updateState : Option ProtocolHandler
  formatFlow : Option ProtocolHandler
  deriving DecidableEq

/-- What static storage holds before anything is registered. -/
def HandlerObject.null : HandlerObject := ⟨none, none, none, none⟩

def unimplementedProtocol : HandlerObject :=
  ⟨some .unimplemented, some .unimplemented, some .unimplemented, some .unimplemented⟩

def icmpProtocol : HandlerObject := ⟨some .icmp, some .icmp, some .icmp, some .icmp⟩
def tcpProtocol : HandlerObject := ⟨some .tcp, some .tcp, some .tcp, some .tcp⟩
def udpProtocol : HandlerObject := ⟨some .udp, some .udp, some .udp, some .udp⟩

/-- `protocol_handlers`. -/
structure HandlerTable where
  slots : Vector HandlerObject (IP_PROTOCOL_RESERVED + 1)

/-- The array has a slot for every value of the `u8` that indexes it. -/
theorem slot_inside (protocol : UInt8) : protocol.toNat < IP_PROTOCOL_RESERVED + 1 :=
  protocol.toNat_lt

def HandlerTable.static : HandlerTable := ⟨Vector.replicate _ .null⟩

/-- `protocol_handler_register`. -/
def HandlerTable.register (t : HandlerTable) (protocol : UInt8) (proto : HandlerObject) :
    HandlerTable := ⟨t.slots.set protocol.toNat proto (slot_inside protocol)⟩

/-- `protocol_handler_get`. -/
def HandlerTable.get (t : HandlerTable) (protocol : UInt8) : HandlerObject :=
  t.slots.get ⟨protocol.toNat, slot_inside protocol⟩

/-- The loop of `unimplemented_protocol_handler_register`. -/
def HandlerTable.registerUnimplemented (t : HandlerTable) : HandlerTable :=
  (List.range IP_PROTOCOL_RESERVED).foldl
    (fun t i => t.register (UInt8.ofNat i) unimplementedProtocol) t

/-- The functions that `process.h` registers as hooks. -/
inductive HookFunction where
  | ip4PreProcess
  | ip4InputProcess
  | ip4OutputProcess
  | ip6PreProcess
  | ip6InputProcess
  | ip6OutputProcess
  deriving DecidableEq, Repr

/-- The rows of `for_each_flow_table_hook`. -/
def forEachFlowTableHook : List (UInt32 × HookFunction × HookPoint) :=
  [(0, .ip4PreProcess, .l2InputIp4),
   (0, .ip4InputProcess, .l2InputIp4),
   (0, .ip4OutputProcess, .l2OutputIp4),
   (0, .ip6PreProcess, .l2InputIp6),
   (0, .ip6InputProcess, .l2InputIp6),
   (0, .ip6OutputProcess, .l2OutputIp6)]

/-- The globals of the plugin; `wrkCtx` is one worker's element of the vector that
`flow_table_main_init` allocates. -/
structure PluginState (Mem Tbl : Type) where
  protocolHandlers : HandlerTable
  hookLists : HookLists HookFunction
  wrkCtx : Option (Worker Mem Tbl)

def PluginState.static : PluginState Mem Tbl := ⟨.static, .empty, none⟩

inductive InitError where
  /-- `failed to register %s hook`. -/
  | hookNotRegistered
  deriving DecidableEq, Repr

/-- `flow_table_init`. -/
def flowTableInit : HookLists HookFunction → List (UInt32 × HookFunction × HookPoint) →
    Except InitError (HookLists HookFunction)
  | lists, [] => .ok lists
  | lists, (priority, function, point) :: rows =>
      let (rc, lists) := hookRegister lists point (some ⟨priority, function⟩)
      if rc ≠ 0 then .error .hookNotRegistered else flowTableInit lists rows

inductive StartupFunction where
  | vnetfilterInit
  | flowTableInit
  | unimplementedProtocolHandlerRegister
  | icmpProtocolHandlerRegister
  | udpProtocolHandlerRegister
  | tcpProtocolHandlerRegister
  | flowTableMainInit
  deriving DecidableEq, Repr

/-- The functions behind `VLIB_INIT_FUNCTION`. -/
def vlibInitFunctions : List StartupFunction :=
  [.vnetfilterInit, .flowTableInit, .unimplementedProtocolHandlerRegister]

/-- The functions behind `VLIB_MAIN_LOOP_ENTER_FUNCTION`. -/
def mainLoopEnterFunctions : List StartupFunction :=
  [.icmpProtocolHandlerRegister, .udpProtocolHandlerRegister, .tcpProtocolHandlerRegister,
    .flowTableMainInit]

/-- One start-up function. `vnetfilter_init` only keeps two pointers for the CLI. -/
def startupStep (P : Platform Mem Tbl) (nThreads : Nat) (s : PluginState Mem Tbl) :
    StartupFunction → Except InitError (PluginState Mem Tbl)
  | .vnetfilterInit => .ok s
  | .flowTableInit =>
      match flowTableInit s.hookLists forEachFlowTableHook with
      | .ok hookLists => .ok { s with hookLists }
      | .error e => .error e
  | .unimplementedProtocolHandlerRegister =>
      .ok { s with protocolHandlers := s.protocolHandlers.registerUnimplemented }
  | .icmpProtocolHandlerRegister =>
      .ok { s with
        protocolHandlers := s.protocolHandlers.register IP_PROTOCOL_ICMP icmpProtocol }
  | .udpProtocolHandlerRegister =>
      .ok { s with
        protocolHandlers := s.protocolHandlers.register IP_PROTOCOL_UDP udpProtocol }
  | .tcpProtocolHandlerRegister =>
      .ok { s with
        protocolHandlers := s.protocolHandlers.register IP_PROTOCOL_TCP tcpProtocol }
  | .flowTableMainInit => .ok { s with wrkCtx := some (FlowTable.flowTableMainInit P nThreads) }

/-- An order in which VPP may call the start-up functions: all init functions, then all
main-loop-enter functions. -/
structure StartupOrder where
  inits : List StartupFunction
  enters : List StartupFunction
  allInits : inits.Perm vlibInitFunctions
  allEnters : enters.Perm mainLoopEnterFunctions

def startup (P : Platform Mem Tbl) (nThreads : Nat) (order : StartupOrder) :
    Except InitError (PluginState Mem Tbl) :=
  run (startupStep P nThreads) .static (order.inits ++ order.enters)

/-! The order does not matter: no two functions of one kind write the same slot. -/

theorem ok_getD (s t : PluginState Mem Tbl) :
    (Except.ok s : Except InitError (PluginState Mem Tbl)).toOption.getD t = s := rfl

theorem flowTableInit_ok (lists : HookLists HookFunction)
    (rows : List (UInt32 × HookFunction × HookPoint)) :
    flowTableInit lists rows =
      .ok (rows.foldl (fun lists row => (hookRegister lists row.2.2 (some ⟨row.1, row.2.1⟩)).2)
        lists) := by
  induction rows generalizing lists with
  | nil => rfl
  | cons row rows ih => exact ih _

/-- What a start-up function leaves. -/
def startupApply (P : Platform Mem Tbl) (nThreads : Nat) (s : PluginState Mem Tbl)
    (f : StartupFunction) : PluginState Mem Tbl :=
  (startupStep P nThreads s f).toOption.getD s

/-- No function of the plugin takes the error path of `startupStep`. -/
theorem startupStep_ok (P : Platform Mem Tbl) (nThreads : Nat) (s : PluginState Mem Tbl)
    (f : StartupFunction) : startupStep P nThreads s f = .ok (startupApply P nThreads s f) := by
  cases f with
  | flowTableInit => simp only [startupApply, startupStep, flowTableInit_ok, ok_getD]
  | _ => rfl

theorem register_comm (t : HandlerTable) {p q : UInt8} (distinct : p ≠ q) (g h : HandlerObject) :
    (t.register p g).register q h = (t.register q h).register p g := by
  have apart : p.toNat ≠ q.toNat := fun same => distinct (UInt8.toNat_inj.mp same)
  simp only [HandlerTable.register, Vector.set_comm g h apart]

theorem inits_comm (P : Platform Mem Tbl) (nThreads : Nat) (s : PluginState Mem Tbl)
    {f g : StartupFunction} (hf : f ∈ vlibInitFunctions) (hg : g ∈ vlibInitFunctions) :
    startupApply P nThreads (startupApply P nThreads s f) g =
      startupApply P nThreads (startupApply P nThreads s g) f := by
  simp only [vlibInitFunctions, List.mem_cons, List.not_mem_nil, or_false] at hf hg
  rcases hf with rfl | rfl | rfl <;> rcases hg with rfl | rfl | rfl <;>
    simp only [startupApply, startupStep, flowTableInit_ok, ok_getD]

theorem enters_comm (P : Platform Mem Tbl) (nThreads : Nat) (s : PluginState Mem Tbl)
    {f g : StartupFunction} (hf : f ∈ mainLoopEnterFunctions) (hg : g ∈ mainLoopEnterFunctions) :
    startupApply P nThreads (startupApply P nThreads s f) g =
      startupApply P nThreads (startupApply P nThreads s g) f := by
  have tables := @register_comm s.protocolHandlers
  simp only [mainLoopEnterFunctions, List.mem_cons, List.not_mem_nil, or_false] at hf hg
  rcases hf with rfl | rfl | rfl | rfl <;> rcases hg with rfl | rfl | rfl | rfl <;>
    simp only [startupApply, startupStep, ok_getD,
      tables (by decide : IP_PROTOCOL_ICMP ≠ IP_PROTOCOL_UDP),
      tables (by decide : IP_PROTOCOL_ICMP ≠ IP_PROTOCOL_TCP),
      tables (by decide : IP_PROTOCOL_UDP ≠ IP_PROTOCOL_TCP)]

/-! The table that the packet path uses. -/

/-- The element that `protocolHandlers` stands for. -/
def objectOf : Option ProtocolHandler → HandlerObject
  | none => .null
  | some h => ⟨some h, some h, some h, some h⟩

def HandlerTable.Represents (t : HandlerTable) (handlers : ProtocolHandlers) : Prop :=
  ∀ protocol, t.get protocol = objectOf (handlers protocol)

theorem get_register (t : HandlerTable) (p q : UInt8) (proto : HandlerObject) :
    (t.register p proto).get q = if q = p then proto else t.get q := by
  have slots : (t.register p proto).get q =
      if p.toNat = q.toNat then proto else t.get q :=
    Vector.getElem_set (slot_inside p) (slot_inside q)
  rw [slots]
  by_cases same : q = p
  · rw [if_pos same, if_pos (congrArg UInt8.toNat same.symm)]
  · rw [if_neg same, if_neg fun other => same (UInt8.toNat_inj.mp other.symm)]

theorem register_represents {t : HandlerTable} {handlers : ProtocolHandlers}
    (represents : t.Represents handlers) (protocol : UInt8) (h : ProtocolHandler) :
    (t.register protocol (objectOf (some h))).Represents
      (protocolHandlerRegister handlers protocol h) := by
  intro q
  rw [get_register, protocolHandlerRegister_apply]
  split
  · rfl
  · exact represents q

theorem registerUnimplemented_represents {t : HandlerTable} {handlers : ProtocolHandlers}
    (represents : t.Represents handlers) :
    t.registerUnimplemented.Represents (unimplementedProtocolHandlerRegister handlers) := by
  unfold HandlerTable.registerUnimplemented unimplementedProtocolHandlerRegister
  generalize List.range IP_PROTOCOL_RESERVED = slots
  induction slots generalizing t handlers with
  | nil => exact represents
  | cons i slots ih => exact ih (register_represents represents (UInt8.ofNat i) .unimplemented)

theorem static_represents : HandlerTable.static.Represents fun _ => none := by
  intro q
  exact Vector.getElem_replicate _

/-- In every order the start-up functions succeed and leave the handlers that the packet
path finds, the hooks of `for_each_flow_table_hook` and an initialized worker. -/
theorem startup_completes (P : Platform Mem Tbl) (nThreads : Nat) (order : StartupOrder) :
    ∃ s, startup P nThreads order = .ok s ∧ s.protocolHandlers.Represents protocolHandlers ∧
      s.hookLists = forEachFlowTableHook.foldl
        (fun lists row => (hookRegister lists row.2.2 (some ⟨row.1, row.2.1⟩)).2) .empty ∧
      s.wrkCtx = some (flowTableMainInit P nThreads) := by
  refine ⟨_, run_of_total (startupStep_ok P nThreads) _ _, ?_⟩
  rw [List.foldl_append,
    order.allInits.foldl_eq' fun f hf g hg s =>
      inits_comm P nThreads s (order.allInits.mem_iff.mp hf) (order.allInits.mem_iff.mp hg),
    order.allEnters.foldl_eq' fun f hf g hg s =>
      enters_comm P nThreads s (order.allEnters.mem_iff.mp hf) (order.allEnters.mem_iff.mp hg)]
  refine ⟨?_, rfl, rfl⟩
  have filled := registerUnimplemented_represents static_represents
  exact register_represents (register_represents (register_represents filled _ _) _ _) _ _

theorem register_loop_apply (t : ProtocolHandlers) (protocol : UInt8) {n : Nat} (small : n ≤ 256) :
    (List.range n).foldl (fun t i => protocolHandlerRegister t (UInt8.ofNat i) .unimplemented) t
      protocol = if protocol.toNat < n then some .unimplemented else t protocol := by
  induction n with
  | zero => rfl
  | succ n ih =>
      rw [List.range_succ, List.foldl_append, List.foldl_cons, List.foldl_nil,
        protocolHandlerRegister_apply, ih (by omega)]
      have index : (UInt8.ofNat n).toNat = n := by
        rw [UInt8.toNat_ofNat', Nat.mod_eq_of_lt (by omega)]
      by_cases last : protocol = UInt8.ofNat n
      · rw [if_pos last, last, index, if_pos (Nat.lt_succ_self n)]
      · have other : protocol.toNat ≠ n := fun same =>
          last (UInt8.toNat_inj.mp (same.trans index.symm))
        rw [if_neg last]
        by_cases below : protocol.toNat < n
        · rw [if_pos below, if_pos (by omega)]
        · rw [if_neg below, if_neg (by omega)]

/-- The hooks of the plugin itself stand in the order of their priorities, whatever the order
of the start-up functions. -/
theorem plugin_hooks_ordered {P : Platform Mem Tbl} {nThreads : Nat} {order : StartupOrder}
    {s : PluginState Mem Tbl} (done : startup P nThreads order = .ok s) (point : HookPoint) :
    (s.hookLists point).Pairwise fun a b => a.priority ≤ b.priority := by
  obtain ⟨s', done', -, lists, -⟩ := startup_completes P nThreads order
  cases done.symm.trans done'
  rw [lists]
  cases point <;> decide

/-- The loop that is to register a handler for every protocol leaves out the last one. -/
theorem protocolHandlers_eq_none {protocol : UInt8} :
    protocolHandlers protocol = none ↔ protocol.toNat = IP_PROTOCOL_RESERVED := by
  have loop := register_loop_apply (fun _ => none) protocol (n := IP_PROTOCOL_RESERVED) (by decide)
  simp only [protocolHandlers, protocolHandlerRegister_apply, unimplementedProtocolHandlerRegister,
    loop]
  by_cases tcp : protocol = IP_PROTOCOL_TCP
  · subst tcp; decide
  by_cases udp : protocol = IP_PROTOCOL_UDP
  · subst udp; decide
  by_cases icmp : protocol = IP_PROTOCOL_ICMP
  · subst icmp; decide
  have bound := slot_inside protocol
  rw [if_neg tcp, if_neg udp, if_neg icmp]
  by_cases below : protocol.toNat < IP_PROTOCOL_RESERVED
  · rw [if_pos below]
    exact iff_of_false (by simp) (Nat.ne_of_lt below)
  · rw [if_neg below]
    exact iff_of_true rfl (by omega)

/-- The callbacks that `ip4_input_process` calls for a packet and the one `show flow-table`
calls for the flow that the packet creates. -/
structure FindsHandler (t : HandlerTable) (b : Buffer) : Prop where
  parseKey : (t.get b.ipProtocol).parseKey ≠ none
  initState : (t.get b.ipProtocol).initState ≠ none
  updateState : (t.get b.ipProtocol).updateState ≠ none
  formatFlow : ∀ key index, (t.get (ip4NewFlow b key index).protocol).formatFlow ≠ none

theorem ip4NewFlow_protocol (b : Buffer) (key : FlowKey) (index : Nat) :
    (ip4NewFlow b key index).protocol = b.ipProtocol := by
  unfold ip4NewFlow flowTableInitFlow
  dsimp only
  split <;> rfl

/-- After start-up in any order every packet finds its callbacks but those of the last
protocol, whose slot the loop never reaches. -/
theorem packet_finds_handler_iff (P : Platform Mem Tbl) (nThreads : Nat) (order : StartupOrder)
    (b : Buffer) :
    ∃ s, startup P nThreads order = .ok s ∧
      (FindsHandler s.protocolHandlers b ↔ b.ipProtocol.toNat ≠ IP_PROTOCOL_RESERVED) := by
  obtain ⟨s, done, represents, -⟩ := startup_completes P nThreads order
  refine ⟨s, done, ?_⟩
  have element := represents b.ipProtocol
  cases found : protocolHandlers b.ipProtocol with
  | none =>
      rw [found] at element
      refine iff_of_false (fun finds => finds.parseKey ?_)
        (not_not_intro (protocolHandlers_eq_none.mp found))
      rw [element, objectOf, HandlerObject.null]
  | some h =>
      rw [found] at element
      have registered : b.ipProtocol.toNat ≠ IP_PROTOCOL_RESERVED := by
        intro last
        rw [protocolHandlers_eq_none.mpr last] at found
        cases found
      refine iff_of_true ⟨?_, ?_, ?_, fun key index => ?_⟩ registered
      · simp [element, objectOf]
      · simp [element, objectOf]
      · simp [element, objectOf]
      · simp [ip4NewFlow_protocol, element, objectOf]

/-- A packet of protocol 255 finds null callbacks. -/
theorem last_protocol_unregistered :
    ¬ ∀ (order : StartupOrder) (b : Buffer) (s : PluginState (UInt64 → Option EntryAddr) Unit),
      startup (mapPlatform (fun _ => 0) (TimerWheel.slotted noHandle)) 1 order = .ok s →
      FindsHandler s.protocolHandlers b := by
  intro claimed
  let order : StartupOrder := ⟨vlibInitFunctions, mainLoopEnterFunctions, .refl _, .refl _⟩
  let b : Buffer :=
    { data := fun i => if i = 12 then 8 else if i = 14 then 0x45 else if i = 23 then 255 else 0
      l2HdrOffset := 0, l3HdrOffset := 14, l4HdrOffset := 34, swIfIndexRx := 1,
      unused0 := 0, unused1 := 0, flowIndex := 0 }
  obtain ⟨s, done, represents, -⟩ :=
    startup_completes (mapPlatform (fun _ => 0) (TimerWheel.slotted noHandle)) 1 order
  apply (claimed order b s done).parseKey
  have last : protocolHandlers b.ipProtocol = none := protocolHandlers_eq_none.mpr rfl
  rw [represents b.ipProtocol, last, objectOf, HandlerObject.null]

/-- That packet calls a null `parse_key`; no other packet ever calls a null callback. -/
theorem null_callback_iff (P : Platform Mem Tbl) (w : Worker Mem Tbl) (b : Buffer) :
    ip4InputProcess P w b = .error .nullCallback ↔ b.ipProtocol.toNat = IP_PROTOCOL_RESERVED := by
  rw [← protocolHandlers_eq_none]
  constructor
  · intro fault
    simp only [ip4InputProcess, bind_error, orFault_error] at fault
    rcases fault with ⟨missing, -⟩ | ⟨h, -, later⟩
    · exact missing
    · rcases later with ⟨-, ⟨⟩⟩ | ⟨entries, -, branch⟩
      cases entries with
      | none =>
          simp only [bind_error, orFault_error] at branch
          rcases branch with ⟨-, ⟨⟩⟩ | ⟨grown, -, ⟨-, ⟨⟩⟩ | ⟨stored, -, started | ⟨w', -, ⟨⟩⟩⟩⟩
          cases initState_fault started
      | some entry =>
          simp only [bind_error, orFault_error] at branch
          rcases branch with ⟨-, ⟨⟩⟩ | ⟨flow, -, updated | ⟨w', -, ⟨⟩⟩⟩
          cases updateState_fault updated
  · intro missing
    simp only [ip4InputProcess, protocolHandlerGet, missing, orFault]
    rfl

end FlowTable
