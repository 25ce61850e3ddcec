import VppPlugins.FlowTable.Ip4Process

/-! The well-formed flows of a worker, and the two packet calls read on its pool. -/
namespace FlowTable
open Faults

variable {Mem Tbl : Type}

/-- The entry holds the addresses, ports and protocol of `key`. -/
structure FlowEntry.Carries (e : FlowEntry) (key : FlowKey) : Prop where
  src : e.src = key.src
  dst : e.dst = key.dst
  srcPort : e.srcPort = key.srcPort
  dstPort : e.dstPort = key.dstPort
  protocol : e.protocol = key.protocol

structure Flow.Shaped (f : Flow) (index : Nat) : Prop where
  eltIndex : f.eltIndex = index
  inPointer : (f.flowEntry .dirIn).flow = some index
  inFields : (f.flowEntry .dirIn).Carries f.key
  outPointer : (f.flowEntry .dirOut).flow = none ∨ (f.flowEntry .dirOut).flow = some index
  outFields : (f.flowEntry .dirOut).flow ≠ none →
    (f.flowEntry .dirOut).Carries (flowKeyReverse f.key)

structure Worker.Shaped (w : Worker Mem Tbl) : Prop where
  cap : w.flows.cap ≤ FLOW_TABLE_MAX_FLOWS
  flow : ∀ i f, w.flows.get? i = some f → f.Shaped i

/-- Whether the reverse entry is installed. -/
def Flow.mirrored (f : Flow) : Bool := (f.flowEntry .dirOut).flow.isSome

theorem identity_key {f g : Flow} (same : g.identity = f.identity) : g.key = f.key :=
  (congrArg Flow.key same :)

theorem identity_entry {f g : Flow} (same : g.identity = f.identity) (d : FlowDir) :
    (g.flowEntry d).identity = (f.flowEntry d).identity :=
  congrFun (congrArg Flow.flowEntry same) d

theorem identity_pointer {f g : Flow} (same : g.identity = f.identity) (d : FlowDir) :
    (g.flowEntry d).flow = (f.flowEntry d).flow :=
  (congrArg FlowEntry.flow (identity_entry same d) :)

theorem identity_mirrored {f g : Flow} (same : g.identity = f.identity) :
    g.mirrored = f.mirrored := by
  rw [Flow.mirrored, identity_pointer same, Flow.mirrored]

theorem carries_of_identity {e e' : FlowEntry} {key : FlowKey} (same : e'.identity = e.identity)
    (h : e.Carries key) : e'.Carries key :=
  ⟨(congrArg FlowEntry.src same).trans h.src, (congrArg FlowEntry.dst same).trans h.dst,
    (congrArg FlowEntry.srcPort same).trans h.srcPort,
    (congrArg FlowEntry.dstPort same).trans h.dstPort,
    (congrArg FlowEntry.protocol same).trans h.protocol⟩

theorem shaped_of_identity {f g : Flow} {index : Nat} (same : g.identity = f.identity)
    (h : f.Shaped index) : g.Shaped index := by
  have key := identity_key same
  refine ⟨(congrArg Flow.eltIndex same).trans h.eltIndex, ?_, ?_, ?_, ?_⟩
  · rw [identity_pointer same]; exact h.inPointer
  · rw [key]; exact carries_of_identity (identity_entry same _) h.inFields
  · rw [identity_pointer same]; exact h.outPointer
  · intro set
    rw [identity_pointer same] at set
    rw [key]
    exact carries_of_identity (identity_entry same _) (h.outFields set)

@[simp] theorem ip4NewFlow_key (b : Buffer) (key : FlowKey) (index : Nat) :
    (ip4NewFlow b key index).key = key := by
  simp [ip4NewFlow]

theorem initFlow_other (index : Nat) (f : Flow) (key : FlowKey) (i : UInt32) {d e : FlowDir}
    (other : e ≠ d) : (flowTableInitFlow index f key i d).flowEntry e = f.flowEntry e := by
  have updated : (flowTableUpdateFlow index f key d).flowEntry e = f.flowEntry e :=
    setEntry_other other
  unfold flowTableInitFlow
  dsimp only
  split
  · rw [setEntry_other other, updated]
  · exact updated

theorem initFlow_carries (index : Nat) (f : Flow) (key : FlowKey) (i : UInt32) (d : FlowDir) :
    ((flowTableInitFlow index f key i d).flowEntry d).flow = some index ∧
      ((flowTableInitFlow index f key i d).flowEntry d).Carries key := by
  unfold flowTableInitFlow
  dsimp only
  split
  · rw [setEntry_same]
    simp only [flowTableUpdateFlow, setEntry_same, true_and]
    exact ⟨rfl, rfl, rfl, rfl, rfl⟩
  · simp only [flowTableUpdateFlow, setEntry_same, true_and]
    exact ⟨rfl, rfl, rfl, rfl, rfl⟩

theorem initFlow_eltIndex (index : Nat) (f : Flow) (key : FlowKey) (i : UInt32) (d : FlowDir) :
    (flowTableInitFlow index f key i d).eltIndex = f.eltIndex := by
  unfold flowTableInitFlow
  dsimp only
  split <;> rfl

theorem ip4NewFlow_out (b : Buffer) (key : FlowKey) (index : Nat) :
    (ip4NewFlow b key index).flowEntry .dirOut = FlowEntry.zero := by
  simp only [ip4NewFlow]
  rw [setEntry_other (by decide), setEntry_other (by decide), initFlow_other _ _ _ _ (by decide)]
  rfl

theorem ip4NewFlow_shaped (b : Buffer) (key : FlowKey) (index : Nat) :
    (ip4NewFlow b key index).Shaped index := by
  have out := ip4NewFlow_out b key index
  obtain ⟨pointer, fields⟩ := initFlow_carries index
    { flowTableAllocatedFlow index with protocol := b.ipProtocol, ipVersion := 4 } key
    b.swIfIndexRx .dirIn
  refine ⟨?_, ?_, ?_, ?_, ?_⟩
  · exact initFlow_eltIndex ..
  · simpa only [ip4NewFlow, setEntry_same] using pointer
  · rw [ip4NewFlow_key]
    simp only [ip4NewFlow, setEntry_same]
    exact ⟨fields.src, fields.dst, fields.srcPort, fields.dstPort, fields.protocol⟩
  · rw [out]; exact .inl rfl
  · intro set
    rw [out] at set
    exact absurd rfl set

theorem ip4NewFlow_mirrored (b : Buffer) (key : FlowKey) (index : Nat) :
    (ip4NewFlow b key index).mirrored = false := by
  rw [Flow.mirrored, ip4NewFlow_out]
  rfl

/-- The reverse entry is the one the output hook writes. -/
theorem updateFlow_shaped {f : Flow} {index : Nat} (h : f.Shaped index) :
    (flowTableUpdateFlow index f (flowKeyReverse f.key) .dirOut).Shaped index := by
  have same : (flowTableUpdateFlow index f (flowKeyReverse f.key) .dirOut).flowEntry .dirIn =
      f.flowEntry .dirIn := setEntry_other (by decide)
  refine ⟨h.eltIndex, ?_, ?_, ?_, ?_⟩
  · rw [same]; exact h.inPointer
  · rw [same]; exact h.inFields
  · exact .inr (by simp [flowTableUpdateFlow])
  · intro _
    simp only [flowTableUpdateFlow, setEntry_same, setEntry_key]
    exact ⟨rfl, rfl, rfl, rfl, rfl⟩

theorem updateFlow_mirrored (f : Flow) (index : Nat) (key : FlowKey) :
    (flowTableUpdateFlow index f key .dirOut).mirrored = true := by
  simp [Flow.mirrored, flowTableUpdateFlow]

/-- `ip4_input_process` creates the flow of an unbound key. -/
structure InputCreates (P : Platform Mem Tbl) (w : Worker Mem Tbl) (b : Buffer)
    (h : ProtocolHandler) (o : InputOutcome Mem Tbl) : Prop where
  unbound : P.table.get w.mem w.flowsHashTable (P.flowTableHash o.key) = some none
  index : o.flow = w.flows.size
  room : w.flows.size < w.flows.cap
  stored : ∃ t, P.table.set3 w.mem w.flowsHashTable (P.flowTableHash o.key) ⟨o.flow, .dirIn⟩ =
    some (o.wrk.mem, t)
  table : o.wrk.flowsHashTable = w.flowsHashTable
  cap : o.wrk.flows.cap = w.flows.cap
  size : o.wrk.flows.size = w.flows.size + 1
  tw : o.wrk.tw = (h.started P w.tw b .dirIn (ip4NewFlow b o.key o.flow)).1
  flows : ∀ j, o.wrk.flows.get? j =
    if j = o.flow then some (h.started P w.tw b .dirIn (ip4NewFlow b o.key o.flow)).2
    else w.flows.get? j
  direction : o.direction = .dirIn
  created : o.created = true

/-- `ip4_input_process` finds entry `a` of flow `f` under the key's hash. -/
structure InputFinds (P : Platform Mem Tbl) (w : Worker Mem Tbl) (b : Buffer)
    (h : ProtocolHandler) (o : InputOutcome Mem Tbl) (a : EntryAddr) (f : Flow) : Prop where
  bound : P.table.get w.mem w.flowsHashTable (P.flowTableHash o.key) = some (some a)
  index : o.flow = a.flow
  found : w.flows.get? o.flow = some f
  pointer : (f.flowEntry a.dir).flow = some o.flow
  direction : o.direction = a.dir
  mem : o.wrk.mem = w.mem
  table : o.wrk.flowsHashTable = w.flowsHashTable
  cap : o.wrk.flows.cap = w.flows.cap
  size : o.wrk.flows.size = w.flows.size
  tw : o.wrk.tw = (h.updated P w.tw b o.direction f).1
  flows : ∀ j, o.wrk.flows.get? j =
    if j = o.flow then some (h.updated P w.tw b o.direction f).2 else w.flows.get? j
  created : o.created = false

section

variable {P : Platform Mem Tbl} {w : Worker Mem Tbl} {b : Buffer} {h : ProtocolHandler}
  {o : InputOutcome Mem Tbl} {a : EntryAddr} {f : Flow}

theorem InputCreates.grown (creates : InputCreates P w b h o) :
    w.flows.size ≤ o.wrk.flows.size := by
  rw [creates.size]
  exact Nat.le_succ _

theorem InputCreates.after (creates : InputCreates P w b h o) :
    o.wrk.flows.get? o.flow =
      some (h.started P w.tw b .dirIn (ip4NewFlow b o.key o.flow)).2 := by
  rw [creates.flows, if_pos rfl]

theorem InputCreates.inside (creates : InputCreates P w b h o) : o.flow < o.wrk.flows.size :=
  FixedPool.lt_size_of_get? creates.after

theorem InputFinds.after (finds : InputFinds P w b h o a f) :
    o.wrk.flows.get? o.flow = some (h.updated P w.tw b o.direction f).2 := by
  rw [finds.flows, if_pos rfl]

theorem InputFinds.inside (finds : InputFinds P w b h o a f) : o.flow < o.wrk.flows.size :=
  FixedPool.lt_size_of_get? finds.after

end

/-- An entry's back pointer, once set, is the flow the entry belongs to. -/
theorem backPointer_own {w : Worker Mem Tbl} {a : EntryAddr} {index : Nat} (shaped : w.Shaped)
    (pointer : w.backPointer a = some index) :
    index = a.flow ∧ ∃ f, w.flows.get? a.flow = some f ∧ (f.flowEntry a.dir).flow = some index := by
  unfold Worker.backPointer at pointer
  cases found : w.flows.get? a.flow with
  | none =>
      rw [found] at pointer
      cases pointer
  | some f =>
      rw [found] at pointer
      change (f.flowEntry a.dir).flow = some index at pointer
      refine ⟨?_, f, rfl, pointer⟩
      have shape := shaped.flow _ _ found
      cases dir : a.dir with
      | dirIn =>
          rw [dir] at pointer
          exact Option.some.inj (pointer.symm.trans shape.inPointer)
      | dirOut =>
          rw [dir] at pointer
          rcases shape.outPointer with unset | set
          · rw [unset] at pointer
            cases pointer
          · exact Option.some.inj (pointer.symm.trans set)

theorem ip4InputProcess_cases {P : Platform Mem Tbl} {w : Worker Mem Tbl} {b : Buffer}
    {o : InputOutcome Mem Tbl} (shaped : w.Shaped) (done : ip4InputProcess P w b = .ok o) :
    ∃ h, protocolHandlerGet b.ipProtocol = some h ∧ o.key = h.parseKey b b.ip4FlowKey ∧
      o.buf = vlibBufferSetFlow b o.flow ∧
      (InputCreates P w b h o ∨ ∃ a f, InputFinds P w b h o a f) := by
  simp only [ip4InputProcess, bind_ok, orFault_ok] at done
  obtain ⟨h, handler, entries, looked, done⟩ := done
  refine ⟨h, handler, ?_⟩
  cases entries with
  | none =>
      simp only [bind_ok, orFault_ok, pure_ok] at done
      obtain ⟨⟨flows, index⟩, alloc, ⟨mem, t⟩, stored, w', callback, rfl⟩ := done
      obtain ⟨here, room, cap, _⟩ := FixedPool.alloc_eq_some.mp alloc
      have size := FixedPool.size_of_alloc alloc
      have flowsAt := FixedPool.get?_of_alloc alloc
      dsimp only at callback looked stored
      have fresh : flows.get? index =
          some (ip4NewFlow b (h.parseKey b b.ip4FlowKey) index) := by
        rw [flowsAt, if_pos here, here]
      have replaced := initState_replaced (w := { w with flows, mem }) (f := ip4NewFlow b _ index)
        (getFlow_setFlow b (by rw [cap]; exact shaped.cap) (by rw [size, here]; omega))
        fresh callback
      refine ⟨rfl, rfl, .inl ⟨looked, here, room, ⟨t, ?_⟩, replaced.table,
        replaced.cap.trans cap, replaced.size.trans size, replaced.tw, ?_, rfl, rfl⟩⟩
      · rw [replaced.mem]; exact stored
      · intro j
        rw [replaced.flows]
        by_cases same : j = index
        · simp only [if_pos same]; rfl
        · rw [if_neg same, if_neg same, flowsAt, if_neg (by rw [← here]; exact same)]
  | some a =>
      simp only [bind_ok, orFault_ok, pure_ok] at done
      obtain ⟨index, pointed, w', callback, rfl⟩ := done
      obtain ⟨own, f, found, pointer⟩ := backPointer_own shaped pointed
      subst own
      have inside := FixedPool.lt_size_of_get? found
      have replaced := updateState_replaced (getFlow_setFlow b shaped.cap inside) found callback
      have direction : flowTableGetDirection a.flow a = a.dir := flowTableGetDirection_self a
      exact ⟨rfl, rfl, .inr ⟨a, f, looked, rfl, found, pointer, direction, replaced.mem,
        replaced.table, replaced.cap, replaced.size, replaced.tw, replaced.flows, rfl⟩⟩

/-- `ip4_output_process` installs the reverse entry of flow `f` in element `index`. -/
structure OutputMirrors (P : Platform Mem Tbl) (w : Worker Mem Tbl) (b : Buffer)
    (w' : Worker Mem Tbl) (index : Nat) (f : Flow) : Prop where
  marked : vlibBufferGetFlow w b = some index
  found : w.flows.get? index = some f
  absent : (f.flowEntry .dirOut).flow = none
  stored : ∃ t, P.table.set3 w.mem w.flowsHashTable (P.flowTableHash (flowKeyReverse f.key))
    ⟨index, .dirOut⟩ = some (w'.mem, t)
  replaced : w.Replaced { w' with mem := w.mem } index w.tw
    (flowTableUpdateFlow index f (flowKeyReverse f.key) .dirOut)

/-- What `ip4_output_process` does when there is nothing to install. -/
def OutputIdle (w : Worker Mem Tbl) (b : Buffer) : Prop :=
  ∀ index f, vlibBufferGetFlow w b = some index → w.flows.get? index = some f →
    (f.flowEntry .dirOut).flow ≠ none

theorem ip4OutputProcess_cases {P : Platform Mem Tbl} {w w' : Worker Mem Tbl} {b : Buffer}
    {a : VnetfilterAction} (done : ip4OutputProcess P w b = .ok (w', a)) :
    (OutputIdle w b ∧ w' = w) ∨ ∃ index f, OutputMirrors P w b w' index f := by
  unfold ip4OutputProcess at done
  cases marked : vlibBufferGetFlow w b with
  | none =>
      simp only [marked, pure_ok, Prod.mk.injEq] at done
      refine .inl ⟨?_, done.1.symm⟩
      intro index f resolved
      rw [marked] at resolved
      cases resolved
  | some index =>
      simp only [marked, bind_ok, orFault_ok] at done
      obtain ⟨f, found, done⟩ := done
      split at done
      · rename_i absent
        simp only [bind_ok, orFault_ok, pure_ok, Prod.mk.injEq] at done
        obtain ⟨⟨mem, t⟩, stored, rfl, _⟩ := done
        exact .inr ⟨index, f, marked, found, absent, ⟨t, stored⟩,
          ⟨rfl, rfl, rfl, FixedPool.size_modify .., rfl, get?_replace _ found⟩⟩
      · rename_i present
        simp only [pure_ok, Prod.mk.injEq] at done
        refine .inl ⟨?_, done.1.symm⟩
        intro index' f' resolved found'
        cases marked.symm.trans resolved
        cases found.symm.trans found'
        exact present

end FlowTable
