import VppPlugins.FlowTable.Connections

/-! The worker's hash table as the library reallocates it. `hash_set` assigns the table's
new handle to its first argument, which in both hooks is a local variable. -/
namespace FlowTable
open Faults Runs HashHeap

abbrev VppSys := Sys (Heap UInt64 EntryAddr) Nat

variable {hash : FlowKey → UInt64} {wheel : TimerWheel.Policy}

/-- The context's handle names a live table, and whatever the hooks bound last under a
hash is found there. -/
def TableSound (s : VppSys) : Prop :=
  ∃ t, s.wrk.mem.live s.wrk.flowsHashTable = some t ∧
    ∀ h a, bindings s.wrk.mem.stored h = some a → t.pairs.lookup h = some a

/-- The hash under which a call binds an entry, unless it finds one there already. -/
def Binds (hash : FlowKey → UInt64) (s : VppSys) : Call → UInt64 → Prop
  | .input slot, h => ∃ key, ip4LookupKey (s.bufs slot) = some key ∧ h = hash key
  | .output slot, h => ∃ index f, vlibBufferGetFlow s.wrk (s.bufs slot) = some index ∧
      s.wrk.flows.get? index = some f ∧ (f.flowEntry .dirOut).flow = none ∧
      h = hash (flowKeyReverse f.key)
  | _, _ => False

/-- A new hash is bound only while fewer than 47 hashes are. -/
def HasRoom (hash : FlowKey → UInt64) (s : VppSys) (c : Call) : Prop :=
  ∀ h, Binds hash s c h → ∀ t, s.wrk.mem.live s.wrk.flowsHashTable = some t →
    t.pairs.lookup h = none → t.elements < 47

/-- The table the context names has not grown yet. -/
structure Unresized (s : VppSys) : Prop where
  shaped : s.wrk.Shaped
  capacity : ∀ t, s.wrk.mem.live s.wrk.flowsHashTable = some t → t.capacity = 64
  elements : ∀ t, s.wrk.mem.live s.wrk.flowsHashTable = some t → t.elements ≤ 47

/-- What a completed step does to the table: nothing, or one store under a hash it binds. -/
theorem step_table {s t : VppSys} {c : Call} (shaped : s.wrk.Shaped)
    (done : step (vppPlatform hash wheel) s c = .ok t) :
    t.wrk.flowsHashTable = s.wrk.flowsHashTable ∧
      ((t.wrk.mem = s.wrk.mem ∧
          ∀ h, Binds hash s c h → ∃ a, get s.wrk.mem s.wrk.flowsHashTable h = some (some a)) ∨
        ∃ h v tbl, Binds hash s c h ∧ (∀ g, Binds hash s c g → g = h) ∧
          set3 s.wrk.mem s.wrk.flowsHashTable h v = some (t.wrk.mem, tbl)) := by
  cases step_cases shaped done with
  | receive slot b => exact ⟨rfl, .inl ⟨rfl, fun _ binds => binds.elim⟩⟩
  | preProcess slot => exact ⟨rfl, .inl ⟨rfl, fun _ binds => binds.elim⟩⟩
  | advance ticks => exact ⟨rfl, .inl ⟨rfl, fun _ binds => binds.elim⟩⟩
  | idle slot nothing =>
      refine ⟨rfl, .inl ⟨rfl, ?_⟩⟩
      rintro h ⟨index, f, marked, found, absent, _⟩
      exact absurd absent (nothing index f marked found)
  | creates slot h o handler key buf effect =>
      obtain ⟨tbl, stored⟩ := effect.stored
      have looked : ip4LookupKey (s.bufs slot) = some o.key :=
        lookupKey_of_parsed handler key
      refine ⟨effect.table, .inr ⟨hash o.key, _, tbl, ⟨o.key, looked, rfl⟩, ?_, stored⟩⟩
      rintro g ⟨key', looked', rfl⟩
      cases looked.symm.trans looked'
      rfl
  | finds slot h o a f handler key buf effect =>
      have looked : ip4LookupKey (s.bufs slot) = some o.key :=
        lookupKey_of_parsed handler key
      refine ⟨effect.table, .inl ⟨effect.mem, ?_⟩⟩
      rintro g ⟨key', looked', rfl⟩
      cases looked.symm.trans looked'
      exact ⟨a, effect.bound⟩
  | mirrors slot index f w effect =>
      obtain ⟨tbl, stored⟩ := effect.stored
      refine ⟨effect.replaced.table, .inr ⟨_, _, tbl,
        ⟨index, f, effect.marked, effect.found, effect.absent, rfl⟩, ?_, stored⟩⟩
      rintro g ⟨index', f', marked', found', _, rfl⟩
      cases effect.marked.symm.trans marked'
      cases effect.found.symm.trans found'
      rfl

theorem roomy_of_room {t : Table UInt64 EntryAddr} {h : UInt64} {v : EntryAddr}
    (capacity : t.capacity = 64) (elements : t.elements ≤ 47)
    (room : t.pairs.lookup h = none → t.elements < 47) :
    ¬ (t.store h v).crowded ∧ (t.store h v).elements ≤ 47 := by
  have kept : (t.store h v).capacity = 64 := capacity
  simp only [Table.crowded, kept]
  cases bound : t.pairs.lookup h with
  | none =>
      rw [Table.elements_store_fresh v bound]
      have := room bound
      omega
  | some u =>
      rw [Table.elements_store_bound v bound]
      omega

theorem crowded_of_full {t : Table UInt64 EntryAddr} {h : UInt64} {v : EntryAddr}
    (capacity : t.capacity = 64) (fresh : t.pairs.lookup h = none) (full : ¬ t.elements < 47) :
    (t.store h v).crowded := by
  have kept : (t.store h v).capacity = 64 := capacity
  simp only [Table.crowded, kept, Table.elements_store_fresh v fresh]
  omega

theorem step_keeps_table {s t : VppSys} {c : Call} (unresized : Unresized s)
    (sound : TableSound s) (room : HasRoom hash s c)
    (done : step (vppPlatform hash wheel) s c = .ok t) : Unresized t ∧ TableSound t := by
  have shaped := step_shaped unresized.shaped done
  obtain ⟨tbl, alive, finds⟩ := sound
  obtain ⟨handle, ⟨mem, _⟩ | ⟨h, v, _, binds, _, stored⟩⟩ := step_table unresized.shaped done
  · refine ⟨⟨shaped, ?_, ?_⟩, tbl, ?_, ?_⟩
    · rw [handle, mem]; exact unresized.capacity
    · rw [handle, mem]; exact unresized.elements
    · rw [handle, mem]; exact alive
    · rw [mem]; exact finds
  · have capacity := unresized.capacity tbl alive
    obtain ⟨roomy, few⟩ := roomy_of_room (h := h) (v := v) capacity
      (unresized.elements tbl alive) (room h binds tbl alive)
    obtain ⟨m, result, alive', stored'⟩ := set3_roomy alive roomy
    have mem : t.wrk.mem = m := by
      rw [result] at stored
      exact (congrArg Prod.fst (Option.some.inj stored)).symm
    have now : t.wrk.mem.live t.wrk.flowsHashTable = some (tbl.store h v) := by
      rw [mem, handle]
      exact alive'
    refine ⟨⟨shaped, ?_, ?_⟩, tbl.store h v, now, ?_⟩
    · intro u named
      cases now.symm.trans named
      exact capacity
    · intro u named
      cases now.symm.trans named
      exact few
    · intro g a last
      rw [mem, stored', bindings_snoc] at last
      rw [congrFun (Table.lookup_store tbl h v) g]
      by_cases here : g = h
      · rw [here, Function.update_self] at last ⊢
        exact last
      · rw [Function.update_of_ne here] at last ⊢
        exact finds g a last

theorem step_loses_table {s t : VppSys} {c : Call} (unresized : Unresized s)
    (full : ¬ HasRoom hash s c) (done : step (vppPlatform hash wheel) s c = .ok t) :
    t.wrk.mem.live t.wrk.flowsHashTable = none := by
  simp only [HasRoom, not_forall] at full
  obtain ⟨h, binds, tbl, alive, fresh, full⟩ := full
  obtain ⟨handle, ⟨_, found⟩ | ⟨g, v, _, _, only, stored⟩⟩ := step_table unresized.shaped done
  · obtain ⟨a, bound⟩ := found h binds
    rw [get_live alive, fresh] at bound
    cases bound
  · cases only h binds
    obtain ⟨m, _, result, freed, _⟩ := set3_crowded alive
      (crowded_of_full (v := v) (unresized.capacity tbl alive) fresh full)
    rw [result] at stored
    have mem : m = t.wrk.mem := congrArg Prod.fst (Option.some.inj stored)
    rw [handle, ← mem]
    exact freed

theorem initial_unresized (hash : FlowKey → UInt64) (wheel : TimerWheel.Policy) (nThreads : Nat)
    (bufs : Nat → Buffer) :
    Unresized (initial (vppPlatform hash wheel) nThreads bufs) ∧
      TableSound (initial (vppPlatform hash wheel) nThreads bufs) := by
  have alive : (initial (vppPlatform hash wheel) nThreads bufs).wrk.mem.live
      (initial (vppPlatform hash wheel) nThreads bufs).wrk.flowsHashTable =
      some { capacity := 64, pairs := ∅ } := rfl
  refine ⟨⟨initial_shaped _ nThreads bufs, ?_, ?_⟩, _, alive, fun _ _ last => (nomatch last)⟩
  · intro t named
    cases alive.symm.trans named
    rfl
  · intro t named
    cases alive.symm.trans named
    exact Nat.zero_le _

/-- The context's table stays sound exactly in the runs that never bind a forty-eighth hash. -/
theorem table_sound_iff_room (hash : FlowKey → UInt64) (wheel : TimerWheel.Policy) (nThreads : Nat)
    (bufs : Nat → Buffer) (cs : List Call) :
    Always (step (vppPlatform hash wheel)) TableSound
        (initial (vppPlatform hash wheel) nThreads bufs) cs ↔
      Guarded (step (vppPlatform hash wheel)) (HasRoom hash)
        (initial (vppPlatform hash wheel) nThreads bufs) cs := by
  obtain ⟨unresized, sound⟩ := initial_unresized hash wheel nThreads bufs
  refine always_iff_guarded Unresized ?_ ?_ always_true unresized sound
  · intro s c t inv holds room done _
    exact step_keeps_table inv holds room done
  · intro s c t inv _ full done _ later
    obtain ⟨u, alive, _⟩ := later
    rw [step_loses_table inv full done] at alive
    cases alive

/-- Forty-eight connections that differ in the client's port, one packet each. -/
def clients : List Call :=
  (List.range 48).flatMap fun n =>
    [.receive 0 (Segment.buffer { clientSyn with srcPort := 1000 + UInt16.ofNat n } 0),
      .preProcess 0, .input 0]

theorem clients_free_the_table :
    ¬ Always (step (vppPlatform portHash (TimerWheel.slotted noHandle))) TableSound
      (initial (vppPlatform portHash (TimerWheel.slotted noHandle)) 0 (fun _ => clientSyn.buffer 0))
      clients := by
  intro always
  obtain ⟨s, reached, freed⟩ := completed
    (x := run (step (vppPlatform portHash (TimerWheel.slotted noHandle)))
      (initial (vppPlatform portHash (TimerWheel.slotted noHandle)) 0 (fun _ => clientSyn.buffer 0))
      clients)
    (fun s => (s.wrk.mem.live s.wrk.flowsHashTable).isSome) (b := false) (by decide +kernel)
  obtain ⟨t, alive, _⟩ := always_iff_prefix.mp always clients s List.prefix_rfl reached
  rw [alive] at freed
  cases freed

end FlowTable
