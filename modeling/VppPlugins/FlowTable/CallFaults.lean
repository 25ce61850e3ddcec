import VppPlugins.FlowTable.MapRefinement
import VppPlugins.FlowTable.Startup
import VppPlugins.Library.Composition

/-! What a run of a worker can end with, the hash table being the one the library
reallocates. -/
namespace FlowTable
open Faults Runs HashHeap

variable {hash : FlowKey → UInt64} {wheel : TimerWheel.Policy}

/-- Where a call faults, and why. No constructor names a null pointer. -/
inductive Causes (hash : FlowKey → UInt64) (s : VppSys) : Call → Fault → Prop
  | unhandled (slot : Nat) (last : (s.bufs slot).ipProtocol.toNat = IP_PROTOCOL_RESERVED) :
      Causes hash s (.input slot) .nullCallback
  | lookupFreed (slot : Nat) (key : FlowKey) (looked : ip4LookupKey (s.bufs slot) = some key)
      (freed : s.wrk.mem.live s.wrk.flowsHashTable = none) :
      Causes hash s (.input slot) .freedHashTable
  | full (slot : Nat) (key : FlowKey) (t : Table UInt64 EntryAddr)
      (looked : ip4LookupKey (s.bufs slot) = some key)
      (alive : s.wrk.mem.live s.wrk.flowsHashTable = some t)
      (unbound : t.pairs.lookup (hash key) = none)
      (full : s.wrk.flows.cap ≤ s.wrk.flows.size) : Causes hash s (.input slot) .poolExhausted
  | storeFreed (slot index : Nat) (f : Flow)
      (marked : vlibBufferGetFlow s.wrk (s.bufs slot) = some index)
      (found : s.wrk.flows.get? index = some f) (absent : (f.flowEntry .dirOut).flow = none)
      (freed : s.wrk.mem.live s.wrk.flowsHashTable = none) :
      Causes hash s (.output slot) .freedHashTable

theorem get_freed {m : Heap UInt64 EntryAddr} {h : Nat} (freed : m.live h = none) (k : UInt64) :
    get m h k = none := by simp only [HashHeap.get, freed]

theorem set3_freed {m : Heap UInt64 EntryAddr} {h : Nat} (freed : m.live h = none) (k : UInt64)
    (a : EntryAddr) : set3 m h k a = none := by simp only [set3, freed]

theorem set3_alive {m : Heap UInt64 EntryAddr} {h : Nat} {t : Table UInt64 EntryAddr}
    (alive : m.live h = some t) (k : UInt64) (a : EntryAddr) : ∃ r, set3 m h k a = some r := by
  by_cases crowded : (t.store k a).crowded
  · obtain ⟨m', h', stored, -⟩ := set3_crowded alive crowded
    exact ⟨_, stored⟩
  · obtain ⟨m', stored, -⟩ := set3_roomy alive crowded
    exact ⟨_, stored⟩

theorem input_fault {Mem Tbl : Type} {P : Platform Mem Tbl} {s : Sys Mem Tbl} {slot : Nat}
    {e : Fault} :
    step P s (.input slot) = .error e ↔ ip4InputProcess P s.wrk (s.bufs slot) = .error e := by
  simp only [step, bind_error]
  constructor
  · rintro (failed | ⟨o, -, last⟩)
    · exact failed
    · cases last
  · exact .inl

theorem output_fault {Mem Tbl : Type} {P : Platform Mem Tbl} {s : Sys Mem Tbl} {slot : Nat}
    {e : Fault} :
    step P s (.output slot) = .error e ↔ ip4OutputProcess P s.wrk (s.bufs slot) = .error e := by
  simp only [step, bind_error]
  constructor
  · rintro (failed | ⟨r, -, last⟩)
    · exact failed
    · cases last
  · exact .inl

theorem causes_fault {s : VppSys} {c : Call} {e : Fault} (caused : Causes hash s c e) :
    step (vppPlatform hash wheel) s c = .error e := by
  cases caused with
  | unhandled slot last => exact input_fault.mpr ((null_callback_iff _ _ _).mpr last)
  | lookupFreed slot key looked freed =>
      obtain ⟨h, handler, rfl⟩ := Option.map_eq_some_iff.mp looked
      refine input_fault.mpr (bind_error.mpr (.inr ⟨h, orFault_ok.mpr handler, ?_⟩))
      exact bind_error.mpr (.inl (orFault_error.mpr ⟨get_freed freed _, rfl⟩))
  | full slot key t looked alive unbound full =>
      obtain ⟨h, handler, rfl⟩ := Option.map_eq_some_iff.mp looked
      have looks : get s.wrk.mem s.wrk.flowsHashTable (hash (h.parseKey (s.bufs slot)
          (s.bufs slot).ip4FlowKey)) = some none := by rw [get_live alive, unbound]
      refine input_fault.mpr (bind_error.mpr (.inr ⟨h, orFault_ok.mpr handler, ?_⟩))
      refine bind_error.mpr (.inr ⟨none, orFault_ok.mpr looks, ?_⟩)
      exact bind_error.mpr (.inl (orFault_error.mpr ⟨FixedPool.alloc_eq_none.mpr full, rfl⟩))
  | storeFreed slot index f marked found absent freed =>
      rw [output_fault, ip4OutputProcess, marked]
      refine bind_error.mpr (.inr ⟨f, orFault_ok.mpr found, ?_⟩)
      rw [if_pos absent]
      exact bind_error.mpr (.inl (orFault_error.mpr ⟨set3_freed freed _ _, rfl⟩))

/-- With a live table and room where it is needed, the input hook completes: the addresses
in the table are those of entries in use. -/
theorem vpp_input_completes {s : VppSys} {m : MapSys} {slot : Nat} {key : FlowKey}
    {t : Table UInt64 EntryAddr} (related : Matches hash s m)
    (looked : ip4LookupKey (s.bufs slot) = some key)
    (alive : s.wrk.mem.live s.wrk.flowsHashTable = some t)
    (room : t.pairs.lookup (hash key) = none → s.wrk.flows.size < s.wrk.flows.cap) :
    ∃ o, ip4InputProcess (vppPlatform hash wheel) s.wrk (s.bufs slot) = .ok o := by
  have looks : get s.wrk.mem s.wrk.flowsHashTable (hash key) = some (t.pairs.lookup (hash key)) :=
    get_live alive _
  cases bound : t.pairs.lookup (hash key) with
  | none =>
      obtain ⟨⟨mem, tbl⟩, stored⟩ := set3_alive alive (hash key) ⟨s.wrk.flows.size, .dirIn⟩
      exact unbound_input_completes (P := vppPlatform hash wheel) related.shaped looked
        (bound ▸ looks) (room bound) stored
  | some a =>
      have mapped : m.wrk.mem (hash key) = some a := (related.table t alive _).symm.trans bound
      obtain ⟨f, found, pointer, -⟩ :=
        (represented_of_sound related.sound).stored (hash key) a mapped
      rw [related.flows] at found
      exact bound_input_completes (P := vppPlatform hash wheel) related.shaped looked
        (bound ▸ looks) found pointer

theorem fault_caused {s : VppSys} {m : MapSys} {c : Call} {e : Fault} (related : Matches hash s m)
    (failed : step (vppPlatform hash wheel) s c = .error e) : Causes hash s c e := by
  cases c with
  | receive slot b => cases failed
  | preProcess slot => cases failed
  | advance ticks => cases failed
  | input slot =>
      have known : ∀ {e'}, Causes hash s (.input slot) e' → Causes hash s (.input slot) e := by
        intro e' caused
        cases failed.symm.trans (causes_fault caused)
        exact caused
      cases looked : ip4LookupKey (s.bufs slot) with
      | none =>
          have missing : protocolHandlers (s.bufs slot).ipProtocol = none :=
            Option.map_eq_none_iff.mp looked
          exact known (.unhandled slot (protocolHandlers_eq_none.mp missing))
      | some key =>
          cases alive : s.wrk.mem.live s.wrk.flowsHashTable with
          | none => exact known (.lookupFreed slot key looked alive)
          | some t =>
              by_cases room : t.pairs.lookup (hash key) = none → s.wrk.flows.size < s.wrk.flows.cap
              · obtain ⟨o, completes⟩ :
                    ∃ o, ip4InputProcess (vppPlatform hash wheel) s.wrk (s.bufs slot) = .ok o :=
                  vpp_input_completes related looked alive room
                cases completes.symm.trans (input_fault.mp failed)
              · obtain ⟨unbound, full⟩ := Classical.not_imp.mp room
                exact known (.full slot key t looked alive unbound (Nat.le_of_not_lt full))
  | output slot =>
      have ended := output_fault.mp failed
      unfold ip4OutputProcess at ended
      cases marked : vlibBufferGetFlow s.wrk (s.bufs slot) with
      | none =>
          rw [marked] at ended
          cases ended
      | some index =>
          obtain ⟨f, found⟩ := getFlow_found marked
          simp only [marked, found, orFault, ok_bind] at ended
          split at ended
          · rename_i absent
            rcases bind_error.mp ended with lost | ⟨r, -, last⟩
            · cases alive : s.wrk.mem.live s.wrk.flowsHashTable with
              | none =>
                  have caused : Causes hash s (.output slot) .freedHashTable :=
                    .storeFreed slot index f marked found absent alive
                  cases failed.symm.trans (causes_fault caused)
                  exact caused
              | some t =>
                  obtain ⟨r, stored⟩ := set3_alive alive (hash (flowKeyReverse f.key)) ⟨index, .dirOut⟩
                  have fails := (orFault_error.mp lost).1
                  exact absurd (stored.symm.trans fails) (Option.some_ne_none r)
            · cases last
          · cases ended

/-- A run faults exactly where it comes to a call with a cause to: the unregistered protocol,
a full pool with an unbound key, or the table freed behind the context's back. In no run
does a hook use a flow through a null pointer. -/
theorem run_faults_iff_caused (hash : FlowKey → UInt64) (wheel : TimerWheel.Policy) (nThreads : Nat)
    (bufs : Nat → Buffer) (cs : List Call) (e : Fault) :
    run (step (vppPlatform hash wheel)) (initial (vppPlatform hash wheel) nThreads bufs) cs =
        .error e ↔
      ∃ before c after s, cs = before ++ c :: after ∧
        run (step (vppPlatform hash wheel)) (initial (vppPlatform hash wheel) nThreads bufs) before =
          .ok s ∧ Causes hash s c e := by
  rw [run_error_iff]
  constructor
  · rintro ⟨before, c, after, s, rfl, reached, failed⟩
    have simulated : ∃ m, run (step (mapPlatform hash wheel))
        (initial (mapPlatform hash wheel) nThreads bufs) before = .ok m ∧ Matches hash s m :=
      run_simulates (fun _ _ _ _ => step_matched) (initial_matched hash wheel nThreads bufs) reached
    obtain ⟨m, -, related⟩ := simulated
    exact ⟨before, c, after, s, rfl, reached, fault_caused related failed⟩
  · rintro ⟨before, c, after, s, rfl, reached, caused⟩
    exact ⟨before, c, after, s, rfl, reached, causes_fault caused⟩

end FlowTable
