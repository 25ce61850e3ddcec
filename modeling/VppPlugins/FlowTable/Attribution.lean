import VppPlugins.FlowTable.Connections

/-! Which flow a packet is bound to. The table keeps no key to compare with, so this rests
on the hash function alone, and `flow_table_hash` is the exclusive or of six word hashes. -/
namespace FlowTable
open Faults Runs

variable {hash : FlowKey → UInt64} {wheel : TimerWheel.Policy}

/-- Every packet is bound to a flow of its own key or of the reverse. -/
def Attributed (s : MapSys) : Prop :=
  ∀ r ∈ s.history, ∃ f, s.wrk.flows.get? r.flow = some f ∧
    (f.key = r.key ∨ f.key = flowKeyReverse r.key)

/-- The keys under which entries of a flow have been stored. -/
def Flow.storedKeys (f : Flow) : List FlowKey :=
  if f.mirrored then [f.key, flowKeyReverse f.key] else [f.key]

/-- No entry has been stored for a key that differs from the packet's and hashes as it does. -/
def Distinguished (hash : FlowKey → UInt64) (s : MapSys) (c : Call) : Prop :=
  ∀ key ∈ s.presents c, ∀ f ∈ s.wrk.flows.elts, ∀ k ∈ f.storedKeys, hash k = hash key → k = key

instance (hash : FlowKey → UInt64) (s : MapSys) (c : Call) : Decidable (Distinguished hash s c) :=
  match presented : s.presents c with
  | none => isTrue fun key member => by rw [presented] at member; cases member
  | some key =>
      decidable_of_iff
        (∀ f ∈ s.wrk.flows.elts, ∀ k ∈ f.storedKeys, hash k = hash key → k = key)
        (by simp only [Distinguished, presented, Option.mem_some_iff, forall_eq'])

theorem sidedKey_stored {f : Flow} {d : FlowDir} {index : Nat}
    (pointer : (f.flowEntry d).flow = some index) : sidedKey f.key d ∈ f.storedKeys := by
  cases d with
  | dirIn =>
      unfold Flow.storedKeys
      split
      · exact List.mem_cons_self
      · exact List.mem_cons_self
  | dirOut =>
      have mirrored : f.mirrored = true := by rw [Flow.mirrored, pointer]; rfl
      rw [Flow.storedKeys, if_pos mirrored]
      exact List.mem_cons_of_mem _ List.mem_cons_self

theorem key_of_sided {k key : FlowKey} {d : FlowDir} (same : sidedKey k d = key) :
    k = key ∨ k = flowKeyReverse key := by
  cases d with
  | dirIn => exact .inl same
  | dirOut => exact .inr (by rw [← same]; rfl)

/-- A flow keeps its element and its key. -/
theorem step_keeps_key {s t : MapSys} {c : Call} {i : Nat} {f : Flow} (shaped : s.wrk.Shaped)
    (done : step (mapPlatform hash wheel) s c = .ok t) (found : s.wrk.flows.get? i = some f) :
    ∃ g, t.wrk.flows.get? i = some g ∧ g.key = f.key := by
  have entry := directory_entry.mpr ⟨f, found, rfl, rfl⟩
  have kept : ∃ m, t.wrk.directory.entries[i]? = some (f.key, m) := by
    rw [step_directory shaped done]
    cases s.event c with
    | none => exact ⟨_, entry⟩
    | some e =>
        obtain ⟨m, entry', _⟩ := Directory.step_entry e entry
        exact ⟨m, entry'⟩
  obtain ⟨m, entry'⟩ := kept
  obtain ⟨g, found', key, _⟩ := directory_entry.mp entry'
  exact ⟨g, found', key⟩

/-- The binding an input call adds names a flow of the packet's connection. -/
theorem input_attributed {s t : MapSys} {slot : Nat} (sound : s.Sound hash)
    (distinguished : Distinguished hash s (.input slot))
    (done : step (mapPlatform hash wheel) s (.input slot) = .ok t) :
    ∃ r, t.history = s.history ++ [r] ∧ ∃ f, t.wrk.flows.get? r.flow = some f ∧
      (f.key = r.key ∨ f.key = flowKeyReverse r.key) := by
  cases step_cases sound.shaped done with
  | creates _ h o handler key buf effect =>
      refine ⟨_, rfl, _, effect.after, .inl ?_⟩
      exact (identity_key (identity_started ..)).trans (ip4NewFlow_key ..)
  | finds _ h o a f handler key buf effect =>
      have looked : s.presents (.input slot) = some o.key :=
        lookupKey_of_parsed handler key
      obtain ⟨g, foundG, pointer, _, same⟩ :=
        (represented_of_sound sound).stored (hash o.key) a (Option.some.inj effect.bound)
      rw [← effect.index] at foundG
      cases effect.found.symm.trans foundG
      have own := distinguished o.key looked f (List.mem_of_getElem? effect.found)
        (sidedKey f.key a.dir) (sidedKey_stored pointer) same.symm
      refine ⟨_, rfl, _, effect.after, ?_⟩
      have key := identity_key (identity_updated (mapPlatform hash wheel) h s.wrk.tw (s.bufs slot)
        o.direction f)
      rw [key]
      exact key_of_sided own

theorem step_attributed {s t : MapSys} {c : Call} (sound : s.Sound hash) (attributed : Attributed s)
    (distinguished : Distinguished hash s c)
    (done : step (mapPlatform hash wheel) s c = .ok t) : Attributed t := by
  have old (r : Binding) (member : r ∈ s.history) : ∃ f, t.wrk.flows.get? r.flow = some f ∧
      (f.key = r.key ∨ f.key = flowKeyReverse r.key) := by
    obtain ⟨f, found, own⟩ := attributed r member
    obtain ⟨g, found', key⟩ := step_keeps_key sound.shaped done found
    exact ⟨g, found', by rw [key]; exact own⟩
  cases c with
  | receive slot b => cases pure_ok.mp done; exact old
  | preProcess slot => cases pure_ok.mp done; exact old
  | advance ticks => cases pure_ok.mp done; exact old
  | output slot =>
      simp only [step, bind_ok, pure_ok] at done
      obtain ⟨⟨w, action⟩, _, rfl⟩ := done
      exact old
  | input slot =>
      obtain ⟨q, history, bound⟩ := input_attributed sound distinguished done
      rw [Attributed, history, List.forall_mem_append, List.forall_mem_singleton]
      exact ⟨old, bound⟩

/-- In every run whose packets are told apart by their hashes, each packet is bound to a
flow of its own connection. -/
theorem packets_attributed_of_distinguished (xxhash : UInt64 → UInt64) (wheel : TimerWheel.Policy)
    (nThreads : Nat) (bufs : Nat → Buffer) (cs : List Call)
    (distinguished : Guarded (step (mapPlatform (flowTableHash xxhash) wheel))
      (Distinguished (flowTableHash xxhash))
      (initial (mapPlatform (flowTableHash xxhash) wheel) nThreads bufs) cs) :
    Always (step (mapPlatform (flowTableHash xxhash) wheel)) Attributed
      (initial (mapPlatform (flowTableHash xxhash) wheel) nThreads bufs) cs := by
  refine always_of_guarded (Sys.Sound (flowTableHash xxhash)) ?_ always_true
    (initial_sound _ wheel nThreads bufs) (fun _ member => (nomatch member)) distinguished
  intro s c t sound attributed meets done _
  exact ⟨step_sound sound done, step_attributed sound attributed meets done⟩

def wordPlatform : Platform (UInt64 → Option EntryAddr) Unit :=
  mapPlatform (flowTableHash id) (TimerWheel.slotted noHandle)

def wordStart : MapSys := initial wordPlatform 0 (fun _ => clientSyn.buffer 0)

theorem connection_attributed : Always (step wordPlatform) Attributed wordStart inTurn :=
  packets_attributed_of_distinguished id (TimerWheel.slotted noHandle) 0
    (fun _ => clientSyn.buffer 0) inTurn (by decide +kernel)

/-! Two of the six words can cancel, whatever the word hash. -/

theorem flowTableHash_words (xxhash : UInt64 → UInt64) (key : FlowKey) :
    flowTableHash xxhash key =
      xxhash (key.word 0) ^^^ xxhash (key.word 1) ^^^ xxhash (key.word 2) ^^^ xxhash (key.word 3) ^^^
        xxhash (key.word 4) ^^^ xxhash (key.word 5) := by
  simp only [flowTableHash, List.range_succ, List.range_zero, List.nil_append, List.cons_append,
    List.foldl_cons, List.foldl_nil, UInt64.zero_xor]

theorem flowTableHash_cancels (xxhash : UInt64 → UInt64) {key : FlowKey}
    (same : key.word 1 = key.word 3) :
    flowTableHash xxhash key =
      xxhash (key.word 0) ^^^ xxhash (key.word 2) ^^^ xxhash (key.word 4) ^^^ xxhash (key.word 5) := by
  rw [flowTableHash_words, same]
  have cancel (a b c : UInt64) : a ^^^ b ^^^ c ^^^ b = a ^^^ c := by
    rw [UInt64.xor_assoc a b c, UInt64.xor_comm b c, ← UInt64.xor_assoc a c b, UInt64.xor_assoc,
      UInt64.xor_self, UInt64.xor_zero]
  rw [cancel]

/-- From `0.a.b.c` to `a.b.c.x`: the words with the source and with the destination agree. -/
def shiftedSegment (a b c x : UInt8) (srcPort dstPort : UInt16) : Segment :=
  { src := addr 0 a b c, dst := addr a b c x, srcPort, dstPort, flags := TCP_FLAG_SYN }

theorem shifted_collide (xxhash : UInt64 → UInt64) (a b c a' b' c' x : UInt8)
    (srcPort dstPort : UInt16) :
    flowTableHash xxhash (shiftedSegment a b c x srcPort dstPort).key =
      flowTableHash xxhash (shiftedSegment a' b' c' x srcPort dstPort).key := by
  have twin (a b c : UInt8) : (shiftedSegment a b c x srcPort dstPort).key.word 1 =
      (shiftedSegment a b c x srcPort dstPort).key.word 3 := rfl
  rw [flowTableHash_cancels xxhash (twin a b c), flowTableHash_cancels xxhash (twin a' b' c')]
  rfl

def shifted : List Call :=
  [.receive 0 ((shiftedSegment 10 0 0 2 1000 80).buffer 0), .preProcess 0, .input 0,
    .receive 1 ((shiftedSegment 11 0 0 2 1000 80).buffer 0), .preProcess 1, .input 1]

theorem shifted_misattributed :
    Function.Injective (id : UInt64 → UInt64) ∧
      ¬ Always (step wordPlatform) Attributed wordStart shifted := by
  refine ⟨Function.injective_id, fun always => ?_⟩
  obtain ⟨s, reached, facts⟩ := completed
    (x := run (step wordPlatform) wordStart shifted)
    (fun s : MapSys => (s.history[1]?.map fun r => (r.flow, r.key), s.wrk.flows.elts.map Flow.key))
    (b := (some (0, (shiftedSegment 11 0 0 2 1000 80).key), [(shiftedSegment 10 0 0 2 1000 80).key]))
    (by decide +kernel)
  obtain ⟨bound, keys⟩ := Prod.mk.inj facts
  obtain ⟨r, second, named⟩ := Option.map_eq_some_iff.mp bound
  obtain ⟨flow, key⟩ := Prod.mk.inj named
  have attributed := always_iff_prefix.mp always shifted s List.prefix_rfl reached
  obtain ⟨f, found, own⟩ := attributed r (List.mem_of_getElem? second)
  have stored : f.key = (shiftedSegment 10 0 0 2 1000 80).key := by
    have at0 := congrArg (fun l : List FlowKey => l[0]?) keys
    rw [flow] at found
    have found' : s.wrk.flows.elts[0]? = some f := found
    simpa [found'] using at0
  rw [stored, key] at own
  exact absurd own (by decide +kernel)

end FlowTable
