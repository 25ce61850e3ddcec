import VppPlugins.FlowTable.Timers

/-! How the flow pool fills up. A flow's element is never given back: the callback of the
expiration timers prints which flows are idle, and no other code frees one. -/
namespace FlowTable
open Faults Runs

variable {Mem Tbl : Type} {P : Platform Mem Tbl}

def createdFlows (s : Sys Mem Tbl) : Nat := (s.history.filter Binding.created).length

/-- The call presents a key under whose hash the table has nothing. -/
def NewKey (P : Platform Mem Tbl) (s : Sys Mem Tbl) (c : Call) : Prop :=
  ∃ key, s.presents c = some key ∧
    P.table.get s.wrk.mem s.wrk.flowsHashTable (P.flowTableHash key) = some none

/-- The call does not die in `flow_table_alloc_flow`. -/
def FindsElement (P : Platform Mem Tbl) (s : Sys Mem Tbl) (c : Call) : Prop :=
  step P s c ≠ .error .poolExhausted

/-- A call that needs a new flow comes while fewer than `n` flows have ever been created. -/
def CreatedBelow (P : Platform Mem Tbl) (n : Nat) (s : Sys Mem Tbl) (c : Call) : Prop :=
  NewKey P s c → createdFlows s < n

theorem input_exhausted_iff {w : Worker Mem Tbl} {b : Buffer} :
    ip4InputProcess P w b = .error .poolExhausted ↔
      ∃ key, ip4LookupKey b = some key ∧
        P.table.get w.mem w.flowsHashTable (P.flowTableHash key) = some none ∧
        w.flows.cap ≤ w.flows.size := by
  constructor
  · intro failed
    simp only [ip4InputProcess, bind_error, orFault_error, orFault_ok, reduceCtorEq, and_false,
      false_or] at failed
    obtain ⟨h, handler, entries, looked, failed⟩ := failed
    cases entries with
    | none =>
        simp only [bind_error, orFault_error, orFault_ok, reduceCtorEq, and_false, false_or,
          and_true] at failed
        rcases failed with full | ⟨_, _, _, _, callback | ⟨_, _, impossible⟩⟩
        · exact ⟨_, lookupKey_of_parsed handler rfl, looked, FixedPool.alloc_eq_none.mp full⟩
        · cases initState_fault callback
        · cases impossible
    | some a =>
        simp only [bind_error, orFault_error, reduceCtorEq, and_false, false_or] at failed
        obtain ⟨_, _, callback | ⟨_, _, impossible⟩⟩ := failed
        · cases updateState_fault callback
        · cases impossible
  · rintro ⟨key, lookup, looked, full⟩
    obtain ⟨h, handler, rfl⟩ := Option.map_eq_some_iff.mp lookup
    have none : w.flows.alloc (ip4NewFlow b (h.parseKey b b.ip4FlowKey)) = none :=
      FixedPool.alloc_eq_none.mpr full
    simp only [ip4InputProcess, handler, orFault, bind, Except.bind, looked, none]

theorem output_not_exhausted (P : Platform Mem Tbl) (w : Worker Mem Tbl) (b : Buffer) :
    ip4OutputProcess P w b ≠ .error .poolExhausted := by
  intro failed
  unfold ip4OutputProcess at failed
  cases marked : vlibBufferGetFlow w b with
  | none => rw [marked] at failed; cases failed
  | some index =>
      simp only [marked, bind_error, orFault_error, orFault_ok, reduceCtorEq, and_false,
        false_or] at failed
      obtain ⟨f, _, failed⟩ := failed
      split at failed
      · simp only [bind_error, orFault_error, reduceCtorEq, and_false, false_or] at failed
        obtain ⟨_, _, impossible⟩ := failed
        cases impossible
      · cases failed

theorem findsElement_iff {s : Sys Mem Tbl} {c : Call} :
    FindsElement P s c ↔ (NewKey P s c → s.wrk.flows.size < s.wrk.flows.cap) := by
  cases c with
  | receive slot b => exact ⟨fun _ ⟨_, h, _⟩ => (nomatch h), fun _ h => (nomatch h)⟩
  | preProcess slot => exact ⟨fun _ ⟨_, h, _⟩ => (nomatch h), fun _ h => (nomatch h)⟩
  | advance ticks => exact ⟨fun _ ⟨_, h, _⟩ => (nomatch h), fun _ h => (nomatch h)⟩
  | output slot =>
      refine ⟨fun _ ⟨_, h, _⟩ => (nomatch h), fun _ failed => ?_⟩
      rcases bind_error.mp failed with called | ⟨_, _, impossible⟩
      · exact output_not_exhausted P _ _ called
      · cases impossible
  | input slot =>
      have failed_iff : step P s (.input slot) = .error .poolExhausted ↔
          ip4InputProcess P s.wrk (s.bufs slot) = .error .poolExhausted := by
        simp only [step, bind_error]
        refine ⟨fun failed => failed.resolve_right ?_, .inl⟩
        rintro ⟨_, _, impossible⟩
        cases impossible
      rw [FindsElement, ne_eq, failed_iff, input_exhausted_iff]
      constructor
      · rintro found ⟨key, lookup, looked⟩
        by_contra full
        exact found ⟨key, lookup, looked, by omega⟩
      · rintro room ⟨key, lookup, looked, full⟩
        have := room ⟨key, lookup, looked⟩
        omega

/-- Flows are created and never freed. -/
theorem step_size_created {s t : Sys Mem Tbl} {c : Call} (shaped : s.wrk.Shaped)
    (count : s.wrk.flows.size = createdFlows s) (done : step P s c = .ok t) :
    t.wrk.flows.cap = s.wrk.flows.cap ∧ t.wrk.flows.size = createdFlows t := by
  cases step_cases shaped done with
  | receive slot b => exact ⟨rfl, count⟩
  | preProcess slot => exact ⟨rfl, count⟩
  | idle slot _ => exact ⟨rfl, count⟩
  | advance ticks => exact ⟨rfl, count⟩
  | creates slot h o _ _ _ effect =>
      refine ⟨effect.cap, ?_⟩
      have size := effect.size
      simp [createdFlows, InputOutcome.binding, effect.created] at count ⊢
      omega
  | finds slot h o a f _ _ _ effect =>
      refine ⟨effect.cap, ?_⟩
      have size := effect.size
      simp [createdFlows, InputOutcome.binding, effect.created] at count ⊢
      omega
  | mirrors slot index f w effect => exact ⟨effect.replaced.cap, effect.replaced.size.trans count⟩

/-- Allocation succeeds throughout exactly in the runs that create no more flows than the
pool has elements, however many of them have long expired. -/
theorem allocation_succeeds_iff (P : Platform Mem Tbl) (nThreads : Nat) (bufs : Nat → Buffer)
    (cs : List Call) :
    Attempted (step P) (FindsElement P) (initial P nThreads bufs) cs ↔
      Attempted (step P) (CreatedBelow P (preallocFlowsPerWrk nThreads))
        (initial P nThreads bufs) cs := by
  refine attempted_iff (fun s => s.wrk.Shaped ∧
    s.wrk.flows.cap = preallocFlowsPerWrk nThreads ∧ s.wrk.flows.size = createdFlows s) ?_ ?_
    ⟨initial_shaped P nThreads bufs, rfl, rfl⟩
  · intro s c t inv done
    obtain ⟨cap, count⟩ := step_size_created inv.1 inv.2.2 done
    exact ⟨step_shaped inv.1 done, cap.trans inv.2.1, count⟩
  · intro s c inv
    rw [findsElement_iff, CreatedBelow, inv.2.1, inv.2.2]

/-- A key of which a packet came within the timeout of its flow. -/
def Active (s : Sys Mem Tbl) (key : FlowKey) : Prop :=
  ∃ r ∈ s.history, r.key = key ∧ ∃ f, s.wrk.flows.get? r.flow = some f ∧
    s.wrk.tw.now ≤ r.tick + tcpStateTimeout f.state

def FewActive (n : Nat) (s : Sys Mem Tbl) : Prop :=
  ∃ keys : List FlowKey, keys.length ≤ n ∧ ∀ key, Active s key → key ∈ keys

/-- At most `n` keys are active, and the timers of all other flows have expired. -/
structure MostIdle (n : Nat) (s : Sys Mem Tbl) : Prop where
  few : FewActive n s
  expired : ∀ h t, s.wrk.tw.live h = some t → ∃ r ∈ s.history, r.flow = t.userId ∧ Active s r.key

/-! Strangers who send one packet each, six ticks apart. -/

def stranger (n : Nat) : Segment :=
  { clientSyn with
    src := addr (UInt8.ofNat (n / 16777216)) (UInt8.ofNat (n / 65536)) (UInt8.ofNat (n / 256))
      (UInt8.ofNat n) }

/-- The source address as one number. -/
def sourceHash (key : FlowKey) : UInt64 :=
  UInt64.ofNat (Bytes.le (List.ofFn key.src.ip4).reverse)

theorem sourceHash_stranger {n : Nat} (small : n < 4294967296) :
    sourceHash (stranger n).key = UInt64.ofNat n := by
  have source : (List.ofFn (stranger n).key.src.ip4).reverse =
      [UInt8.ofNat n, UInt8.ofNat (n / 256), UInt8.ofNat (n / 65536),
        UInt8.ofNat (n / 16777216)] := rfl
  have value : Bytes.le [UInt8.ofNat n, UInt8.ofNat (n / 256), UInt8.ofNat (n / 65536),
      UInt8.ofNat (n / 16777216)] = n := by
    simp only [Bytes.le_cons, Bytes.le_nil, UInt8.toNat_ofNat']
    omega
  rw [sourceHash, source, value]

def approach (n : Nat) : List Call :=
  [.advance 6, .receive 0 ((stranger n).buffer 0), .preProcess 0]

def visits (n : Nat) : List Call := (List.range n).flatMap fun i => approach i ++ [.input 0]

def idlePlatform : Platform (UInt64 → Option EntryAddr) Unit :=
  mapPlatform sourceHash (TimerWheel.slotted noHandle)

/-- After `n` strangers each has its flow, and at most one of them was seen lately. -/
structure Visited (cap n : Nat) (s : MapSys) : Prop where
  sound : s.Sound sourceHash
  cap : s.wrk.flows.cap = cap
  size : s.wrk.flows.size = n
  bound : ∀ h, s.wrk.mem h ≠ none → ∃ i, i < n ∧ h = UInt64.ofNat i
  ticks : ∀ r ∈ s.history, r.tick ≤ s.wrk.tw.now
  recent : ∃ key, ∀ r ∈ s.history, r.tick + 6 ≤ s.wrk.tw.now ∨ r.key = key
  armed : ∀ h t, s.wrk.tw.live h = some t →
    t = ⟨t.userId, FLOW_EXPIRARION_TIMER_ID, s.wrk.tw.now, 5⟩ ∧
      ∃ r ∈ s.history, r.flow = t.userId ∧ r.tick = s.wrk.tw.now ∧
        ∃ f, s.wrk.flows.get? r.flow = some f

theorem few_of_recent {n : Nat} {s : MapSys} (room : 0 < n)
    (recent : ∃ key, ∀ r ∈ s.history, r.tick + 6 ≤ s.wrk.tw.now ∨ r.key = key) :
    FewActive n s := by
  obtain ⟨key, recent⟩ := recent
  refine ⟨[key], room, ?_⟩
  rintro k ⟨r, member, rfl, f, _, late⟩
  have timeout : tcpStateTimeout f.state = 5 := by cases f.state <;> rfl
  rcases recent r member with past | same
  · omega
  · exact List.mem_singleton.mpr same

theorem visited_idle {cap n : Nat} {s : MapSys} (room : 0 < cap) (visited : Visited cap n s) :
    MostIdle cap s := by
  refine ⟨few_of_recent room visited.recent, fun h t alive => ?_⟩
  obtain ⟨-, r, member, own, now, f, found⟩ := visited.armed h t alive
  exact ⟨r, member, own, r, member, rfl, f, found, now ▸ Nat.le_add_right _ _⟩

theorem idle_of_same {n : Nat} {s t : MapSys} (wrk : t.wrk = s.wrk) (history : t.history = s.history)
    (idle : MostIdle n s) : MostIdle n t := by
  refine ⟨?_, ?_⟩
  · simpa only [FewActive, Active, wrk, history] using idle.few
  · simpa only [Active, wrk, history] using idle.expired

/-- The state in which the next stranger's packet reaches the input hook. -/
def approached (s : MapSys) (n : Nat) : MapSys :=
  { wrk := (flowTableTimerUpdateTime idlePlatform s.wrk 6).1
    bufs := Function.update (Function.update s.bufs 0 ((stranger n).buffer 0)) 0
      (ip4PreProcess ((stranger n).buffer 0)).1
    history := s.history }

theorem approach_run (s : MapSys) (n : Nat) :
    run (step idlePlatform) s (approach n) = .ok (approached s n) := by
  have packet : Function.update s.bufs 0 ((stranger n).buffer 0) 0 = (stranger n).buffer 0 :=
    Function.update_self ..
  simp only [approach, run_cons_ok, run_nil, step, pure_ok, exists_eq_left', packet]
  rfl

theorem approached_presents (s : MapSys) (n : Nat) :
    (approached s n).presents (.input 0) = some (stranger n).key := by
  have packet : (approached s n).bufs 0 = (ip4PreProcess ((stranger n).buffer 0)).1 := by
    simp only [approached, Function.update_self]
  rw [Sys.presents, packet]
  exact segment_lookup (stranger n)

theorem approached_past {cap n : Nat} {s : MapSys} (visited : Visited cap n s) (i : Nat) :
    ∀ r ∈ (approached s i).history, r.tick + 6 ≤ (approached s i).wrk.tw.now :=
  fun r member => Nat.add_le_add_right (visited.ticks r member) 6

/-- By the time the next stranger comes, every timer has fired. -/
theorem approached_dead {cap n : Nat} {s : MapSys} (visited : Visited cap n s) (i h : Nat) :
    (approached s i).wrk.tw.live h = none := by
  rw [Option.eq_none_iff_forall_not_mem]
  intro t alive
  obtain ⟨before, kept⟩ := TimerWheel.live_expire.mp alive
  have timer := (visited.armed h t before).1
  have late : ¬ t.setAt + t.interval < s.wrk.tw.now + 6 := of_decide_eq_false kept
  rw [timer] at late
  dsimp only at late
  omega

theorem approached_visited {cap n : Nat} {s : MapSys} (visited : Visited cap n s) (i : Nat) :
    Visited cap n (approached s i) := by
  have sound : (approached s i).Sound sourceHash :=
    run_invariant (Sys.Sound sourceHash) (fun _ _ _ => step_sound) visited.sound (approach_run s i)
  refine ⟨sound, visited.cap, visited.size, visited.bound,
    fun r member => Nat.le_trans (visited.ticks r member) (Nat.le_add_right _ _),
    ⟨.zero, fun r member => .inl (approached_past visited i r member)⟩, fun h t alive => ?_⟩
  rw [approached_dead visited] at alive
  cases alive

theorem approach_idle {cap n : Nat} {s : MapSys} (room : 0 < cap) (visited : Visited cap n s)
    (i : Nat) : Always (step idlePlatform) (MostIdle cap) s (approach i) := by
  have later := visited_idle room (approached_visited visited i)
  refine ⟨visited_idle room visited, fun t first => ?_⟩
  cases pure_ok.mp first
  refine ⟨idle_of_same (s := approached s i) rfl rfl later, fun u second => ?_⟩
  cases pure_ok.mp second
  refine ⟨idle_of_same (s := approached s i) rfl rfl later, fun v third => ?_⟩
  cases pure_ok.mp third
  exact idle_of_same (s := approached s i) rfl rfl later

/-- The timer of a flow that a packet makes. -/
theorem created_timer {P : Platform Mem Tbl} (h : ProtocolHandler) (tw : TimerWheel) (b : Buffer)
    (key : FlowKey) (index : Nat) {handle : Nat} {t : Timer}
    (alive : (h.started P tw b .dirIn (ip4NewFlow b key index)).1.live handle = some t) :
    tw.live handle = some t ∨ t = ⟨index, FLOW_EXPIRARION_TIMER_ID, tw.now, 5⟩ := by
  cases h with
  | tcp =>
      have timer := initFlow_timer b .dirIn (ip4NewFlow b key index)
      have arms := settle_arms P tw b .dirIn (timer.1.trans (newFlow_timer b key index))
      have timeout (state : TcpState) : tcpStateTimeout state = 5 := by cases state <;> rfl
      rw [ProtocolHandler.started, arms.1, TimerWheel.live_start, timer.2, timeout,
        (ip4NewFlow_shaped b key index).eltIndex] at alive
      split at alive
      · exact .inr (Option.some.inj alive).symm
      · exact .inl alive
  | unimplemented => exact .inl alive
  | icmp => exact .inl alive
  | udp => exact .inl alive

theorem stranger_unbound {cap n : Nat} {s : MapSys} (visited : Visited cap n s)
    (small : n < 4294967296) : s.wrk.mem (sourceHash (stranger n).key) = none := by
  rw [sourceHash_stranger small]
  by_contra found
  obtain ⟨i, below, same⟩ := visited.bound _ found
  have values := congrArg UInt64.toNat same
  rw [UInt64.toNat_ofNat', UInt64.toNat_ofNat'] at values
  omega

theorem stranger_enters {cap n : Nat} {s : MapSys} (visited : Visited cap n s) (room : n < cap)
    (small : n < 4294967296) :
    ∃ t, step idlePlatform (approached s n) (.input 0) = .ok t ∧ Visited cap (n + 1) t := by
  have arrived := approached_visited visited n
  have unbound := stranger_unbound arrived small
  have presented := approached_presents s n
  have accepts : (approached s n).Accepts sourceHash (.input 0) :=
    ⟨(stranger n).key, presented, fun _ => by rw [arrived.size, arrived.cap]; exact room⟩
  have completes : ∃ t, step idlePlatform (approached s n) (.input 0) = .ok t :=
    (step_completes_iff arrived.sound).mpr accepts
  obtain ⟨t, done⟩ := completes
  refine ⟨t, done, ?_⟩
  cases step_cases arrived.sound.shaped done with
  | finds _ h o a f handler key buf effect =>
      have own : (stranger n).key = o.key := (key_of_looked handler key presented).symm
      rw [own] at unbound
      exact absurd ((Option.some.inj effect.bound).symm.trans unbound) (Option.some_ne_none a)
  | creates _ h o handler key buf effect =>
      have own : (stranger n).key = o.key := (key_of_looked handler key presented).symm
      obtain ⟨_, stored⟩ := effect.stored
      have mem : o.wrk.mem = Function.update (approached s n).wrk.mem (sourceHash o.key)
          (some ⟨o.flow, .dirIn⟩) := stored_mem stored
      have now : o.wrk.tw.now = (approached s n).wrk.tw.now := by
        rw [effect.tw, started_now]
      refine ⟨step_sound arrived.sound done, effect.cap.trans arrived.cap, ?_, ?_, ?_,
        ⟨(stranger n).key, ?_⟩, ?_⟩
      · exact effect.size.trans (congrArg Nat.succ arrived.size)
      · intro g found
        dsimp only at found
        by_cases here : g = sourceHash o.key
        · exact ⟨n, Nat.lt_succ_self n, by rw [here, ← own, sourceHash_stranger small]⟩
        · rw [mem, Function.update_of_ne here] at found
          obtain ⟨i, below, same⟩ := arrived.bound g found
          exact ⟨i, Nat.lt_succ_of_lt below, same⟩
      · rw [List.forall_mem_append, List.forall_mem_singleton]
        dsimp only
        rw [now]
        exact ⟨arrived.ticks, Nat.le_refl _⟩
      · rw [List.forall_mem_append, List.forall_mem_singleton]
        dsimp only
        rw [now]
        exact ⟨fun r old => .inl (approached_past visited n r old), .inr own.symm⟩
      · intro handle t alive
        dsimp only at alive ⊢
        rw [effect.tw] at alive
        rcases created_timer h _ _ _ _ alive with before | rfl
        · rw [approached_dead visited] at before
          cases before
        · rw [now]
          exact ⟨rfl, _, List.mem_append_right _ List.mem_cons_self, rfl, rfl, _, effect.after⟩

def idleStart (nThreads : Nat) : MapSys :=
  initial idlePlatform nThreads (fun _ => clientSyn.buffer 0)

theorem visits_succ (n : Nat) : visits (n + 1) = (visits n ++ approach n) ++ [.input 0] := by
  simp [visits, List.range_succ, List.flatMap_append]

theorem visits_run {nThreads n : Nat} (room : n ≤ preallocFlowsPerWrk nThreads)
    (some : 0 < preallocFlowsPerWrk nThreads) :
    ∃ s, run (step idlePlatform) (idleStart nThreads) (visits n) = .ok s ∧
      Visited (preallocFlowsPerWrk nThreads) n s ∧
      Always (step idlePlatform) (MostIdle (preallocFlowsPerWrk nThreads)) (idleStart nThreads)
        (visits n) := by
  induction n with
  | zero =>
      have visited : Visited (preallocFlowsPerWrk nThreads) 0 (idleStart nThreads) :=
        ⟨initial_sound .., rfl, rfl, fun _ found => absurd rfl found,
          fun _ member => (nomatch member), ⟨.zero, fun _ member => (nomatch member)⟩,
          fun h _ alive => (nomatch (TimerWheel.live_init h).symm.trans alive)⟩
      exact ⟨idleStart nThreads, rfl, visited, visited_idle some visited⟩
  | succ n ih =>
      obtain ⟨s, reached, visited, idle⟩ := ih (Nat.le_of_succ_le room)
      have bound := preallocFlowsPerWrk_le nThreads
      have small : n < 4294967296 := by
        simp only [FLOW_TABLE_MAX_FLOWS] at bound
        omega
      obtain ⟨t, entered, visited'⟩ := stranger_enters visited room small
      have arrived : run (step idlePlatform) (idleStart nThreads) (visits n ++ approach n) =
          .ok (approached s n) := run_append_ok.mpr ⟨s, reached, approach_run s n⟩
      have last : Always (step idlePlatform) (MostIdle (preallocFlowsPerWrk nThreads))
          (approached s n) [.input 0] := by
        exact (always_cons_ok entered).mpr
          ⟨visited_idle some (approached_visited visited n), visited_idle some visited'⟩
      rw [visits_succ]
      exact ⟨t, run_snoc_ok.mpr ⟨_, arrived, entered⟩, visited',
        always_append arrived (always_append reached idle (approach_idle some visited n)) last⟩

/-- One stranger more than the pool has elements, of whom only the last one is ever active, and
has a timer. -/
theorem idle_flows_fill_pool (nThreads : Nat) (some : 0 < preallocFlowsPerWrk nThreads) :
    Always (step idlePlatform) (MostIdle (preallocFlowsPerWrk nThreads)) (idleStart nThreads)
        (visits (preallocFlowsPerWrk nThreads + 1)) ∧
      ¬ Attempted (step idlePlatform) (FindsElement idlePlatform) (idleStart nThreads)
        (visits (preallocFlowsPerWrk nThreads + 1)) := by
  obtain ⟨s, reached, visited, idle⟩ := visits_run (Nat.le_refl (preallocFlowsPerWrk nThreads)) some
  generalize full : preallocFlowsPerWrk nThreads = n at *
  have bound := preallocFlowsPerWrk_le nThreads
  have small : n < 4294967296 := by
    simp only [FLOW_TABLE_MAX_FLOWS, full] at bound
    omega
  have arrived : run (step idlePlatform) (idleStart nThreads) (visits n ++ approach n) =
      .ok (approached s n) := run_append_ok.mpr ⟨s, reached, approach_run s n⟩
  have exhausted : step idlePlatform (approached s n) (.input 0) = .error .poolExhausted := by
    by_contra found
    have room := findsElement_iff.mp found ⟨(stranger n).key, approached_presents s n,
      congrArg Option.some (stranger_unbound (approached_visited visited n) small)⟩
    rw [(approached_visited visited n).size, (approached_visited visited n).cap] at room
    omega
  rw [visits_succ]
  refine ⟨always_append arrived (always_append reached idle (approach_idle some visited n)) ?_, ?_⟩
  · exact (always_cons_error exhausted).mpr (visited_idle some (approached_visited visited n))
  · intro attempted
    exact attempted_last arrived attempted exhausted

/-- A million strangers and one. -/
theorem million_idle_flows_exhaust_pool :
    Always (step idlePlatform) (MostIdle 1000000) (idleStart 0) (visits 1000001) ∧
      ¬ Attempted (step idlePlatform) (FindsElement idlePlatform) (idleStart 0) (visits 1000001) :=
  idle_flows_fill_pool 0 (by decide)

end FlowTable
