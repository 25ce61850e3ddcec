import VppPlugins.FlowTable.Attribution
import VppPlugins.Library.Composition
import Mathlib.Algebra.Group.Action.Defs
import Mathlib.Algebra.Order.BigOperators.Group.List

/-! All threads of the plugin. Each has a context of its own in `flow_table_main`, so a run is
any interleaving of what the threads do. -/
namespace FlowTable
open Faults Runs

variable {Mem Tbl : Type} {nThreads : Nat}

/-- The rounds of the loop of `flow_table_main_init` that set up a pool and a hash table: the
main thread's round ends early when there are workers. -/
def UsesTable (nThreads thread : Nat) : Prop :=
  let numThreads := 1 + nThreads
  thread < numThreads ∧ ¬ (1 < numThreads ∧ thread = 0)

instance (nThreads thread : Nat) : Decidable (UsesTable nThreads thread) :=
  inferInstanceAs (Decidable (_ ∧ _))

/-- A thread that processes packets. -/
abbrev WorkerThread (nThreads : Nat) := {thread : Nat // UsesTable nThreads thread}

/-- The threads in the order of their indices. -/
def workerThreads (nThreads : Nat) : List (WorkerThread nThreads) :=
  (List.range (1 + nThreads)).filterMap fun thread =>
    if uses : UsesTable nThreads thread then some ⟨thread, uses⟩ else none

/-- `flow_table_main.wrk_ctx`, each context with the buffers its thread has in hand. -/
abbrev Threads (Mem Tbl : Type) (nThreads : Nat) := WorkerThread nThreads → Sys Mem Tbl

def threadsStart (P : Platform Mem Tbl) (nThreads : Nat)
    (bufs : WorkerThread nThreads → Nat → Buffer) : Threads Mem Tbl nThreads :=
  fun thread => initial P nThreads (bufs thread)

/-- `flow_table_get_worker_ctx` takes the context of the thread that runs. -/
def threadsStep (P : Platform Mem Tbl) :
    Threads Mem Tbl nThreads → WorkerThread nThreads × Call →
      Except Fault (Threads Mem Tbl nThreads) :=
  familyStep fun _ => step P

theorem thread_reachable {P : Platform Mem Tbl} {bufs : WorkerThread nThreads → Nat → Buffer}
    {ls : List (WorkerThread nThreads × Call)} {s : Threads Mem Tbl nThreads}
    (reached : run (threadsStep P) (threadsStart P nThreads bufs) ls = .ok s)
    (thread : WorkerThread nThreads) :
    run (step P) (initial P nThreads (bufs thread)) (labelsOf thread ls) = .ok (s thread) :=
  run_family_iff.mp reached thread

/-! How many flows there can be. -/

/-- No thread is missing, so what is summed over the list is summed over all of them. -/
theorem mem_workerThreads (thread : WorkerThread nThreads) : thread ∈ workerThreads nThreads := by
  refine List.mem_filterMap.mpr ⟨thread.1, List.mem_range.mpr thread.2.1, ?_⟩
  rw [dif_pos thread.2]

theorem workerThreads_length (nThreads : Nat) :
    (workerThreads nThreads).length ≤ if nThreads = 0 then 1 else nThreads := by
  have indices : (workerThreads nThreads).map Subtype.val =
      (List.range (1 + nThreads)).filter (UsesTable nThreads) := by
    rw [workerThreads, List.map_filterMap, ← List.filterMap_eq_filter]
    refine List.filterMap_congr fun thread _ => ?_
    by_cases uses : UsesTable nThreads thread
    · simp [Option.guard, uses]
    · simp [Option.guard, uses]
  have length := congrArg List.length indices
  rw [List.length_map] at length
  rw [length]
  cases nThreads with
  | zero => decide
  | succ n =>
      have front : List.range (1 + (n + 1)) = 0 :: (List.range (n + 1)).map (· + 1) := by
        rw [Nat.add_comm, List.range_succ_eq_map]
      have main : ¬ UsesTable (n + 1) 0 := fun uses => uses.2 ⟨by omega, rfl⟩
      rw [front, List.filter_cons_of_neg (by simpa using main), if_neg (Nat.succ_ne_zero n)]
      refine Nat.le_trans (List.length_filter_le ..) ?_
      rw [List.length_map, List.length_range]

theorem prealloc_times_workers (nThreads : Nat) :
    (workerThreads nThreads).length * preallocFlowsPerWrk nThreads ≤ FLOW_TABLE_MAX_FLOWS := by
  have few := workerThreads_length nThreads
  have share : preallocFlowsPerWrk nThreads =
      FLOW_TABLE_MAX_FLOWS / if nThreads = 0 then 1 else nThreads := by
    rw [preallocFlowsPerWrk]
    cases nThreads with
    | zero => rfl
    | succ n =>
        rw [if_neg (Nat.succ_ne_zero n), if_neg (by omega)]
  rw [share]
  refine Nat.le_trans (Nat.mul_le_mul_right _ few) ?_
  exact Nat.mul_div_le ..

theorem step_cap {P : Platform Mem Tbl} {s t : Sys Mem Tbl} {c : Call} (shaped : s.wrk.Shaped)
    (done : step P s c = .ok t) : t.wrk.flows.cap = s.wrk.flows.cap := by
  cases step_cases shaped done with
  | receive slot b => rfl
  | preProcess slot => rfl
  | creates slot h o _ _ _ effect => exact effect.cap
  | finds slot h o a f _ _ _ effect => exact effect.cap
  | idle slot nothing => rfl
  | mirrors slot index f w effect => exact effect.replaced.cap
  | advance ticks => rfl

theorem run_cap {P : Platform Mem Tbl} {nThreads : Nat} {bufs : Nat → Buffer} {cs : List Call}
    {s : Sys Mem Tbl} (reached : run (step P) (initial P nThreads bufs) cs = .ok s) :
    s.wrk.flows.cap = preallocFlowsPerWrk nThreads := by
  have kept := run_invariant
    (fun s : Sys Mem Tbl => s.wrk.Shaped ∧ s.wrk.flows.cap = preallocFlowsPerWrk nThreads)
    (fun _ _ _ inv done => ⟨step_shaped inv.1 done, (step_cap inv.1 done).trans inv.2⟩)
    ⟨initial_shaped P nThreads bufs, rfl⟩ reached
  exact kept.2

/-- However the threads interleave, all of them together never hold more flows than
`FLOW_TABLE_MAX_FLOWS`. -/
theorem flows_bounded_over_threads (P : Platform Mem Tbl) (nThreads : Nat)
    (bufs : WorkerThread nThreads → Nat → Buffer) (ls : List (WorkerThread nThreads × Call)) :
    Always (threadsStep P)
      (fun s => ((workerThreads nThreads).map fun thread => (s thread).wrk.flows.size).sum ≤
        FLOW_TABLE_MAX_FLOWS) (threadsStart P nThreads bufs) ls := by
  refine always_iff_prefix.mpr fun ms s _ reached => ?_
  have each : ∀ n ∈ (workerThreads nThreads).map fun thread => (s thread).wrk.flows.size,
      n ≤ preallocFlowsPerWrk nThreads := by
    intro n member
    obtain ⟨thread, -, rfl⟩ := List.mem_map.mp member
    rw [← run_cap (thread_reachable reached thread)]
    exact (s thread).wrk.flows.size_le_cap
  have total := List.sum_le_card_nsmul _ _ each
  rw [List.length_map, smul_eq_mul] at total
  exact Nat.le_trans total (prealloc_times_workers nThreads)

/-! Which thread holds the flow of a connection. -/

variable {hash : FlowKey → UInt64} {wheel : TimerWheel.Policy} {S : Set FlowKey}

/-- Where the hash separates the keys that occur, nothing in the table is mistaken for the
packet's entry. -/
theorem distinguished_of_injective (inj : Set.InjOn hash S)
    (closed : ∀ k ∈ S, flowKeyReverse k ∈ S) {s t : MapSys} {c : Call} (separated : s.Separated hash S)
    (done : step (mapPlatform hash wheel) s c = .ok t) (occur : KeysWithin S t) :
    Distinguished hash s c := by
  intro key presented f member k stored same
  obtain ⟨i, found⟩ := List.mem_iff_getElem?.mp member
  have own : f.key ∈ S := separated.within i f.key f.mirrored
    (directory_entry.mpr ⟨f, found, rfl, rfl⟩)
  have kept : k ∈ S := by
    unfold Flow.storedKeys at stored
    split at stored
    · rcases List.mem_pair.mp stored with rfl | rfl
      · exact own
      · exact closed _ own
    · rw [List.mem_singleton.mp stored]
      exact own
  cases c with
  | input slot =>
      obtain ⟨r, history, presented', -⟩ := input_answer separated.sound.shaped done
      cases presented'.symm.trans presented
      exact inj kept (occur r (by rw [history]; simp)) same
  | receive slot b => cases presented
  | preProcess slot => cases presented
  | output slot => cases presented
  | advance ticks => cases presented

theorem run_attributed (inj : Set.InjOn hash S) (closed : ∀ k ∈ S, flowKeyReverse k ∈ S)
    {s t : MapSys} {cs : List Call} (separated : s.Separated hash S) (attributed : Attributed s)
    (done : run (step (mapPlatform hash wheel)) s cs = .ok t) (occur : KeysWithin S t) :
    Attributed t := by
  induction cs generalizing s with
  | nil =>
      cases done
      exact attributed
  | cons c cs ih =>
      obtain ⟨u, head, rest⟩ := run_cons_ok.mp done
      have sofar := keysWithin_earlier (run_history rest) occur
      have told := distinguished_of_injective inj closed separated head sofar
      exact ih (step_separated inj closed separated head sofar)
        (step_attributed separated.sound attributed told head) rest

/-- The two keys of a connection, the one a flow's and the other a packet's. -/
theorem related_trans {K k l : FlowKey} (first : k = l ∨ k = flowKeyReverse l)
    (second : l = K ∨ l = flowKeyReverse K) : k = K ∨ k = flowKeyReverse K := by
  rcases first with rfl | rfl
  · exact second
  · rcases second with rfl | rfl
    · exact .inr rfl
    · exact .inl rfl

theorem related_symm {k l : FlowKey} (related : k = l ∨ k = flowKeyReverse l) :
    l = k ∨ l = flowKeyReverse k := by
  rcases related with rfl | rfl
  · exact .inl rfl
  · exact .inr rfl

/-- A thread holds a flow of a connection exactly when it processed a packet of it, in
whichever direction, and whatever the other threads did: a connection whose packets are
spread over threads has a flow on each of them. -/
theorem threads_hold_what_they_process {bufs : WorkerThread nThreads → Nat → Buffer}
    {ls : List (WorkerThread nThreads × Call)}
    {s : Threads (UInt64 → Option EntryAddr) Unit nThreads}
    (reached : run (threadsStep (mapPlatform hash wheel))
      (threadsStart (mapPlatform hash wheel) nThreads bufs) ls = .ok s)
    (thread : WorkerThread nThreads) (inj : Set.InjOn hash (occurring (s thread))) (K : FlowKey) :
    (∃ i f, (s thread).wrk.flows.get? i = some f ∧ (f.key = K ∨ f.key = flowKeyReverse K)) ↔
      ∃ r ∈ (s thread).history, r.key = K ∨ r.key = flowKeyReverse K := by
  have own := thread_reachable reached thread
  have closed := occurring_closed (s thread)
  have occur : KeysWithin (occurring (s thread)) (s thread) :=
    fun q member => ⟨q, member, .inl rfl⟩
  have start := initial_separated (S := occurring (s thread)) hash wheel nThreads (bufs thread)
  constructor
  · rintro ⟨i, f, found, related⟩
    have separated := run_separated inj closed start own occur
    obtain ⟨r, member, same⟩ := separated.within i f.key f.mirrored
      (directory_entry.mpr ⟨f, found, rfl, rfl⟩)
    exact ⟨r, member, related_trans (related_symm same) related⟩
  · rintro ⟨r, member, related⟩
    have attributed := run_attributed inj closed start (fun _ none => (nomatch none)) own occur
    obtain ⟨f, found, same⟩ := attributed r member
    exact ⟨r.flow, f, found, related_trans same related⟩

def firstWorker : WorkerThread 2 := ⟨1, by decide⟩
def secondWorker : WorkerThread 2 := ⟨2, by decide⟩

/-- Two workers, each with the packets of one direction. -/
def spread : List (WorkerThread 2 × Call) :=
  [(firstWorker, .receive 0 (clientSyn.buffer 0)),
    (secondWorker, .receive 0 (serverSynAck.buffer 0)), (firstWorker, .preProcess 0),
    (secondWorker, .preProcess 0), (secondWorker, .input 0), (firstWorker, .input 0)]

theorem occurring_injOn {s : MapSys} {K : FlowKey} (keys : s.history.map Binding.key = [K])
    (occurs : K ∈ bothKeys) : Set.InjOn portHash (occurring s) := by
  refine portHash_injOn.mono ?_
  rintro k ⟨r, member, side⟩
  have listed : r.key ∈ s.history.map Binding.key := List.mem_map_of_mem member
  rw [keys] at listed
  have own := List.mem_singleton.mp listed
  rcases side with rfl | rfl
  · exact own ▸ occurs
  · exact bothKeys_closed _ (own ▸ occurs)

/-- The connection has a flow on either worker. -/
theorem spread_connection_held_twice :
    ∃ s, run (threadsStep portPlatform)
        (threadsStart portPlatform 2 fun _ _ => clientSyn.buffer 0) spread = .ok s ∧
      ∀ thread, thread = firstWorker ∨ thread = secondWorker →
        ∃ i f, (s thread).wrk.flows.get? i = some f ∧
          (f.key = clientSyn.key ∨ f.key = flowKeyReverse clientSyn.key) := by
  obtain ⟨s, reached, keys⟩ := completed
    (fun s : Threads (UInt64 → Option EntryAddr) Unit 2 =>
      ((s firstWorker).history.map Binding.key, (s secondWorker).history.map Binding.key))
    (x := run (threadsStep portPlatform)
      (threadsStart portPlatform 2 fun _ _ => clientSyn.buffer 0) spread)
    (b := ([clientSyn.key], [serverSynAck.key])) (by decide +kernel)
  obtain ⟨first, second⟩ := Prod.mk.inj keys
  refine ⟨s, reached, fun thread which => ?_⟩
  rcases which with rfl | rfl
  · have inj := occurring_injOn first List.mem_cons_self
    obtain ⟨r, member, own⟩ : ∃ r ∈ (s firstWorker).history, r.key = clientSyn.key :=
      List.mem_map.mp (by rw [first]; exact List.mem_singleton.mpr rfl)
    exact (threads_hold_what_they_process reached firstWorker inj clientSyn.key).mpr
      ⟨r, member, .inl own⟩
  · have inj := occurring_injOn second (List.mem_cons_of_mem _ List.mem_cons_self)
    obtain ⟨r, member, own⟩ : ∃ r ∈ (s secondWorker).history, r.key = serverSynAck.key :=
      List.mem_map.mp (by rw [second]; exact List.mem_singleton.mpr rfl)
    exact (threads_hold_what_they_process reached secondWorker inj clientSyn.key).mpr
      ⟨r, member, .inr (own.trans (reply_key clientSyn _))⟩

end FlowTable
