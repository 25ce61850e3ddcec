import VppPlugins.FlowTable.Dataplane
import VppPlugins.FlowTable.Connections
import VppPlugins.Library.DirectoryBatches

/-! Vectors of packets that pass both hook nodes before the next vector comes in. Inside a
vector all packets pass the input hooks before any of them reaches the output hook. -/
namespace FlowTable
open Faults Runs Vnetfilter

variable {Mem Tbl A : Type} {hash : FlowKey → UInt64} {wheel : TimerWheel.Policy} {S : Set FlowKey}

/-- A vector of packets in buffers of its own, with whatever the nodes find on their stacks. -/
structure Pass where
  packets : List (UInt32 × Buffer)
  distinct : (packets.map Prod.fst).Nodup
  bounded : packets.length ≤ VLIB_FRAME_SIZE
  traceIn : Bool
  traceOut : Bool
  stackIn : Vector UInt16 VLIB_FRAME_SIZE
  stackOut : Vector UInt16 VLIB_FRAME_SIZE

def Pass.frame (p : Pass) : VlibFrame where
  vectorArgs := p.packets.map Prod.fst
  bounded := by
    rw [List.length_map]
    exact p.bounded

/-- The keys under which the packets of the vector are looked up. -/
def Pass.keys (p : Pass) : List FlowKey :=
  p.packets.filterMap fun q => ip4LookupKey (ip4PreProcess q.2).1

/-- A vector on its way through both hook nodes, or what may happen between two of them: the
timer node, another packet written to a buffer, and nodes that call no hook of the plugin's
IPv4 side. -/
inductive Round (A : Type) where
  | pass (p : Pass)
  | timer (ticks : Nat)
  | receive (slot : Nat) (b : Buffer)
  | other (n : NodeCall A) (idle : n.calls = [])

def Round.nodes : Round A → List (NodeCall A)
  | .pass p =>
      p.packets.map (fun q => .receive q.1.toNat q.2) ++
        [.hook .l2InputIp4 p.traceIn p.frame p.stackIn,
          .hook .l2OutputIp4 p.traceOut p.frame p.stackOut]
  | .timer ticks => [.timer ticks]
  | .receive slot b => [.receive slot b]
  | .other n _ => [n]

def roundStep (P : Platform Mem Tbl) (g : Graph A) (t : Thread Mem Tbl A) (r : Round A) :
    Except ThreadFault (Thread Mem Tbl A) :=
  run (nodeStep P g registeredHooks) t r.nodes

/-! The calls of a round. -/

def slotsOf (packets : List (UInt32 × Buffer)) : List Nat := packets.map fun q => q.1.toNat

def inputCalls (slots : List Nat) : List Call := slots.flatMap fun i => pluginCalls i .l2InputIp4

def outputCalls (slots : List Nat) : List Call := slots.flatMap fun i => pluginCalls i .l2OutputIp4

def receiveCalls (packets : List (UInt32 × Buffer)) : List Call :=
  packets.map fun q => .receive q.1.toNat q.2

theorem pass_calls (p : Pass) :
    (Round.pass (A := A) p).nodes.flatMap NodeCall.calls =
      receiveCalls p.packets ++ inputCalls (slotsOf p.packets) ++ outputCalls (slotsOf p.packets) := by
  have receives : (p.packets.map fun q => (.receive q.1.toNat q.2 : NodeCall A)).flatMap
      NodeCall.calls = receiveCalls p.packets := by
    rw [List.flatMap_map, receiveCalls]
    exact (List.map_eq_flatMap ..).symm
  rw [Round.nodes, List.flatMap_append, receives, List.append_assoc]
  simp only [List.flatMap_cons, List.flatMap_nil, NodeCall.calls, Pass.frame, inputCalls, outputCalls,
    slotsOf, List.flatMap_map, List.append_nil]

theorem roundStep_calls {P : Platform Mem Tbl} {g : Graph A} {t u : Thread Mem Tbl A} {r : Round A}
    (done : roundStep P g t r = .ok u) :
    run (step P) t.sys (r.nodes.flatMap NodeCall.calls) = .ok u.sys :=
  run_expands_ok (nodeStep_calls P g) done

/-- What the vector's packets leave in their buffers before the input node runs. -/
structure Loaded (s t : Sys Mem Tbl) (packets : List (UInt32 × Buffer)) : Prop where
  wrk : t.wrk = s.wrk
  history : t.history = s.history
  bufs : ∀ q ∈ packets, t.bufs q.1.toNat = q.2
  others : ∀ slot ∉ slotsOf packets, t.bufs slot = s.bufs slot

theorem receives_load {P : Platform Mem Tbl} {s t : Sys Mem Tbl} {packets : List (UInt32 × Buffer)}
    (distinct : (slotsOf packets).Nodup) (done : run (step P) s (receiveCalls packets) = .ok t) :
    Loaded s t packets := by
  induction packets generalizing s with
  | nil =>
      cases done
      exact ⟨rfl, rfl, fun _ member => (List.not_mem_nil member).elim, fun _ _ => rfl⟩
  | cons q packets ih =>
      obtain ⟨u, first, rest⟩ := run_cons_ok.mp done
      cases pure_ok.mp first
      obtain ⟨fresh, apart⟩ := List.nodup_cons.mp distinct
      have loaded := ih apart rest
      refine ⟨loaded.wrk, loaded.history, ?_, ?_⟩
      · intro p member
        rcases List.mem_cons.mp member with rfl | later
        · rw [loaded.others _ fresh]
          exact Function.update_self ..
        · exact loaded.bufs p later
      · intro slot outside
        rw [loaded.others slot (List.not_mem_of_not_mem_cons outside)]
        exact Function.update_of_ne (List.ne_of_not_mem_cons outside) ..

/-- Packet after packet presents its key to the directory, and keeps the mark it gets until
the last of them is through. -/
theorem inputs_answer {s t : MapSys} {slots : List Nat} {packet : Nat → Buffer}
    (shaped : s.wrk.Shaped) (distinct : slots.Nodup) (holds : ∀ i ∈ slots, s.bufs i = packet i)
    (done : run (step (mapPlatform hash wheel)) s (inputCalls slots) = .ok t) :
    ∃ rs, t.history = s.history ++ rs ∧
      Directory.presentAll hash s.wrk.directory (rs.map Binding.key) =
        (t.wrk.directory, rs.map fun r => (r.flow, side r.direction)) ∧
      List.Forall₂ (fun i r => ip4LookupKey (ip4PreProcess (packet i)).1 = some r.key ∧
        vlibBufferGetFlow t.wrk (t.bufs i) = some r.flow) slots rs := by
  induction slots generalizing s with
  | nil =>
      cases done
      exact ⟨[], (List.append_nil _).symm, rfl, .nil⟩
  | cons i slots ih =>
      obtain ⟨s₁, prepared, first⟩ := run_cons_ok.mp done
      obtain ⟨s₂, bound, rest⟩ := run_cons_ok.mp first
      obtain ⟨fresh, apart⟩ := List.nodup_cons.mp distinct
      have shaped₁ := step_shaped shaped prepared
      have shaped₂ := step_shaped shaped₁ bound
      cases pure_ok.mp prepared
      obtain ⟨r, history, presented, answer⟩ := input_answer shaped₁ bound
      have later : ∀ c ∈ inputCalls slots, ¬ c.Touches i := by
        intro c member touches
        obtain ⟨j, inside, call⟩ := List.mem_flatMap.mp member
        have same : j = i := by
          simp only [pluginCalls, List.mem_cons, List.not_mem_nil, or_false] at call
          rcases call with rfl | rfl <;> exact touches
        exact fresh (same ▸ inside)
      obtain ⟨r', history', marked⟩ := bound_packet_marked shaped₁ bound later rest
      have same : r' = r := by
        rw [history] at history'
        simpa using history'.symm
      subst same
      have kept : ∀ j ∈ slots, s₂.bufs j = packet j := by
        intro j member
        have other : j ≠ i := fun same => fresh (same ▸ member)
        rw [step_untouched bound fun touches => other touches.symm]
        refine (Function.update_of_ne other ..).trans (holds j (List.mem_cons_of_mem _ member))
      obtain ⟨rs, grown, answers, each⟩ := ih shaped₂ apart kept rest
      refine ⟨r' :: rs, ?_, ?_, .cons ⟨?_, marked⟩ each⟩
      · rw [grown, history, List.append_assoc]
        rfl
      · rw [List.map_cons, Directory.presentAll, answer]
        dsimp only
        rw [answers]
        rfl
      · have looked : ip4LookupKey (Function.update s.bufs i (ip4PreProcess (s.bufs i)).1 i) =
            some r'.key := presented
        rw [Function.update_self, holds i List.mem_cons_self] at looked
        exact looked

theorem getFlow_kept {w v : Worker Mem Tbl} {b : Buffer} {i : Nat}
    (grown : w.flows.size ≤ v.flows.size) (marked : vlibBufferGetFlow w b = some i) :
    vlibBufferGetFlow v b = some i := by
  obtain ⟨f, found⟩ := getFlow_found marked
  unfold vlibBufferGetFlow at marked ⊢
  split at marked
  · cases marked
  · rename_i set
    rw [if_neg set]
    unfold flowTableGetFlowByIndex at marked ⊢
    split at marked
    · cases marked
    · have same := Option.some.inj marked
      obtain ⟨g, stays⟩ := FixedPool.get?_isSome_iff.mpr
        (Nat.lt_of_lt_of_le (FixedPool.lt_size_of_get? found) grown)
      rw [← same] at stays
      rw [stays]
      exact marked

theorem outputs_mirror {s t : MapSys} {slots is : List Nat} (shaped : s.wrk.Shaped)
    (marked : List.Forall₂ (fun slot i => vlibBufferGetFlow s.wrk (s.bufs slot) = some i) slots is)
    (done : run (step (mapPlatform hash wheel)) s (outputCalls slots) = .ok t) :
    t.wrk.directory = Directory.mirrorAll flowKeyReverse hash s.wrk.directory is := by
  induction slots generalizing s is with
  | nil =>
      cases marked
      cases done
      rfl
  | cons slot slots ih =>
      obtain ⟨i, is, here, rest, rfl⟩ := List.forall₂_cons_left_iff.mp marked
      obtain ⟨u, first, later⟩ := run_cons_ok.mp done
      have size := step_size shaped first
      have packets : u.bufs = s.bufs := by
        funext j
        exact step_untouched first id
      have mirrored := step_directory shaped first
      rw [Sys.event, here] at mirrored
      have stays : List.Forall₂ (fun j i => vlibBufferGetFlow u.wrk (u.bufs j) = some i) slots is := by
        rw [packets]
        exact rest.imp fun _ _ => getFlow_kept size
      rw [ih (step_shaped shaped first) stays later, mirrored]
      rfl

theorem outputs_history {P : Platform Mem Tbl} {s t : Sys Mem Tbl} {slots : List Nat}
    (done : run (step P) s (outputCalls slots) = .ok t) : t.history = s.history := by
  refine run_invariant_of (fun u => u.history = s.history)
    (Q := fun c => ∃ i, c = .output i) ?_ ?_ rfl done
  · rintro u c v same ⟨i, rfl⟩ last
    simp only [step, bind_ok, pure_ok] at last
    obtain ⟨⟨w, action⟩, -, rfl⟩ := last
    exact same
  · intro c member
    obtain ⟨i, -, call⟩ := List.mem_flatMap.mp member
    exact ⟨i, List.mem_singleton.mp call⟩

theorem keys_of_answers {packets : List (UInt32 × Buffer)} {packet : Nat → Buffer} {rs : List Binding}
    {Q : Nat → Binding → Prop} (holds : ∀ q ∈ packets, packet q.1.toNat = q.2)
    (each : List.Forall₂ (fun i r => ip4LookupKey (ip4PreProcess (packet i)).1 = some r.key ∧ Q i r)
      (slotsOf packets) rs) :
    packets.filterMap (fun q => ip4LookupKey (ip4PreProcess q.2).1) = rs.map Binding.key := by
  induction packets generalizing rs with
  | nil =>
      cases each
      rfl
  | cons q packets ih =>
      obtain ⟨r, rs, ⟨looked, -⟩, rest, rfl⟩ := List.forall₂_cons_left_iff.mp each
      rw [holds q List.mem_cons_self] at looked
      have later := ih (fun p member => holds p (List.mem_cons_of_mem _ member)) rest
      simp only [List.filterMap_cons, looked, later, List.map_cons]

/-- The effect of a whole vector: one batch of its keys. -/
structure Passed (hash : FlowKey → UInt64) (s t : MapSys) (p : Pass) : Prop where
  shaped : t.wrk.Shaped
  directory : t.wrk.directory = Directory.batch flowKeyReverse hash s.wrk.directory p.keys
  history : ∃ rs, t.history = s.history ++ rs ∧ rs.map Binding.key = p.keys

theorem pass_passed {s t : MapSys} {p : Pass} (shaped : s.wrk.Shaped)
    (done : run (step (mapPlatform hash wheel)) s
      ((Round.pass (A := A) p).nodes.flatMap NodeCall.calls) = .ok t) : Passed hash s t p := by
  have distinct : (slotsOf p.packets).Nodup := by
    have apart := p.distinct.map fun _ _ => UInt32.toNat_inj.mp
    rw [List.map_map] at apart
    exact apart
  rw [pass_calls] at done
  obtain ⟨s₂, inputs, outputs⟩ := run_append_ok.mp done
  obtain ⟨s₁, receives, through⟩ := run_append_ok.mp inputs
  have loaded := receives_load distinct receives
  have shaped₁ : s₁.wrk.Shaped := by
    rw [loaded.wrk]
    exact shaped
  have shaped₂ : s₂.wrk.Shaped :=
    run_invariant (fun u : MapSys => u.wrk.Shaped) (fun _ _ _ => step_shaped) shaped₁ through
  have shaped₃ : t.wrk.Shaped :=
    run_invariant (fun u : MapSys => u.wrk.Shaped) (fun _ _ _ => step_shaped) shaped₂ outputs
  obtain ⟨rs, grown, answers, each⟩ := inputs_answer shaped₁ distinct (fun _ _ => rfl) through
  have keys : p.keys = rs.map Binding.key := keys_of_answers loaded.bufs each
  have marked : List.Forall₂ (fun slot i => vlibBufferGetFlow s₂.wrk (s₂.bufs slot) = some i)
      (slotsOf p.packets) (rs.map Binding.flow) := by
    rw [List.forall₂_map_right_iff]
    exact each.imp fun _ _ both => both.2
  refine ⟨shaped₃, ?_, rs, ?_, keys.symm⟩
  · have flows : (Directory.presentAll hash s₁.wrk.directory (rs.map Binding.key)).2.map Prod.fst =
        rs.map Binding.flow := by
      rw [answers, List.map_map]
      rfl
    have presented : (Directory.presentAll hash s₁.wrk.directory (rs.map Binding.key)).1 =
        s₂.wrk.directory := by rw [answers]
    rw [outputs_mirror shaped₂ marked outputs, keys, Directory.batch, ← loaded.wrk, flows, presented]
  · rw [outputs_history outputs, grown, loaded.history]

/-! Runs of rounds. -/

/-- A round that no vector passes in. -/
structure Quiet (s t : MapSys) : Prop where
  shaped : t.wrk.Shaped
  directory : t.wrk.directory = s.wrk.directory

theorem roundStep_cases {g : Graph A} {t u : Thread (UInt64 → Option EntryAddr) Unit A} {r : Round A}
    (shaped : t.sys.wrk.Shaped) (done : roundStep (mapPlatform hash wheel) g t r = .ok u) :
    (∃ p, r = .pass p ∧ Passed hash t.sys u.sys p) ∨ (∀ p, r ≠ .pass p) ∧ Quiet t.sys u.sys := by
  have calls := roundStep_calls done
  cases r with
  | pass p => exact .inl ⟨p, rfl, pass_passed shaped calls⟩
  | timer ticks =>
      obtain ⟨s, first, rest⟩ := run_cons_ok.mp calls
      cases rest
      exact .inr ⟨fun _ same => (by cases same), step_shaped shaped first,
        step_directory shaped first⟩
  | receive slot b =>
      obtain ⟨s, first, rest⟩ := run_cons_ok.mp calls
      cases rest
      exact .inr ⟨fun _ same => (by cases same), step_shaped shaped first,
        step_directory shaped first⟩
  | other n idle =>
      rw [Round.nodes, List.flatMap_singleton, idle] at calls
      have same : u.sys = t.sys := (Except.ok.inj calls).symm
      exact .inr ⟨fun _ same => (by cases same), by rw [same]; exact shaped, by rw [same]⟩

/-- No flow of the thread waits for its reverse entry. -/
structure Thread.Mirrored (t : Thread (UInt64 → Option EntryAddr) Unit A) : Prop where
  shaped : t.sys.wrk.Shaped
  settled : Directory.Settled t.sys.wrk.directory

theorem roundStep_mirrored {g : Graph A} {t u : Thread (UInt64 → Option EntryAddr) Unit A}
    {r : Round A} (mirrored : t.Mirrored)
    (done : roundStep (mapPlatform hash wheel) g t r = .ok u) : u.Mirrored := by
  rcases roundStep_cases mirrored.shaped done with ⟨p, -, passed⟩ | ⟨-, quiet⟩
  · refine ⟨passed.shaped, ?_⟩
    rw [passed.directory]
    exact Directory.batch_settled mirrored.settled p.keys
  · refine ⟨quiet.shaped, ?_⟩
    rw [quiet.directory]
    exact mirrored.settled

/-- A thread just started. -/
def launched (P : Platform Mem Tbl) (nThreads : Nat) (bufs : Nat → Buffer) (arc : A) :
    Thread Mem Tbl A := ⟨initial P nThreads bufs, arc, []⟩

theorem launched_mirrored (hash : FlowKey → UInt64) (wheel : TimerWheel.Policy) (nThreads : Nat)
    (bufs : Nat → Buffer) (arc : A) :
    (launched (mapPlatform hash wheel) nThreads bufs arc).Mirrored :=
  ⟨initial_shaped _ nThreads bufs, fun _ _ _ found => (nomatch found)⟩

/-- Between two vectors, each of which passes both hook nodes before the next one comes in, every
flow has its reverse entry, whatever the hash function does. -/
theorem rounds_leave_flows_mirrored (hash : FlowKey → UInt64) (wheel : TimerWheel.Policy)
    (nThreads : Nat) (g : Graph A) (bufs : Nat → Buffer) (arc : A) (rounds : List (Round A)) :
    Always (roundStep (mapPlatform hash wheel) g)
      (fun t => ∀ i f, t.sys.wrk.flows.get? i = some f →
        (f.flowEntry .dirOut).flow = some i ∧
          (f.flowEntry .dirOut).Carries (flowKeyReverse f.key))
      (launched (mapPlatform hash wheel) nThreads bufs arc) rounds := by
  refine always_of_invariant Thread.Mirrored (fun _ _ _ => roundStep_mirrored) ?_
    (launched_mirrored hash wheel nThreads bufs arc)
  intro t mirrored i f found
  have shape := mirrored.shaped.flow i f found
  have set : f.mirrored = true := mirrored.settled i f.key f.mirrored
    (directory_entry.mpr ⟨f, found, rfl, rfl⟩)
  have present : (f.flowEntry .dirOut).flow ≠ none := Option.isSome_iff_ne_none.mp set
  exact ⟨shape.outPointer.resolve_left present, shape.outFields present⟩

/-- Of the two directions of a connection, both in one vector, the later one comes in with
the connection already known. -/
def Round.InTurn (t : Thread (UInt64 → Option EntryAddr) Unit A) : Round A → Prop
  | .pass p => p.keys.Pairwise fun k l => l = flowKeyReverse k → l ≠ k →
      ∃ i f, t.sys.wrk.flows.get? i = some f ∧ (f.key = k ∨ f.key = flowKeyReverse k)
  | _ => True

theorem inTurn_iff {t : Thread (UInt64 → Option EntryAddr) Unit A} {p : Pass} :
    Round.InTurn t (.pass p) ↔ Directory.InTurn flowKeyReverse t.sys.wrk.directory p.keys := by
  have known (k : FlowKey) : (∃ i f, t.sys.wrk.flows.get? i = some f ∧
      (f.key = k ∨ f.key = flowKeyReverse k)) ↔
      Directory.Known flowKeyReverse t.sys.wrk.directory k := by
    constructor
    · rintro ⟨i, f, found, related⟩
      exact ⟨i, f.key, f.mirrored, directory_entry.mpr ⟨f, found, rfl, rfl⟩, related⟩
    · rintro ⟨i, l, m, entry, related⟩
      obtain ⟨f, found, rfl, _⟩ := directory_entry.mp entry
      exact ⟨i, f, found, related⟩
  rw [Round.InTurn, Directory.InTurn]
  simp only [known]

theorem roundStep_oneFlow_iff (inj : Set.InjOn hash S) (closed : ∀ k ∈ S, flowKeyReverse k ∈ S)
    {g : Graph A} {t u : Thread (UInt64 → Option EntryAddr) Unit A} {r : Round A}
    (separated : t.sys.Separated hash S) (mirrored : t.Mirrored) (one : OneFlow t.sys)
    (done : roundStep (mapPlatform hash wheel) g t r = .ok u) (occur : KeysWithin S u.sys) :
    OneFlow u.sys ↔ Round.InTurn t r := by
  rw [oneFlow_iff_unique] at one ⊢
  rcases roundStep_cases mirrored.shaped done with ⟨p, rfl, passed⟩ | ⟨other, quiet⟩
  · obtain ⟨rs, history, keys⟩ := passed.history
    have inS : ∀ k ∈ p.keys, k ∈ S := by
      rw [← keys]
      intro k member
      obtain ⟨q, bound, rfl⟩ := List.mem_map.mp member
      exact occur q (by rw [history]; exact List.mem_append_right _ bound)
    have kept : Directory.Kept flowKeyReverse hash S t.sys.wrk.directory :=
      ⟨separated.sound.directory, separated.within, separated.mirrors⟩
    rw [passed.directory, inTurn_iff]
    exact Directory.batch_unique_iff inj closed flowKeyReverse_involutive kept mirrored.settled one
      inS
  · rw [quiet.directory]
    cases r with
    | pass p => exact absurd rfl (other p)
    | timer ticks => exact iff_of_true one trivial
    | receive slot b => exact iff_of_true one trivial
    | other n idle => exact iff_of_true one trivial

/-- Connections keep to one flow exactly in the runs whose vectors hold no packet right behind
the first packet of the same new connection's other direction. -/
theorem rounds_share_a_flow_iff (wheel : TimerWheel.Policy) (nThreads : Nat) (g : Graph A)
    (bufs : Nat → Buffer) (arc : A) (rounds : List (Round A)) (inj : Set.InjOn hash S)
    (closed : ∀ k ∈ S, flowKeyReverse k ∈ S)
    (occur : Always (roundStep (mapPlatform hash wheel) g) (fun t => KeysWithin S t.sys)
      (launched (mapPlatform hash wheel) nThreads bufs arc) rounds) :
    Always (roundStep (mapPlatform hash wheel) g) (fun t => OneFlow t.sys)
        (launched (mapPlatform hash wheel) nThreads bufs arc) rounds ↔
      Guarded (roundStep (mapPlatform hash wheel) g) Round.InTurn
        (launched (mapPlatform hash wheel) nThreads bufs arc) rounds := by
  refine always_iff_guarded
    (fun t : Thread _ _ A => t.sys.Separated hash S ∧ t.Mirrored) ?_ ?_ occur
    ⟨initial_separated hash wheel nThreads bufs, launched_mirrored hash wheel nThreads bufs arc⟩
    (fun _ _ _ _ _ found => (nomatch found))
  · rintro t r u ⟨separated, mirrored⟩ one inTurn done occur'
    exact ⟨⟨run_separated inj closed separated (roundStep_calls done) occur',
      roundStep_mirrored mirrored done⟩,
      (roundStep_oneFlow_iff inj closed separated mirrored one done occur').mpr inTurn⟩
  · rintro t r u ⟨separated, mirrored⟩ one untimely done occur' one'
    exact untimely ((roundStep_oneFlow_iff inj closed separated mirrored one done occur').mp one')

/-- Two packets in one vector. -/
def pairPass (b c : Buffer) : Pass where
  packets := [(0, b), (1, c)]
  distinct := by
    change ([0, 1] : List UInt32).Nodup
    decide
  bounded := by
    change 2 ≤ VLIB_FRAME_SIZE
    decide
  traceIn := false
  traceOut := true
  stackIn := Vector.replicate VLIB_FRAME_SIZE 0
  stackOut := Vector.replicate VLIB_FRAME_SIZE 7

def plainGraph : Graph Unit := ⟨fun _ _ => (2, ()), fun _ => false⟩

/-- The client's SYN twice in a vector, the server's answer in the next one. -/
def vectorsInTurn : List (Round Unit) :=
  [.pass (pairPass (clientSyn.buffer 0) (clientSyn.buffer 0)),
    .pass (pairPass (serverSynAck.buffer 0) (clientSyn.buffer 0))]

theorem vectors_in_turn :
    Always (roundStep portPlatform plainGraph) (fun t => OneFlow t.sys)
        (launched portPlatform 0 (fun _ => clientSyn.buffer 0) ()) vectorsInTurn ↔
      Guarded (roundStep portPlatform plainGraph) Round.InTurn
        (launched portPlatform 0 (fun _ => clientSyn.buffer 0) ()) vectorsInTurn :=
  rounds_share_a_flow_iff _ 0 plainGraph _ () vectorsInTurn portHash_injOn bothKeys_closed
    (by decide +kernel)

end FlowTable
