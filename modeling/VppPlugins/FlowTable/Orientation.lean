import VppPlugins.FlowTable.Attribution
import VppPlugins.FlowTable.Tracking

/-! The direction a packet is processed with. It is read off the address that the hash slot
holds, and the output hook overwrites slots. -/
namespace FlowTable
open Faults Runs

variable {hash : FlowKey → UInt64} {wheel : TimerWheel.Policy} {S : Set FlowKey}

/-- Every packet bound to a flow under the flow's own key was processed with direction IN. -/
def Oriented (s : MapSys) : Prop :=
  ∀ r ∈ s.history, ∀ f, s.wrk.flows.get? r.flow = some f → r.key = f.key → r.direction = .dirIn

/-- A packet whose key is its own reverse reaches the input hook only while the flow of that
key has no reverse entry. -/
def Unmirrored (s : MapSys) (c : Call) : Prop :=
  ∀ key ∈ s.presents c, flowKeyReverse key = key →
    ∀ i f, s.wrk.flows.get? i = some f → f.key = key → f.mirrored = false

/-- The binding of one input call. -/
theorem input_oriented_iff (inj : Set.InjOn hash S) (closed : ∀ k ∈ S, flowKeyReverse k ∈ S)
    {s t : MapSys} {slot : Nat} {r : Binding} (separated : s.Separated hash S)
    (done : step (mapPlatform hash wheel) s (.input slot) = .ok t) (within : r.key ∈ S)
    (presented : s.presents (.input slot) = some r.key)
    (answer : Directory.present hash s.wrk.directory r.key =
      (t.wrk.directory, (r.flow, side r.direction))) :
    (∀ f, t.wrk.flows.get? r.flow = some f → r.key = f.key → r.direction = .dirIn) ↔
      Unmirrored s (.input slot) := by
  have unmirrored : Unmirrored s (.input slot) ↔ (flowKeyReverse r.key = r.key →
      ∀ i f, s.wrk.flows.get? i = some f → f.key = r.key → f.mirrored = false) := by
    simp only [Unmirrored, presented, Option.mem_some_iff, forall_eq']
  rw [unmirrored]
  have sound := separated.sound.directory
  unfold Directory.present at answer
  cases slotted : s.wrk.directory.slot (hash r.key) with
  | none =>
      -- a flow of this key would have bound the slot
      rw [slotted, Prod.mk.injEq, Prod.mk.injEq] at answer
      have forward : r.direction = .dirIn := side_injective answer.2.2.symm
      refine iff_of_true (fun _ _ _ => forward) fun _ i f found key => ?_
      have entry := directory_entry.mpr ⟨f, found, key, rfl⟩
      exact absurd slotted (sound.bound i r.key f.mirrored entry)
  | some place =>
      obtain ⟨i, facing⟩ := place
      rw [slotted, Prod.mk.injEq, Prod.mk.injEq] at answer
      obtain ⟨-, rfl, rfl⟩ := answer
      obtain ⟨l, m, entry, key, mirrored⟩ :=
        Directory.found_key inj closed sound separated.within within slotted
      obtain ⟨f, found, rfl, rfl⟩ := directory_entry.mp entry
      obtain ⟨g, found', kept⟩ := step_keeps_key separated.sound.shaped done found
      cases direction : r.direction with
      | dirIn =>
          -- a mirrored flow of a self-reverse key would hold this slot
          refine iff_of_true (fun _ _ _ => rfl) fun symmetric j h foundH keyH => ?_
          by_contra set
          have claimed := separated.mirrors j r.key
            (directory_entry.mpr ⟨h, foundH, keyH, Bool.eq_true_of_not_eq_false set⟩)
          rw [symmetric, slotted, direction] at claimed
          cases claimed
      | dirOut =>
          rw [direction] at key mirrored
          have reversed : r.key = flowKeyReverse f.key := key
          by_cases symmetric : flowKeyReverse r.key = r.key
          · have own : f.key = r.key := by
              rw [← symmetric, reversed, flowKeyReverse_involutive]
            refine iff_of_false (fun claimed => ?_) fun claimed => ?_
            · cases claimed g found' (own.symm.trans kept.symm)
            · have unset := claimed symmetric _ f found own
              rw [mirrored rfl] at unset
              cases unset
          · refine iff_of_true (fun h foundH own => ?_) fun same => (symmetric same).elim
            cases found'.symm.trans foundH
            rw [kept] at own
            exact absurd (by rw [own]; exact (own.symm.trans reversed).symm) symmetric

/-- The flows of a run in which the keys are told apart. -/
structure Sys.Bound (hash : FlowKey → UInt64) (S : Set FlowKey) (s : MapSys) : Prop where
  separated : s.Separated hash S
  tracks : s.Tracks

theorem step_oriented_iff (inj : Set.InjOn hash S) (closed : ∀ k ∈ S, flowKeyReverse k ∈ S)
    {s t : MapSys} {c : Call} (bound : s.Bound hash S) (oriented : Oriented s)
    (done : step (mapPlatform hash wheel) s c = .ok t) (occur : KeysWithin S t) :
    Oriented t ↔ Unmirrored s c := by
  have shaped := bound.separated.sound.shaped
  have old : ∀ r ∈ s.history, ∀ f, t.wrk.flows.get? r.flow = some f → r.key = f.key →
      r.direction = .dirIn := by
    intro r member f found own
    obtain ⟨g, before⟩ := FixedPool.get?_isSome_iff.mpr (bound.tracks.inside r member)
    obtain ⟨f', found', key⟩ := step_keeps_key shaped done before
    cases found.symm.trans found'
    exact oriented r member g before (own.trans key)
  cases c with
  | input slot =>
      obtain ⟨r, history, presented, answer⟩ := input_answer shaped done
      have within : r.key ∈ S := occur r (by rw [history]; simp)
      rw [← input_oriented_iff inj closed bound.separated done within presented answer, Oriented,
        history, List.forall_mem_append, List.forall_mem_singleton]
      exact ⟨fun all => all.2, fun new => ⟨old, new⟩⟩
  | receive slot b =>
      cases pure_ok.mp done
      exact iff_of_true old fun _ member => by cases member
  | preProcess slot =>
      cases pure_ok.mp done
      exact iff_of_true old fun _ member => by cases member
  | advance ticks =>
      cases pure_ok.mp done
      exact iff_of_true old fun _ member => by cases member
  | output slot =>
      have same : t.history = s.history := by
        simp only [step, bind_ok, pure_ok] at done
        obtain ⟨⟨w, action⟩, -, rfl⟩ := done
        rfl
      refine iff_of_true ?_ fun _ member => by cases member
      rw [Oriented, same]
      exact old

/-- Packets keep the direction of their flow's key exactly in the runs in which no packet of a
self-reverse key comes in behind the reverse entry of its own flow. -/
theorem packets_oriented_iff (wheel : TimerWheel.Policy) (nThreads : Nat) (bufs : Nat → Buffer)
    (cs : List Call) (inj : Set.InjOn hash S) (closed : ∀ k ∈ S, flowKeyReverse k ∈ S)
    (occur : Always (step (mapPlatform hash wheel)) (KeysWithin S)
      (initial (mapPlatform hash wheel) nThreads bufs) cs) :
    Always (step (mapPlatform hash wheel)) Oriented
        (initial (mapPlatform hash wheel) nThreads bufs) cs ↔
      Guarded (step (mapPlatform hash wheel)) Unmirrored
        (initial (mapPlatform hash wheel) nThreads bufs) cs := by
  refine always_iff_guarded (Sys.Bound hash S) ?_ ?_ occur
    ⟨initial_separated hash wheel nThreads bufs, initial_tracks _ nThreads bufs⟩
    (fun _ member => (List.not_mem_nil member).elim)
  · intro s c t bound oriented unmirrored done occur'
    exact ⟨⟨step_separated inj closed bound.separated done occur', step_tracks bound.tracks done⟩,
      (step_oriented_iff inj closed bound oriented done occur').mpr unmirrored⟩
  · intro s c t bound oriented mirrored done occur' oriented'
    exact mirrored ((step_oriented_iff inj closed bound oriented done occur').mp oriented')

theorem connection_oriented :
    Always (step portPlatform) Oriented portStart inTurn ↔
      Guarded (step portPlatform) Unmirrored portStart inTurn :=
  packets_oriented_iff _ 0 _ inTurn portHash_injOn bothKeys_closed (by decide +kernel)

/-- A packet from an address and port to the same address and port. -/
def loopSegment : Segment :=
  { src := addr 10 0 0 1, dst := addr 10 0 0 1, srcPort := 7, dstPort := 7,
    flags := TCP_FLAG_SYN }

def loopKeys : Set FlowKey := {k | k ∈ [loopSegment.key]}

instance : DecidablePred (KeysWithin loopKeys) := fun s =>
  inferInstanceAs (Decidable (∀ r ∈ s.history, r.key ∈ [loopSegment.key]))

/-- The packet through both hooks, then once more through the input hook. -/
def loopedTwice : List Call :=
  [.receive 0 (loopSegment.buffer 0), .preProcess 0, .input 0, .output 0,
    .receive 1 (loopSegment.buffer 0), .preProcess 1, .input 1]

theorem looped_packet_turns :
    Set.InjOn portHash loopKeys ∧ (∀ k ∈ loopKeys, flowKeyReverse k ∈ loopKeys) ∧
      Always (step portPlatform) (KeysWithin loopKeys) portStart loopedTwice ∧
      ¬ Always (step portPlatform) Oriented portStart loopedTwice := by
  refine ⟨?_, ?_, by decide +kernel, fun always => ?_⟩
  · rintro k hk l hl -
    rw [List.mem_singleton.mp hk, List.mem_singleton.mp hl]
  · intro k hk
    rw [List.mem_singleton.mp hk]
    exact List.mem_singleton.mpr rfl
  · obtain ⟨s, reached, view⟩ := completed
      (x := run (step portPlatform) portStart loopedTwice)
      (fun s => (s.wrk.flows.elts.map Flow.key,
        s.history.getLast?.map fun r => (r.flow, r.direction, r.key)))
      (b := ([loopSegment.key], some (0, .dirOut, loopSegment.key))) (by decide +kernel)
    have oriented := always_iff_prefix.mp always loopedTwice s List.prefix_rfl reached
    obtain ⟨keys, last⟩ := Prod.mk.inj view
    obtain ⟨r, final, fields⟩ := Option.map_eq_some_iff.mp last
    simp only [Prod.mk.injEq] at fields
    obtain ⟨flow, direction, key⟩ := fields
    have at0 := congrArg (fun l : List FlowKey => l[0]?) keys
    simp only [List.getElem?_map] at at0
    obtain ⟨f, found, own⟩ := Option.map_eq_some_iff.mp at0
    have turned := oriented r (List.mem_of_getLast? final) f (by rw [flow]; exact found)
      (by rw [key]; exact own.symm)
    rw [direction] at turned
    cases turned

end FlowTable
