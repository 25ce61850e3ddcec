import VppPlugins.FlowTable.Representation
import VppPlugins.FlowTable.Frames

/-! Both directions of a connection. From here on the hash function separates the keys that
occur, which is all that is assumed of it. -/
namespace FlowTable
open Faults Runs

variable {hash : FlowKey → UInt64} {wheel : TimerWheel.Policy} {S : Set FlowKey}

def KeysWithin (S : Set FlowKey) (s : MapSys) : Prop := ∀ r ∈ s.history, r.key ∈ S

/-- The keys that occur in a run up to `s`, in either orientation. -/
def occurring (s : MapSys) : Set FlowKey :=
  {k | ∃ r ∈ s.history, k = r.key ∨ k = flowKeyReverse r.key}

theorem occurring_closed (s : MapSys) : ∀ k ∈ occurring s, flowKeyReverse k ∈ occurring s := by
  rintro k ⟨r, member, rfl | rfl⟩
  · exact ⟨r, member, .inr rfl⟩
  · exact ⟨r, member, .inl rfl⟩

/-- The binding an input call adds is the directory's answer to the key it presents. -/
theorem input_answer {s t : MapSys} {slot : Nat} (shaped : s.wrk.Shaped)
    (done : step (mapPlatform hash wheel) s (.input slot) = .ok t) :
    ∃ r, t.history = s.history ++ [r] ∧ s.presents (.input slot) = some r.key ∧
      Directory.present hash s.wrk.directory r.key =
        (t.wrk.directory, (r.flow, side r.direction)) := by
  cases step_cases shaped done with
  | creates _ h o handler key buf effect =>
      exact ⟨_, rfl, lookupKey_of_parsed handler key,
        directory_creates effect⟩
  | finds _ h o a f handler key buf effect =>
      exact ⟨_, rfl, lookupKey_of_parsed handler key,
        directory_finds effect⟩

theorem event_within {s t : MapSys} {c : Call} (shaped : s.wrk.Shaped)
    (done : step (mapPlatform hash wheel) s c = .ok t) (within : KeysWithin S t)
    {e : Directory.Event FlowKey} (event : s.event c = some e) : e.within S := by
  cases c with
  | receive slot b => cases event
  | preProcess slot => cases event
  | advance ticks => cases event
  | input slot =>
      obtain ⟨r, history, presented, _⟩ := input_answer shaped done
      have looked : ip4LookupKey (s.bufs slot) = some r.key := presented
      simp only [Sys.event, looked, Option.map_some, Option.some.injEq] at event
      subst event
      exact within r (by rw [history]; simp)
  | output slot =>
      obtain ⟨index, _, rfl⟩ := Option.map_eq_some_iff.mp event
      trivial

theorem keysWithin_earlier {s t : MapSys} (grown : s.history <+: t.history)
    (within : KeysWithin S t) : KeysWithin S s :=
  fun r member => within r (grown.subset member)

/-- Every entry of the directory has a key that occurs, and installed mirrors answer. -/
structure Sys.Separated (hash : FlowKey → UInt64) (S : Set FlowKey) (s : MapSys) : Prop where
  sound : s.Sound hash
  within : Directory.Within S s.wrk.directory
  mirrors : Directory.MirrorsKept flowKeyReverse hash s.wrk.directory

theorem initial_separated (hash : FlowKey → UInt64) (wheel : TimerWheel.Policy) (nThreads : Nat)
    (bufs : Nat → Buffer) : (initial (mapPlatform hash wheel) nThreads bufs).Separated hash S :=
  ⟨initial_sound hash wheel nThreads bufs, fun _ _ _ found => (nomatch found),
    fun _ _ found => (nomatch found)⟩

theorem step_separated (inj : Set.InjOn hash S) (closed : ∀ k ∈ S, flowKeyReverse k ∈ S)
    {s t : MapSys} {c : Call} (separated : s.Separated hash S)
    (done : step (mapPlatform hash wheel) s c = .ok t) (occur : KeysWithin S t) :
    t.Separated hash S := by
  refine ⟨step_sound separated.sound done, ?_, ?_⟩
  · rw [step_directory separated.sound.shaped done]
    cases event : s.event c with
    | none => exact separated.within
    | some e =>
        exact Directory.step_within separated.within
          (event_within separated.sound.shaped done occur event)
  · rw [step_directory separated.sound.shaped done]
    cases s.event c with
    | none => exact separated.mirrors
    | some e =>
        exact Directory.step_mirrorsKept inj closed flowKeyReverse_involutive
          separated.sound.directory separated.within separated.mirrors e

theorem run_separated (inj : Set.InjOn hash S) (closed : ∀ k ∈ S, flowKeyReverse k ∈ S)
    {s t : MapSys} {cs : List Call} (separated : s.Separated hash S)
    (done : run (step (mapPlatform hash wheel)) s cs = .ok t) (occur : KeysWithin S t) :
    t.Separated hash S := by
  induction cs generalizing s with
  | nil => cases done; exact separated
  | cons c cs ih =>
      obtain ⟨u, head, rest⟩ := run_cons_ok.mp done
      have grown := run_history rest
      exact ih (step_separated inj closed separated head (keysWithin_earlier grown occur)) rest

/-- At most one flow for a key and its reverse together. -/
def OneFlow (s : MapSys) : Prop :=
  ∀ K i j f g, s.wrk.flows.get? i = some f → s.wrk.flows.get? j = some g →
    (f.key = K ∨ f.key = flowKeyReverse K) → (g.key = K ∨ g.key = flowKeyReverse K) → i = j

theorem oneFlow_iff_unique {s : MapSys} :
    OneFlow s ↔ Directory.Unique flowKeyReverse s.wrk.directory := by
  constructor
  · intro one i j k l m n first second related
    obtain ⟨f, foundF, rfl, _⟩ := directory_entry.mp first
    obtain ⟨g, foundG, rfl, _⟩ := directory_entry.mp second
    exact one f.key i j f g foundF foundG (.inl rfl) related
  · intro unique K i j f g foundF foundG keyF keyG
    have entryF := directory_entry.mpr ⟨f, foundF, rfl, rfl⟩
    have entryG := directory_entry.mpr ⟨g, foundG, rfl, rfl⟩
    refine unique i j f.key g.key _ _ entryF entryG ?_
    rcases keyF with keyF | keyF <;> rcases keyG with keyG | keyG
    · exact .inl (keyG.trans keyF.symm)
    · exact .inr (by rw [keyG, keyF])
    · exact .inr (by rw [keyG, keyF, flowKeyReverse_involutive])
    · exact .inl (keyG.trans keyF.symm)

/-- A packet reaches the input hook only when every flow of the opposite key has its
reverse entry installed. -/
def Timely (s : MapSys) (c : Call) : Prop :=
  ∀ key, s.presents c = some key → flowKeyReverse key ≠ key →
    ∀ i f, s.wrk.flows.get? i = some f → f.key = flowKeyReverse key → f.mirrored = true

theorem timely_iff_event {s t : MapSys} {c : Call} (shaped : s.wrk.Shaped)
    (done : step (mapPlatform hash wheel) s c = .ok t) :
    Timely s c ↔ ∀ e, s.event c = some e → Directory.Timely flowKeyReverse s.wrk.directory e := by
  cases c with
  | receive slot b => exact ⟨fun _ _ h => (nomatch h), fun _ _ h => (nomatch h)⟩
  | preProcess slot => exact ⟨fun _ _ h => (nomatch h), fun _ _ h => (nomatch h)⟩
  | advance ticks => exact ⟨fun _ _ h => (nomatch h), fun _ _ h => (nomatch h)⟩
  | output slot =>
      refine ⟨fun _ e event => ?_, fun _ _ h => (nomatch h)⟩
      obtain ⟨index, _, rfl⟩ := Option.map_eq_some_iff.mp event
      trivial
  | input slot =>
      obtain ⟨r, _, presented, _⟩ := input_answer shaped done
      have looked : ip4LookupKey (s.bufs slot) = some r.key := presented
      simp only [Timely, presented, Option.some.injEq, Sys.event, looked, Option.map_some,
        forall_eq', Directory.Timely]
      constructor
      · intro timely asymmetric i waiting
        obtain ⟨f, found, key, mirrored⟩ := directory_entry.mp waiting
        rw [timely asymmetric i f found key] at mirrored
        cases mirrored
      · intro timely asymmetric i f found key
        by_contra waiting
        exact timely asymmetric i
          (directory_entry.mpr ⟨f, found, key, Bool.eq_false_iff.mpr waiting⟩)

theorem step_oneFlow_iff (inj : Set.InjOn hash S) (closed : ∀ k ∈ S, flowKeyReverse k ∈ S)
    {s t : MapSys} {c : Call} (separated : s.Separated hash S) (one : OneFlow s)
    (done : step (mapPlatform hash wheel) s c = .ok t) (occur : KeysWithin S t) :
    OneFlow t ↔ Timely s c := by
  have shaped := separated.sound.shaped
  rw [timely_iff_event shaped done, oneFlow_iff_unique, step_directory shaped done]
  rw [oneFlow_iff_unique] at one
  cases event : s.event c with
  | none => exact ⟨fun _ _ h => (nomatch h), fun _ => one⟩
  | some e =>
      have exactly := Directory.step_unique_iff inj closed flowKeyReverse_involutive
        separated.sound.directory separated.within separated.mirrors one
        (event_within shaped done occur event)
      simp only [Option.some.injEq, forall_eq']
      exact exactly

/-- Connections keep to one flow exactly in the runs whose input calls are all timely. -/
theorem connections_share_a_flow_iff (wheel : TimerWheel.Policy) (nThreads : Nat)
    (bufs : Nat → Buffer) (cs : List Call) (inj : Set.InjOn hash S)
    (closed : ∀ k ∈ S, flowKeyReverse k ∈ S)
    (occur : Always (step (mapPlatform hash wheel)) (KeysWithin S)
      (initial (mapPlatform hash wheel) nThreads bufs) cs) :
    Always (step (mapPlatform hash wheel)) OneFlow
        (initial (mapPlatform hash wheel) nThreads bufs) cs ↔
      Guarded (step (mapPlatform hash wheel)) Timely
        (initial (mapPlatform hash wheel) nThreads bufs) cs := by
  refine always_iff_guarded (Sys.Separated hash S) ?_ ?_ occur
    (initial_separated hash wheel nThreads bufs) (fun _ _ _ _ _ found => (nomatch found))
  · intro s c t separated one timely done occur'
    exact ⟨step_separated inj closed separated done occur',
      (step_oneFlow_iff inj closed separated one done occur').mpr timely⟩
  · intro s c t separated one untimely done occur' one'
    exact untimely ((step_oneFlow_iff inj closed separated one done occur').mp one')

/-! A connection between two hosts, seen through the ports only. -/

def clientSyn : Segment :=
  { src := addr 10 0 0 1, dst := addr 10 0 0 2, srcPort := 1000, dstPort := 80,
    flags := TCP_FLAG_SYN }

def serverSynAck : Segment := clientSyn.reply (TCP_FLAG_SYN ||| TCP_FLAG_ACK)

def portHash (key : FlowKey) : UInt64 := key.srcPort.toUInt64

def bothKeys : Set FlowKey := {k | k ∈ [clientSyn.key, serverSynAck.key]}

instance : DecidablePred (KeysWithin bothKeys) := fun s =>
  inferInstanceAs (Decidable (∀ r ∈ s.history, r.key ∈ [clientSyn.key, serverSynAck.key]))

theorem portHash_injOn : Set.InjOn portHash bothKeys := by
  intro k hk l hl same
  simp only [bothKeys, Set.mem_ofPred_eq, List.mem_cons, List.not_mem_nil, or_false] at hk hl
  rcases hk with rfl | rfl <;> rcases hl with rfl | rfl
  · rfl
  · exact absurd same (by decide)
  · exact absurd same (by decide)
  · rfl

theorem bothKeys_closed : ∀ k ∈ bothKeys, flowKeyReverse k ∈ bothKeys := by
  intro k hk
  simp only [bothKeys, Set.mem_ofPred_eq, List.mem_cons, List.not_mem_nil, or_false] at hk ⊢
  rcases hk with rfl | rfl
  · exact .inr (reply_key clientSyn _).symm
  · exact .inl (by rw [serverSynAck, reply_key, flowKeyReverse_involutive])

def portPlatform : Platform (UInt64 → Option EntryAddr) Unit :=
  mapPlatform portHash (TimerWheel.slotted noHandle)

def portStart : MapSys := initial portPlatform 0 (fun _ => clientSyn.buffer 0)

/-- The client's packet is through both hooks before the server's enters. -/
def inTurn : List Call :=
  [.receive 0 (clientSyn.buffer 0), .preProcess 0, .input 0, .output 0,
    .receive 1 (serverSynAck.buffer 0), .preProcess 1, .input 1, .output 1]

theorem connection_in_turn :
    Always (step portPlatform) OneFlow portStart inTurn ↔
      Guarded (step portPlatform) Timely portStart inTurn :=
  connections_share_a_flow_iff _ 0 _ inTurn portHash_injOn bothKeys_closed (by decide +kernel)

/-- Both packets enter before either leaves. -/
def crossing : List Call :=
  [.receive 0 (clientSyn.buffer 0), .receive 1 (serverSynAck.buffer 0), .preProcess 0, .input 0,
    .preProcess 1, .input 1, .output 0, .output 1]

theorem crossing_splits_connection :
    Set.InjOn portHash bothKeys ∧
      Always (step portPlatform) (KeysWithin bothKeys) portStart crossing ∧
      ¬ Always (step portPlatform) OneFlow portStart crossing := by
  refine ⟨portHash_injOn, by decide +kernel, fun always => ?_⟩
  obtain ⟨s, reached, keys⟩ := completed
    (x := run (step portPlatform) portStart crossing)
    (fun s => s.wrk.flows.elts.map Flow.key) (b := [clientSyn.key, serverSynAck.key])
    (by decide +kernel)
  have one := always_iff_prefix.mp always crossing s List.prefix_rfl reached
  have at0 := congrArg (fun l : List FlowKey => l[0]?) keys
  have at1 := congrArg (fun l : List FlowKey => l[1]?) keys
  simp only [List.getElem?_map] at at0 at1
  obtain ⟨f, foundF, keyF⟩ := Option.map_eq_some_iff.mp at0
  obtain ⟨g, foundG, keyG⟩ := Option.map_eq_some_iff.mp at1
  exact absurd (one clientSyn.key 0 1 f g foundF foundG (.inl keyF) (.inr keyG)) (by decide)

/-- An entry once mirrored stays so in every continuation. -/
theorem run_keeps_mirror {s t : MapSys} {cs : List Call} {index : Nat} {key : FlowKey}
    (sound : s.Sound hash) (mirrored : s.wrk.directory.entries[index]? = some (key, true))
    (done : run (step (mapPlatform hash wheel)) s cs = .ok t) :
    t.wrk.directory.entries[index]? = some (key, true) := by
  have kept := run_invariant
    (fun u : MapSys => u.Sound hash ∧ u.wrk.directory.entries[index]? = some (key, true))
    (fun u c v ⟨soundU, entry⟩ last => ?_) ⟨sound, mirrored⟩ done
  · exact kept.2
  · refine ⟨step_sound soundU last, ?_⟩
    rw [step_directory soundU.shaped last]
    cases u.event c with
    | none => exact entry
    | some e =>
        obtain ⟨m, entry', grown⟩ := Directory.step_entry e entry
        rw [grown rfl] at entry'
        exact entry'

/-- The output hook leaves the flow its packet is marked with mirrored. -/
theorem output_mirrors {s t : MapSys} {slot index : Nat} {f : Flow} (shaped : s.wrk.Shaped)
    (marked : vlibBufferGetFlow s.wrk (s.bufs slot) = some index)
    (found : s.wrk.flows.get? index = some f)
    (done : step (mapPlatform hash wheel) s (.output slot) = .ok t) :
    t.wrk.directory.entries[index]? = some (f.key, true) := by
  rw [step_directory shaped done, Sys.event, marked]
  have entry := directory_entry.mpr ⟨f, found, rfl, rfl⟩
  have installed : (Directory.mirror flowKeyReverse hash s.wrk.directory index).entries[index]? =
      some (f.key, f.mirrored || decide (index = index)) := Directory.mirror_entry entry
  rw [decide_eq_true rfl, Bool.or_true] at installed
  exact installed

/-- Once a packet of flow `index` has been through the output hook, every later packet of
the reversed key is bound to that flow in direction OUT. -/
theorem return_path_is_stable {nThreads : Nat} {bufs : Nat → Buffer} {before after : List Call}
    {s t u v : MapSys} {out slot index : Nat} {f : Flow} {r : Binding}
    (reached : run (step (mapPlatform hash wheel)) (initial (mapPlatform hash wheel) nThreads bufs)
      before = .ok s)
    (marked : vlibBufferGetFlow s.wrk (s.bufs out) = some index)
    (found : s.wrk.flows.get? index = some f)
    (output : step (mapPlatform hash wheel) s (.output out) = .ok t)
    (later : run (step (mapPlatform hash wheel)) t after = .ok u)
    (input : step (mapPlatform hash wheel) u (.input slot) = .ok v)
    (inj : Set.InjOn hash (occurring v)) (bound : v.history = u.history ++ [r])
    (reverse : r.key = flowKeyReverse f.key) : r.flow = index ∧ r.direction = .dirOut := by
  have occur (w : MapSys) (grown : w.history <+: v.history) : KeysWithin (occurring v) w :=
    fun q member => ⟨q, grown.subset member, .inl rfl⟩
  have closed := occurring_closed v
  have lastGrown : u.history <+: v.history := step_history input
  have middleGrown : t.history <+: v.history := (run_history later).trans lastGrown
  have firstGrown : s.history <+: v.history := (step_history output).trans middleGrown
  have atS := run_separated inj closed (initial_separated hash wheel nThreads bufs) reached
    (occur s firstGrown)
  have atT := step_separated inj closed atS output (occur t middleGrown)
  have atU := run_separated inj closed atT later (occur u lastGrown)
  have entry := run_keeps_mirror atT.sound (output_mirrors atS.sound.shaped marked found output)
    later
  have answer := atU.mirrors index f.key entry
  obtain ⟨q, history, _, presented⟩ := input_answer atU.sound.shaped input
  have same : r = q := by simpa [history] using bound.symm
  subst same
  rw [Directory.present, reverse, answer, Prod.mk.injEq, Prod.mk.injEq] at presented
  exact ⟨presented.2.1.symm, side_injective presented.2.2.symm⟩

/-- The client's packet leaves only after the server's packet has made a flow of its own. -/
def overtaken : List Call :=
  [.receive 0 (clientSyn.buffer 0), .receive 1 (serverSynAck.buffer 0), .preProcess 0, .input 0,
    .preProcess 1, .input 1]

theorem return_path_after_overtaking :
    ∃ v r, run (step portPlatform) portStart
        ((overtaken ++ [.output 0]) ++ [.receive 2 (serverSynAck.buffer 0), .preProcess 2] ++
          [.input 2]) = .ok v ∧
      v.history.getLast? = some r ∧ r.flow = 0 ∧ r.direction = .dirOut := by
  obtain ⟨v, total, keys⟩ := completed (fun v : MapSys => v.history.map Binding.key)
    (x := run (step portPlatform) portStart
      ((overtaken ++ [.output 0]) ++ [.receive 2 (serverSynAck.buffer 0), .preProcess 2] ++
        [.input 2]))
    (b := [clientSyn.key, serverSynAck.key, serverSynAck.key]) (by decide +kernel)
  obtain ⟨u, most, input⟩ := run_snoc_ok.mp total
  obtain ⟨t, first, later⟩ := run_append_ok.mp most
  obtain ⟨s, reached, output⟩ := run_snoc_ok.mp first
  obtain ⟨s', reached', facts⟩ := completed
    (fun s : MapSys => (vlibBufferGetFlow s.wrk (s.bufs 0), (s.wrk.flows.get? 0).map Flow.key))
    (x := run (step portPlatform) portStart overtaken)
    (b := (some 0, some clientSyn.key)) (by decide +kernel)
  cases reached.symm.trans reached'
  obtain ⟨marked, stored⟩ := Prod.mk.inj facts
  obtain ⟨f, found, key⟩ := Option.map_eq_some_iff.mp stored
  obtain ⟨r, bound, _, _⟩ := input_answer (run_shaped most) input
  have last : r.key = serverSynAck.key := by
    rw [bound, List.map_append] at keys
    simpa using congrArg List.getLast? keys
  have inj : Set.InjOn portHash (occurring v) := by
    refine portHash_injOn.mono ?_
    rintro k ⟨q, member, side⟩
    have occurs : q.key ∈ bothKeys := by
      have listed : q.key ∈ v.history.map Binding.key := List.mem_map_of_mem member
      rw [keys] at listed
      simpa [bothKeys] using listed
    rcases side with rfl | rfl
    · exact occurs
    · exact bothKeys_closed _ occurs
  refine ⟨v, r, total, by rw [bound, List.getLast?_concat], ?_⟩
  exact return_path_is_stable reached marked found output later input inj bound
    (by rw [last, key]; rfl)

end FlowTable
