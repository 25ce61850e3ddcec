import VppPlugins.FlowTable.Orientation
import VppPlugins.Library.ConversationTracker

/-! The worker seen as a tracker of connections: whichever flows it keeps, it holds one state for
the two keys of a connection and answers each packet by what it knows of them. -/
namespace FlowTable
open Faults Runs

variable {hash : FlowKey → UInt64} {wheel : TimerWheel.Policy} {S : Set FlowKey}

def sideDir : Directory.Side → FlowDir
  | .forward => .dirIn
  | .backward => .dirOut

/-- A connection's state follows its TCP packets. -/
def packetTransfer (state : TcpState) (b : Buffer) (d : FlowDir) : TcpState :=
  if b.ipProtocol = IP_PROTOCOL_TCP then tcpStateTransfer state b.tcpEvent d else state

def connectionAutomaton : Directory.Automaton Buffer TcpState :=
  ⟨.start, fun state b side => packetTransfer state b (sideDir side)⟩

def Binding.packetOf (r : Binding) : FlowKey × Buffer := (r.key, r.packet)

/-- Whether the packet made a flow, and the side it was processed on. -/
def Binding.reply (r : Binding) : Bool × Directory.Side := (r.created, side r.direction)

def trackerAfter (history : List Binding) : Directory.Tracker FlowKey TcpState :=
  .after flowKeyReverse connectionAutomaton .empty (history.map Binding.packetOf)

def trackerReplies (history : List Binding) : List (Bool × Directory.Side) :=
  Directory.Tracker.replies flowKeyReverse connectionAutomaton .empty
    (history.map Binding.packetOf)

theorem trackerAfter_snoc (history : List Binding) (r : Binding) :
    trackerAfter (history ++ [r]) =
      (trackerAfter history).observe flowKeyReverse connectionAutomaton r.key r.packet := by
  rw [trackerAfter, List.map_append]
  exact Directory.Tracker.after_snoc ..

theorem trackerReplies_snoc (history : List Binding) (r : Binding) :
    trackerReplies (history ++ [r]) =
      trackerReplies history ++ [(trackerAfter history).reply r.key] := by
  rw [trackerReplies, List.map_append]
  exact Directory.Tracker.replies_snoc ..

/-- Each packet was answered as the tracker answers it, and the flows hold what it holds. -/
structure FollowsTracker (s : MapSys) : Prop where
  replies : s.history.map Binding.reply = trackerReplies s.history
  flows : ∀ K d state, trackerAfter s.history K = some (side d, state) ↔
    ∃ i f, s.wrk.flows.get? i = some f ∧ K = sidedKey f.key d ∧ f.state = state ∧
      (d = .dirOut → flowKeyReverse K ≠ K)

/-- The states of the flows as the history gives them. -/
def states (history : List Binding) (i : Nat) : TcpState := foldedState i history

theorem states_snoc (history : List Binding) (r : Binding) :
    states (history ++ [r]) = Function.update (states history) r.flow
      (connectionAutomaton.next (states history r.flow) r.packet (side r.direction)) := by
  have next : connectionAutomaton.next (states history r.flow) r.packet (side r.direction) =
      packetTransfer (states history r.flow) r.packet r.direction := by
    cases r.direction <;> rfl
  funext i
  by_cases here : i = r.flow
  · subst here
    rw [Function.update_self, next, packetTransfer, states, states, foldedState]
    by_cases tcp : r.packet.ipProtocol = IP_PROTOCOL_TCP
    · rw [tcpPackets_hit history rfl tcp, List.foldl_concat, if_pos tcp]
      rfl
    · rw [tcpPackets_snoc, if_neg fun both => tcp both.2, if_neg tcp]
      rfl
  · rw [Function.update_of_ne here, states, foldedState, tcpPackets_snoc,
      if_neg fun both => here both.1.symm]
    rfl

theorem states_beyond {s : MapSys} (tracks : s.Tracks) (i : Nat)
    (beyond : s.wrk.directory.entries.length ≤ i) :
    states s.history i = connectionAutomaton.start := by
  have packets : tcpPackets i s.history = [] := by
    rw [tcpPackets, List.filter_eq_nil_iff]
    intro r member
    have inside := tracks.inside r member
    rw [directory_length] at beyond
    have other : r.flow ≠ i := by omega
    simp [other]
  rw [states, foldedState, packets]
  rfl

theorem follows_iff {s : MapSys} (tracks : s.Tracks) :
    FollowsTracker s ↔ s.history.map Binding.reply = trackerReplies s.history ∧
      Directory.Shows flowKeyReverse s.wrk.directory (states s.history)
        (trackerAfter s.history) := by
  have held (K : FlowKey) (d : FlowDir) (state : TcpState) :
      (∃ i f, s.wrk.flows.get? i = some f ∧ K = sidedKey f.key d ∧ f.state = state ∧
        (d = .dirOut → flowKeyReverse K ≠ K)) ↔
      ∃ i l m, s.wrk.directory.entries[i]? = some (l, m) ∧
        K = Directory.oriented flowKeyReverse l (side d) ∧ states s.history i = state ∧
        (side d = .backward → flowKeyReverse K ≠ K) := by
    have out : side d = .backward ↔ d = .dirOut := by cases d <;> decide
    constructor
    · rintro ⟨i, f, found, key, rfl, asymmetric⟩
      refine ⟨i, f.key, f.mirrored, directory_entry.mpr ⟨f, found, rfl, rfl⟩, ?_, ?_, ?_⟩
      · rw [oriented_side, key]
      · exact (tracks.tracked i f found).state.symm
      · exact fun back => asymmetric (out.mp back)
    · rintro ⟨i, l, m, entry, key, rfl, asymmetric⟩
      obtain ⟨f, found, rfl, -⟩ := directory_entry.mp entry
      rw [oriented_side] at key
      exact ⟨i, f, found, key, (tracks.tracked i f found).state,
        fun back => asymmetric (out.mpr back)⟩
  constructor
  · rintro ⟨replies, flows⟩
    refine ⟨replies, fun K other state => ?_⟩
    cases other with
    | forward => exact (flows K .dirIn state).trans (held K .dirIn state)
    | backward => exact (flows K .dirOut state).trans (held K .dirOut state)
  · rintro ⟨replies, shows⟩
    exact ⟨replies, fun K d state => (shows K (side d) state).trans (held K d state).symm⟩

/-- The reply to an input call tells whether the table knew the packet's key. -/
theorem input_reply {s t : MapSys} {slot : Nat} (shaped : s.wrk.Shaped)
    (done : step (mapPlatform hash wheel) s (.input slot) = .ok t) :
    ∃ r, t.history = s.history ++ [r] ∧ s.presents (.input slot) = some r.key ∧
      r.created = (s.wrk.directory.slot (hash r.key)).isNone ∧
      Directory.present hash s.wrk.directory r.key =
        (t.wrk.directory, (r.flow, side r.direction)) := by
  cases step_cases shaped done with
  | creates _ h o handler key buf effect =>
      have unbound : s.wrk.mem (hash o.key) = none := Option.some.inj effect.unbound
      refine ⟨_, rfl, lookupKey_of_parsed handler key, ?_, directory_creates effect⟩
      change o.created = ((s.wrk.mem (hash o.key)).map _).isNone
      rw [effect.created, unbound]
      rfl
  | finds _ h o a f handler key buf effect =>
      have bound : s.wrk.mem (hash o.key) = some a := Option.some.inj effect.bound
      refine ⟨_, rfl, lookupKey_of_parsed handler key, ?_, directory_finds effect⟩
      change o.created = ((s.wrk.mem (hash o.key)).map _).isNone
      rw [effect.created, bound]
      rfl

theorem straight_iff {s : MapSys} {slot : Nat} {key : FlowKey}
    (presented : s.presents (.input slot) = some key) :
    Unmirrored s (.input slot) ↔
      Directory.Straight flowKeyReverse s.wrk.directory (.present key) := by
  simp only [Unmirrored, presented, Option.mem_some_iff, forall_eq', Directory.Straight]
  constructor
  · intro unmirrored symmetric i mirrored
    obtain ⟨f, found, own, set⟩ := directory_entry.mp mirrored
    rw [unmirrored symmetric i f found own] at set
    cases set
  · intro straight symmetric i f found own
    by_contra set
    exact straight symmetric i
      (directory_entry.mpr ⟨f, found, own, Bool.eq_true_of_not_eq_false set⟩)

theorem guards_of_silent {s : MapSys} {c : Call} (silent : s.presents c = none) :
    Timely s c ∧ Unmirrored s c := by
  refine ⟨fun key asked => ?_, fun key asked => ?_⟩
  · rw [silent] at asked
    cases asked
  · rw [silent] at asked
    cases asked

/-- The calls that present no packet keep the history and the keys. -/
theorem follows_quiet {s t : MapSys} {c : Call} (tracks : s.Tracks) (follows : FollowsTracker s)
    (done : step (mapPlatform hash wheel) s c = .ok t) (same : t.history = s.history)
    (silent : ∀ e, s.event c = some e → ∃ i, e = .mirror i) : FollowsTracker t := by
  obtain ⟨replies, shows⟩ := (follows_iff tracks).mp follows
  refine (follows_iff (step_tracks tracks done)).mpr ?_
  rw [same, step_directory tracks.shaped done]
  refine ⟨replies, ?_⟩
  cases event : s.event c with
  | none => exact shows
  | some e =>
      obtain ⟨i, rfl⟩ := silent e event
      exact Directory.mirror_shows shows i

theorem input_follows_iff (inj : Set.InjOn hash S) (closed : ∀ k ∈ S, flowKeyReverse k ∈ S)
    {s t : MapSys} {slot : Nat} (bound : s.Bound hash S) (follows : FollowsTracker s)
    (done : step (mapPlatform hash wheel) s (.input slot) = .ok t) (occur : KeysWithin S t) :
    FollowsTracker t ↔ Timely s (.input slot) ∧ Unmirrored s (.input slot) := by
  have shaped := bound.separated.sound.shaped
  obtain ⟨replies, shows⟩ := (follows_iff bound.tracks).mp follows
  obtain ⟨r, history, presented, created, answer⟩ := input_reply shaped done
  have within : r.key ∈ S := occur r (by rw [history]; simp)
  have exactly := Directory.present_shows_iff inj closed flowKeyReverse_involutive shows
    bound.separated.sound.directory bound.separated.within bound.separated.mirrors within
    (states_beyond bound.tracks) answer r.packet
  have event : s.event (.input slot) = some (.present r.key) := by
    have looked : ip4LookupKey (s.bufs slot) = some r.key := presented
    rw [Sys.event, looked]
    rfl
  have timely := timely_iff_event shaped done
  simp only [event, Option.some.injEq, forall_eq'] at timely
  rw [follows_iff (step_tracks bound.tracks done), timely, straight_iff presented, ← exactly,
    history, states_snoc, trackerAfter_snoc, trackerReplies_snoc, List.map_append, replies,
    ← created]
  refine and_congr ?_ Iff.rfl
  rw [List.append_cancel_left_eq, List.map_singleton, List.cons.injEq]
  exact ⟨fun same => same.1.symm, fun same => ⟨same.symm, rfl⟩⟩

theorem step_follows_iff (inj : Set.InjOn hash S) (closed : ∀ k ∈ S, flowKeyReverse k ∈ S)
    {s t : MapSys} {c : Call} (bound : s.Bound hash S) (follows : FollowsTracker s)
    (done : step (mapPlatform hash wheel) s c = .ok t) (occur : KeysWithin S t) :
    FollowsTracker t ↔ Timely s c ∧ Unmirrored s c := by
  have quiet := follows_quiet bound.tracks follows done
  cases c with
  | input slot => exact input_follows_iff inj closed bound follows done occur
  | receive slot b =>
      cases pure_ok.mp done
      exact iff_of_true (quiet rfl fun _ event => by cases event) (guards_of_silent rfl)
  | preProcess slot =>
      cases pure_ok.mp done
      exact iff_of_true (quiet rfl fun _ event => by cases event) (guards_of_silent rfl)
  | advance ticks =>
      cases pure_ok.mp done
      exact iff_of_true (quiet rfl fun _ event => by cases event) (guards_of_silent rfl)
  | output slot =>
      have same : t.history = s.history := by
        simp only [step, bind_ok, pure_ok] at done
        obtain ⟨⟨w, action⟩, -, rfl⟩ := done
        rfl
      have mirrors : ∀ e, s.event (.output slot) = some e → ∃ i, e = .mirror i := by
        intro e event
        obtain ⟨i, -, rfl⟩ := Option.map_eq_some_iff.mp event
        exact ⟨i, rfl⟩
      exact iff_of_true (quiet same mirrors) (guards_of_silent rfl)

theorem initial_follows (hash : FlowKey → UInt64) (wheel : TimerWheel.Policy) (nThreads : Nat)
    (bufs : Nat → Buffer) : FollowsTracker (initial (mapPlatform hash wheel) nThreads bufs) := by
  refine (follows_iff (initial_tracks _ nThreads bufs)).mpr ⟨rfl, ?_⟩
  exact Directory.initial_shows flowKeyReverse _

/-- A worker whose hash function tells the keys that occur apart is a tracker of connections
exactly in the runs in which no packet overtakes the reverse entry of its connection and no
packet of a self-reverse key comes in behind the reverse entry of its own. -/
theorem connections_tracked_iff (wheel : TimerWheel.Policy) (nThreads : Nat) (bufs : Nat → Buffer)
    (cs : List Call) (inj : Set.InjOn hash S) (closed : ∀ k ∈ S, flowKeyReverse k ∈ S)
    (occur : Always (step (mapPlatform hash wheel)) (KeysWithin S)
      (initial (mapPlatform hash wheel) nThreads bufs) cs) :
    Always (step (mapPlatform hash wheel)) FollowsTracker
        (initial (mapPlatform hash wheel) nThreads bufs) cs ↔
      Guarded (step (mapPlatform hash wheel)) (fun s c => Timely s c ∧ Unmirrored s c)
        (initial (mapPlatform hash wheel) nThreads bufs) cs := by
  refine always_iff_guarded (Sys.Bound hash S) ?_ ?_ occur
    ⟨initial_separated hash wheel nThreads bufs, initial_tracks _ nThreads bufs⟩
    (initial_follows hash wheel nThreads bufs)
  · intro s c t bound follows meets done occur'
    exact ⟨⟨step_separated inj closed bound.separated done occur', step_tracks bound.tracks done⟩,
      (step_follows_iff inj closed bound follows done occur').mpr meets⟩
  · intro s c t bound follows misses done occur' follows'
    exact misses ((step_follows_iff inj closed bound follows done occur').mp follows')

theorem connection_tracked :
    Always (step portPlatform) FollowsTracker portStart inTurn ↔
      Guarded (step portPlatform) (fun s c => Timely s c ∧ Unmirrored s c) portStart inTurn :=
  connections_tracked_iff _ 0 _ inTurn portHash_injOn bothKeys_closed (by decide +kernel)

end FlowTable
