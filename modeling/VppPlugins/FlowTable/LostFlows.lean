import VppPlugins.FlowTable.Resets
import VppPlugins.FlowTable.ResetFrames

/-! Flows that the tracker has lost, and the tracker behind another one. -/
namespace FlowTable
open Faults Runs

variable {Mem Tbl : Type} {P : Platform Mem Tbl}

theorem transfer_lost (e : TcpEvent) (d : FlowDir) :
    tcpStateTransfer .unknown e d = .unknown := by
  cases e <;> cases d <;> rfl

theorem foldedState_lost {i : Nat} {history later : List Binding}
    (lost : foldedState i history = .unknown) : foldedState i (history ++ later) = .unknown := by
  rw [foldedState, tcpPackets, List.filter_append, List.foldl_append]
  rw [foldedState, tcpPackets] at lost
  rw [lost]
  induction later.filter (fun r => r.flow == i && r.packet.ipProtocol == IP_PROTOCOL_TCP) with
  | nil => rfl
  | cons r rest ih =>
      rw [List.foldl_cons, transfer_lost]
      exact ih

theorem run_tracks {s t : Sys Mem Tbl} {cs : List Call} (tracks : s.Tracks)
    (done : run (step P) s cs = .ok t) : t.Tracks :=
  run_invariant Sys.Tracks (fun _ _ _ => step_tracks) tracks done

theorem run_size {s t : Sys Mem Tbl} {cs : List Call} (shaped : s.wrk.Shaped)
    (done : run (step P) s cs = .ok t) : s.wrk.flows.size ≤ t.wrk.flows.size := by
  have grown := run_invariant
    (fun u : Sys Mem Tbl => u.wrk.Shaped ∧ s.wrk.flows.size ≤ u.wrk.flows.size)
    (fun _ _ _ inv last => ⟨step_shaped inv.1 last, Nat.le_trans inv.2 (step_size inv.1 last)⟩)
    ⟨shaped, Nat.le_refl _⟩ done
  exact grown.2

theorem run_lost {s t : Sys Mem Tbl} {cs : List Call} {i : Nat} {f : Flow} (tracks : s.Tracks)
    (found : s.wrk.flows.get? i = some f) (lost : f.state = .unknown)
    (done : run (step P) s cs = .ok t) :
    ∃ g, t.wrk.flows.get? i = some g ∧ g.state = .unknown := by
  obtain ⟨later, history⟩ := run_history done
  have inside := Nat.lt_of_lt_of_le (FixedPool.lt_size_of_get? found)
    (run_size tracks.shaped done)
  obtain ⟨g, found'⟩ := FixedPool.get?_isSome_iff.mpr inside
  refine ⟨g, found', ?_⟩
  rw [(tracks.tracked i f found).state] at lost
  rw [((run_tracks tracks done).tracked i g found').state, ← history]
  exact foldedState_lost lost

/-- The resets called for since `s` are for other flows than `i`. -/
def QuietSince (s t : Sys Mem Tbl) (i : Nat) : Prop :=
  ∃ more, t.wrk.resets = s.wrk.resets ++ more ∧ ∀ g ∈ more, g.eltIndex ≠ i

theorem quietSince_of_same {s t : Sys Mem Tbl} {i : Nat} (same : t.wrk.resets = s.wrk.resets) :
    QuietSince s t i :=
  ⟨[], same.trans (List.append_nil _).symm, fun _ member => absurd member List.not_mem_nil⟩

theorem step_quiet {s t u : Sys Mem Tbl} {c : Call} {i : Nat} {g : Flow} (tracks : u.Tracks)
    (quiet : QuietSince s t i) (shaped : t.wrk.Shaped) (done : step P t c = .ok u)
    (found : u.wrk.flows.get? i = some g) (lost : g.state = .unknown) : QuietSince s u i := by
  obtain ⟨more, resets, others⟩ := quiet
  rcases step_resets shaped done with same | ⟨r, f, h, update⟩
  · exact ⟨more, same.trans resets, others⟩
  · have emitted := update.resets
    rw [ProtocolHandler.emitted, resets, List.append_assoc] at emitted
    refine ⟨_, emitted, ?_⟩
    intro x member
    rcases List.mem_append.mp member with earlier | now
    · exact others x earlier
    · split at now
      · rename_i complete
        cases List.mem_singleton.mp now
        intro same
        rw [(tracks.shaped.flow _ h update.after).eltIndex] at same
        rw [← same, update.after, Option.some.injEq] at found
        rw [found, lost] at complete
        cases complete.1
      · exact absurd now List.not_mem_nil

/-- A lost flow stays lost and is never reset again. -/
theorem run_quiet {s t : Sys Mem Tbl} {cs : List Call} {i : Nat} {f : Flow} (tracks : s.Tracks)
    (found : s.wrk.flows.get? i = some f) (lost : f.state = .unknown)
    (done : run (step P) s cs = .ok t) : QuietSince s t i := by
  induction cs using List.reverseRecOn generalizing t with
  | nil =>
      cases done
      exact quietSince_of_same rfl
  | append_singleton cs c ih =>
      obtain ⟨u, before, last⟩ := run_snoc_ok.mp done
      have between := run_tracks tracks before
      obtain ⟨g, found', lost'⟩ := run_lost tracks found lost done
      exact step_quiet (step_tracks between last) (ih before) between.shaped last found' lost'

theorem QuietSince.trans {s t u : Sys Mem Tbl} {i : Nat} (first : QuietSince s t i)
    (second : QuietSince t u i) : QuietSince s u i := by
  obtain ⟨more, resets, others⟩ := first
  obtain ⟨more', resets', others'⟩ := second
  refine ⟨more ++ more', by rw [resets', resets, List.append_assoc], ?_⟩
  rw [List.forall_mem_append]
  exact ⟨others, others'⟩

/-! The resets themselves, seen by another tracker on their way. -/

theorem lookupKey_protocol {b : Buffer} {key : FlowKey} (looked : ip4LookupKey b = some key) :
    key.protocol = b.ipProtocol := by
  obtain ⟨h, -, rfl⟩ := Option.map_eq_some_iff.mp looked
  cases h <;> rfl

theorem reset_is_tcp {flow : Flow} {d : FlowDir} {b : Buffer} (version : flow.ipVersion = 4)
    (tagged : (flow.flowEntry d).Tagged) (start : b.l2HdrOffset = 0)
    (holds : b.HoldsAt 0 (resetFrame flow d).bytes) :
    (ip4PreProcess b).1.ipProtocol = IP_PROTOCOL_TCP := by
  have held := resetHeld_of_holdsAt version tagged holds
  have layout : (flow.flowEntry d).resetWire.LaidOut b b.l2HdrOffset :=
    start ▸ reset_laidOut tagged held
  exact (lookupKey_protocol (preProcess_key start layout)).symm

/-- An input call binds the packet in the slot. -/
theorem input_binds {s t : Sys Mem Tbl} {slot : Nat} (shaped : s.wrk.Shaped)
    (done : step P s (.input slot) = .ok t) :
    ∃ r, t.history = s.history ++ [r] ∧ r.packet = s.bufs slot := by
  cases step_cases shaped done with
  | creates _ h o _ _ _ effect => exact ⟨_, rfl, rfl⟩
  | finds _ h o a f _ _ _ effect => exact ⟨_, rfl, rfl⟩

/-- Whatever the tracker has seen, a reset of another one that it takes for a packet of a flow loses
it this flow for good: the flow stays in `TCP_STATE_UNKNOWN` and no reset is sent for it. -/
theorem reset_loses_next_tracker {flow : Flow} {d : FlowDir} {nThreads slot : Nat}
    {bufs : Nat → Buffer} {cs later : List Call} {s t u : Sys Mem Tbl}
    (version : flow.ipVersion = 4) (tagged : (flow.flowEntry d).Tagged)
    (reached : run (step P) (initial P nThreads bufs) cs = .ok s)
    (start : (s.bufs slot).l2HdrOffset = 0)
    (holds : (s.bufs slot).HoldsAt 0 (resetFrame flow d).bytes)
    (taken : run (step P) s [.preProcess slot, .input slot] = .ok t)
    (continued : run (step P) t later = .ok u) :
    ∃ r g, t.history = s.history ++ [r] ∧ u.wrk.flows.get? r.flow = some g ∧
      g.state = .unknown ∧ QuietSince s u r.flow := by
  have tracks : s.Tracks := run_tracks (initial_tracks P nThreads bufs) reached
  obtain ⟨v, parsed, rest⟩ := run_cons_ok.mp taken
  cases pure_ok.mp parsed
  obtain ⟨w, input, last⟩ := run_cons_ok.mp rest
  cases last
  have before := step_tracks tracks parsed
  have after := step_tracks before input
  obtain ⟨r, bound, packet⟩ := input_binds before.shaped input
  replace packet : r.packet = (ip4PreProcess (s.bufs slot)).1 :=
    packet.trans (Function.update_self ..)
  have tcp : r.packet.ipProtocol = IP_PROTOCOL_TCP :=
    packet ▸ reset_is_tcp version tagged start holds
  obtain ⟨g, found⟩ : ∃ g, t.wrk.flows.get? r.flow = some g :=
    FixedPool.get?_isSome_iff.mpr (after.inside r (by rw [bound]; simp))
  have lost : g.state = .unknown := by
    rw [(after.tracked _ g found).state, bound, foldedState, tcpPackets_hit _ rfl tcp,
      List.foldl_concat, packet]
    exact (own_reset_unknown version tagged start holds _ _).2
  have still : QuietSince s
      { s with bufs := Function.update s.bufs slot (ip4PreProcess (s.bufs slot)).1 } r.flow :=
    quietSince_of_same rfl
  have now : QuietSince s t r.flow := step_quiet after still before.shaped input found lost
  obtain ⟨g', found', lost'⟩ := run_lost after found lost continued
  exact ⟨r, g', bound, found', lost', now.trans (run_quiet after found lost continued)⟩

def clientSent : List Call := [.receive 0 (clientSyn.buffer 0), .preProcess 0, .input 0]

/-- A reset that another tracker has sent for a flow of its own. -/
def foreignReset : Buffer := Buffer.filled (resetFrame taggedFlow .dirIn).bytes

def afterReset : List Call := [.output 1, .advance 2, .preProcess 0, .input 0]

theorem foreignReset_loses : ∃ s t u : MapSys,
    run (step portPlatform) portStart (clientSent ++ [.receive 1 foreignReset]) = .ok s ∧
      run (step portPlatform) s [.preProcess 1, .input 1] = .ok t ∧
      run (step portPlatform) t afterReset = .ok u ∧
      ∃ r g, t.history = s.history ++ [r] ∧ u.wrk.flows.get? r.flow = some g ∧
        g.state = .unknown ∧ QuietSince s u r.flow := by
  obtain ⟨u, total, -⟩ := completed (x := run (step portPlatform) portStart
      ((clientSent ++ [.receive 1 foreignReset]) ++ ([.preProcess 1, .input 1] ++ afterReset)))
    (fun s : MapSys => s.wrk.flows.size) (b := 2) (by decide +kernel)
  obtain ⟨s, reached, rest⟩ := run_append_ok.mp total
  obtain ⟨t, taken, continued⟩ := run_append_ok.mp rest
  obtain ⟨s₀, -, received⟩ := run_snoc_ok.mp reached
  have slot : s.bufs 1 = foreignReset := by
    cases pure_ok.mp received
    exact Function.update_self 1 foreignReset s₀.bufs
  have holds : (s.bufs 1).HoldsAt 0 (resetFrame taggedFlow .dirIn).bytes := by
    rw [slot]
    exact filled_holdsAt _
  have tagged : (taggedFlow.flowEntry .dirIn).Tagged :=
    ⟨.inr (.inr rfl), by decide, by decide, fun none => absurd none (by decide),
      fun other => absurd rfl other⟩
  exact ⟨s, t, u, reached, taken, continued, reset_loses_next_tracker (P := portPlatform) rfl
    tagged reached (by rw [slot]; rfl) holds taken continued⟩

end FlowTable
