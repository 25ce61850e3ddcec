import VppPlugins.FlowTable.Resets

/-! Which packets make the tracker call `tcp_send_reset`, in which order, and on what. -/
namespace FlowTable
open Faults Runs

variable {Mem Tbl : Type} {P : Platform Mem Tbl}

instance (r : Binding) (i : Nat) : Decidable (r.Opens i) :=
  inferInstanceAs (Decidable (r.flow = i ∧ r.created = true ∧
    r.packet.ipProtocol = IP_PROTOCOL_TCP ∧ r.packet.concernedFlags = TCP_FLAG_SYN))

/-- `r` comes to a flow that a bare SYN created, and leaves it established. -/
def CallsForReset (before : List Binding) (r : Binding) : Prop :=
  r.created = false ∧ r.packet.ipProtocol = IP_PROTOCOL_TCP ∧
    foldedState r.flow (before ++ [r]) = .established ∧ ∃ q ∈ before, q.Opens r.flow

instance (before : List Binding) (r : Binding) : Decidable (CallsForReset before r) :=
  inferInstanceAs (Decidable (_ ∧ _ ∧ _ ∧ _))

/-- The histories up to each packet that calls for a reset, oldest first. -/
def resetMoments (before : List Binding) : List Binding → List (List Binding)
  | [] => []
  | r :: rest =>
      if CallsForReset before r then (before ++ [r]) :: resetMoments (before ++ [r]) rest
      else resetMoments (before ++ [r]) rest

theorem resetMoments_snoc (before history : List Binding) (r : Binding) :
    resetMoments before (history ++ [r]) =
      resetMoments before history ++
        if CallsForReset (before ++ history) r then [before ++ history ++ [r]] else [] := by
  induction history generalizing before with
  | nil =>
      rw [List.nil_append, resetMoments, resetMoments, resetMoments, List.append_nil]
      rfl
  | cons q history ih =>
      rw [List.cons_append, resetMoments, resetMoments, ih]
      simp only [List.append_assoc, List.singleton_append]
      split
      · rfl
      · rfl

/-- The call got the flow of the last packet as the packets up to it had left it. -/
def GivenAt (f : Flow) (history : List Binding) : Prop :=
  ∃ before r, history = before ++ [r] ∧ f.eltIndex = r.flow ∧ Tracked history r.flow f

def ResetsGiven (s : Sys Mem Tbl) : Prop :=
  List.Forall₂ GivenAt s.wrk.resets (resetMoments [] s.history)

theorem resetsGiven_quiet {s t : Sys Mem Tbl} {r : Binding} (given : ResetsGiven s)
    (same : t.wrk.resets = s.wrk.resets) (history : t.history = s.history ++ [r])
    (quiet : ¬ CallsForReset s.history r) : ResetsGiven t := by
  rw [ResetsGiven, same, history, resetMoments_snoc, List.nil_append, if_neg quiet,
    List.append_nil]
  exact given

/-- An update hands its flow over exactly when its packet calls for it. -/
theorem TcpUpdate.calls_iff {s t : Sys Mem Tbl} {r : Binding} {f g : Flow}
    (u : TcpUpdate P s t r f g) (after : t.Tracks) :
    (g.state = .established ∧ g.threeWayHandshake = true) ↔ CallsForReset s.history r := by
  have tracked := after.tracked _ g u.after
  rw [tracked.state, tracked.handshake, u.history, opens_snoc, CallsForReset]
  have quiet : ¬ r.Opens r.flow := fun opens => Bool.false_ne_true (u.old.symm.trans opens.2.1)
  exact ⟨fun both => ⟨u.old, u.tcp, both.1, both.2.resolve_right quiet⟩,
    fun calls => ⟨calls.2.2.1, .inl calls.2.2.2⟩⟩

theorem resetsGiven_updated {s t : Sys Mem Tbl} {r : Binding} {f g : Flow}
    (u : TcpUpdate P s t r f g) (given : ResetsGiven s) (after : t.Tracks) : ResetsGiven t := by
  have calls := u.calls_iff after
  have resets := u.resets
  rw [ProtocolHandler.emitted] at resets
  by_cases complete : g.state = .established ∧ g.threeWayHandshake = true
  · have tracked := after.tracked _ g u.after
    have index := (after.shaped.flow _ g u.after).eltIndex
    rw [u.history] at tracked
    rw [if_pos complete] at resets
    rw [ResetsGiven, resets, u.history, resetMoments_snoc, List.nil_append,
      if_pos (calls.mp complete)]
    exact List.rel_append given (.cons ⟨s.history, r, rfl, index, tracked⟩ .nil)
  · rw [if_neg complete, List.append_nil] at resets
    exact resetsGiven_quiet given resets u.history fun asked => complete (calls.mpr asked)

theorem resetsGiven_same {s t : Sys Mem Tbl} (given : ResetsGiven s)
    (same : t.wrk.resets = s.wrk.resets) (history : t.history = s.history) : ResetsGiven t := by
  rw [ResetsGiven, same, history]
  exact given

theorem step_resetsGiven {s t : Sys Mem Tbl} {c : Call} (tracks : s.Tracks)
    (given : ResetsGiven s) (done : step P s c = .ok t) : ResetsGiven t := by
  rcases step_resets tracks.shaped done with same | ⟨r, f, g, u⟩
  · cases step_cases tracks.shaped done with
    | receive slot b => exact resetsGiven_same given same rfl
    | preProcess slot => exact resetsGiven_same given same rfl
    | idle slot nothing => exact resetsGiven_same given same rfl
    | advance ticks => exact resetsGiven_same given same rfl
    | mirrors slot index f w effect => exact resetsGiven_same given same rfl
    | creates slot h o handler key buf effect =>
        refine resetsGiven_quiet given same rfl fun calls => ?_
        exact Bool.false_ne_true (calls.1.symm.trans effect.created)
    | finds slot h o a f handler key buf effect =>
        by_cases tcp : (s.bufs slot).ipProtocol = IP_PROTOCOL_TCP
        · obtain ⟨f, g, u⟩ := input_updates tracks.shaped done rfl effect.created tcp
          exact resetsGiven_updated u given (step_tracks tracks done)
        · exact resetsGiven_quiet given same rfl fun calls => tcp calls.2.1
  · exact resetsGiven_updated u given (step_tracks tracks done)

/-- In every run `tcp_send_reset` is called once for each packet that comes to a flow opened by a
bare SYN and leaves it established, in the order of the packets, for no other, and with the flow
as its packets have left it. -/
theorem resets_called_for_each (P : Platform Mem Tbl) (nThreads : Nat) (bufs : Nat → Buffer)
    (cs : List Call) : Always (step P) ResetsGiven (initial P nThreads bufs) cs :=
  always_of_invariant (fun s : Sys Mem Tbl => s.Tracks ∧ ResetsGiven s)
    (fun _ _ _ inv done => ⟨step_tracks inv.1 done, step_resetsGiven inv.1 inv.2 done⟩)
    (fun _ inv => inv.2) ⟨initial_tracks P nThreads bufs, .nil⟩

end FlowTable
