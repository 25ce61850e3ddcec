import VppPlugins.Vnetfilter.Evaluators

/-! The unrolled loop of the hook nodes against one packet at a time, and the trace
records it leaves. -/
namespace Vnetfilter
open FlowTable (VnetfilterAction)
open Faults Chains

variable {F B S : Type}

/-- What processing packets one at a time leaves. -/
structure Sequential (F B S : Type) where
  nexts : List UInt16
  shared : S
  runs : List (B × List F)

def oneAtATime (v : Vlib F B S) (processList : List (HookProcess F)) :
    List B → S → Sequential F B S
  | [], s => ⟨[], s, []⟩
  | b :: bs, s =>
      let hooked := vnetfilterHookProcess v processList b s
      let rest := oneAtATime v processList bs hooked.state
      ⟨hooked.next :: rest.nexts, rest.shared, (b, hooked.called) :: rest.runs⟩

theorem oneAtATime_snoc (v : Vlib F B S) (processList : List (HookProcess F)) (bs : List B) (b : B)
    (s : S) :
    oneAtATime v processList (bs ++ [b]) s =
      let before := oneAtATime v processList bs s
      let hooked := vnetfilterHookProcess v processList b before.shared
      ⟨before.nexts ++ [hooked.next], hooked.state, before.runs ++ [(b, hooked.called)]⟩ := by
  induction bs generalizing s with
  | nil => rfl
  | cons c bs ih =>
      rw [List.cons_append, oneAtATime, ih]
      rfl

/-- The chain runs on every packet once, in the order of the packets. -/
theorem oneAtATime_packets (v : Vlib F B S) (processList : List (HookProcess F)) (bs : List B)
    (s : S) : (oneAtATime v processList bs s).runs.map Prod.fst = bs := by
  induction bs generalizing s with
  | nil => rfl
  | cons b bs ih => rw [oneAtATime, List.map_cons, ih]

section Loop

variable (v : Vlib F B S) (processList : List (HookProcess F)) (bufs : List B)
  (stack : List UInt16) (s : S)

/-- Inside the loops: both pointers stand at `cursor`, the chain has run on the packets
`hooked` as it would have run on them one at a time, the elements of `nexts` in `cleared`
hold zero until the chain gets to them, and the packets `traced` were looked at for a trace. -/
structure Progress (cursor : Nat) (cleared : List Nat) (hooked traced : List B)
    (st : NodeState F B S) : Prop where
  b : st.b = cursor
  next : st.next = cursor
  shared : st.shared = (oneAtATime v processList hooked s).shared
  runs : st.runs = (oneAtATime v processList hooked s).runs
  written : st.nexts.take hooked.length = (oneAtATime v processList hooked s).nexts
  length : st.nexts.length = stack.length
  beyond : st.nexts.drop bufs.length = stack.drop bufs.length
  zero : ∀ i ∈ cleared, hooked.length ≤ i → st.nexts[i]? = some 0
  traces : st.traces.map (fun t => (t.1, t.2.nextIndex)) =
    (traced.filter v.isTraced).map fun b => (b, 0)

variable {v processList bufs stack s} {cursor k : Nat} {cleared : List Nat} {hooked traced : List B}
  {st : NodeState F B S}

theorem Progress.bufAt (p : Progress v processList bufs stack s cursor cleared hooked traced st)
    {b : B} (here : bufs[cursor + k]? = some b) : bufAt bufs st k = .ok b := by
  rw [Vnetfilter.bufAt, p.b]
  exact orFault_ok.mpr here

theorem Progress.setNext (p : Progress v processList bufs stack s cursor cleared hooked traced st)
    (inside : cursor + k < bufs.length) (value : UInt16) :
    setNext bufs st k value = .ok { st with nexts := st.nexts.set (cursor + k) value } := by
  rw [Vnetfilter.setNext, p.next, if_pos inside]

theorem Progress.clear (p : Progress v processList bufs stack s cursor cleared hooked traced st)
    (fits : bufs.length ≤ stack.length) (inside : cursor + k < bufs.length)
    (ahead : hooked.length ≤ cursor + k) :
    ∃ st', Vnetfilter.setNext bufs st k 0 = .ok st' ∧
      Progress v processList bufs stack s cursor ((cursor + k) :: cleared) hooked traced st' := by
  have size := p.length
  refine ⟨_, p.setNext inside 0, ⟨p.b, p.next, p.shared, p.runs, ?_, ?_, ?_, ?_, p.traces⟩⟩
  · rw [← p.written]
    exact List.take_set_of_le ahead
  · rw [List.length_set, size]
  · rw [List.drop_set_of_lt inside, p.beyond]
  · intro i member above
    by_cases same : cursor + k = i
    · subst same
      exact List.getElem?_set_self (by omega)
    · rw [List.getElem?_set_ne same]
      exact p.zero i ((List.mem_cons.mp member).resolve_left (Ne.symm same)) above

theorem Progress.trace (p : Progress v processList bufs stack s cursor cleared hooked traced st)
    {b : B} (here : bufs[cursor + k]? = some b) (clear : cursor + k ∈ cleared)
    (ahead : hooked.length ≤ cursor + k) :
    ∃ st', vnetfilterTraceBuffer v bufs st k = .ok st' ∧
      Progress v processList bufs stack s cursor cleared hooked (traced ++ [b]) st' := by
  have inside : cursor + k < bufs.length := (List.getElem?_eq_some_iff.mp here).1
  rw [vnetfilterTraceBuffer, p.bufAt here, ok_bind]
  by_cases flagged : v.isTraced b
  · have next : nextAt bufs st k = .ok 0 := by
      rw [nextAt, p.next, if_pos inside]
      exact orFault_ok.mpr (p.zero _ clear ahead)
    rw [if_pos flagged, next]
    refine ⟨_, rfl, ⟨p.b, p.next, p.shared, p.runs, p.written, p.length, p.beyond, p.zero, ?_⟩⟩
    rw [List.map_append, p.traces, List.filter_append, List.map_append,
      List.filter_cons_of_pos flagged]
    rfl
  · rw [if_neg flagged]
    refine ⟨_, rfl, ⟨p.b, p.next, p.shared, p.runs, p.written, p.length, p.beyond, p.zero, ?_⟩⟩
    rw [p.traces, List.filter_append, List.filter_cons_of_neg flagged, List.filter_nil,
      List.append_nil]

theorem Progress.hook (p : Progress v processList bufs stack s cursor cleared hooked traced st)
    (fits : bufs.length ≤ stack.length) {b : B} (here : bufs[cursor + k]? = some b)
    (turn : hooked.length = cursor + k) :
    ∃ st', hookProcessAt v processList bufs st k = .ok st' ∧
      Progress v processList bufs stack s cursor cleared (hooked ++ [b]) traced st' := by
  have inside : cursor + k < bufs.length := (List.getElem?_eq_some_iff.mp here).1
  have size := p.length
  simp only [hookProcessAt, p.bufAt here, ok_bind, p.setNext inside, p.shared, p.runs]
  refine ⟨_, rfl, ⟨p.b, p.next, ?_, ?_, ?_, ?_, ?_, ?_, p.traces⟩⟩
  · rw [oneAtATime_snoc]
  · rw [oneAtATime_snoc]
  · rw [oneAtATime_snoc, List.length_append, List.length_singleton, turn, List.take_add_one,
      List.take_set_of_le (Nat.le_refl _), ← turn, p.written, List.getElem?_set_self (by omega)]
    rfl
  · rw [List.length_set, size]
  · rw [List.drop_set_of_lt inside, p.beyond]
  · intro i member above
    rw [List.length_append, List.length_singleton] at above
    rw [List.getElem?_set_ne (by omega)]
    exact p.zero i member (by omega)

theorem Progress.advance (p : Progress v processList bufs stack s cursor cleared hooked traced st)
    (k : Nat) :
    Progress v processList bufs stack s (cursor + k) [] hooked traced (st.advance k) where
  b := congrArg (· + k) p.b
  next := congrArg (· + k) p.next
  shared := p.shared
  runs := p.runs
  written := p.written
  length := p.length
  beyond := p.beyond
  zero := fun _ member => (List.not_mem_nil member).elim
  traces := p.traces

variable (v processList bufs stack s) in
/-- Between two rounds of the loops, the packets `done` being processed. -/
def Between (isTrace : Bool) (done : List B) (st : NodeState F B S) : Prop :=
  Progress v processList bufs stack s done.length [] done (if isTrace then done else []) st

variable {isTrace : Bool} {done rest : List B}

theorem processOne_progress (fits : bufs.length ≤ stack.length) {b : B}
    (split : bufs = done ++ b :: rest) (between : Between v processList bufs stack s isTrace done st) :
    ∃ st', processOne v processList isTrace bufs st = .ok st' ∧
      Between v processList bufs stack s isTrace (done ++ [b]) st' := by
  have here : bufs[done.length + 0]? = some b := by rw [split, Nat.add_zero]; simp
  have inside : done.length + 0 < bufs.length := (List.getElem?_eq_some_iff.mp here).1
  obtain ⟨st₁, assigned, p₁⟩ := between.clear fits inside (Nat.le_refl _)
  obtain ⟨st₂, looked, p₂⟩ : ∃ st₂, traceOne v isTrace bufs st₁ = .ok st₂ ∧
      Progress v processList bufs stack s done.length [done.length + 0] done
        (if isTrace then done ++ [b] else []) st₂ := by
    cases isTrace with
    | false => exact ⟨st₁, rfl, p₁⟩
    | true => exact p₁.trace here List.mem_cons_self (Nat.le_refl _)
  obtain ⟨st₃, ran, p₃⟩ := p₂.hook fits here rfl
  refine ⟨st₃.advance 1, ?_, ?_⟩
  · simp only [processOne, assigned, looked, ran, ok_bind]
    rfl
  · rw [Between, List.length_append]
    exact p₃.advance 1

theorem prefetchNext_inside (at' : st.b = done.length) {b₀ b₁ b₂ b₃ : B}
    (split : bufs = done ++ b₀ :: b₁ :: b₂ :: b₃ :: rest) :
    prefetchNext bufs (rest.length + 4) st = .ok () := by
  by_cases more : 8 ≤ rest.length + 4
  · have inside : ∀ k, k < 8 → ∃ b, bufAt bufs st k = .ok b := by
      intro k small
      have bound : st.b + k < bufs.length := by
        rw [at', split]
        simp only [List.length_append, List.length_cons]
        omega
      exact ⟨_, orFault_ok.mpr (List.getElem?_eq_getElem bound)⟩
    obtain ⟨b₄, read₄⟩ := inside 4 (by decide)
    obtain ⟨b₅, read₅⟩ := inside 5 (by decide)
    obtain ⟨b₆, read₆⟩ := inside 6 (by decide)
    obtain ⟨b₇, read₇⟩ := inside 7 (by decide)
    rw [prefetchNext, if_pos more, read₄, ok_bind, read₅, ok_bind, read₆, ok_bind, read₇]
    rfl
  · rw [prefetchNext, if_neg more]
    rfl

theorem processFour_progress (fits : bufs.length ≤ stack.length) {b₀ b₁ b₂ b₃ : B}
    (split : bufs = done ++ b₀ :: b₁ :: b₂ :: b₃ :: rest)
    (between : Between v processList bufs stack s isTrace done st) :
    ∃ st', processFour v processList isTrace bufs (rest.length + 4) st = .ok st' ∧
      Between v processList bufs stack s isTrace (done ++ [b₀, b₁, b₂, b₃]) st' := by
  have here₀ : bufs[done.length + 0]? = some b₀ := by rw [split, Nat.add_zero]; simp
  have here₁ : bufs[done.length + 1]? = some b₁ := by rw [split]; simp
  have here₂ : bufs[done.length + 2]? = some b₂ := by rw [split]; simp
  have here₃ : bufs[done.length + 3]? = some b₃ := by rw [split]; simp
  have inside : done.length + 3 < bufs.length := (List.getElem?_eq_some_iff.mp here₃).1
  have fetched := prefetchNext_inside between.b split
  obtain ⟨c₃, assigned₃, q₃⟩ := between.clear (k := 3) fits inside (by omega)
  obtain ⟨c₂, assigned₂, q₂⟩ := q₃.clear (k := 2) fits (by omega) (by omega)
  obtain ⟨c₁, assigned₁, q₁⟩ := q₂.clear (k := 1) fits (by omega) (by omega)
  obtain ⟨c₀, assigned₀, q₀⟩ := q₁.clear (k := 0) fits (by omega) (by omega)
  -- all four packets are looked at before the chain runs on the first of them
  obtain ⟨t, looked, p⟩ : ∃ t, traceFour v isTrace bufs c₀ = .ok t ∧
      Progress v processList bufs stack s done.length
        [done.length + 0, done.length + 1, done.length + 2, done.length + 3] done
        (if isTrace then done ++ [b₀, b₁, b₂, b₃] else []) t := by
    cases isTrace with
    | false => exact ⟨c₀, rfl, q₀⟩
    | true =>
        obtain ⟨t₀, traced₀, r₀⟩ := q₀.trace here₀ (by simp) (by omega)
        obtain ⟨t₁, traced₁, r₁⟩ := r₀.trace here₁ (by simp) (by omega)
        obtain ⟨t₂, traced₂, r₂⟩ := r₁.trace here₂ (by simp) (by omega)
        obtain ⟨t₃, traced₃, r₃⟩ := r₂.trace here₃ (by simp) (by omega)
        refine ⟨t₃, ?_, by simpa using r₃⟩
        simp only [traceFour, traced₀, traced₁, traced₂, traced₃, ok_bind, if_true]
  obtain ⟨h₀, ran₀, p₀⟩ := p.hook fits here₀ rfl
  obtain ⟨h₁, ran₁, p₁⟩ := p₀.hook fits here₁ (by simp)
  obtain ⟨h₂, ran₂, p₂⟩ := p₁.hook fits here₂ (by simp)
  obtain ⟨h₃, ran₃, p₃⟩ := p₂.hook fits here₃ (by simp)
  refine ⟨h₃.advance 4, ?_, ?_⟩
  · simp only [processFour, fetched, assigned₃, assigned₂, assigned₁, assigned₀, looked, ran₀, ran₁,
      ran₂, ran₃, ok_bind]
    rfl
  · simpa [Between] using p₃.advance 4

theorem tailLoop_progress (fits : bufs.length ≤ stack.length) (split : bufs = done ++ rest)
    (between : Between v processList bufs stack s isTrace done st) :
    ∃ st', tailLoop v processList isTrace bufs rest.length st = .ok st' ∧
      Between v processList bufs stack s isTrace bufs st' := by
  induction rest generalizing done st with
  | nil =>
      rw [List.append_nil] at split
      exact ⟨st, rfl, split ▸ between⟩
  | cons b rest ih =>
      obtain ⟨st₁, body, between₁⟩ := processOne_progress fits split between
      obtain ⟨st₂, rounds, between₂⟩ := ih (by rw [split]; simp) between₁
      refine ⟨st₂, ?_, between₂⟩
      rw [List.length_cons, tailLoop, body, ok_bind]
      exact rounds

/-- The induction follows the loop: four packets a round while there are four. -/
theorem wideLoop_progress (fits : bufs.length ≤ stack.length) :
    ∀ {rest done : List B} {st : NodeState F B S}, bufs = done ++ rest →
      Between v processList bufs stack s isTrace done st →
      ∃ st', wideLoop v processList isTrace bufs rest.length st = .ok st' ∧
        Between v processList bufs stack s isTrace bufs st'
  | b₀ :: b₁ :: b₂ :: b₃ :: rest, done, st, split, between => by
      obtain ⟨st₁, body, between₁⟩ := processFour_progress fits split between
      have split₁ : bufs = (done ++ [b₀, b₁, b₂, b₃]) ++ rest := by rw [split]; simp
      obtain ⟨st₂, rounds, between₂⟩ := wideLoop_progress fits split₁ between₁
      refine ⟨st₂, ?_, between₂⟩
      simp only [List.length_cons, wideLoop]
      rw [body, ok_bind]
      exact rounds
  | [], done, st, split, between => tailLoop_progress fits split between
  | [b₀], done, st, split, between => tailLoop_progress fits split between
  | [b₀, b₁], done, st, split, between => tailLoop_progress fits split between
  | [b₀, b₁, b₂], done, st, split, between => tailLoop_progress fits split between

end Loop

/-- The node's run as processing its packets one at a time has it. -/
structure RunsSequentially (v : Vlib F B S) (frame : VlibFrame) (processList : List (HookProcess F))
    (stack : Vector UInt16 VLIB_FRAME_SIZE) (s : S) (r : NodeRun F B S) : Prop where
  runs : r.final.runs = (oneAtATime v processList (frame.vectorArgs.map v.getBuffer) s).runs
  /-- The chain ran on every packet exactly once, in the order of the frame. -/
  packets : r.final.runs.map Prod.fst = frame.vectorArgs.map v.getBuffer
  shared : r.final.shared = (oneAtATime v processList (frame.vectorArgs.map v.getBuffer) s).shared
  nexts : r.final.nexts.take frame.nVectors =
    (oneAtATime v processList (frame.vectorArgs.map v.getBuffer) s).nexts
  untouched : r.final.nexts.drop frame.nVectors = stack.toList.drop frame.nVectors
  enqueued : r.enqueued = ⟨frame.vectorArgs, r.final.nexts, frame.nVectors⟩
  returned : r.returned = frame.nVectors

theorem inline_progress (v : Vlib F B S) (frame : VlibFrame) (isTrace : Bool)
    (processList : List (HookProcess F)) (stack : Vector UInt16 VLIB_FRAME_SIZE) (s : S) :
    ∃ r, vnetfilterHookProcessInline v frame isTrace processList stack s = .ok r ∧
      Between v processList (frame.vectorArgs.map v.getBuffer) stack.toList s isTrace
        (frame.vectorArgs.map v.getBuffer) r.final ∧
      r.enqueued = ⟨frame.vectorArgs, r.final.nexts, frame.nVectors⟩ ∧
      r.returned = frame.nVectors := by
  have size : (frame.vectorArgs.map v.getBuffer).length = frame.nVectors := List.length_map ..
  have fits : (frame.vectorArgs.map v.getBuffer).length ≤ stack.toList.length := by
    rw [size, Vector.length_toList]
    exact frame.bounded
  have start : Between v processList (frame.vectorArgs.map v.getBuffer) stack.toList s isTrace []
      ⟨s, stack.toList, 0, 0, [], []⟩ := by
    refine ⟨rfl, rfl, rfl, rfl, rfl, rfl, rfl, fun _ member => (List.not_mem_nil member).elim, ?_⟩
    rw [ite_self]
    rfl
  obtain ⟨st, loops, final⟩ := wideLoop_progress fits (List.nil_append _).symm start
  rw [size] at loops
  refine ⟨⟨st, ⟨frame.vectorArgs, st.nexts, frame.nVectors⟩, frame.nVectors⟩, ?_, final, rfl, rfl⟩
  simp only [vnetfilterHookProcessInline, loops, ok_bind]
  rfl

/-- For every frame, every list of hooks and either instance, the node function completes
without leaving the frame's part of its arrays, as if it took one packet at a time. -/
theorem unrolled_loop_runs_sequentially (v : Vlib F B S) (frame : VlibFrame) (isTrace : Bool)
    (processList : List (HookProcess F)) (stack : Vector UInt16 VLIB_FRAME_SIZE) (s : S) :
    ∃ r, vnetfilterHookProcessInline v frame isTrace processList stack s = .ok r ∧
      RunsSequentially v frame processList stack s r := by
  obtain ⟨r, done, final, enqueued, returned⟩ :=
    inline_progress v frame isTrace processList stack s
  have size : (frame.vectorArgs.map v.getBuffer).length = frame.nVectors := List.length_map ..
  refine ⟨r, done, final.runs, ?_, final.shared, ?_, ?_, enqueued, returned⟩
  · rw [final.runs, oneAtATime_packets]
  · rw [← size]
    exact final.written
  · rw [← size]
    exact final.beyond

/-! Trace records -/

/-- Each traced packet with the next index it is enqueued to. -/
def enqueuedTraced (v : Vlib F B S) (bufs : List B) (nexts : List UInt16) : List (B × UInt32) :=
  ((bufs.zip nexts).filter fun p => v.isTraced p.1).map fun p => (p.1, p.2.toUInt32)

/-- Tracing changes nothing but the records, and those say where the traced packets went. -/
structure TracesTell (v : Vlib F B S) (frame : VlibFrame) (plain traced : NodeRun F B S) : Prop where
  nexts : traced.final.nexts.take frame.nVectors = plain.final.nexts.take frame.nVectors
  shared : traced.final.shared = plain.final.shared
  none : plain.final.traces = []
  records : (traced.final.traces.map fun t => (t.1, t.2.nextIndex)).Perm
    (enqueuedTraced v (frame.vectorArgs.map v.getBuffer)
      (traced.final.nexts.take frame.nVectors))

/-- The chain drops the packet, or lets it go on to a feature whose next index is the one of
`error-drop`. -/
def Discards (v : Vlib F B S) (processList : List (HookProcess F)) (b : B) (s : S) : Prop :=
  let r := hookChain v.call processList b s
  r.decision = .drop ∨
    (r.decision = .accept ∨ r.decision = .stop) ∧
      (v.featureNext b r.state).1 = VNETFILTER_HOOK_NEXT_DROP

/-- Every traced packet is discarded in the state the packets before it left. -/
def TracedDiscarded (v : Vlib F B S) (processList : List (HookProcess F)) : List B → S → Prop
  | [], _ => True
  | b :: bs, s => (v.isTraced b → Discards v processList b s) ∧
      TracedDiscarded v processList bs (vnetfilterHookProcess v processList b s).state

theorem next_drop_iff (v : Vlib F B S) (processList : List (HookProcess F)) (b : B) (s : S) :
    (vnetfilterHookProcess v processList b s).next.toUInt32 = 0 ↔ Discards v processList b s := by
  have zero : ∀ x : UInt16, x.toUInt32 = 0 ↔ x = VNETFILTER_HOOK_NEXT_DROP := by
    intro x
    rw [← UInt32.toNat_inj, ← UInt16.toNat_inj, UInt16.toNat_toUInt32]
    rfl
  rw [zero, vnetfilterHookProcess, Discards]
  cases decided : (hookChain v.call processList b s).decision with
  | drop => simp
  | stolen => simp [VNETFILTER_HOOK_NEXT_DROP, VNETFILTER_HOOK_NEXT_STOLEN]
  | accept => simp
  | stop => simp

theorem enqueuedTraced_cons (v : Vlib F B S) (b : B) (bs : List B) (next : UInt16)
    (nexts : List UInt16) :
    enqueuedTraced v (b :: bs) (next :: nexts) =
      (if v.isTraced b then [(b, next.toUInt32)] else []) ++ enqueuedTraced v bs nexts := by
  rw [enqueuedTraced, List.zip_cons_cons, List.filter_cons]
  split <;> rfl

theorem enqueuedTraced_of_discarded {v : Vlib F B S} {processList : List (HookProcess F)}
    {bs : List B} {s : S} (discarded : TracedDiscarded v processList bs s) :
    enqueuedTraced v bs (oneAtATime v processList bs s).nexts =
      (bs.filter v.isTraced).map fun b => (b, 0) := by
  induction bs generalizing s with
  | nil => rfl
  | cons b bs ih =>
      obtain ⟨first, rest⟩ := discarded
      rw [oneAtATime, enqueuedTraced_cons, ih rest, List.filter_cons]
      by_cases flagged : v.isTraced b
      · rw [if_pos flagged, if_pos flagged, (next_drop_iff v processList b s).mpr (first flagged)]
        rfl
      · rw [if_neg flagged, if_neg flagged]
        rfl

theorem discarded_of_enqueuedTraced {v : Vlib F B S} {processList : List (HookProcess F)}
    {bs : List B} {s : S}
    (zero : ∀ p ∈ enqueuedTraced v bs (oneAtATime v processList bs s).nexts, p.2 = 0) :
    TracedDiscarded v processList bs s := by
  induction bs generalizing s with
  | nil => trivial
  | cons b bs ih =>
      rw [oneAtATime, enqueuedTraced_cons] at zero
      refine ⟨fun flagged => ?_, ih fun p member => zero p (List.mem_append_right _ member)⟩
      rw [if_pos flagged] at zero
      exact (next_drop_iff v processList b s).mp (zero _ List.mem_cons_self)

/-- The records name the drop node whatever becomes of the packet: they tell where the
traced packets went only where all of them are discarded. -/
theorem traces_tell_iff (v : Vlib F B S) (frame : VlibFrame) (processList : List (HookProcess F))
    (stack : Vector UInt16 VLIB_FRAME_SIZE) (s : S) :
    ∃ plain traced,
      vnetfilterHookProcessInline v frame false processList stack s = .ok plain ∧
      vnetfilterHookProcessInline v frame true processList stack s = .ok traced ∧
      (TracesTell v frame plain traced ↔
        TracedDiscarded v processList (frame.vectorArgs.map v.getBuffer) s) := by
  obtain ⟨plain, ranPlain, finalPlain, -⟩ := inline_progress v frame false processList stack s
  obtain ⟨traced, ranTraced, finalTraced, -⟩ := inline_progress v frame true processList stack s
  refine ⟨plain, traced, ranPlain, ranTraced, ?_⟩
  have size : (frame.vectorArgs.map v.getBuffer).length = frame.nVectors := List.length_map ..
  have written : traced.final.nexts.take frame.nVectors =
      (oneAtATime v processList (frame.vectorArgs.map v.getBuffer) s).nexts := by
    rw [← size]
    exact finalTraced.written
  have recorded : traced.final.traces.map (fun t => (t.1, t.2.nextIndex)) =
      ((frame.vectorArgs.map v.getBuffer).filter v.isTraced).map fun b => (b, 0) :=
    finalTraced.traces
  constructor
  · intro tell
    apply discarded_of_enqueuedTraced
    intro p member
    have record := tell.records.mem_iff.mpr (written ▸ member)
    rw [recorded] at record
    obtain ⟨b, -, rfl⟩ := List.mem_map.mp record
    rfl
  · intro discarded
    refine ⟨?_, finalTraced.shared.trans finalPlain.shared.symm, ?_, ?_⟩
    · rw [written, ← size]
      exact finalPlain.written.symm
    · exact List.map_eq_nil_iff.mp finalPlain.traces
    · rw [recorded, written, enqueuedTraced_of_discarded discarded]

/-- One traced packet, no hook, and a feature arc that goes on with the index 7: the record
says 0. -/
theorem record_names_drop :
    ¬ ∀ (v : Vlib Unit Unit Unit) (frame : VlibFrame) (processList : List (HookProcess Unit))
      (stack : Vector UInt16 VLIB_FRAME_SIZE) (s : Unit) (plain traced : NodeRun Unit Unit Unit),
      vnetfilterHookProcessInline v frame false processList stack s = .ok plain →
      vnetfilterHookProcessInline v frame true processList stack s = .ok traced →
      TracesTell v frame plain traced := by
  intro claimed
  let v : Vlib Unit Unit Unit :=
    ⟨fun _ => (), fun _ _ _ => (.accept, ()), fun _ _ => (7, ()), fun _ => true, fun _ _ => 1⟩
  let frame : VlibFrame := ⟨[0], by decide⟩
  have tell := claimed v frame [] (Vector.replicate VLIB_FRAME_SIZE 0) () _ _ rfl rfl
  have record := (tell.records.mem_iff (a := ((), 0))).mp (by decide)
  exact absurd record (by decide)

end Vnetfilter
