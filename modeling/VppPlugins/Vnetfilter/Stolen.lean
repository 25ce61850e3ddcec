import VppPlugins.Vnetfilter.NodeLoop

/-! The node `vnetfilter-stolen`, which ends the way of the packets that a hook has taken. -/
namespace Vnetfilter
open Faults

variable {F B S : Type}

/-- The body of the loop over four packets, which leaves `next` as it stands on the stack. -/
def stolenFour (v : Vlib F B S) (isTrace : Bool) (bufs : List B) (nLeftFrom : Nat)
    (st : NodeState F B S) : Except NodeFault (NodeState F B S) := do
  let _ ← prefetchNext bufs nLeftFrom st
  let st ← traceFour v isTrace bufs st
  pure (st.advance 4)

def stolenOne (v : Vlib F B S) (isTrace : Bool) (bufs : List B) (st : NodeState F B S) :
    Except NodeFault (NodeState F B S) := do
  let st ← setNext bufs st 0 0
  let st ← traceOne v isTrace bufs st
  pure (st.advance 1)

def stolenTailLoop (v : Vlib F B S) (isTrace : Bool) (bufs : List B) :
    Nat → NodeState F B S → Except NodeFault (NodeState F B S)
  | 0, st => pure st
  | nLeftFrom + 1, st => do
      let st ← stolenOne v isTrace bufs st
      stolenTailLoop v isTrace bufs nLeftFrom st

def stolenWideLoop (v : Vlib F B S) (isTrace : Bool) (bufs : List B) :
    Nat → NodeState F B S → Except NodeFault (NodeState F B S)
  | nLeftFrom + 4, st => do
      let st ← stolenFour v isTrace bufs (nLeftFrom + 4) st
      stolenWideLoop v isTrace bufs nLeftFrom st
  | nLeftFrom, st => stolenTailLoop v isTrace bufs nLeftFrom st

/-- `vnetfilter_stolen_node`, with what it returns. It enqueues no packet. -/
def vnetfilterStolenNode (v : Vlib F B S) (nodeFlagTrace : Bool) (frame : VlibFrame)
    (nexts : Vector UInt16 VLIB_FRAME_SIZE) (s : S) :
    Except NodeFault (NodeState F B S × Nat) := do
  let bufs := frame.vectorArgs.map v.getBuffer
  let st ← stolenWideLoop v nodeFlagTrace bufs frame.nVectors ⟨s, nexts.toList, 0, 0, [], []⟩
  pure (st, 0)

def recordOf (v : Vlib F B S) (s : S) (b : B) (next : UInt16) : List (B × HookTrace) :=
  if v.isTraced b then [(b, ⟨v.swIfIndexRx b s, next.toUInt32⟩)] else []

/-- The records of packets with the values that stood in `next` for them. -/
def records (v : Vlib F B S) (s : S) (looks : List (B × UInt16)) : List (B × HookTrace) :=
  looks.flatMap fun look => recordOf v s look.1 look.2

section Loop

variable (v : Vlib F B S) (bufs : List B) (stack : List UInt16) (s : S) (isTrace : Bool)

/-- After the packets `done`, for which `next` was found to hold `seen`. -/
structure Looked (done : List B) (seen : List UInt16) (st : NodeState F B S) : Prop where
  b : st.b = done.length
  next : st.next = done.length
  shared : st.shared = s
  runs : st.runs = []
  length : seen.length = done.length
  nexts : st.nexts = seen ++ stack.drop done.length
  traces : st.traces = if isTrace then records v s (done.zip seen) else []

variable {v bufs stack s isTrace} {done rest : List B} {seen : List UInt16} {st : NodeState F B S}
  {b : B} {x : UInt16} {k : Nat}

theorem traceBuffer_records (traces : List (B × HookTrace)) (same : st.next = st.b)
    (here : bufs[st.b + k]? = some b) (next : st.nexts[st.next + k]? = some x) :
    vnetfilterTraceBuffer v bufs { st with traces } k =
      .ok { st with traces := traces ++ recordOf v st.shared b x } := by
  have inside : st.next + k < bufs.length := same ▸ (List.getElem?_eq_some_iff.mp here).1
  have held : bufAt bufs { st with traces } k = .ok b := orFault_ok.mpr here
  rw [vnetfilterTraceBuffer, held, ok_bind, recordOf]
  by_cases flagged : v.isTraced b
  · rw [if_pos flagged, if_pos flagged, nextAt, if_pos inside, orFault_ok.mpr next]
    rfl
  · rw [if_neg flagged, if_neg flagged, List.append_nil]
    rfl

theorem records_append (looks looks' : List (B × UInt16)) :
    records v s (looks ++ looks') = records v s looks ++ records v s looks' := List.flatMap_append

theorem traceOne_records (same : st.next = st.b) (here : bufs[st.b + 0]? = some b)
    (next : st.nexts[st.next + 0]? = some x) :
    traceOne v isTrace bufs st =
      .ok { st with
        traces := st.traces ++ if isTrace then records v st.shared [(b, x)] else [] } := by
  cases isTrace with
  | false =>
      simp only [traceOne, Bool.false_eq_true, if_false, List.append_nil]
      rfl
  | true =>
      simp only [traceOne, if_true, records, List.flatMap_cons, List.flatMap_nil, List.append_nil]
      exact traceBuffer_records st.traces same here next

theorem traceFour_records {b₀ b₁ b₂ b₃ : B} {x₀ x₁ x₂ x₃ : UInt16} (same : st.next = st.b)
    (here₀ : bufs[st.b + 0]? = some b₀) (here₁ : bufs[st.b + 1]? = some b₁)
    (here₂ : bufs[st.b + 2]? = some b₂) (here₃ : bufs[st.b + 3]? = some b₃)
    (next₀ : st.nexts[st.next + 0]? = some x₀) (next₁ : st.nexts[st.next + 1]? = some x₁)
    (next₂ : st.nexts[st.next + 2]? = some x₂) (next₃ : st.nexts[st.next + 3]? = some x₃) :
    traceFour v isTrace bufs st =
      .ok { st with
        traces := st.traces ++
          if isTrace then
            records v st.shared [(b₀, x₀), (b₁, x₁), (b₂, x₂), (b₃, x₃)]
          else [] } := by
  cases isTrace with
  | false =>
      simp only [traceFour, Bool.false_eq_true, if_false, List.append_nil]
      rfl
  | true =>
      have look₀ : vnetfilterTraceBuffer v bufs st 0 = _ :=
        traceBuffer_records st.traces same here₀ next₀
      rw [traceFour, if_pos rfl, look₀, ok_bind, traceBuffer_records _ same here₁ next₁, ok_bind,
        traceBuffer_records _ same here₂ next₂, ok_bind, traceBuffer_records _ same here₃ next₃]
      simp only [records, List.flatMap_cons, List.flatMap_nil, List.append_nil, List.append_assoc,
        if_true]

/-- What is left after a look at the packets `bs` that found `xs`. -/
theorem Looked.snoc (p : Looked v stack s isTrace done seen st) (bs : List B) (xs : List UInt16)
    (length : xs.length = bs.length) {nexts : List UInt16}
    (left : nexts = (seen ++ xs) ++ stack.drop (done.length + bs.length)) :
    Looked v stack s isTrace (done ++ bs) (seen ++ xs)
      (NodeState.advance
        { st with
          nexts, traces := st.traces ++ if isTrace then records v st.shared (bs.zip xs) else [] }
        bs.length) where
  b := by rw [List.length_append, ← p.b]; rfl
  next := by rw [List.length_append, ← p.next]; rfl
  shared := p.shared
  runs := p.runs
  length := by rw [List.length_append, List.length_append, p.length, length]
  nexts := by rw [List.length_append]; exact left
  traces := by
    change st.traces ++ _ = _
    rw [p.traces, p.shared]
    cases isTrace with
    | false => rfl
    | true => rw [if_pos rfl, if_pos rfl, if_pos rfl, List.zip_append p.length.symm, records_append]

theorem stolenOne_looked (fits : bufs.length ≤ stack.length) (split : bufs = done ++ b :: rest)
    (p : Looked v stack s isTrace done seen st) :
    ∃ st', stolenOne v isTrace bufs st = .ok st' ∧
      Looked v stack s isTrace (done ++ [b]) (seen ++ [0]) st' := by
  have here : bufs[done.length + 0]? = some b := by rw [split, Nat.add_zero]; simp
  have inside : done.length + 0 < bufs.length := (List.getElem?_eq_some_iff.mp here).1
  have written : st.nexts.set (st.next + 0) 0 =
      (seen ++ [0]) ++ stack.drop (done.length + 1) := by
    rw [p.nexts, p.next, Nat.add_zero, ← p.length, List.set_append_right _ _ (Nat.le_refl _),
      Nat.sub_self, p.length, List.drop_eq_getElem_cons (by omega), List.set_cons_zero,
      List.append_assoc]
    rfl
  have assigned : setNext bufs st 0 0 =
      .ok { st with nexts := (seen ++ [0]) ++ stack.drop (done.length + 1) } := by
    rw [setNext, if_pos (by rw [p.next]; exact inside), written]
  have zero : ((seen ++ [0]) ++ stack.drop (done.length + 1))[st.next + 0]? = some 0 := by
    rw [p.next, ← p.length]
    simp
  have traced : traceOne v isTrace bufs
      { st with nexts := (seen ++ [0]) ++ stack.drop (done.length + 1) } = _ :=
    traceOne_records (p.next.trans p.b.symm) (p.b ▸ here) zero
  have left := p.snoc [b] [0] rfl rfl
  refine ⟨_, ?_, left⟩
  rw [stolenOne, assigned, ok_bind, traced]
  rfl

/-- The values for the next four packets still stand on the stack. -/
theorem Looked.ahead (p : Looked v stack s isTrace done seen st) {more xs : List UInt16}
    (drop : stack.drop done.length = xs ++ more) (k : Nat) (inside : k < xs.length) :
    st.nexts[st.next + k]? = xs[k]? := by
  rw [p.nexts, p.next, drop, ← p.length, List.getElem?_append_right (Nat.le_add_right ..),
    Nat.add_sub_cancel_left, List.getElem?_append_left inside]

theorem stolenFour_looked {b₀ b₁ b₂ b₃ : B} {x₀ x₁ x₂ x₃ : UInt16} {more : List UInt16}
    (split : bufs = done ++ b₀ :: b₁ :: b₂ :: b₃ :: rest)
    (drop : stack.drop done.length = [x₀, x₁, x₂, x₃] ++ more)
    (p : Looked v stack s isTrace done seen st) :
    ∃ st', stolenFour v isTrace bufs (rest.length + 4) st = .ok st' ∧
      Looked v stack s isTrace (done ++ [b₀, b₁, b₂, b₃]) (seen ++ [x₀, x₁, x₂, x₃]) st' := by
  have here₀ : bufs[done.length + 0]? = some b₀ := by rw [split, Nat.add_zero]; simp
  have here₁ : bufs[done.length + 1]? = some b₁ := by rw [split]; simp
  have here₂ : bufs[done.length + 2]? = some b₂ := by rw [split]; simp
  have here₃ : bufs[done.length + 3]? = some b₃ := by rw [split]; simp
  have fetched := prefetchNext_inside p.b split
  rw [← p.b] at here₀ here₁ here₂ here₃
  have traced : traceFour v isTrace bufs st = _ :=
    traceFour_records (p.next.trans p.b.symm) here₀ here₁ here₂ here₃
      (p.ahead drop 0 (by simp)) (p.ahead drop 1 (by simp)) (p.ahead drop 2 (by simp))
      (p.ahead drop 3 (by simp))
  have left : st.nexts = (seen ++ [x₀, x₁, x₂, x₃]) ++ stack.drop (done.length + 4) := by
    rw [p.nexts, ← List.drop_drop, drop, List.append_assoc]
    rfl
  refine ⟨_, ?_, p.snoc [b₀, b₁, b₂, b₃] [x₀, x₁, x₂, x₃] rfl left⟩
  rw [stolenFour, fetched, ok_bind, traced]
  rfl

theorem stolenTailLoop_looked (fits : bufs.length ≤ stack.length) (split : bufs = done ++ rest)
    (p : Looked v stack s isTrace done seen st) :
    ∃ st', stolenTailLoop v isTrace bufs rest.length st = .ok st' ∧
      Looked v stack s isTrace bufs (seen ++ List.replicate rest.length 0) st' := by
  induction rest generalizing done seen st with
  | nil =>
      rw [List.append_nil] at split
      exact ⟨st, rfl, by rw [split, List.length_nil, List.replicate_zero, List.append_nil]; exact p⟩
  | cons b rest ih =>
      obtain ⟨st₁, body, p₁⟩ := stolenOne_looked fits split p
      obtain ⟨st₂, rounds, p₂⟩ := ih (by rw [split]; simp) p₁
      refine ⟨st₂, ?_, ?_⟩
      · rw [List.length_cons, stolenTailLoop, body, ok_bind]
        exact rounds
      · rw [List.append_assoc] at p₂
        exact p₂

/-- What the node finds in `next` for `n` packets: the stack's values for those that it takes four
at a time, zeros for the others. -/
def nextsSeen (stack : List UInt16) (n : Nat) : List UInt16 :=
  stack.take (n - n % 4) ++ List.replicate (n % 4) 0

theorem nextsSeen_four {x₀ x₁ x₂ x₃ : UInt16} {more : List UInt16} (n : Nat) :
    nextsSeen ([x₀, x₁, x₂, x₃] ++ more) (n + 4) = [x₀, x₁, x₂, x₃] ++ nextsSeen more n := by
  have wide : n + 4 - n % 4 = [x₀, x₁, x₂, x₃].length + (n - n % 4) := by
    change n + 4 - n % 4 = 4 + (n - n % 4)
    omega
  rw [nextsSeen, nextsSeen, Nat.add_mod_right, wide, List.take_length_add_append, List.append_assoc]

theorem four_ahead {l : List UInt16} (room : 4 ≤ l.length) :
    ∃ x₀ x₁ x₂ x₃ more, l = [x₀, x₁, x₂, x₃] ++ more :=
  match l, room with
  | x₀ :: x₁ :: x₂ :: x₃ :: more, _ => ⟨x₀, x₁, x₂, x₃, more, rfl⟩

theorem stolenWideLoop_looked (fits : bufs.length ≤ stack.length) :
    ∀ {rest done : List B} {seen : List UInt16} {st : NodeState F B S}, bufs = done ++ rest →
      Looked v stack s isTrace done seen st →
      ∃ st', stolenWideLoop v isTrace bufs rest.length st = .ok st' ∧
        Looked v stack s isTrace bufs
          (seen ++ nextsSeen (stack.drop done.length) rest.length) st'
  | b₀ :: b₁ :: b₂ :: b₃ :: rest, done, seen, st, split, p => by
      have room : 4 ≤ (stack.drop done.length).length := by
        rw [split] at fits
        simp only [List.length_append, List.length_cons] at fits
        rw [List.length_drop]
        omega
      obtain ⟨x₀, x₁, x₂, x₃, more, drop⟩ := four_ahead room
      obtain ⟨st₁, body, p₁⟩ := stolenFour_looked split drop p
      have split₁ : bufs = (done ++ [b₀, b₁, b₂, b₃]) ++ rest := by rw [split]; simp
      obtain ⟨st₂, rounds, p₂⟩ := stolenWideLoop_looked fits split₁ p₁
      refine ⟨st₂, ?_, ?_⟩
      · simp only [List.length_cons, stolenWideLoop]
        rw [body, ok_bind]
        exact rounds
      · have later : stack.drop (done ++ [b₀, b₁, b₂, b₃]).length = more := by
          rw [List.length_append, ← List.drop_drop, drop]
          rfl
        rw [later, List.append_assoc] at p₂
        rw [drop]
        simp only [List.length_cons]
        rw [nextsSeen_four]
        exact p₂
  | [], done, seen, st, split, p => stolenTailLoop_looked fits split p
  | [b₀], done, seen, st, split, p => stolenTailLoop_looked fits split p
  | [b₀, b₁], done, seen, st, split, p => stolenTailLoop_looked fits split p
  | [b₀, b₁, b₂], done, seen, st, split, p => stolenTailLoop_looked fits split p

end Loop

/-- For every frame the node stays inside its arrays, changes nothing that the hooks share, runs no
hook, and records each traced packet once, but with a next index that it wrote for the last
`n % 4` packets only. -/
theorem stolen_node_only_traces (v : Vlib F B S) (nodeFlagTrace : Bool) (frame : VlibFrame)
    (stack : Vector UInt16 VLIB_FRAME_SIZE) (s : S) :
    ∃ st, vnetfilterStolenNode v nodeFlagTrace frame stack s = .ok (st, 0) ∧ st.shared = s ∧
      st.runs = [] ∧
      st.traces =
        if nodeFlagTrace then
          records v s
            ((frame.vectorArgs.map v.getBuffer).zip (nextsSeen stack.toList frame.nVectors))
        else [] := by
  have size : (frame.vectorArgs.map v.getBuffer).length = frame.nVectors := List.length_map ..
  have fits : (frame.vectorArgs.map v.getBuffer).length ≤ stack.toList.length := by
    rw [size, Vector.length_toList]
    exact frame.bounded
  have start : Looked v stack.toList s nodeFlagTrace [] []
      (⟨s, stack.toList, 0, 0, [], []⟩ : NodeState F B S) :=
    ⟨rfl, rfl, rfl, rfl, rfl, rfl, by cases nodeFlagTrace <;> rfl⟩
  obtain ⟨st, loops, final⟩ := stolenWideLoop_looked fits (List.nil_append _).symm start
  rw [size] at loops final
  refine ⟨st, ?_, final.shared, final.runs, final.traces⟩
  simp only [vnetfilterStolenNode, loops, ok_bind]
  rfl

end Vnetfilter
