import VppPlugins.FlowTable.Timers

/-! The helpers of `timer.h` as a protocol: any sequence of updates and resets of any flows,
with no advance of the wheel in between. -/
namespace FlowTable
open Faults Runs

variable {Mem Tbl : Type} {P : Platform Mem Tbl}

/-- A call of a helper on the flow in element `index`, or the allocation of a flow. -/
inductive HelperCall where
  | alloc
  | update (index seconds : Nat)
  | reset (index : Nat)
  deriving DecidableEq, Repr

def HelperCall.flow : HelperCall → Option Nat
  | .alloc => none
  | .update index _ => some index
  | .reset index => some index

def helperStep (P : Platform Mem Tbl) (w : Worker Mem Tbl) :
    HelperCall → Except Fault (Worker Mem Tbl)
  | .alloc => do
      let (flows, _) ← orFault .poolExhausted (w.flows.alloc flowTableAllocatedFlow)
      pure { w with flows }
  | .update index seconds => do
      let flow ← orFault .nullPointer (w.flows.get? index)
      let (tw, flow) := flowExpirationTimerUpdate P w.tw flow seconds
      pure { w with flows := w.flows.modify index (fun _ => flow), tw }
  | .reset index => do
      let flow ← orFault .nullPointer (w.flows.get? index)
      pure { w with tw := flowExpirationTimerReset w.tw flow }

/-! What the helpers ask of the wheel. -/

def updateRequest (flow : Flow) (seconds : Nat) : TimerWheel.Request :=
  if flow.stopTimerHandle = noHandle then .start flow.eltIndex FLOW_EXPIRARION_TIMER_ID seconds
  else .update flow.stopTimerHandle seconds

def resetRequests (flow : Flow) : List TimerWheel.Request :=
  if flow.stopTimerHandle = noHandle then [.stop flow.stopTimerHandle] else []

def requests (w : Worker Mem Tbl) : HelperCall → List TimerWheel.Request
  | .alloc => []
  | .update index seconds => (w.flows.get? index).toList.map fun flow => updateRequest flow seconds
  | .reset index => (w.flows.get? index).toList.flatMap resetRequests

/-- Serving its requests is all that a helper does to the wheel. -/
theorem helperStep_serves {w t : Worker Mem Tbl} {c : HelperCall}
    (done : helperStep P w c = .ok t) :
    t.tw = (requests w c).foldl (TimerWheel.serve P.wheel.pick) w.tw := by
  cases c with
  | alloc =>
      simp only [helperStep, bind_ok, orFault_ok, pure_ok] at done
      obtain ⟨_, _, rfl⟩ := done
      rfl
  | update index seconds =>
      simp only [helperStep, bind_ok, orFault_ok, pure_ok] at done
      obtain ⟨flow, found, rfl⟩ := done
      simp only [requests, found, Option.toList_some, List.map_singleton, List.foldl_cons,
        List.foldl_nil, updateRequest, flowExpirationTimerUpdate, flowExpirationTimerSet]
      split <;> rfl
  | reset index =>
      simp only [helperStep, bind_ok, orFault_ok, pure_ok] at done
      obtain ⟨flow, found, rfl⟩ := done
      simp only [requests, found, Option.toList_some, List.flatMap_singleton, resetRequests,
        flowExpirationTimerReset]
      split <;> rfl

/-! The state of a flow's timer. -/

def HasTimer (tw : TimerWheel) (i : Nat) : Prop := ∃ h, tw.owner h = some i

/-- The flow holds a handle, live or not. -/
def Holds (flows : Nat → Option Flow) (i : Nat) : Prop :=
  ∃ f, flows i = some f ∧ f.stopTimerHandle ≠ noHandle

/-- The flow holds the handle of a timer of its own that is gone. -/
def Expired (flows : Nat → Option Flow) (tw : TimerWheel) (i : Nat) : Prop :=
  ∃ f, flows i = some f ∧ f.stopTimerHandle ≠ noHandle ∧ tw.owner f.stopTimerHandle ≠ some i

/-- The handle that the flow holds names a live timer, whoever's. -/
def HoldsLive (flows : Nat → Option Flow) (tw : TimerWheel) (i : Nat) : Prop :=
  ∃ f, flows i = some f ∧ (tw.live f.stopTimerHandle).isSome

/-- The last call that was made for a flow. -/
def lastCall (calls : List HelperCall) (i : Nat) : Option HelperCall :=
  calls.reverse.find? fun c => c.flow = some i

/-- Whether the calls mean flow `i` to have a timer; one they leave alone is to keep it. -/
def WantsTimer (w : Worker Mem Tbl) (calls : List HelperCall) (i : Nat) : Prop :=
  match lastCall calls i with
  | some (.update _ _) => True
  | some _ => False
  | none => HasTimer w.tw i

/-- The calls lead from `w` to `u` with live handles only, and with the timers they mean. -/
structure TimersFollow (P : Platform Mem Tbl) (w u : Worker Mem Tbl) (calls : List HelperCall) :
    Prop where
  requests : EachStep (helperStep P) (fun v c _ => ∀ r ∈ requests v c, r.Valid v.tw) w calls
  timers : ∀ i, HasTimer u.tw i ↔ WantsTimer w calls i
  single : ∀ i h h', u.tw.owner h = some i → u.tw.owner h' = some i → h = h'

/-- Every reset comes to a flow that holds a handle and is made good by a later update of the
flow. A flow whose timer expired earlier needs no such update; it may only be updated while its
handle names another timer, and is reset afterwards. -/
structure ResetsMadeGood (P : Platform Mem Tbl) (w : Worker Mem Tbl) (calls : List HelperCall) :
    Prop where
  reset : ∀ before i after, calls = before ++ .reset i :: after →
    (Holds w.flows.get? i ∨ ∃ n, .update i n ∈ before) ∧
      (¬ Expired w.flows.get? w.tw i → ∃ n, .update i n ∈ after)
  update : ∀ before i n after v, calls = before ++ .update i n :: after →
    Expired w.flows.get? w.tw i → run (helperStep P) w before = .ok v →
    HoldsLive v.flows.get? v.tw i ∧ .reset i ∈ after

/-! What one call does. -/

/-- What a call means for the pool, read as a function, and the wheel. -/
inductive HelperEffect (pick : TimerWheel → Nat) (flows : Nat → Option Flow) (tw : TimerWheel)
    (flows' : Nat → Option Flow) : HelperCall → TimerWheel → Prop
  | allocated (i : Nat) (free : flows i = none)
      (added : ∀ j, flows' j = if j = i then some (flowTableAllocatedFlow i) else flows j) :
      HelperEffect pick flows tw flows' .alloc tw
  | armed (i n : Nat) (f : Flow) (found : flows i = some f) (none : f.stopTimerHandle = noHandle)
      (replaced : ∀ j, flows' j =
        if j = i then some { f with stopTimerHandle := pick tw } else flows j) :
      HelperEffect pick flows tw flows' (.update i n)
        (tw.start pick f.eltIndex FLOW_EXPIRARION_TIMER_ID n).1
  | rearmed (i n : Nat) (f : Flow) (found : flows i = some f) (held : f.stopTimerHandle ≠ noHandle)
      (same : ∀ j, flows' j = flows j) :
      HelperEffect pick flows tw flows' (.update i n) (tw.update f.stopTimerHandle n)
  | nothing (i : Nat) (f : Flow) (found : flows i = some f) (same : ∀ j, flows' j = flows j) :
      HelperEffect pick flows tw flows' (.reset i) tw

theorem Owned.sentinel {flows : Nat → Option Flow} {tw : TimerWheel} (owned : Owned flows tw) :
    tw.live noHandle = none := by
  cases alive : tw.live noHandle with
  | none => rfl
  | some t => exact ((owned.owner noHandle t alive).1 rfl).elim

/-- The test of the sentinel is the wrong way round: whatever the flow, no timer is stopped. -/
theorem reset_stops_nothing {flows : Nat → Option Flow} {tw : TimerWheel} (owned : Owned flows tw)
    (f : Flow) : flowExpirationTimerReset tw f = tw := by
  unfold flowExpirationTimerReset
  split
  · rename_i none
    exact TimerWheel.stop_dead (none ▸ owned.sentinel)
  · rfl

theorem helperStep_effect {w t : Worker Mem Tbl} {c : HelperCall}
    (owned : Owned w.flows.get? w.tw) (done : helperStep P w c = .ok t) :
    HelperEffect P.wheel.pick w.flows.get? w.tw t.flows.get? c t.tw := by
  cases c with
  | alloc =>
      simp only [helperStep, bind_ok, orFault_ok, pure_ok] at done
      obtain ⟨⟨flows, index⟩, alloc, rfl⟩ := done
      have free : w.flows.get? w.flows.size = none := List.getElem?_eq_none (Nat.le_refl _)
      exact .allocated _ free (FixedPool.get?_of_alloc alloc)
  | update index seconds =>
      simp only [helperStep, bind_ok, orFault_ok, pure_ok] at done
      obtain ⟨f, found, rfl⟩ := done
      by_cases none : f.stopTimerHandle = noHandle
      · simp only [flowExpirationTimerUpdate, if_pos none, flowExpirationTimerSet]
        exact .armed index seconds f found none (get?_replace _ found)
      · simp only [flowExpirationTimerUpdate, if_neg none]
        refine .rearmed index seconds f found none fun j => ?_
        rw [get?_replace _ found]
        split
        · rename_i here
          rw [here, found]
        · rfl
  | reset index =>
      simp only [helperStep, bind_ok, orFault_ok, pure_ok] at done
      obtain ⟨f, found, rfl⟩ := done
      simp only [reset_stops_nothing owned]
      exact .nothing index f found fun _ => rfl

/-! The last call for a flow. -/

theorem lastCall_eq_some {calls : List HelperCall} {i : Nat} {c : HelperCall} :
    lastCall calls i = some c ↔ c.flow = some i ∧ ∃ before after,
      calls = before ++ c :: after ∧ ∀ d ∈ after, d.flow ≠ some i := by
  rw [lastCall, List.find?_eq_some_iff_append, decide_eq_true_eq]
  refine and_congr_right fun _ => ?_
  constructor
  · rintro ⟨after, before, split, others⟩
    refine ⟨before.reverse, after.reverse, ?_, fun d member => ?_⟩
    · rw [← List.reverse_reverse calls, split, List.reverse_append, List.reverse_cons,
        List.append_assoc, List.singleton_append]
    · simpa using others d (List.mem_reverse.mp member)
  · rintro ⟨before, after, rfl, others⟩
    refine ⟨after.reverse, before.reverse, ?_, fun d member => ?_⟩
    · rw [List.reverse_append, List.reverse_cons, List.append_assoc, List.singleton_append]
    · simpa using others d (List.mem_reverse.mp member)

theorem lastCall_split {before after : List HelperCall} {i : Nat} {c : HelperCall}
    (own : c.flow = some i) :
    lastCall (before ++ c :: after) i = (lastCall after i).or (some c) := by
  rw [lastCall, List.reverse_append, List.reverse_cons, List.append_assoc, List.find?_append,
    List.singleton_append, List.find?_cons_of_pos (by simpa using own)]
  rfl

theorem HelperCall.flow_eq_some {c : HelperCall} {i : Nat} :
    c.flow = some i ↔ c = .reset i ∨ ∃ n, c = .update i n := by
  cases c <;> simp [HelperCall.flow]

/-- Where the calls for a flow are of two kinds, the last one is not of the first kind exactly
when each of that kind has one of the second behind it. -/
theorem lastCall_not_iff (calls : List HelperCall) (i : Nat) (K K' : HelperCall → Prop)
    (kinds : ∀ c, c.flow = some i ↔ K c ∨ K' c) :
    (∀ c, lastCall calls i = some c → ¬ K c) ↔ ∀ before c after, calls = before ++ c :: after →
      K c → ∃ d ∈ after, K' d := by
  constructor
  · rintro other before c after rfl kind
    rw [lastCall_split ((kinds c).mpr (.inl kind))] at other
    cases later : lastCall after i with
    | none =>
        rw [later] at other
        exact (other c rfl kind).elim
    | some d =>
        rw [later] at other
        obtain ⟨flow, front, back, rfl, -⟩ := lastCall_eq_some.mp later
        exact ⟨d, by simp, ((kinds d).mp flow).resolve_left (other d rfl)⟩
  · intro followed c last kind
    obtain ⟨-, before, after, rfl, others⟩ := lastCall_eq_some.mp last
    obtain ⟨d, member, kind'⟩ := followed before c after rfl kind
    exact others d member ((kinds d).mpr (.inr kind'))

theorem lastCall_not_reset_iff {calls : List HelperCall} {i : Nat} :
    lastCall calls i ≠ some (.reset i) ↔ ∀ before after, calls = before ++ .reset i :: after →
      ∃ n, .update i n ∈ after := by
  have last := lastCall_not_iff calls i (fun c => c = .reset i) (fun c => ∃ n, c = .update i n)
    fun c => HelperCall.flow_eq_some
  constructor
  · intro other before after split
    obtain ⟨_, member, n, rfl⟩ := last.mp (fun c is same => other (same ▸ is)) before _ after split
      rfl
    exact ⟨n, member⟩
  · intro followed reset
    refine last.mpr ?_ _ reset rfl
    rintro before c after split rfl
    obtain ⟨n, member⟩ := followed before after split
    exact ⟨_, member, n, rfl⟩

theorem lastCall_not_update_iff {calls : List HelperCall} {i : Nat} :
    (∀ n, lastCall calls i ≠ some (.update i n)) ↔ ∀ before n after,
      calls = before ++ .update i n :: after → .reset i ∈ after := by
  have last := lastCall_not_iff calls i (fun c => ∃ n, c = .update i n) (fun c => c = .reset i)
    fun c => HelperCall.flow_eq_some.trans or_comm
  constructor
  · intro other before n after split
    have never : ∀ c, lastCall calls i = some c → ¬ ∃ n, c = .update i n := by
      rintro _ is ⟨m, rfl⟩
      exact other m is
    obtain ⟨_, member, rfl⟩ := last.mp never before _ after split ⟨n, rfl⟩
    exact member
  · intro followed n update
    refine last.mpr ?_ _ update ⟨n, rfl⟩
    rintro before c after split ⟨m, rfl⟩
    exact ⟨_, followed before m after split, rfl⟩

section Wheel

variable (fresh : TimerWheel.Fresh P.wheel.pick) (real : ∀ w, P.wheel.pick w ≠ noHandle)

include real in
theorem helper_owned {w t : Worker Mem Tbl} {c : HelperCall} (owned : Owned w.flows.get? w.tw)
    (done : helperStep P w c = .ok t) : Owned t.flows.get? t.tw := by
  have effect := helperStep_effect owned done
  generalize t.tw = tw' at effect ⊢
  generalize t.flows.get? = flows' at effect ⊢
  cases effect with
  | allocated i free added =>
      exact owned_of_live (owned_insert owned free rfl) added fun _ _ alive => alive
  | armed i n f found none replaced =>
      have armed := owned_armed real FLOW_EXPIRARION_TIMER_ID n owned found none rfl
        (g := { f with stopTimerHandle := P.wheel.pick w.tw }) (owned.index i f found)
      exact owned_of_live armed replaced fun _ _ alive => alive
  | rearmed i n f found held same =>
      have kept := owned_replaced owned found rfl (owned.index i f found)
        (TimerWheel.owner_update w.tw f.stopTimerHandle n)
      refine owned_of_live kept (fun j => ?_) fun _ _ alive => alive
      rw [same]
      split
      · rename_i here
        rw [here, found]
      · rfl
  | nothing i f found same => exact owned_of_live owned same fun _ _ alive => alive

include real in
theorem helper_holds {w t : Worker Mem Tbl} {c : HelperCall} (owned : Owned w.flows.get? w.tw)
    (done : helperStep P w c = .ok t) (i : Nat) :
    Holds t.flows.get? i ↔ Holds w.flows.get? i ∨ ∃ n, c = .update i n := by
  have effect := helperStep_effect owned done
  generalize t.tw = tw' at effect
  generalize t.flows.get? = flows' at effect ⊢
  cases effect with
  | allocated k free added =>
      by_cases here : i = k
      · simp [Holds, added, here, free, flowTableAllocatedFlow]
      · simp [Holds, added, here]
  | armed k n f found none replaced =>
      by_cases here : i = k
      · simp [Holds, replaced, here, real]
      · simp [Holds, replaced, here, Ne.symm here]
  | rearmed k n f found held same =>
      by_cases here : i = k
      · simp [Holds, same, here, found, held]
      · simp [Holds, same, Ne.symm here]
  | nothing k f found same => simp [Holds, same]

include fresh in
/-- No call makes a timer expire, or brings an expired one back. -/
theorem helper_expired {w t : Worker Mem Tbl} {c : HelperCall} (owned : Owned w.flows.get? w.tw)
    (done : helperStep P w c = .ok t) (i : Nat) :
    Expired t.flows.get? t.tw i ↔ Expired w.flows.get? w.tw i := by
  have effect := helperStep_effect owned done
  generalize t.tw = tw' at effect ⊢
  generalize t.flows.get? = flows' at effect ⊢
  cases effect with
  | allocated k free added =>
      by_cases here : i = k
      · simp [Expired, added, here, free, flowTableAllocatedFlow]
      · simp [Expired, added, here]
  | armed k n f found none replaced =>
      have index := owned.index k f found
      by_cases here : i = k
      · simp [Expired, replaced, here, found, none, TimerWheel.owner_start, index]
      · simp only [Expired, replaced, if_neg here, TimerWheel.owner_start, index]
        refine exists_congr fun g => and_congr_right fun _ => and_congr_right fun _ => ?_
        -- a handle handed out again was nobody's before
        by_cases reused : g.stopTimerHandle = P.wheel.pick w.tw
        · have gone : w.tw.owner (P.wheel.pick w.tw) = .none := by
            rw [TimerWheel.owner, fresh, Option.map_none]
          simp [reused, gone, Ne.symm here]
        · rw [if_neg reused]
  | rearmed k n f found held same => simp only [Expired, same, TimerWheel.owner_update]
  | nothing k f found same => simp only [Expired, same]

/-! What a sequence does. -/

theorem hasTimer_iff {flows : Nat → Option Flow} {tw : TimerWheel} (owned : Owned flows tw)
    (i : Nat) : HasTimer tw i ↔ Holds flows i ∧ ¬ Expired flows tw i := by
  constructor
  · rintro ⟨h, owner⟩
    obtain ⟨timer, alive, rfl⟩ := TimerWheel.owner_eq_some.mp owner
    obtain ⟨actual, f, found, rfl⟩ := owned.owner h timer alive
    refine ⟨⟨f, found, actual⟩, ?_⟩
    rintro ⟨g, found', _, other⟩
    cases found.symm.trans found'
    exact other owner
  · rintro ⟨⟨f, found, actual⟩, kept⟩
    refine ⟨f.stopTimerHandle, ?_⟩
    by_contra other
    exact kept ⟨f, found, actual, other⟩

theorem owned_single {flows : Nat → Option Flow} {tw : TimerWheel} (owned : Owned flows tw)
    {i h h' : Nat} (first : tw.owner h = some i) (second : tw.owner h' = some i) : h = h' := by
  obtain ⟨timer, alive, user⟩ := TimerWheel.owner_eq_some.mp first
  obtain ⟨timer', alive', user'⟩ := TimerWheel.owner_eq_some.mp second
  obtain ⟨-, f, found, rfl⟩ := owned.owner h timer alive
  obtain ⟨-, g, found', rfl⟩ := owned.owner h' timer' alive'
  rw [user] at found
  rw [user'] at found'
  cases found.symm.trans found'
  rfl

structure Helped (w u : Worker Mem Tbl) (calls : List HelperCall) : Prop where
  owned : Owned u.flows.get? u.tw
  holds : ∀ i, Holds u.flows.get? i ↔ Holds w.flows.get? i ∨ ∃ n, .update i n ∈ calls
  expired : ∀ i, Expired u.flows.get? u.tw i ↔ Expired w.flows.get? w.tw i

include fresh real in
theorem helpers_run {w u : Worker Mem Tbl} {calls : List HelperCall}
    (owned : Owned w.flows.get? w.tw) (done : run (helperStep P) w calls = .ok u) :
    Helped w u calls := by
  induction calls generalizing w with
  | nil =>
      cases done
      exact ⟨owned, fun i => by simp, fun i => Iff.rfl⟩
  | cons c calls ih =>
      obtain ⟨v, head, rest⟩ := run_cons_ok.mp done
      have later := ih (helper_owned real owned head) rest
      refine ⟨later.owned, fun i => ?_, fun i => ?_⟩
      · rw [later.holds, helper_holds real owned head, or_assoc]
        simp only [List.mem_cons, exists_or, eq_comm (a := HelperCall.update i _)]
      · rw [later.expired, helper_expired fresh owned head]

/-! The two halves of the statement, call by call and flow by flow. -/

/-- The state before a call in which it hands the wheel no dead handle. -/
def FindsLive (v : Worker Mem Tbl) : HelperCall → Prop
  | .alloc => True
  | .update i _ => Expired v.flows.get? v.tw i → HoldsLive v.flows.get? v.tw i
  | .reset i => Holds v.flows.get? i

omit fresh real in
theorem requests_valid_iff {v t : Worker Mem Tbl} {c : HelperCall}
    (owned : Owned v.flows.get? v.tw) (done : helperStep P v c = .ok t) :
    (∀ r ∈ requests v c, r.Valid v.tw) ↔ FindsLive v c := by
  have effect := helperStep_effect owned done
  generalize t.tw = tw' at effect
  generalize t.flows.get? = flows' at effect
  cases effect with
  | allocated i free added => simp [requests, FindsLive]
  | armed i n f found none _ =>
      refine iff_of_true ?_ ?_
      · simp [requests, found, updateRequest, none, TimerWheel.Request.Valid]
      · rintro ⟨g, found', held, _⟩
        cases found.symm.trans found'
        exact (held none).elim
  | rearmed i n f found held same =>
      have valid : (∀ r ∈ requests v (.update i n), r.Valid v.tw) ↔
          (v.tw.live f.stopTimerHandle).isSome := by
        simp [requests, found, updateRequest, held, TimerWheel.Request.Valid]
      rw [valid, FindsLive]
      constructor
      · exact fun alive _ => ⟨f, found, alive⟩
      · intro careful
        by_cases own : v.tw.owner f.stopTimerHandle = some i
        · obtain ⟨timer, alive, _⟩ := TimerWheel.owner_eq_some.mp own
          rw [alive]
          rfl
        · obtain ⟨g, found', alive⟩ := careful ⟨f, found, held, own⟩
          cases found.symm.trans found'
          exact alive
  | nothing i f found same =>
      by_cases none : f.stopTimerHandle = noHandle
      · have dead := owned.sentinel
        simp [requests, found, resetRequests, none, TimerWheel.Request.Valid, FindsLive, Holds,
          dead]
      · simp [requests, found, resetRequests, none, FindsLive, Holds]

omit fresh real in
theorem timer_follows_iff {w u : Worker Mem Tbl} {calls : List HelperCall}
    (owned : Owned w.flows.get? w.tw) (helped : Helped w u calls) (i : Nat) :
    (HasTimer u.tw i ↔ WantsTimer w calls i) ↔
      (∀ n, lastCall calls i = some (.update i n) → ¬ Expired w.flows.get? w.tw i) ∧
        (lastCall calls i = some (.reset i) → Holds u.flows.get? i →
          Expired w.flows.get? w.tw i) := by
  rw [hasTimer_iff helped.owned, helped.expired]
  cases last : lastCall calls i with
  | none =>
      have unmentioned : ¬ ∃ n, .update i n ∈ calls := by
        rintro ⟨n, member⟩
        have other := List.find?_eq_none.mp last _ (List.mem_reverse.mpr member)
        exact other (decide_eq_true rfl)
      rw [WantsTimer, last, hasTimer_iff owned, helped.holds, or_iff_left unmentioned]
      simp
  | some c =>
      obtain ⟨flow, before, after, split, -⟩ := lastCall_eq_some.mp last
      rw [WantsTimer, last]
      cases c with
      | alloc => cases flow
      | update j n =>
          cases flow
          have holds : Holds u.flows.get? i := (helped.holds i).mpr (.inr ⟨n, by simp [split]⟩)
          simp [holds]
      | reset j =>
          cases flow
          simp

include fresh real in
/-- From any state in which live timers are held by their flows, the helpers do what the calls
mean exactly when every reset is made good. -/
theorem helpers_follow_iff {w u : Worker Mem Tbl} {calls : List HelperCall}
    (owned : Owned w.flows.get? w.tw) (done : run (helperStep P) w calls = .ok u) :
    TimersFollow P w u calls ↔ ResetsMadeGood P w calls := by
  have helped := helpers_run fresh real owned done
  have reach : ∀ before c after, calls = before ++ c :: after →
      ∃ v, run (helperStep P) w before = .ok v ∧ Helped w v before := by
    rintro before c after rfl
    obtain ⟨v, first, -⟩ := run_append_ok.mp done
    exact ⟨v, first, helpers_run fresh real owned first⟩
  have live : EachStep (helperStep P) (fun v c _ => ∀ r ∈ requests v c, r.Valid v.tw) w calls ↔
      ∀ before c after v, calls = before ++ c :: after → run (helperStep P) w before = .ok v →
        FindsLive v c := by
    refine Iff.trans ?_ (guarded_iff_split done)
    refine eachStep_iff_guarded (fun v => Owned v.flows.get? v.tw) ?_ ?_ owned
    · intro v c t owned head
      exact helper_owned real owned head
    · intro v c t owned head
      exact requests_valid_iff owned head
  constructor
  · intro follows
    have finds := live.mp follows.requests
    have follow := fun i => (timer_follows_iff owned helped i).mp (follows.timers i)
    refine ⟨fun before i after split => ?_, fun before i n after v split gone first => ?_⟩
    · obtain ⟨v, first, there⟩ := reach before _ after split
      have holds := (there.holds i).mp (finds before _ after v split first)
      refine ⟨holds, fun kept => lastCall_not_reset_iff.mp (fun last => ?_) before after split⟩
      refine kept ((follow i).2 last ((helped.holds i).mpr (holds.imp_right ?_)))
      rintro ⟨n, member⟩
      exact ⟨n, by rw [split]; exact List.mem_append_left _ member⟩
    · have there := helpers_run fresh real owned first
      refine ⟨finds before _ after v split first ((there.expired i).mpr gone), ?_⟩
      exact lastCall_not_update_iff.mp (fun m last => (follow i).1 m last gone) before n after split
  · intro good
    refine ⟨live.mpr fun before c after v split first => ?_, fun i => ?_, ?_⟩
    · have there := helpers_run fresh real owned first
      cases c with
      | alloc => trivial
      | update i n =>
          intro gone
          exact (good.update before i n after v split ((there.expired i).mp gone) first).1
      | reset i => exact (there.holds i).mpr (good.reset before i after split).1
    · refine (timer_follows_iff owned helped i).mpr ⟨fun n last gone => ?_, fun last _ => ?_⟩
      · refine lastCall_not_update_iff.mpr (fun before n after split => ?_) n last
        obtain ⟨v, first, -⟩ := reach before _ after split
        exact (good.update before i n after v split gone first).2
      · by_contra kept
        refine lastCall_not_reset_iff.mpr (fun before after split => ?_) last
        exact (good.reset before i after split).2 kept
    · exact fun i h h' first second => owned_single helped.owned first second

include fresh real in
/-- In whatever state of a run of the worker, expired timers included, the helpers follow the
calls that are made of them exactly when every reset is made good by an update. -/
theorem timer_helpers_follow_iff {nThreads : Nat} {bufs : Nat → Buffer} {cs : List Call}
    {s : Sys Mem Tbl} (reached : run (step P) (initial P nThreads bufs) cs = .ok s)
    {calls : List HelperCall} {u : Worker Mem Tbl}
    (done : run (helperStep P) s.wrk calls = .ok u) :
    TimersFollow P s.wrk u calls ↔ ResetsMadeGood P s.wrk calls :=
  helpers_follow_iff fresh real (run_owned real reached) done

end Wheel

/-- Resets and updates in a state in which the first flow's timer has expired. -/
theorem helpers_follow_expiring :
    ∃ s u, run (step portPlatform) portStart expiring = .ok s ∧
      run (helperStep portPlatform) s.wrk [.reset 1, .alloc, .update 2 9, .update 1 4] = .ok u ∧
      (TimersFollow portPlatform s.wrk u [.reset 1, .alloc, .update 2 9, .update 1 4] ↔
        ResetsMadeGood portPlatform s.wrk [.reset 1, .alloc, .update 2 9, .update 1 4]) := by
  obtain ⟨s, reached, runs⟩ := completed (x := run (step portPlatform) portStart expiring)
    (fun s => (run (helperStep portPlatform) s.wrk
      [.reset 1, .alloc, .update 2 9, .update 1 4]).toOption.isSome) (b := true)
    (by decide +kernel)
  cases done : run (helperStep portPlatform) s.wrk
      [.reset 1, .alloc, .update 2 9, .update 1 4] with
  | error e =>
      rw [done] at runs
      cases runs
  | ok u =>
      exact ⟨s, u, reached, done, timer_helpers_follow_iff (TimerWheel.lifo_fresh noHandle)
        (TimerWheel.lifo_ne_reserved noHandle) reached done⟩

/-- A timer is started and reset. It stays armed. -/
theorem reset_leaves_timer :
    ¬ ∀ (calls : List HelperCall) (u : Worker (UInt64 → Option EntryAddr) Unit),
      run (helperStep portPlatform) (flowTableMainInit portPlatform 0) calls = .ok u →
      TimersFollow portPlatform (flowTableMainInit portPlatform 0) u calls := by
  intro claimed
  obtain ⟨u, done, armed⟩ := completed
    (x := run (helperStep portPlatform) (flowTableMainInit portPlatform 0)
      [.alloc, .update 0 5, .reset 0])
    (fun u => u.tw.owner 1) (b := some 0) (by decide +kernel)
  exact ((claimed _ u done).timers 0).mp ⟨1, armed⟩

end FlowTable
