import VppPlugins.FlowTable.Connections

/-! The expiration timers of the flows. The wheel frees a timer's handle when it expires; the
flow keeps it. -/
namespace FlowTable
open Faults Runs

variable {Mem Tbl : Type} {P : Platform Mem Tbl}

/-- Every handle a flow holds names its own live timer, and no other flow holds it. -/
structure HandleSound (s : Sys Mem Tbl) : Prop where
  own : ∀ i f, s.wrk.flows.get? i = some f → f.stopTimerHandle ≠ noHandle →
    ∃ t, s.wrk.tw.live f.stopTimerHandle = some t ∧ t.userId = f.eltIndex
  apart : ∀ i j f g, s.wrk.flows.get? i = some f → s.wrk.flows.get? j = some g →
    f.stopTimerHandle ≠ noHandle → f.stopTimerHandle = g.stopTimerHandle → i = j

/-- No timer expires in this call. -/
def NothingDue (P : Platform Mem Tbl) (s : Sys Mem Tbl) : Call → Prop
  | .advance ticks => s.wrk.tw.due P.wheel.fires ticks = []
  | _ => True

/-- What a state callback may do with a flow's timer: nothing, start it, or re-arm it. -/
inductive TimerStep (pick : TimerWheel → Nat) (tw : TimerWheel) (f : Flow) :
    TimerWheel × Flow → Prop
  | kept (g : Flow) (handle : g.stopTimerHandle = f.stopTimerHandle) : TimerStep pick tw f (tw, g)
  | armed (g : Flow) (n : Nat) (none : f.stopTimerHandle = noHandle)
      (handle : g.stopTimerHandle = pick tw) :
      TimerStep pick tw f ((tw.start pick f.eltIndex FLOW_EXPIRARION_TIMER_ID n).1, g)
  | rearmed (g : Flow) (n : Nat) (held : f.stopTimerHandle ≠ noHandle)
      (handle : g.stopTimerHandle = f.stopTimerHandle) :
      TimerStep pick tw f (tw.update f.stopTimerHandle n, g)

/-- What the timer helper does on behalf of a TCP packet. -/
theorem settle_arms (P : Platform Mem Tbl) (tw : TimerWheel) (b : Buffer) (d : FlowDir) {f : Flow}
    (none : f.stopTimerHandle = noHandle) :
    (tcpSettle P tw b d f).1 =
        (tw.start P.wheel.pick f.eltIndex FLOW_EXPIRARION_TIMER_ID (tcpStateTimeout f.state)).1 ∧
      (tcpSettle P tw b d f).2.stopTimerHandle = P.wheel.pick tw := by
  rw [tcpSettle, flowExpirationTimerUpdate, if_pos none]
  exact ⟨rfl, rfl⟩

theorem settle_rearms (P : Platform Mem Tbl) (tw : TimerWheel) (b : Buffer) (d : FlowDir)
    {f : Flow} (held : f.stopTimerHandle ≠ noHandle) :
    (tcpSettle P tw b d f).1 = tw.update f.stopTimerHandle (tcpStateTimeout f.state) ∧
      (tcpSettle P tw b d f).2.stopTimerHandle = f.stopTimerHandle := by
  rw [tcpSettle, flowExpirationTimerUpdate, if_neg held]
  exact ⟨rfl, rfl⟩

theorem settle_timer (P : Platform Mem Tbl) (tw : TimerWheel) (b : Buffer) (d : FlowDir)
    (f : Flow) : TimerStep P.wheel.pick tw f (tcpSettle P tw b d f) := by
  by_cases none : f.stopTimerHandle = noHandle
  · have arms := settle_arms P tw b d none
    rw [← Prod.mk.eta (p := tcpSettle P tw b d f), arms.1]
    exact .armed _ _ none arms.2
  · have rearms := settle_rearms P tw b d none
    rw [← Prod.mk.eta (p := tcpSettle P tw b d f), rearms.1]
    exact .rearmed _ _ none rearms.2

/-- The callback changes the flow's state before its timer, which does not matter here. -/
theorem timerStep_congr {pick : TimerWheel → Nat} {tw : TimerWheel} {f g : Flow}
    {r : TimerWheel × Flow} (step : TimerStep pick tw g r)
    (handle : g.stopTimerHandle = f.stopTimerHandle) (index : g.eltIndex = f.eltIndex) :
    TimerStep pick tw f r := by
  cases step with
  | kept x same => exact .kept x (same.trans handle)
  | armed x n none same => rw [index]; exact .armed x n (handle ▸ none) same
  | rearmed x n held same =>
      rw [handle]
      exact .rearmed x n (handle ▸ held) (same.trans handle)

theorem initFlow_timer (b : Buffer) (d : FlowDir) (f : Flow) :
    (tcpInitFlow b d f).stopTimerHandle = f.stopTimerHandle ∧
      (tcpInitFlow b d f).eltIndex = f.eltIndex := by
  unfold tcpInitFlow
  dsimp only
  split
  · exact ⟨rfl, rfl⟩
  · exact ⟨rfl, rfl⟩

theorem started_timer (P : Platform Mem Tbl) (h : ProtocolHandler) (tw : TimerWheel) (b : Buffer)
    (d : FlowDir) (f : Flow) : TimerStep P.wheel.pick tw f (h.started P tw b d f) := by
  cases h with
  | tcp =>
      have timer := initFlow_timer b d f
      exact timerStep_congr (settle_timer P tw b d (tcpInitFlow b d f)) timer.1 timer.2
  | unimplemented => exact .kept f rfl
  | icmp => exact .kept f rfl
  | udp => exact .kept f rfl

theorem updated_timer (P : Platform Mem Tbl) (h : ProtocolHandler) (tw : TimerWheel) (b : Buffer)
    (d : FlowDir) (f : Flow) : TimerStep P.wheel.pick tw f (h.updated P tw b d f) := by
  cases h with
  | tcp => exact timerStep_congr (settle_timer P tw b d (tcpUpdateFlow b d f)) rfl rfl
  | unimplemented => exact .kept f rfl
  | icmp => exact .kept f rfl
  | udp => exact .kept f rfl

/-- The invariant on a pool, read as a function, and a wheel: handles and live timers
correspond. -/
structure Handles (flows : Nat → Option Flow) (tw : TimerWheel) : Prop where
  index : ∀ i f, flows i = some f → f.eltIndex = i
  own : ∀ i f, flows i = some f → f.stopTimerHandle ≠ noHandle →
    ∃ t, tw.live f.stopTimerHandle = some t ∧ t.userId = i
  owner : ∀ h t, tw.live h = some t → h ≠ noHandle ∧
    ∃ f, flows t.userId = some f ∧ f.stopTimerHandle = h

/-- The half of it that outlives an expiry: every live timer is held by its flow. -/
structure Owned (flows : Nat → Option Flow) (tw : TimerWheel) : Prop where
  index : ∀ i f, flows i = some f → f.eltIndex = i
  owner : ∀ h t, tw.live h = some t → h ≠ noHandle ∧
    ∃ f, flows t.userId = some f ∧ f.stopTimerHandle = h

theorem Handles.owned {flows : Nat → Option Flow} {tw : TimerWheel} (handles : Handles flows tw) :
    Owned flows tw := ⟨handles.index, handles.owner⟩

theorem Owned.handles {flows : Nat → Option Flow} {tw : TimerWheel} (owned : Owned flows tw)
    (own : ∀ i f, flows i = some f → f.stopTimerHandle ≠ noHandle →
      ∃ t, tw.live f.stopTimerHandle = some t ∧ t.userId = i) : Handles flows tw :=
  ⟨owned.index, own, owned.owner⟩

theorem owned_insert {flows : Nat → Option Flow} {tw : TimerWheel} {i : Nat} {f : Flow}
    (owned : Owned flows tw) (free : flows i = none) (index : f.eltIndex = i) :
    Owned (fun j => if j = i then some f else flows j) tw := by
  refine ⟨?_, ?_⟩
  · intro j g found
    rcases FixedPool.found_replaced (fun _ => rfl) found with ⟨rfl, rfl⟩ | ⟨_, before⟩
    · exact index
    · exact owned.index j g before
  · intro h t alive
    obtain ⟨real, g, found, handle⟩ := owned.owner h t alive
    have other : t.userId ≠ i := by
      intro here
      rw [here, free] at found
      cases found
    exact ⟨real, g, by simpa only [if_neg other] using found, handle⟩

theorem handles_insert {flows : Nat → Option Flow} {tw : TimerWheel} {i : Nat} {f : Flow}
    (handles : Handles flows tw) (free : flows i = none) (index : f.eltIndex = i)
    (none : f.stopTimerHandle = noHandle) :
    Handles (fun j => if j = i then some f else flows j) tw := by
  refine (owned_insert handles.owned free index).handles ?_
  intro j g found held
  rcases FixedPool.found_replaced (fun _ => rfl) found with ⟨rfl, rfl⟩ | ⟨_, before⟩
  · exact absurd none held
  · exact handles.own j g before held

theorem index_replaced {flows : Nat → Option Flow} {tw : TimerWheel} {i : Nat} {g : Flow}
    (owned : Owned flows tw) (index : g.eltIndex = i) (j : Nat) (x : Flow)
    (at_j : (if j = i then some g else flows j) = some x) : x.eltIndex = j := by
  rcases FixedPool.found_replaced (fun _ => rfl) at_j with ⟨rfl, rfl⟩ | ⟨_, before⟩
  · exact index
  · exact owned.index j x before

/-- A flow may give way to one with the same handle, and the wheel to one whose handles name
timers of the same flows. -/
theorem owned_replaced {flows : Nat → Option Flow} {tw tw' : TimerWheel} {i : Nat} {f g : Flow}
    (owned : Owned flows tw) (found : flows i = some f)
    (handle : g.stopTimerHandle = f.stopTimerHandle) (index : g.eltIndex = i)
    (owners : ∀ h, tw'.owner h = tw.owner h) :
    Owned (fun j => if j = i then some g else flows j) tw' := by
  refine ⟨index_replaced owned index, ?_⟩
  intro h t alive
  have named := TimerWheel.owner_eq_some.mpr ⟨t, alive, rfl⟩
  rw [owners] at named
  obtain ⟨u, alive', user⟩ := TimerWheel.owner_eq_some.mp named
  obtain ⟨actual, x, at_t, held⟩ := owned.owner h u alive'
  rw [user] at at_t
  refine ⟨actual, ?_⟩
  by_cases here : t.userId = i
  · rw [here, found, Option.some.injEq] at at_t
    exact ⟨g, by simp only [if_pos here], by rw [handle, at_t, held]⟩
  · exact ⟨x, by simpa only [if_neg here] using at_t, held⟩

theorem handles_replaced {flows : Nat → Option Flow} {tw tw' : TimerWheel} {i : Nat} {f g : Flow}
    (handles : Handles flows tw) (found : flows i = some f)
    (handle : g.stopTimerHandle = f.stopTimerHandle) (index : g.eltIndex = i)
    (owners : ∀ h, tw'.owner h = tw.owner h) :
    Handles (fun j => if j = i then some g else flows j) tw' := by
  refine (owned_replaced handles.owned found handle index owners).handles ?_
  intro j x at_j held
  rw [← TimerWheel.owner_eq_some, owners, TimerWheel.owner_eq_some]
  rcases FixedPool.found_replaced (fun _ => rfl) at_j with ⟨rfl, rfl⟩ | ⟨_, before⟩
  · rw [handle] at held ⊢
    exact handles.own _ f found held
  · exact handles.own j x before held

/-- A flow without a timer may start one. -/
theorem owned_armed {pick : TimerWheel → Nat} (real : ∀ w, pick w ≠ noHandle)
    {flows : Nat → Option Flow} {tw : TimerWheel} {i : Nat} {f g : Flow} (timerId n : Nat)
    (owned : Owned flows tw) (found : flows i = some f) (none : f.stopTimerHandle = noHandle)
    (handle : g.stopTimerHandle = pick tw) (index : g.eltIndex = i) :
    Owned (fun j => if j = i then some g else flows j)
      (tw.start pick f.eltIndex timerId n).1 := by
  have own_index := owned.index i f found
  refine ⟨index_replaced owned index, ?_⟩
  intro h t alive
  rw [TimerWheel.live_start] at alive
  by_cases new : h = pick tw
  · rw [if_pos new, Option.some.injEq] at alive
    subst alive
    exact ⟨new ▸ real tw, g, by simp only [own_index, if_pos], by rw [handle, new]⟩
  · rw [if_neg new] at alive
    obtain ⟨actual, x, at_t, held⟩ := owned.owner h t alive
    have other : t.userId ≠ i := by
      intro here
      rw [here, found, Option.some.injEq] at at_t
      rw [← at_t, none] at held
      exact actual held.symm
    exact ⟨actual, x, by simpa only [if_neg other] using at_t, held⟩

theorem handles_armed {pick : TimerWheel → Nat} (fresh : TimerWheel.Fresh pick)
    (real : ∀ w, pick w ≠ noHandle) {flows : Nat → Option Flow} {tw : TimerWheel} {i : Nat}
    {f g : Flow} (timerId n : Nat) (handles : Handles flows tw) (found : flows i = some f)
    (none : f.stopTimerHandle = noHandle) (handle : g.stopTimerHandle = pick tw)
    (index : g.eltIndex = i) :
    Handles (fun j => if j = i then some g else flows j)
      (tw.start pick f.eltIndex timerId n).1 := by
  refine (owned_armed real timerId n handles.owned found none handle index).handles ?_
  intro j x at_j held
  rcases FixedPool.found_replaced (fun _ => rfl) at_j with ⟨rfl, rfl⟩ | ⟨_, before⟩
  · rw [handle]
    exact ⟨_, (TimerWheel.live_start ..).trans (if_pos rfl), handles.index _ f found⟩
  · obtain ⟨t, alive, user⟩ := handles.own j x before held
    have other : x.stopTimerHandle ≠ pick tw := by
      intro same
      rw [same, fresh tw] at alive
      cases alive
    exact ⟨t, (TimerWheel.live_start ..).trans ((if_neg other).trans alive), user⟩

theorem owned_step {pick : TimerWheel → Nat} (real : ∀ w, pick w ≠ noHandle)
    {flows : Nat → Option Flow} {tw : TimerWheel} {i : Nat} {f : Flow} {r : TimerWheel × Flow}
    (owned : Owned flows tw) (found : flows i = some f) (step : TimerStep pick tw f r)
    (index : r.2.eltIndex = i) :
    Owned (fun j => if j = i then some r.2 else flows j) r.1 := by
  cases step with
  | kept g handle => exact owned_replaced owned found handle index (fun _ => rfl)
  | armed g n none handle => exact owned_armed real _ n owned found none handle index
  | rearmed g n _ handle =>
      exact owned_replaced owned found handle index (TimerWheel.owner_update tw _ n)

/-- Timers may go, as when they expire. -/
theorem owned_of_live {flows flows' : Nat → Option Flow} {tw tw' : TimerWheel}
    (owned : Owned flows tw) (same : ∀ i, flows' i = flows i)
    (live : ∀ h t, tw'.live h = some t → tw.live h = some t) : Owned flows' tw' := by
  refine ⟨fun i f found => owned.index i f (same i ▸ found), ?_⟩
  intro h t alive
  simpa only [same] using owned.owner h t (live h t alive)

theorem handles_step {pick : TimerWheel → Nat} (fresh : TimerWheel.Fresh pick)
    (real : ∀ w, pick w ≠ noHandle) {flows : Nat → Option Flow} {tw : TimerWheel} {i : Nat}
    {f : Flow} {r : TimerWheel × Flow} (handles : Handles flows tw) (found : flows i = some f)
    (step : TimerStep pick tw f r) (index : r.2.eltIndex = i) :
    Handles (fun j => if j = i then some r.2 else flows j) r.1 := by
  cases step with
  | kept g handle => exact handles_replaced handles found handle index (fun _ => rfl)
  | armed g n none handle => exact handles_armed fresh real _ n handles found none handle index
  | rearmed g n _ handle =>
      exact handles_replaced handles found handle index (TimerWheel.owner_update tw _ n)

theorem handles_congr {flows flows' : Nat → Option Flow} {tw tw' : TimerWheel}
    (handles : Handles flows tw) (same : ∀ i, flows' i = flows i)
    (live : ∀ h, tw'.live h = tw.live h) : Handles flows' tw' := by
  refine (owned_of_live handles.owned same fun h t alive => live h ▸ alive).handles ?_
  intro i f found held
  rw [live]
  exact handles.own i f (same i ▸ found) held

theorem handleSound_of_handles {s : Sys Mem Tbl} (handles : Handles s.wrk.flows.get? s.wrk.tw) :
    HandleSound s := by
  refine ⟨?_, ?_⟩
  · intro i f found held
    rw [handles.index i f found]
    exact handles.own i f found held
  · intro i j f g first second held same
    obtain ⟨t, alive, user⟩ := handles.own i f first held
    obtain ⟨u, alive', user'⟩ := handles.own j g second (same ▸ held)
    rw [same, alive', Option.some.injEq] at alive
    rw [← user, ← user', alive]

theorem newFlow_timer (b : Buffer) (key : FlowKey) (index : Nat) :
    (ip4NewFlow b key index).stopTimerHandle = noHandle := by
  simp only [ip4NewFlow, flowTableInitFlow]
  split <;> rfl

/-- What a step of the system means for the pool, read as a function, and the wheel. -/
inductive TimerEffect (wheel : TimerWheel.Policy) (flows : Nat → Option Flow) (tw : TimerWheel)
    (flows' : Nat → Option Flow) : Call → TimerWheel → Prop
  | kept (c : Call) (same : ∀ j, flows' j = flows j) : TimerEffect wheel flows tw flows' c tw
  | stepped (c : Call) (i : Nat) (f : Flow) (r : TimerWheel × Flow) (found : flows i = some f)
      (step : TimerStep wheel.pick tw f r) (index : r.2.eltIndex = i)
      (replaced : ∀ j, flows' j = if j = i then some r.2 else flows j) :
      TimerEffect wheel flows tw flows' c r.1
  | created (c : Call) (i : Nat) (f : Flow) (r : TimerWheel × Flow) (free : flows i = none)
      (none : f.stopTimerHandle = noHandle) (own : f.eltIndex = i)
      (step : TimerStep wheel.pick tw f r) (index : r.2.eltIndex = i)
      (replaced : ∀ j, flows' j = if j = i then some r.2 else flows j) :
      TimerEffect wheel flows tw flows' c r.1
  | expired (ticks : Nat) (same : ∀ j, flows' j = flows j) :
      TimerEffect wheel flows tw flows' (.advance ticks) (tw.expire wheel.fires ticks).1

theorem replaced_again {flows flows' : Nat → Option Flow} {i : Nat} {g : Flow}
    (replaced : ∀ j, flows' j = if j = i then some g else flows j) (f : Flow) (j : Nat) :
    flows' j = if j = i then some g else if j = i then some f else flows j := by
  rw [replaced]
  by_cases here : j = i
  · rw [if_pos here, if_pos here]
  · rw [if_neg here, if_neg here, if_neg here]

theorem step_timers {s t : Sys Mem Tbl} {c : Call} (shaped : s.wrk.Shaped)
    (done : step P s c = .ok t) :
    TimerEffect P.wheel s.wrk.flows.get? s.wrk.tw t.wrk.flows.get? c t.wrk.tw := by
  cases step_cases shaped done with
  | receive slot b => exact .kept _ fun _ => rfl
  | preProcess slot => exact .kept _ fun _ => rfl
  | idle slot _ => exact .kept _ fun _ => rfl
  | advance ticks => exact .expired ticks fun _ => rfl
  | creates slot h o handler key buf effect =>
      have free : s.wrk.flows.get? o.flow = none := by
        cases found : s.wrk.flows.get? o.flow with
        | none => rfl
        | some f =>
            have := FixedPool.lt_size_of_get? found
            have := effect.index
            omega
      have shape := ip4NewFlow_shaped (s.bufs slot) o.key o.flow
      have timer := started_timer P h s.wrk.tw (s.bufs slot) .dirIn
        (ip4NewFlow (s.bufs slot) o.key o.flow)
      have index := (shaped_of_identity (identity_started P h s.wrk.tw (s.bufs slot) .dirIn _)
        shape).eltIndex
      simp only [effect.tw]
      exact .created _ o.flow _ _ free (newFlow_timer ..) shape.eltIndex timer index effect.flows
  | finds slot h o a f handler key buf effect =>
      have shape := shaped.flow _ _ effect.found
      have timer := updated_timer P h s.wrk.tw (s.bufs slot) o.direction f
      have index := (shaped_of_identity (identity_updated P h s.wrk.tw (s.bufs slot) o.direction _)
        shape).eltIndex
      simp only [effect.tw]
      exact .stepped _ o.flow f _ effect.found timer index effect.flows
  | mirrors slot index f w effect =>
      have shape := updateFlow_shaped (shaped.flow _ _ effect.found)
      have timer : TimerStep P.wheel.pick s.wrk.tw f
          (s.wrk.tw, flowTableUpdateFlow index f (flowKeyReverse f.key) .dirOut) := .kept _ rfl
      have wheel : w.tw = s.wrk.tw := effect.replaced.tw
      simp only [wheel]
      exact .stepped _ index f _ effect.found timer shape.eltIndex effect.replaced.flows

section Wheel

variable (fresh : TimerWheel.Fresh P.wheel.pick) (real : ∀ w, P.wheel.pick w ≠ noHandle)
include fresh real

theorem step_handles {s t : Sys Mem Tbl} {c : Call} (shaped : s.wrk.Shaped)
    (handles : Handles s.wrk.flows.get? s.wrk.tw) (nothing : NothingDue P s c)
    (done : step P s c = .ok t) : Handles t.wrk.flows.get? t.wrk.tw := by
  have effect := step_timers shaped done
  generalize t.wrk.tw = tw' at effect ⊢
  generalize t.wrk.flows.get? = flows' at effect ⊢
  cases effect with
  | kept c same => exact handles_congr handles same (fun _ => rfl)
  | stepped c i f r found step index replaced =>
      have stepped := handles_step fresh real handles found step index
      exact handles_congr stepped replaced (fun _ => rfl)
  | created c i f r free none own step index replaced =>
      have inserted := handles_insert handles free own none
      have stepped := handles_step fresh real inserted (if_pos rfl) step index
      exact handles_congr stepped (replaced_again replaced f) (fun _ => rfl)
  | expired ticks same => exact handles_congr handles same (TimerWheel.live_expire_nothing nothing)

omit fresh in
/-- Whatever expires, no live timer is without its flow. -/
theorem step_owned {s t : Sys Mem Tbl} {c : Call} (shaped : s.wrk.Shaped)
    (owned : Owned s.wrk.flows.get? s.wrk.tw) (done : step P s c = .ok t) :
    Owned t.wrk.flows.get? t.wrk.tw := by
  have effect := step_timers shaped done
  generalize t.wrk.tw = tw' at effect ⊢
  generalize t.wrk.flows.get? = flows' at effect ⊢
  cases effect with
  | kept c same => exact owned_of_live owned same (fun _ _ alive => alive)
  | stepped c i f r found step index replaced =>
      have stepped := owned_step real owned found step index
      exact owned_of_live stepped replaced (fun _ _ alive => alive)
  | created c i f r free none own step index replaced =>
      have inserted := owned_insert owned free own
      have stepped := owned_step real inserted (if_pos rfl) step index
      exact owned_of_live stepped (replaced_again replaced f) (fun _ _ alive => alive)
  | expired ticks same =>
      exact owned_of_live owned same fun _ _ alive => (TimerWheel.live_expire.mp alive).1

omit fresh real in
/-- A timer that expires is still held by its flow. -/
theorem advance_breaks {s t : Sys Mem Tbl} {ticks : Nat}
    (handles : Handles s.wrk.flows.get? s.wrk.tw)
    (due : s.wrk.tw.due P.wheel.fires ticks ≠ [])
    (done : step P s (.advance ticks) = .ok t) : ¬ HandleSound t := by
  cases pure_ok.mp done
  intro sound
  obtain ⟨⟨h, timer⟩, member⟩ := List.exists_mem_of_ne_nil _ due
  obtain ⟨alive, fired⟩ := TimerWheel.mem_due.mp member
  obtain ⟨actual, f, found, held⟩ := handles.owner h timer alive
  obtain ⟨timer', alive', _⟩ := sound.own timer.userId f found (held ▸ actual)
  rw [held] at alive'
  obtain ⟨before, kept⟩ := TimerWheel.live_expire.mp alive'
  cases alive.symm.trans before
  exact Bool.false_ne_true (kept.symm.trans fired)

omit fresh real in
theorem initial_handles (nThreads : Nat) (bufs : Nat → Buffer) :
    Handles (initial P nThreads bufs).wrk.flows.get? (initial P nThreads bufs).wrk.tw :=
  ⟨fun _ _ found => (nomatch found), fun _ _ found => (nomatch found),
    fun h _ alive => (nomatch (TimerWheel.live_init h).symm.trans alive)⟩

omit fresh in
theorem run_owned {nThreads : Nat} {bufs : Nat → Buffer} {cs : List Call} {s : Sys Mem Tbl}
    (reached : run (step P) (initial P nThreads bufs) cs = .ok s) :
    Owned s.wrk.flows.get? s.wrk.tw := by
  have inv := run_invariant (fun s : Sys Mem Tbl => s.wrk.Shaped ∧ Owned s.wrk.flows.get? s.wrk.tw)
    (fun s c t inv done => ⟨step_shaped inv.1 done, step_owned real inv.1 inv.2 done⟩)
    ⟨initial_shaped P nThreads bufs, (initial_handles nThreads bufs).owned⟩ reached
  exact inv.2

/-- Handles stay sound exactly in the runs in which no timer ever expires. -/
theorem handles_sound_iff_nothing_due (nThreads : Nat) (bufs : Nat → Buffer) (cs : List Call) :
    Always (step P) HandleSound (initial P nThreads bufs) cs ↔
      Guarded (step P) (NothingDue P) (initial P nThreads bufs) cs := by
  have start := initial_handles (P := P) nThreads bufs
  refine always_iff_guarded
    (fun s => s.wrk.Shaped ∧ Handles s.wrk.flows.get? s.wrk.tw) ?_ ?_ always_true
    ⟨initial_shaped P nThreads bufs, start⟩ (handleSound_of_handles start)
  · intro s c t inv _ nothing done _
    have handles := step_handles fresh real inv.1 inv.2 nothing done
    exact ⟨⟨step_shaped inv.1 done, handles⟩, handleSound_of_handles handles⟩
  · intro s c t inv _ due done _
    cases c with
    | advance ticks => exact advance_breaks inv.2 due done
    | receive slot b => exact absurd trivial due
    | preProcess slot => exact absurd trivial due
    | input slot => exact absurd trivial due
    | output slot => exact absurd trivial due

end Wheel

theorem handles_sound_in_turn :
    Always (step portPlatform) HandleSound portStart inTurn ↔
      Guarded (step portPlatform) (NothingDue portPlatform) portStart inTurn :=
  handles_sound_iff_nothing_due (P := portPlatform) (TimerWheel.lifo_fresh noHandle)
    (TimerWheel.lifo_ne_reserved noHandle) 0 (fun _ => clientSyn.buffer 0) inTurn

/-- The first flow's timer expires before the second flow is created. -/
def expiring : List Call :=
  [.receive 0 (clientSyn.buffer 0), .preProcess 0, .input 0, .advance 6,
    .receive 0 (Segment.buffer { clientSyn with srcPort := 2000 } 0), .preProcess 0, .input 0]

theorem expired_handle_shared : ¬ Always (step portPlatform) HandleSound portStart expiring := by
  intro always
  obtain ⟨s, reached, handles⟩ := completed (x := run (step portPlatform) portStart expiring)
    (fun s : MapSys => s.wrk.flows.elts.map Flow.stopTimerHandle) (b := [1, 1]) (by decide +kernel)
  have sound := always_iff_prefix.mp always expiring s List.prefix_rfl reached
  have at0 := congrArg (fun l : List Nat => l[0]?) handles
  have at1 := congrArg (fun l : List Nat => l[1]?) handles
  simp only [List.getElem?_map] at at0 at1
  obtain ⟨f, foundF, handleF⟩ := Option.map_eq_some_iff.mp at0
  obtain ⟨g, foundG, handleG⟩ := Option.map_eq_some_iff.mp at1
  have same := sound.apart 0 1 f g foundF foundG (by rw [handleF]; decide)
    (handleF.trans handleG.symm)
  exact absurd same (by decide)

end FlowTable
