import VppPlugins.FlowTable.Shape
import VppPlugins.Library.Runs

/-! One worker with its packet buffers. The vector of packets a node works on gives no
order between the calls of different packets, so a run is any list of calls. -/
namespace FlowTable
open Faults Runs

variable {Mem Tbl : Type}

/-- One packet's passage through `ip4_input_process`. -/
structure Binding where
  flow : Nat
  direction : FlowDir
  created : Bool
  key : FlowKey
  packet : Buffer
  tick : Nat

/-- `history` is kept for the statements only, oldest binding first. -/
structure Sys (Mem Tbl : Type) where
  wrk : Worker Mem Tbl
  bufs : Nat → Buffer
  history : List Binding

/-- A call on the packet in a buffer slot; `receive` puts a packet there, and `advance`
lets the timer node run. -/
inductive Call where
  | receive (slot : Nat) (b : Buffer)
  | preProcess (slot : Nat)
  | input (slot : Nat)
  | output (slot : Nat)
  | advance (ticks : Nat)

def InputOutcome.binding (o : InputOutcome Mem Tbl) (b : Buffer) (now : Nat) : Binding :=
  { flow := o.flow, direction := o.direction, created := o.created, key := o.key, packet := b,
    tick := now }

def step (P : Platform Mem Tbl) (s : Sys Mem Tbl) : Call → Except Fault (Sys Mem Tbl)
  | .receive slot b => pure { s with bufs := Function.update s.bufs slot b }
  | .preProcess slot =>
      pure { s with bufs := Function.update s.bufs slot (ip4PreProcess (s.bufs slot)).1 }
  | .input slot => do
      let o ← ip4InputProcess P s.wrk (s.bufs slot)
      pure
        { wrk := o.wrk, bufs := Function.update s.bufs slot o.buf,
          history := s.history ++ [o.binding (s.bufs slot) s.wrk.tw.now] }
  | .output slot => do
      let (wrk, _) ← ip4OutputProcess P s.wrk (s.bufs slot)
      pure { s with wrk }
  | .advance ticks => pure { s with wrk := (flowTableTimerUpdateTime P s.wrk ticks).1 }

/-- A worker just initialised, with arbitrary bytes in its buffers. -/
def initial (P : Platform Mem Tbl) (nThreads : Nat) (bufs : Nat → Buffer) : Sys Mem Tbl :=
  ⟨flowTableMainInit P nThreads, bufs, []⟩

/-- The key a call looks up, when it is an input call. -/
def Sys.presents (s : Sys Mem Tbl) : Call → Option FlowKey
  | .input slot => ip4LookupKey (s.bufs slot)
  | _ => none

/-- The table as a map the worker keeps. -/
def mapPlatform (hash : FlowKey → UInt64) (wheel : TimerWheel.Policy) :
    Platform (UInt64 → Option EntryAddr) Unit :=
  { flowTableHash := hash, table := HashHeap.asMap UInt64 EntryAddr, wheel }

/-- The table as the library reallocates it. -/
def vppPlatform (hash : FlowKey → UInt64) (wheel : TimerWheel.Policy) :
    Platform (HashHeap.Heap UInt64 EntryAddr) Nat :=
  { flowTableHash := hash, table := HashHeap.growing UInt64 EntryAddr, wheel }

/-- The completed steps of a worker whose flows are well formed. -/
inductive Stepped (P : Platform Mem Tbl) (s : Sys Mem Tbl) : Call → Sys Mem Tbl → Prop
  | receive (slot : Nat) (b : Buffer) :
      Stepped P s (.receive slot b) { s with bufs := Function.update s.bufs slot b }
  | preProcess (slot : Nat) :
      Stepped P s (.preProcess slot)
        { s with bufs := Function.update s.bufs slot (ip4PreProcess (s.bufs slot)).1 }
  | creates (slot : Nat) (h : ProtocolHandler) (o : InputOutcome Mem Tbl)
      (handler : protocolHandlerGet (s.bufs slot).ipProtocol = some h)
      (key : o.key = h.parseKey (s.bufs slot) (s.bufs slot).ip4FlowKey)
      (buf : o.buf = vlibBufferSetFlow (s.bufs slot) o.flow)
      (effect : InputCreates P s.wrk (s.bufs slot) h o) :
      Stepped P s (.input slot)
        { wrk := o.wrk, bufs := Function.update s.bufs slot o.buf,
          history := s.history ++ [o.binding (s.bufs slot) s.wrk.tw.now] }
  | finds (slot : Nat) (h : ProtocolHandler) (o : InputOutcome Mem Tbl) (a : EntryAddr) (f : Flow)
      (handler : protocolHandlerGet (s.bufs slot).ipProtocol = some h)
      (key : o.key = h.parseKey (s.bufs slot) (s.bufs slot).ip4FlowKey)
      (buf : o.buf = vlibBufferSetFlow (s.bufs slot) o.flow)
      (effect : InputFinds P s.wrk (s.bufs slot) h o a f) :
      Stepped P s (.input slot)
        { wrk := o.wrk, bufs := Function.update s.bufs slot o.buf,
          history := s.history ++ [o.binding (s.bufs slot) s.wrk.tw.now] }
  | idle (slot : Nat) (nothing : OutputIdle s.wrk (s.bufs slot)) : Stepped P s (.output slot) s
  | mirrors (slot index : Nat) (f : Flow) (w : Worker Mem Tbl)
      (effect : OutputMirrors P s.wrk (s.bufs slot) w index f) :
      Stepped P s (.output slot) { s with wrk := w }
  | advance (ticks : Nat) :
      Stepped P s (.advance ticks) { s with wrk := (flowTableTimerUpdateTime P s.wrk ticks).1 }

theorem step_cases {P : Platform Mem Tbl} {s t : Sys Mem Tbl} {c : Call} (shaped : s.wrk.Shaped)
    (done : step P s c = .ok t) : Stepped P s c t := by
  cases c with
  | receive slot b => cases pure_ok.mp done; exact .receive slot b
  | preProcess slot => cases pure_ok.mp done; exact .preProcess slot
  | advance ticks => cases pure_ok.mp done; exact .advance ticks
  | input slot =>
      simp only [step, bind_ok, pure_ok] at done
      obtain ⟨o, called, rfl⟩ := done
      obtain ⟨h, handler, key, buf, effect | ⟨a, f, effect⟩⟩ :=
        ip4InputProcess_cases shaped called
      · exact .creates slot h o handler key buf effect
      · exact .finds slot h o a f handler key buf effect
  | output slot =>
      simp only [step, bind_ok, pure_ok] at done
      obtain ⟨⟨w, action⟩, called, rfl⟩ := done
      rcases ip4OutputProcess_cases called with ⟨nothing, same⟩ | ⟨index, f, effect⟩
      · cases same
        exact .idle slot nothing
      · exact .mirrors slot index f w effect

/-- A pool in which one flow was replaced by a well-formed one is well formed. -/
theorem shaped_of_flows {w w' : Worker Mem Tbl} {index : Nat} {g : Flow} (shaped : w.Shaped)
    (cap : w'.flows.cap = w.flows.cap)
    (flows : ∀ j, w'.flows.get? j = if j = index then some g else w.flows.get? j)
    (fits : g.Shaped index) : w'.Shaped := by
  refine ⟨cap ▸ shaped.cap, ?_⟩
  intro i f found
  rcases FixedPool.found_replaced flows found with ⟨rfl, rfl⟩ | ⟨_, before⟩
  · exact fits
  · exact shaped.flow i f before

theorem step_shaped {P : Platform Mem Tbl} {s t : Sys Mem Tbl} {c : Call} (shaped : s.wrk.Shaped)
    (done : step P s c = .ok t) : t.wrk.Shaped := by
  cases step_cases shaped done with
  | receive slot b => exact shaped
  | preProcess slot => exact shaped
  | creates slot h o _ _ _ effect =>
      exact shaped_of_flows shaped effect.cap effect.flows
        (shaped_of_identity (identity_started ..) (ip4NewFlow_shaped ..))
  | finds slot h o a f _ _ _ effect =>
      exact shaped_of_flows shaped effect.cap effect.flows
        (shaped_of_identity (identity_updated ..) (shaped.flow _ _ effect.found))
  | idle slot nothing => exact shaped
  | mirrors slot index f w effect =>
      exact shaped_of_flows shaped effect.replaced.cap effect.replaced.flows
        (updateFlow_shaped (shaped.flow _ _ effect.found))
  | advance ticks => exact ⟨shaped.cap, shaped.flow⟩

theorem initial_shaped (P : Platform Mem Tbl) (nThreads : Nat) (bufs : Nat → Buffer) :
    (initial P nThreads bufs).wrk.Shaped :=
  ⟨preallocFlowsPerWrk_le nThreads, fun _ _ found => nomatch found⟩

theorem run_shaped {P : Platform Mem Tbl} {nThreads : Nat} {bufs : Nat → Buffer} {cs : List Call}
    {s : Sys Mem Tbl} (done : run (step P) (initial P nThreads bufs) cs = .ok s) : s.wrk.Shaped :=
  run_invariant (fun s => s.wrk.Shaped) (fun _ _ _ => step_shaped)
    (initial_shaped P nThreads bufs) done

/-- Bindings are only ever added. -/
theorem step_history {P : Platform Mem Tbl} {s t : Sys Mem Tbl} {c : Call}
    (done : step P s c = .ok t) : s.history <+: t.history := by
  cases c with
  | receive slot b => cases pure_ok.mp done; exact List.prefix_rfl
  | preProcess slot => cases pure_ok.mp done; exact List.prefix_rfl
  | advance ticks => cases pure_ok.mp done; exact List.prefix_rfl
  | input slot =>
      simp only [step, bind_ok, pure_ok] at done
      obtain ⟨o, _, rfl⟩ := done
      exact List.prefix_append ..
  | output slot =>
      simp only [step, bind_ok, pure_ok] at done
      obtain ⟨⟨w, action⟩, _, rfl⟩ := done
      exact List.prefix_rfl

theorem run_history {P : Platform Mem Tbl} {s t : Sys Mem Tbl} {cs : List Call}
    (done : run (step P) s cs = .ok t) : s.history <+: t.history :=
  run_invariant (fun u => s.history <+: u.history)
    (fun _ _ _ grown last => grown.trans (step_history last)) List.prefix_rfl done

theorem step_size {P : Platform Mem Tbl} {s t : Sys Mem Tbl} {c : Call} (shaped : s.wrk.Shaped)
    (done : step P s c = .ok t) : s.wrk.flows.size ≤ t.wrk.flows.size := by
  cases step_cases shaped done with
  | receive slot b => exact Nat.le_refl _
  | preProcess slot => exact Nat.le_refl _
  | creates slot h o _ _ _ effect => exact effect.grown
  | finds slot h o a f _ _ _ effect => rw [effect.size]
  | idle slot nothing => exact Nat.le_refl _
  | mirrors slot index f w effect => exact Nat.le_of_eq effect.replaced.size.symm
  | advance ticks => exact Nat.le_refl _

/-- The calls that write to the packet of a slot or to its mark. -/
def Call.Touches (slot : Nat) : Call → Prop
  | .receive i _ | .preProcess i | .input i => i = slot
  | .output _ | .advance _ => False

theorem step_untouched {P : Platform Mem Tbl} {s t : Sys Mem Tbl} {c : Call} {slot : Nat}
    (done : step P s c = .ok t) (untouched : ¬ c.Touches slot) : t.bufs slot = s.bufs slot := by
  cases c with
  | receive i b =>
      cases pure_ok.mp done
      exact Function.update_of_ne (Ne.symm untouched) ..
  | preProcess i =>
      cases pure_ok.mp done
      exact Function.update_of_ne (Ne.symm untouched) ..
  | advance ticks => cases pure_ok.mp done; rfl
  | input i =>
      simp only [step, bind_ok, pure_ok] at done
      obtain ⟨o, _, rfl⟩ := done
      exact Function.update_of_ne (Ne.symm untouched) ..
  | output i =>
      simp only [step, bind_ok, pure_ok] at done
      obtain ⟨⟨w, action⟩, _, rfl⟩ := done
      rfl

/-- A packet bound to a flow is marked with it for as long as its slot is left alone: what
the output hook reads off the buffer is the flow the input hook chose. -/
theorem bound_packet_marked {P : Platform Mem Tbl} {s t u : Sys Mem Tbl} {slot : Nat}
    {cs : List Call} (shaped : s.wrk.Shaped) (done : step P s (.input slot) = .ok t)
    (untouched : ∀ c ∈ cs, ¬ c.Touches slot) (later : run (step P) t cs = .ok u) :
    ∃ r, t.history = s.history ++ [r] ∧
      vlibBufferGetFlow u.wrk (u.bufs slot) = some r.flow := by
  have start : ∃ r, t.history = s.history ++ [r] ∧
      t.bufs slot = vlibBufferSetFlow (s.bufs slot) r.flow ∧ r.flow < t.wrk.flows.size := by
    cases step_cases shaped done with
    | creates _ h o _ _ buf effect =>
        exact ⟨_, rfl, (Function.update_self ..).trans buf, effect.inside⟩
    | finds _ h o a f _ _ buf effect =>
        exact ⟨_, rfl, (Function.update_self ..).trans buf, effect.inside⟩
  obtain ⟨r, history, marked, inside⟩ := start
  refine ⟨r, history, ?_⟩
  have kept := run_invariant_of
    (fun v => v.wrk.Shaped ∧ v.bufs slot = vlibBufferSetFlow (s.bufs slot) r.flow ∧
      r.flow < v.wrk.flows.size)
    (Q := fun c => ¬ c.Touches slot)
    (fun v c v' inv free (last : step P v c = .ok v') =>
      ⟨step_shaped inv.1 last, (step_untouched last free).trans inv.2.1,
        Nat.lt_of_lt_of_le inv.2.2 (step_size inv.1 last)⟩)
    untouched ⟨step_shaped shaped done, marked, inside⟩ later
  rw [kept.2.1]
  exact getFlow_setFlow _ kept.1.cap kept.2.2

end FlowTable
