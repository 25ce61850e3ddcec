import VppPlugins.FlowTable.Connections

/-! The flow a buffer is marked with. The marker for no flow is a pool index. -/
namespace FlowTable
open Faults Runs

variable {Mem Tbl : Type}

/-- Marks are read back as they were written: a flow's mark gives the flow, and the cleared
mark gives none, so that the output hook lets the packet be. -/
structure MarkFaithful (P : Platform Mem Tbl) (w : Worker Mem Tbl) (b : Buffer) : Prop where
  set : ∀ i f, w.flows.get? i = some f → vlibBufferGetFlow w (vlibBufferSetFlow b i) = some i
  init : vlibBufferGetFlow w (vlibBufferInitFlow b) = none
  output : ip4OutputProcess P w (vlibBufferInitFlow b) = .ok (w, .stop)

theorem getFlow_of_set {w : Worker Mem Tbl} {i : Nat} {f : Flow} (b : Buffer) (shaped : w.Shaped)
    (found : w.flows.get? i = some f) : vlibBufferGetFlow w (vlibBufferSetFlow b i) = some i :=
  getFlow_setFlow b shaped.cap (FixedPool.lt_size_of_get? found)

/-- A cleared mark is looked up in the pool, as element zero. -/
theorem getFlow_of_init (w : Worker Mem Tbl) (b : Buffer) :
    vlibBufferGetFlow w (vlibBufferInitFlow b) = if 0 < w.flows.size then some 0 else none := by
  have other : (vlibBufferInitFlow b).flowIndex ≠ 0xFFFFFFFF := by
    change FLOW_UNSET ≠ 0xFFFFFFFF
    decide
  have index : (vlibBufferInitFlow b).flowIndex.toNat = 0 := rfl
  rw [vlibBufferGetFlow, if_neg other, flowTableGetFlowByIndex, index]
  split
  · rename_i free
    rw [if_neg]
    intro some
    obtain ⟨f, found⟩ := FixedPool.get?_isSome_iff.mpr some
    rw [free] at found
    cases found
  · rename_i f found
    rw [if_pos (FixedPool.lt_size_of_get? found)]

theorem output_of_unmarked {P : Platform Mem Tbl} {w : Worker Mem Tbl} {b : Buffer}
    (unmarked : vlibBufferGetFlow w b = none) : ip4OutputProcess P w b = .ok (w, .stop) := by
  simp only [ip4OutputProcess, unmarked]
  rfl

/-- The marks of flows are always read back; the cleared mark is until the worker has its
first flow. -/
theorem marks_faithful_iff {P : Platform Mem Tbl} {nThreads : Nat} {bufs : Nat → Buffer}
    {cs : List Call} {s : Sys Mem Tbl}
    (reached : run (step P) (initial P nThreads bufs) cs = .ok s) (b : Buffer) :
    (∀ i f, s.wrk.flows.get? i = some f →
      vlibBufferGetFlow s.wrk (vlibBufferSetFlow b i) = some i) ∧
      (MarkFaithful P s.wrk b ↔ s.wrk.flows.size = 0) := by
  have shaped := run_shaped reached
  refine ⟨fun i f found => getFlow_of_set b shaped found, ?_⟩
  have cleared := getFlow_of_init s.wrk b
  constructor
  · intro faithful
    by_contra some
    rw [if_pos (Nat.pos_of_ne_zero some), faithful.init] at cleared
    cases cleared
  · intro empty
    rw [if_neg (by omega)] at cleared
    exact ⟨fun i f found => getFlow_of_set b shaped found, cleared, output_of_unmarked cleared⟩

theorem marks_faithful_at_start :
    (∀ i f, portStart.wrk.flows.get? i = some f →
      vlibBufferGetFlow portStart.wrk (vlibBufferSetFlow (clientSyn.buffer 0) i) = some i) ∧
      (MarkFaithful portPlatform portStart.wrk (clientSyn.buffer 0) ↔
        portStart.wrk.flows.size = 0) :=
  marks_faithful_iff (run_nil (step portPlatform) portStart) (clientSyn.buffer 0)

/-- A second packet that was not bound to any flow installs the reverse entry of the first
packet's. -/
theorem cleared_mark_edits_flow :
    ∃ s t, run (step portPlatform) portStart
        [.receive 0 (clientSyn.buffer 0), .preProcess 0, .input 0,
          .receive 1 (serverSynAck.buffer 0), .preProcess 1] = .ok s ∧
      ip4OutputProcess portPlatform s.wrk (s.bufs 1) = .ok (t, .accept) ∧
      s.wrk.flows.elts.map Flow.mirrored = [false] ∧ t.flows.elts.map Flow.mirrored = [true] ∧
      ¬ MarkFaithful portPlatform s.wrk (s.bufs 1) := by
  obtain ⟨s, reached, facts⟩ := completed
    (x := run (step portPlatform) portStart
      [.receive 0 (clientSyn.buffer 0), .preProcess 0, .input 0,
        .receive 1 (serverSynAck.buffer 0), .preProcess 1])
    (fun s => (s.wrk.flows.elts.map Flow.mirrored,
      (ip4OutputProcess portPlatform s.wrk (s.bufs 1)).toOption.map
        fun o => (o.1.flows.elts.map Flow.mirrored, o.2)))
    (b := ([false], some ([true], .accept))) (by decide +kernel)
  obtain ⟨before, passed⟩ := Prod.mk.inj facts
  obtain ⟨⟨t, action⟩, output, after⟩ := completed _ passed
  obtain ⟨mirrored, accepted⟩ := Prod.mk.inj after
  refine ⟨s, t, reached, ?_, before, mirrored, ?_⟩
  · rw [output]
    exact congrArg (fun a => Except.ok (t, a)) accepted
  · intro faithful
    have cleared := getFlow_of_init s.wrk (s.bufs 1)
    have one := congrArg List.length before
    rw [List.length_map] at one
    have some : 0 < s.wrk.flows.size := by
      rw [FixedPool.size, one]
      decide
    rw [if_pos some, faithful.init] at cleared
    cases cleared

end FlowTable
