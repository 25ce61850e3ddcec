import VppPlugins.FlowTable.System
import VppPlugins.Library.Directory

/-! The flow table of one worker, its hash table taken as a map, refines a directory of
two-sided entries. Nothing is assumed of the hash function. -/
namespace FlowTable
open Faults Runs

abbrev MapWorker := Worker (UInt64 → Option EntryAddr) Unit
abbrev MapSys := Sys (UInt64 → Option EntryAddr) Unit

def side : FlowDir → Directory.Side
  | .dirIn => .forward
  | .dirOut => .backward

def sidedKey (key : FlowKey) : FlowDir → FlowKey
  | .dirIn => key
  | .dirOut => flowKeyReverse key

theorem oriented_side (key : FlowKey) (d : FlowDir) :
    Directory.oriented flowKeyReverse key (side d) = sidedKey key d := by
  cases d <;> rfl

theorem side_injective {d e : FlowDir} (same : side d = side e) : d = e := by
  cases d <;> cases e <;> first | rfl | cases same

/-- The directory a worker stands for: its flows by index, each with its key and whether
the reverse entry is installed, and the addresses in its hash table. -/
def Worker.directory (w : MapWorker) : Directory.State FlowKey UInt64 :=
  { entries := w.flows.elts.map fun f => (f.key, f.mirrored)
    slot := fun h => (w.mem h).map fun a => (a.flow, side a.dir) }

theorem directory_get (w : MapWorker) (i : Nat) :
    w.directory.entries[i]? = (w.flows.get? i).map fun f => (f.key, f.mirrored) := by
  simp only [Worker.directory, List.getElem?_map, FixedPool.get?]

theorem directory_entry {w : MapWorker} {i : Nat} {k : FlowKey} {m : Bool} :
    w.directory.entries[i]? = some (k, m) ↔
      ∃ f, w.flows.get? i = some f ∧ f.key = k ∧ f.mirrored = m := by
  simp only [directory_get, Option.map_eq_some_iff, Prod.mk.injEq]

theorem directory_length (w : MapWorker) : w.directory.entries.length = w.flows.size := by
  simp only [Worker.directory, List.length_map, FixedPool.size]

variable {Mem Tbl : Type} {hash : FlowKey → UInt64} {wheel : TimerWheel.Policy}

theorem stored_mem {m m' : UInt64 → Option EntryAddr} {u t : Unit} {h : UInt64} {a : EntryAddr}
    (stored : (mapPlatform hash wheel).table.set3 m u h a = some (m', t)) :
    m' = Function.update m h (some a) :=
  (congrArg Prod.fst (Option.some.inj ((HashHeap.asMap_set3 m u h a).symm.trans stored))).symm

/-- A store in the map is a store in the directory. -/
theorem slot_update {w w' : MapWorker} {h : UInt64} {a : EntryAddr}
    (mem : w'.mem = Function.update w.mem h (some a)) :
    w'.directory.slot = Function.update w.directory.slot h (some (a.flow, side a.dir)) := by
  funext g
  simp only [Worker.directory, mem]
  by_cases here : g = h
  · subst here
    rw [Function.update_self, Function.update_self, Option.map_some]
  · rw [Function.update_of_ne here, Function.update_of_ne here]

/-- An input call presents its key to the directory and binds its packet to the answer. -/
theorem directory_creates {w : MapWorker} {b : Buffer} {h : ProtocolHandler}
    {o : InputOutcome (UInt64 → Option EntryAddr) Unit}
    (effect : InputCreates (mapPlatform hash wheel) w b h o) :
    Directory.present hash w.directory o.key = (o.wrk.directory, (o.flow, side o.direction)) := by
  have unbound : w.mem (hash o.key) = none := Option.some.inj effect.unbound
  obtain ⟨_, stored⟩ := effect.stored
  have mem : o.wrk.mem = Function.update w.mem (hash o.key) (some ⟨o.flow, .dirIn⟩) :=
    stored_mem stored
  have entries : o.wrk.directory.entries = w.directory.entries ++ [(o.key, false)] := by
    apply List.ext_getElem?
    intro j
    rw [directory_get, effect.flows, List.getElem?_append, directory_length, directory_get]
    by_cases last : j = o.flow
    · have same := identity_started (mapPlatform hash wheel) h w.tw b .dirIn
        (ip4NewFlow b o.key o.flow)
      rw [if_pos last, Option.map_some, identity_key same, identity_mirrored same,
        ip4NewFlow_key, ip4NewFlow_mirrored, if_neg (by rw [last, effect.index]; omega), last,
        effect.index, Nat.sub_self]
      rfl
    · rw [if_neg last]
      split
      · rfl
      · rename_i above
        have beyond : w.flows.size < j := by
          have := effect.index
          omega
        rw [List.getElem?_eq_none (by simp; omega)]
        cases found : w.flows.get? j with
        | none => rfl
        | some f => exact absurd (FixedPool.lt_size_of_get? found) (by omega)
  have slot : o.wrk.directory.slot =
      Function.update w.directory.slot (hash o.key) (some (o.flow, .forward)) := slot_update mem
  have state : o.wrk.directory = Directory.enroll hash w.directory o.key := by
    rw [Directory.enroll, directory_length, ← effect.index, ← slot, ← entries]
  have empty : w.directory.slot (hash o.key) = none := by
    simp only [Worker.directory, unbound, Option.map_none]
  simp only [Directory.present, empty, state, directory_length, effect.index, effect.direction]
  rfl

theorem directory_replaced {w w' : MapWorker} {index : Nat} {f g : Flow} (mem : w'.mem = w.mem)
    (found : w.flows.get? index = some f) (same : g.identity = f.identity)
    (flows : ∀ j, w'.flows.get? j = if j = index then some g else w.flows.get? j) :
    w'.directory = w.directory := by
  have entries : w'.directory.entries = w.directory.entries := by
    apply List.ext_getElem?
    intro j
    rw [directory_get, directory_get, flows]
    by_cases here : j = index
    · rw [if_pos here, here, found, Option.map_some, Option.map_some, identity_key same,
        identity_mirrored same]
    · rw [if_neg here]
  have slot : w'.directory.slot = w.directory.slot := by
    simp only [Worker.directory, mem]
  cases w'd : w'.directory
  cases wd : w.directory
  rw [w'd, wd] at entries slot
  cases entries
  cases slot
  rfl

theorem directory_finds {w : MapWorker} {b : Buffer} {h : ProtocolHandler}
    {o : InputOutcome (UInt64 → Option EntryAddr) Unit} {a : EntryAddr} {f : Flow}
    (effect : InputFinds (mapPlatform hash wheel) w b h o a f) :
    Directory.present hash w.directory o.key = (o.wrk.directory, (o.flow, side o.direction)) := by
  have bound : w.mem (hash o.key) = some a := Option.some.inj effect.bound
  have answer : w.directory.slot (hash o.key) = some (o.flow, side o.direction) := by
    simp only [Worker.directory, bound, Option.map_some, effect.index, effect.direction]
  rw [Directory.present, answer,
    directory_replaced effect.mem effect.found (identity_updated ..) effect.flows]

/-- An output call that installs a reverse entry mirrors the flow's entry. -/
theorem directory_mirrors {w w' : MapWorker} {b : Buffer} {index : Nat} {f : Flow}
    (effect : OutputMirrors (mapPlatform hash wheel) w b w' index f) :
    w'.directory = Directory.mirror flowKeyReverse hash w.directory index := by
  have waiting : w.directory.entries[index]? = some (f.key, false) :=
    directory_entry.mpr ⟨f, effect.found, rfl, by rw [Flow.mirrored, effect.absent]; rfl⟩
  obtain ⟨_, stored⟩ := effect.stored
  have mem : w'.mem = Function.update w.mem (hash (flowKeyReverse f.key)) (some ⟨index, .dirOut⟩) :=
    stored_mem stored
  have inside := FixedPool.lt_size_of_get? effect.found
  have flows := effect.replaced.flows
  have entries : w'.directory.entries = w.directory.entries.set index (f.key, true) := by
    apply List.ext_getElem?
    intro j
    rw [directory_get, List.getElem?_set, directory_length, directory_get]
    by_cases here : j = index
    · rw [if_pos here.symm, if_pos inside, here]
      have replaced : w'.flows.get? index =
          some (flowTableUpdateFlow index f (flowKeyReverse f.key) .dirOut) := by
        rw [flows, if_pos rfl]
      rw [replaced, Option.map_some, updateFlow_mirrored]
      rfl
    · have kept : w'.flows.get? j = w.flows.get? j := by rw [flows, if_neg here]
      rw [if_neg (Ne.symm here), kept]
  have slot : w'.directory.slot =
      Function.update w.directory.slot (hash (flowKeyReverse f.key)) (some (index, .backward)) :=
    slot_update mem
  rw [Directory.mirror, waiting]
  dsimp only
  rw [← entries, ← slot]

/-- The event of a call in the directory; a call without one changes nothing there. -/
def Sys.event (s : MapSys) : Call → Option (Directory.Event FlowKey)
  | .input slot => (ip4LookupKey (s.bufs slot)).map .present
  | .output slot => (vlibBufferGetFlow s.wrk (s.bufs slot)).map .mirror
  | _ => none

def advanceDirectory (hash : FlowKey → UInt64) (d : Directory.State FlowKey UInt64) :
    Option (Directory.Event FlowKey) → Directory.State FlowKey UInt64
  | none => d
  | some e => Directory.step flowKeyReverse hash d e

theorem lookupKey_of_parsed {b : Buffer} {h : ProtocolHandler} {key : FlowKey}
    (handler : protocolHandlerGet b.ipProtocol = some h)
    (parsed : key = h.parseKey b b.ip4FlowKey) : ip4LookupKey b = some key := by
  rw [ip4LookupKey, handler, Option.map_some, parsed]

theorem key_of_looked {b : Buffer} {h : ProtocolHandler} {key key' : FlowKey}
    (handler : protocolHandlerGet b.ipProtocol = some h)
    (parsed : key = h.parseKey b b.ip4FlowKey) (looked : ip4LookupKey b = some key') :
    key = key' :=
  Option.some.inj ((lookupKey_of_parsed handler parsed).symm.trans looked)

/-- Every completed step of the worker is a step of its directory. -/
theorem step_directory {s t : MapSys} {c : Call} (shaped : s.wrk.Shaped)
    (done : step (mapPlatform hash wheel) s c = .ok t) :
    t.wrk.directory = advanceDirectory hash s.wrk.directory (s.event c) := by
  cases step_cases shaped done with
  | receive slot b => rfl
  | preProcess slot => rfl
  | advance ticks => rfl
  | creates slot h o handler key buf effect =>
      rw [Sys.event, lookupKey_of_parsed handler key, Option.map_some]
      exact (congrArg Prod.fst (directory_creates effect)).symm
  | finds slot h o a f handler key buf effect =>
      rw [Sys.event, lookupKey_of_parsed handler key, Option.map_some]
      exact (congrArg Prod.fst (directory_finds effect)).symm
  | idle slot nothing =>
      simp only [Sys.event]
      cases marked : vlibBufferGetFlow s.wrk (s.bufs slot) with
      | none => rfl
      | some index =>
          obtain ⟨f, found⟩ := getFlow_found marked
          have set := nothing index f marked found
          have settled : s.wrk.directory.entries[index]? = some (f.key, true) :=
            directory_entry.mpr ⟨f, found, rfl, Option.isSome_iff_ne_none.mpr set⟩
          simp only [Option.map_some, advanceDirectory, Directory.step, Directory.mirror, settled]
  | mirrors slot index f w effect =>
      simp only [Sys.event, effect.marked, Option.map_some]
      exact directory_mirrors effect

/-- The invariant behind the statements below. -/
structure Sys.Sound (hash : FlowKey → UInt64) (s : MapSys) : Prop where
  shaped : s.wrk.Shaped
  directory : Directory.Sound flowKeyReverse hash s.wrk.directory

theorem initial_sound (hash : FlowKey → UInt64) (wheel : TimerWheel.Policy) (nThreads : Nat)
    (bufs : Nat → Buffer) : (initial (mapPlatform hash wheel) nThreads bufs).Sound hash :=
  ⟨initial_shaped _ nThreads bufs, Directory.initial_sound flowKeyReverse hash⟩

theorem step_sound {s t : MapSys} {c : Call} (sound : s.Sound hash)
    (done : step (mapPlatform hash wheel) s c = .ok t) : t.Sound hash := by
  refine ⟨step_shaped sound.shaped done, ?_⟩
  rw [step_directory sound.shaped done]
  cases s.event c with
  | none => exact sound.directory
  | some e => exact Directory.step_sound sound.directory e

/-- What the table's contents mean. -/
structure Represented (hash : FlowKey → UInt64) (s : MapSys) : Prop where
  stored : ∀ h a, s.wrk.mem h = some a → ∃ f, s.wrk.flows.get? a.flow = some f ∧
    (f.flowEntry a.dir).flow = some a.flow ∧ flowTableGetDirection a.flow a = a.dir ∧
    h = hash (sidedKey f.key a.dir)
  inEntry : ∀ i f, s.wrk.flows.get? i = some f → (f.flowEntry .dirIn).Carries f.key
  outEntry : ∀ i f, s.wrk.flows.get? i = some f → (f.flowEntry .dirOut).flow ≠ none →
    (f.flowEntry .dirOut).Carries (flowKeyReverse f.key)
  apart : ∀ i j f g, s.wrk.flows.get? i = some f → s.wrk.flows.get? j = some g →
    hash f.key = hash g.key → i = j

theorem represented_of_sound {s : MapSys} (sound : s.Sound hash) : Represented hash s := by
  refine ⟨?_, fun i f found => (sound.shaped.flow i f found).inFields,
    fun i f found => (sound.shaped.flow i f found).outFields, ?_⟩
  · intro h a bound
    have answer : s.wrk.directory.slot h = some (a.flow, side a.dir) := by
      simp only [Worker.directory, bound, Option.map_some]
    obtain ⟨k, m, entry, same, mirrored⟩ := sound.directory.slot h _ _ answer
    obtain ⟨f, found, rfl, rfl⟩ := directory_entry.mp entry
    have shape := sound.shaped.flow _ _ found
    refine ⟨f, found, ?_, flowTableGetDirection_self a, by rw [same, oriented_side]⟩
    cases dir : a.dir with
    | dirIn => exact shape.inPointer
    | dirOut =>
        rcases shape.outPointer with unset | set
        · rw [dir] at mirrored
          have claimed := mirrored rfl
          rw [Flow.mirrored, unset] at claimed
          cases claimed
        · exact set
  · intro i j f g first second same
    exact sound.directory.distinct i j _ _ _ _ (directory_entry.mpr ⟨f, first, rfl, rfl⟩)
      (directory_entry.mpr ⟨g, second, rfl, rfl⟩) same

theorem slot_eq_none {w : MapWorker} {h : UInt64} : w.directory.slot h = none ↔ w.mem h = none := by
  simp only [Worker.directory, Option.map_eq_none_iff]

/-- A bound hash stays bound. -/
theorem step_stays_bound {s t : MapSys} {c : Call} {h : UInt64} (sound : s.Sound hash)
    (done : step (mapPlatform hash wheel) s c = .ok t) (bound : s.wrk.mem h ≠ none) :
    t.wrk.mem h ≠ none := by
  rw [ne_eq, ← slot_eq_none] at bound ⊢
  rw [step_directory sound.shaped done]
  cases s.event c with
  | none => exact bound
  | some e => exact Directory.step_bound e bound

/-- All a call may want for: a handler for the packet's protocol, and a free element of the
pool when the packet's key is unbound. -/
def Sys.Accepts (hash : FlowKey → UInt64) (s : MapSys) : Call → Prop
  | .input slot => ∃ key, ip4LookupKey (s.bufs slot) = some key ∧
      (s.wrk.mem (hash key) = none → s.wrk.flows.size < s.wrk.flows.cap)
  | _ => True

theorem initState_completes (P : Platform Mem Tbl) {w : Worker Mem Tbl} {b : Buffer} {i : Nat}
    {f : Flow} (h : ProtocolHandler) (d : FlowDir) (resolved : vlibBufferGetFlow w b = some i)
    (found : w.flows.get? i = some f) : ∃ w', h.initState P w b d = .ok w' := by
  cases h with
  | tcp =>
      simp only [ProtocolHandler.initState, tcpInitState, bind_ok, orFault_ok, pure_ok]
      exact ⟨_, i, resolved, f, found, rfl⟩
  | unimplemented => exact ⟨w, rfl⟩
  | icmp => exact ⟨w, rfl⟩
  | udp => exact ⟨w, rfl⟩

theorem updateState_completes (P : Platform Mem Tbl) {w : Worker Mem Tbl} {b : Buffer} {i : Nat}
    {f : Flow} (h : ProtocolHandler) (d : FlowDir) (resolved : vlibBufferGetFlow w b = some i)
    (found : w.flows.get? i = some f) : ∃ w', h.updateState P w b d = .ok w' := by
  cases h with
  | tcp =>
      simp only [ProtocolHandler.updateState, tcpUpdateState, resolved, found, orFault, bind,
        Except.bind]
      split
      · exact ⟨_, rfl⟩
      · exact ⟨_, rfl⟩
  | unimplemented => exact ⟨w, rfl⟩
  | icmp => exact ⟨w, rfl⟩
  | udp => exact ⟨w, rfl⟩

/-- A call whose key leads to an entry in use completes. -/
theorem bound_input_completes {P : Platform Mem Tbl} {w : Worker Mem Tbl} {b : Buffer}
    {key : FlowKey} {a : EntryAddr} {f : Flow} (shaped : w.Shaped)
    (looked : ip4LookupKey b = some key)
    (bound : P.table.get w.mem w.flowsHashTable (P.flowTableHash key) = some (some a))
    (found : w.flows.get? a.flow = some f) (pointer : (f.flowEntry a.dir).flow = some a.flow) :
    ∃ o, ip4InputProcess P w b = .ok o := by
  obtain ⟨h, handler, rfl⟩ := Option.map_eq_some_iff.mp looked
  have back : w.backPointer a = some a.flow := by rw [Worker.backPointer, found]; exact pointer
  have resolved := getFlow_setFlow b shaped.cap (FixedPool.lt_size_of_get? found)
  obtain ⟨w', callback⟩ := updateState_completes P h (flowTableGetDirection a.flow a) resolved found
  refine ⟨⟨w', vlibBufferSetFlow b a.flow, h.parseKey b b.ip4FlowKey, a.flow,
    flowTableGetDirection a.flow a, false, .accept⟩, ?_⟩
  simp only [ip4InputProcess, bind_ok, orFault_ok]
  refine ⟨h, handler, some a, bound, ?_⟩
  simp only [bind_ok, orFault_ok]
  exact ⟨a.flow, back, w', callback, rfl⟩

/-- A call with an unbound key completes, given room in the pool and a table to store into. -/
theorem unbound_input_completes {P : Platform Mem Tbl} {w : Worker Mem Tbl} {b : Buffer}
    {key : FlowKey} {mem : Mem} {t : Tbl} (shaped : w.Shaped) (looked : ip4LookupKey b = some key)
    (unbound : P.table.get w.mem w.flowsHashTable (P.flowTableHash key) = some none)
    (room : w.flows.size < w.flows.cap)
    (stored : P.table.set3 w.mem w.flowsHashTable (P.flowTableHash key) ⟨w.flows.size, .dirIn⟩ =
      some (mem, t)) : ∃ o, ip4InputProcess P w b = .ok o := by
  obtain ⟨h, handler, rfl⟩ := Option.map_eq_some_iff.mp looked
  simp only [ip4InputProcess, bind_ok, orFault_ok]
  cases alloc : w.flows.alloc (ip4NewFlow b (h.parseKey b b.ip4FlowKey)) with
  | none =>
      have := FixedPool.alloc_eq_none.mp alloc
      omega
  | some fresh =>
      obtain ⟨flows, index⟩ := fresh
      obtain ⟨rfl, _, cap, _⟩ := FixedPool.alloc_eq_some.mp alloc
      have size := FixedPool.size_of_alloc alloc
      have inside : w.flows.size < flows.size := by omega
      obtain ⟨f, found⟩ := FixedPool.get?_isSome_iff.mpr inside
      have resolved := getFlow_setFlow (w := { w with flows, mem }) b
        (by rw [cap]; exact shaped.cap) inside
      obtain ⟨w', callback⟩ := initState_completes P h .dirIn resolved found
      refine ⟨⟨w', vlibBufferSetFlow b w.flows.size, h.parseKey b b.ip4FlowKey, w.flows.size,
        .dirIn, true, .accept⟩, h, handler, none, unbound, ?_⟩
      simp only [bind_ok, orFault_ok]
      exact ⟨(flows, w.flows.size), alloc, (mem, t), stored, w', callback, rfl⟩

theorem input_completes (wheel : TimerWheel.Policy) {w : MapWorker} {b : Buffer} {key : FlowKey}
    (shaped : w.Shaped)
    (pointers : ∀ h a, w.mem h = some a → ∃ f, w.flows.get? a.flow = some f ∧
      (f.flowEntry a.dir).flow = some a.flow)
    (looked : ip4LookupKey b = some key)
    (room : w.mem (hash key) = none → w.flows.size < w.flows.cap) :
    ∃ o, ip4InputProcess (mapPlatform hash wheel) w b = .ok o := by
  cases bound : w.mem (hash key) with
  | none =>
      exact unbound_input_completes (P := mapPlatform hash wheel) shaped looked
        (congrArg some bound) (room bound) rfl
  | some a =>
      obtain ⟨f, found, pointer⟩ := pointers _ a bound
      exact bound_input_completes (P := mapPlatform hash wheel) shaped looked (congrArg some bound)
        found pointer

theorem output_completes (hash : FlowKey → UInt64) (wheel : TimerWheel.Policy) (w : MapWorker)
    (b : Buffer) :
    ∃ r, ip4OutputProcess (mapPlatform hash wheel) w b = .ok r := by
  unfold ip4OutputProcess
  cases marked : vlibBufferGetFlow w b with
  | none => exact ⟨_, rfl⟩
  | some index =>
      obtain ⟨f, found⟩ := getFlow_found marked
      simp only [found, orFault, bind, Except.bind]
      split
      · exact ⟨_, rfl⟩
      · exact ⟨_, rfl⟩

/-- In a sound state every accepted call completes, and no other. -/
theorem step_completes_iff {s : MapSys} {c : Call} (sound : s.Sound hash) :
    (∃ t, step (mapPlatform hash wheel) s c = .ok t) ↔ s.Accepts hash c := by
  constructor
  · rintro ⟨t, done⟩
    cases step_cases sound.shaped done with
    | creates slot h o handler key buf effect =>
        exact ⟨o.key, lookupKey_of_parsed handler key, fun _ => effect.room⟩
    | finds slot h o a f handler key buf effect =>
        refine ⟨o.key, lookupKey_of_parsed handler key, fun unbound => ?_⟩
        exact absurd ((Option.some.inj effect.bound).symm.trans unbound) (Option.some_ne_none a)
    | receive slot b => trivial
    | preProcess slot => trivial
    | idle slot nothing => trivial
    | mirrors slot index f w effect => trivial
    | advance ticks => trivial
  · intro accepts
    cases c with
    | receive slot b => exact ⟨_, rfl⟩
    | preProcess slot => exact ⟨_, rfl⟩
    | advance ticks => exact ⟨_, rfl⟩
    | input slot =>
        obtain ⟨key, looked, room⟩ := accepts
        have represented := represented_of_sound sound
        have pointers (h : UInt64) (a : EntryAddr) (bound : s.wrk.mem h = some a) :
            ∃ f, s.wrk.flows.get? a.flow = some f ∧ (f.flowEntry a.dir).flow = some a.flow := by
          obtain ⟨f, found, pointer, _⟩ := represented.stored h a bound
          exact ⟨f, found, pointer⟩
        obtain ⟨o, called⟩ := input_completes wheel sound.shaped pointers looked room
        simp only [step, bind_ok, pure_ok]
        exact ⟨_, o, called, rfl⟩
    | output slot =>
        obtain ⟨⟨w, action⟩, called⟩ := output_completes hash wheel s.wrk (s.bufs slot)
        simp only [step, bind_ok, pure_ok]
        exact ⟨_, (w, action), called, rfl⟩

/-- In every reachable state the table represents the flows, and whatever is bound in it
stays bound in every continuation of the run. -/
theorem flow_table_represents_flows (hash : FlowKey → UInt64) (wheel : TimerWheel.Policy)
    (nThreads : Nat) (bufs : Nat → Buffer) (cs : List Call) :
    Always (step (mapPlatform hash wheel))
      (fun s => Represented hash s ∧
        ∀ more, Always (step (mapPlatform hash wheel))
          (fun t => ∀ h, s.wrk.mem h ≠ none → t.wrk.mem h ≠ none) s more)
      (initial (mapPlatform hash wheel) nThreads bufs) cs := by
  refine always_of_invariant (Sys.Sound hash) (fun _ _ _ => step_sound) ?_
    (initial_sound hash wheel nThreads bufs)
  intro s sound
  refine ⟨represented_of_sound sound, fun more => ?_⟩
  exact always_of_invariant
    (fun t => t.Sound hash ∧ ∀ h, s.wrk.mem h ≠ none → t.wrk.mem h ≠ none)
    (fun t c u kept done =>
      ⟨step_sound kept.1 done, fun h bound => step_stays_bound kept.1 done (kept.2 h bound)⟩)
    (fun _ kept => kept.2) ⟨sound, fun _ bound => bound⟩

end FlowTable
