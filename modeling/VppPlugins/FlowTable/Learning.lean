import VppPlugins.FlowTable.Resets

/-! What the entries of a flow remember of the links its packets came over. Only the entry
that is made with the flow remembers anything. -/
namespace FlowTable
open Faults Runs

variable {Mem Tbl : Type} {P : Platform Mem Tbl}

/-- The link a packet came over, as a flow entry stores it. -/
@[ext] structure Link where
  smac : MacAddress
  dmac : MacAddress
  swIfIndex : UInt32
  outerVlanId : UInt16
  innerVlanId : UInt16
  vlanPresent : UInt8

def FlowEntry.link (e : FlowEntry) : Link :=
  ⟨e.smac, e.dmac, e.swIfIndex, e.outerVlanId, e.innerVlanId, e.vlanPresent⟩

/-- The link of a packet with this key. -/
def Buffer.link (b : Buffer) (key : FlowKey) : Link :=
  ⟨b.mac (b.l2HdrOffset + 6), b.mac b.l2HdrOffset, b.swIfIndexRx, key.outerVlanId,
    key.innerVlanId, key.vlanPresent⟩

def Binding.link (r : Binding) : Link := r.packet.link r.key

def Link.unset : Link := FlowEntry.zero.link

/-- The packet is bound to flow `i` in direction `d`. -/
def Binding.On (r : Binding) (i : Nat) (d : FlowDir) : Prop := r.flow = i ∧ r.direction = d

/-- The packet has MAC addresses and came over a hardware interface of `vnet`, so that a reset
can be sent back to where it came from. -/
structure Buffer.Answerable (vnet : Vnet) (b : Buffer) : Prop where
  smac : b.mac (b.l2HdrOffset + 6) ≠ zeroMac
  dmac : b.mac b.l2HdrOffset ≠ zeroMac
  hardware : vnet.supSwInterface b.swIfIndexRx = some true

/-- Each side of flow `i` has sent such a packet. -/
def BothKnown (vnet : Vnet) (history : List Binding) (i : Nat) : Prop :=
  ∀ d, ∃ r ∈ history, r.On i d ∧ r.packet.Answerable vnet

/-- An entry whose side has sent packets holds the link of one of them. -/
def EntriesLearned (s : Sys Mem Tbl) : Prop :=
  ∀ i f d, s.wrk.flows.get? i = some f → (∃ r ∈ s.history, r.On i d) →
    ∃ r ∈ s.history, r.On i d ∧ (f.flowEntry d).link = r.link

/-- When the call resets a flow both sides of which are known, and buffers are to be had, it builds
a reset for both. What VPP has at the time is `vnet`. -/
def ResetsBoth (vnet : Sys Mem Tbl → Vnet) (s : Sys Mem Tbl) (_ : Call) (t : Sys Mem Tbl) : Prop :=
  ∀ g, t.wrk.resets = s.wrk.resets ++ [g] → BothKnown (vnet s) t.history g.eltIndex →
    (∀ d, (vnet s).bufferAlloc d = true) →
    tcpSendReset (vnet s) g = (0, [.dirIn, .dirOut].map fun d =>
      ⟨d, (vnet s).outputNodeIndex (g.flowEntry d).swIfIndex, resetFrame g d⟩)

/-- A packet that makes a flow comes from an interface; a packet that is the first of the
other side comes over no link at all. -/
def LinkHeld (P : Platform Mem Tbl) (s : Sys Mem Tbl) : Call → Prop
  | .input slot => ∀ key, ip4LookupKey (s.bufs slot) = some key →
      (P.table.get s.wrk.mem s.wrk.flowsHashTable (P.flowTableHash key) = some none →
        (s.bufs slot).swIfIndexRx ≠ 0xFFFFFFFF) ∧
      ∀ i, P.table.get s.wrk.mem s.wrk.flowsHashTable (P.flowTableHash key) =
          some (some ⟨i, .dirOut⟩) →
        (∀ r ∈ s.history, ¬ r.On i .dirOut) → (s.bufs slot).link key = .unset
  | _ => True

/-- A packet that resets its flow comes while some side has sent nothing that a reset could
answer, this packet included. -/
def SideUnknown (P : Platform Mem Tbl) (vnet : Sys Mem Tbl → Vnet) (s : Sys Mem Tbl) : Call → Prop :=
  BeforeReset P s fun b f d => (∀ e, (vnet s).bufferAlloc e = true) →
    ∃ e, (∀ r ∈ s.history, r.On f.eltIndex e → ¬ r.packet.Answerable (vnet s)) ∧
      (d = e → ¬ b.Answerable (vnet s))

theorem link_of_identity {f g : Flow} (same : g.identity = f.identity) (d : FlowDir) :
    (g.flowEntry d).link = (f.flowEntry d).link :=
  (congrArg FlowEntry.link (identity_entry same d) :)

theorem newFlow_link (b : Buffer) (key : FlowKey) (index : Nat) :
    ((ip4NewFlow b key index).flowEntry .dirIn).link =
      if b.swIfIndexRx ≠ 0xFFFFFFFF then b.link key else { b.link key with swIfIndex := 0 } := by
  simp only [ip4NewFlow, setEntry_same, FlowEntry.link, flowTableInitFlow]
  split
  · rw [setEntry_same]
    rfl
  · rw [flowTableUpdateFlow, setEntry_same]
    rfl

theorem updateFlow_link (index : Nat) (f : Flow) (key : FlowKey) (d e : FlowDir) :
    ((flowTableUpdateFlow index f key d).flowEntry e).link = (f.flowEntry e).link := by
  rw [flowTableUpdateFlow, setEntry_entry]
  split
  · rfl
  · rfl

/-- What holds in every run: each flow was made by a packet of direction IN, and the other
entry's link is never written. -/
structure Sys.Links (s : Sys Mem Tbl) : Prop where
  shaped : s.wrk.Shaped
  inside : ∀ r ∈ s.history, r.flow < s.wrk.flows.size
  creator : ∀ i f, s.wrk.flows.get? i = some f → ∃ r ∈ s.history, r.On i .dirIn
  outLink : ∀ i f, s.wrk.flows.get? i = some f → (f.flowEntry .dirOut).link = .unset

theorem links_snoc {s t : Sys Mem Tbl} {r : Binding} {g : Flow} (links : s.Links)
    (shaped : t.wrk.Shaped) (history : t.history = s.history ++ [r])
    (grown : s.wrk.flows.size ≤ t.wrk.flows.size) (inside : r.flow < t.wrk.flows.size)
    (flows : ∀ j, t.wrk.flows.get? j = if j = r.flow then some g else s.wrk.flows.get? j)
    (creator : ∃ q ∈ s.history ++ [r], q.On r.flow .dirIn)
    (out : (g.flowEntry .dirOut).link = .unset) : t.Links := by
  refine ⟨shaped, ?_, ?_, ?_⟩
  · rw [history]
    exact inside_snoc links.inside grown inside
  · intro i f found
    rw [history]
    rcases FixedPool.found_replaced flows found with ⟨rfl, _⟩ | ⟨_, before⟩
    · exact creator
    · obtain ⟨q, member, on⟩ := links.creator i f before
      exact ⟨q, List.mem_append_left _ member, on⟩
  · intro i f found
    rcases FixedPool.found_replaced flows found with ⟨rfl, rfl⟩ | ⟨_, before⟩
    · exact out
    · exact links.outLink i f before

theorem step_links {s t : Sys Mem Tbl} {c : Call} (links : s.Links) (done : step P s c = .ok t) :
    t.Links := by
  have shaped := step_shaped links.shaped done
  cases step_cases links.shaped done with
  | receive slot b => exact ⟨shaped, links.inside, links.creator, links.outLink⟩
  | preProcess slot => exact ⟨shaped, links.inside, links.creator, links.outLink⟩
  | idle slot nothing => exact ⟨shaped, links.inside, links.creator, links.outLink⟩
  | advance ticks => exact ⟨shaped, links.inside, links.creator, links.outLink⟩
  | creates slot h o handler key buf effect =>
      apply links_snoc links shaped rfl effect.grown effect.inside effect.flows
      · exact ⟨_, List.mem_append_right _ List.mem_cons_self, rfl, effect.direction⟩
      · rw [link_of_identity (identity_started ..), ip4NewFlow_out]
        rfl
  | finds slot h o a f handler key buf effect =>
      apply links_snoc links shaped rfl (Nat.le_of_eq effect.size.symm) effect.inside effect.flows
      · obtain ⟨q, member, on⟩ := links.creator _ f effect.found
        exact ⟨q, List.mem_append_left _ member, on⟩
      · rw [link_of_identity (identity_updated ..)]
        exact links.outLink _ f effect.found
  | mirrors slot index f w effect =>
      refine ⟨shaped, ?_, ?_, ?_⟩
      · intro r member
        exact Nat.lt_of_lt_of_eq (links.inside r member) effect.replaced.size.symm
      · intro i g found
        rcases FixedPool.found_replaced effect.replaced.flows found with ⟨rfl, _⟩ | ⟨_, before⟩
        · exact links.creator _ f effect.found
        · exact links.creator i g before
      · intro i g found
        rcases FixedPool.found_replaced effect.replaced.flows found with ⟨rfl, rfl⟩ | ⟨_, before⟩
        · rw [updateFlow_link]
          exact links.outLink _ f effect.found
        · exact links.outLink i g before

/-- The entry of the side that did not make the flow gets no reset, whatever that side has sent. -/
theorem resets_in_only {s : Sys Mem Tbl} {i : Nat} {f : Flow} (links : s.Links)
    (found : s.wrk.flows.get? i = some f) (vnet : Vnet) :
    ∀ sent ∈ (tcpSendReset vnet f).2, sent.dir = .dirIn := by
  intro sent member
  cases side : sent.dir with
  | dirIn => rfl
  | dirOut =>
      have linked := (sent_frame member).2.2
      rw [side] at linked
      exact absurd (congrArg Link.smac (links.outLink i f found)) linked.1

theorem initial_links (P : Platform Mem Tbl) (nThreads : Nat) (bufs : Nat → Buffer) :
    (initial P nThreads bufs).Links :=
  ⟨initial_shaped P nThreads bufs, fun _ member => (nomatch member),
    fun _ _ found => (nomatch found), fun _ _ found => (nomatch found)⟩

/-! The entries. -/

/-- No packet bound, and the entries' links as they were. -/
theorem learned_congr {s t : Sys Mem Tbl} (learned : EntriesLearned s)
    (history : t.history = s.history)
    (flows : ∀ i g, t.wrk.flows.get? i = some g → ∃ f, s.wrk.flows.get? i = some f ∧
      ∀ d, (g.flowEntry d).link = (f.flowEntry d).link) : EntriesLearned t := by
  intro i g d found sent
  rw [history] at sent ⊢
  obtain ⟨f, before, links⟩ := flows i g found
  rw [links]
  exact learned i f d before sent

/-- A packet bound to one flow: the others' entries keep what they have learned. -/
theorem learned_snoc {s t : Sys Mem Tbl} {r : Binding} {g : Flow} (learned : EntriesLearned s)
    (history : t.history = s.history ++ [r])
    (flows : ∀ j, t.wrk.flows.get? j = if j = r.flow then some g else s.wrk.flows.get? j)
    (hit : ∀ d, (∃ q ∈ s.history ++ [r], q.On r.flow d) →
      ∃ q ∈ s.history ++ [r], q.On r.flow d ∧ (g.flowEntry d).link = q.link) :
    EntriesLearned t := by
  intro i f d found sent
  rw [history] at sent ⊢
  rcases FixedPool.found_replaced flows found with ⟨rfl, rfl⟩ | ⟨other, before⟩
  · exact hit d sent
  · obtain ⟨q, member, on⟩ := sent
    rw [List.mem_append, List.mem_singleton] at member
    have old : q ∈ s.history := member.resolve_right fun same => other (same ▸ on.1.symm)
    obtain ⟨q', member', on', link⟩ := learned i f d before ⟨q, old, on⟩
    exact ⟨q', List.mem_append_left _ member', on', link⟩

/-- The packets bound to a flow that is being made. -/
theorem only_creator {s : Sys Mem Tbl} {r q : Binding} {d : FlowDir} (links : s.Links)
    (fresh : s.wrk.flows.size ≤ r.flow) (member : q ∈ s.history ++ [r]) (on : q.On r.flow d) :
    q = r := by
  rw [List.mem_append, List.mem_singleton] at member
  refine member.resolve_left fun old => ?_
  have := links.inside q old
  have := on.1
  omega

theorem step_keeps_learned {s t : Sys Mem Tbl} {c : Call} (links : s.Links)
    (learned : EntriesLearned s) (held : LinkHeld P s c) (done : step P s c = .ok t) :
    EntriesLearned t := by
  cases step_cases links.shaped done with
  | receive slot b => exact learned_congr learned rfl fun i g found => ⟨g, found, fun _ => rfl⟩
  | preProcess slot => exact learned_congr learned rfl fun i g found => ⟨g, found, fun _ => rfl⟩
  | idle slot nothing => exact learned_congr learned rfl fun i g found => ⟨g, found, fun _ => rfl⟩
  | advance ticks => exact learned_congr learned rfl fun i g found => ⟨g, found, fun _ => rfl⟩
  | mirrors slot index f w effect =>
      refine learned_congr learned rfl fun i g found => ?_
      rcases FixedPool.found_replaced effect.replaced.flows found with ⟨rfl, rfl⟩ | ⟨_, before⟩
      · exact ⟨f, effect.found, fun d => updateFlow_link ..⟩
      · exact ⟨g, before, fun _ => rfl⟩
  | creates slot h o handler key buf effect =>
      have looked : ip4LookupKey (s.bufs slot) = some o.key := lookupKey_of_parsed handler key
      have interface := (held o.key looked).1 effect.unbound
      have fresh : s.wrk.flows.size ≤ (o.binding (s.bufs slot) s.wrk.tw.now).flow :=
        Nat.le_of_eq effect.index.symm
      refine learned_snoc learned rfl effect.flows ?_
      rintro d ⟨q, member, on⟩
      have only := only_creator links fresh member on
      refine ⟨q, member, on, ?_⟩
      have side : d = .dirIn := by rw [← on.2, only]; exact effect.direction
      rw [only, side, link_of_identity (identity_started ..), newFlow_link, if_pos interface]
      rfl
  | finds slot h o a f handler key buf effect =>
      have looked : ip4LookupKey (s.bufs slot) = some o.key := lookupKey_of_parsed handler key
      have same := link_of_identity
        (identity_updated P h s.wrk.tw (s.bufs slot) o.direction f)
      refine learned_snoc learned rfl effect.flows ?_
      rintro d ⟨q, member, on⟩
      rw [same]
      by_cases earlier : ∃ q ∈ s.history, q.On o.flow d
      · obtain ⟨q', member', on', link⟩ := learned _ f d effect.found earlier
        exact ⟨q', List.mem_append_left _ member', on', link⟩
      · rw [List.mem_append, List.mem_singleton] at member
        have only := member.resolve_left fun old => earlier ⟨q, old, on⟩
        have side : a.dir = d := by rw [← effect.direction, ← on.2, only]; rfl
        cases d with
        | dirIn => exact absurd (links.creator _ f effect.found) earlier
        | dirOut =>
            have bound := effect.bound
            have named : a = ⟨o.flow, .dirOut⟩ := by rw [effect.index, ← side]
            rw [named] at bound
            have unset := (held o.key looked).2 o.flow bound
              (fun r old on => earlier ⟨r, old, on⟩)
            refine ⟨q, List.mem_append_right _ (List.mem_singleton.mpr only), on, ?_⟩
            rw [links.outLink _ f effect.found, only]
            exact unset.symm

/-- A packet over a link that is not held leaves an entry without the link of any packet of
its side. -/
theorem step_breaks_learned {s t : Sys Mem Tbl} {c : Call} (links : s.Links)
    (unheld : ¬ LinkHeld P s c) (done : step P s c = .ok t) : ¬ EntriesLearned t := by
  intro learned
  cases step_cases links.shaped done with
  | receive slot b => exact unheld trivial
  | preProcess slot => exact unheld trivial
  | idle slot nothing => exact unheld trivial
  | advance ticks => exact unheld trivial
  | mirrors slot index f w effect => exact unheld trivial
  | creates slot h o handler key buf effect =>
      have looked : ip4LookupKey (s.bufs slot) = some o.key := lookupKey_of_parsed handler key
      have fresh : s.wrk.flows.size ≤ (o.binding (s.bufs slot) s.wrk.tw.now).flow :=
        Nat.le_of_eq effect.index.symm
      apply unheld
      intro key' looked'
      cases looked.symm.trans looked'
      refine ⟨fun _ none => ?_, fun i bound => ?_⟩
      · obtain ⟨q, member, on, link⟩ := learned o.flow _ .dirIn
          effect.after
          ⟨_, List.mem_append_right _ List.mem_cons_self, rfl, effect.direction⟩
        rw [only_creator links fresh member on, link_of_identity (identity_started ..),
          newFlow_link, if_neg (not_not.mpr none)] at link
        have zero : (0 : UInt32) = (s.bufs slot).swIfIndexRx := congrArg Link.swIfIndex link
        rw [none] at zero
        exact absurd zero (by decide)
      · have unbound := effect.unbound
        rw [bound] at unbound
        cases unbound
  | finds slot h o a f handler key buf effect =>
      have looked : ip4LookupKey (s.bufs slot) = some o.key := lookupKey_of_parsed handler key
      apply unheld
      intro key' looked'
      cases looked.symm.trans looked'
      refine ⟨fun unbound => ?_, fun i bound first => ?_⟩
      · have bound := effect.bound
        rw [unbound] at bound
        cases bound
      · have same := effect.bound
        rw [bound, Option.some.injEq, Option.some.injEq] at same
        have index : o.flow = i := by rw [effect.index, ← same]
        have side : o.direction = .dirOut := by rw [effect.direction, ← same]
        obtain ⟨q, member, on, link⟩ := learned o.flow _ .dirOut
          effect.after
          ⟨_, List.mem_append_right _ List.mem_cons_self, rfl, side⟩
        rw [List.mem_append, List.mem_singleton] at member
        have only := member.resolve_left fun old => first q old (index ▸ on)
        rw [link_of_identity (identity_updated ..), links.outLink _ f effect.found, only] at link
        exact link.symm

theorem entries_learned_iff (P : Platform Mem Tbl) (nThreads : Nat) (bufs : Nat → Buffer)
    (cs : List Call) :
    Always (step P) EntriesLearned (initial P nThreads bufs) cs ↔
      Guarded (step P) (LinkHeld P) (initial P nThreads bufs) cs := by
  refine always_iff_guarded Sys.Links ?_ ?_ always_true (initial_links P nThreads bufs) ?_
  · intro s c t links learned held done _
    exact ⟨step_links links done, step_keeps_learned links learned held done⟩
  · intro s c t links _ unheld done _
    exact step_breaks_learned links unheld done
  · exact fun _ _ _ found => (nomatch found)

/-! The resets. -/

/-- Which sides are known when a packet has been bound is settled before it is bound. -/
theorem not_bothKnown_snoc {vnet : Vnet} {history : List Binding} {r : Binding} :
    ¬ BothKnown vnet (history ++ [r]) r.flow ↔
      ∃ e, (∀ q ∈ history, q.On r.flow e → ¬ q.packet.Answerable vnet) ∧
        (r.direction = e → ¬ r.packet.Answerable vnet) := by
  simp only [BothKnown, not_forall, not_exists, not_and, List.forall_mem_append,
    List.forall_mem_singleton, Binding.On, true_and]

theorem step_resetsBoth_iff {vnet : Sys Mem Tbl → Vnet} {s t : Sys Mem Tbl} {c : Call}
    (links : s.Links) (done : step P s c = .ok t) :
    ResetsBoth vnet s c t ↔ SideUnknown P vnet s c := by
  refine step_resets_iff links.shaped done fun r f g u _ _ => ?_
  have after := step_links links done
  have index : f.eltIndex = r.flow := (links.shaped.flow _ f u.before).eltIndex
  have index' : g.eltIndex = r.flow := (after.shaped.flow _ g u.after).eltIndex
  have never : tcpSendReset (vnet s) g ≠ (0, [.dirIn, .dirOut].map fun d =>
      ⟨d, (vnet s).outputNodeIndex (g.flowEntry d).swIfIndex, resetFrame g d⟩) := by
    intro both
    have only := resets_in_only after u.after (vnet s)
    rw [both] at only
    cases only _ (List.mem_cons_of_mem _ List.mem_cons_self)
  rw [index, index', u.history, ← not_bothKnown_snoc]
  constructor
  · intro resets alloc known
    exact never (resets known alloc)
  · intro held known alloc
    exact absurd known (held alloc)

/-- In a run every entry of a sending side is learned and every reset of a flow with two known sides
goes to both, exactly if each flow is made by a packet from an interface, its other side begins
over no link at all, and no flow is reset once both sides have sent packets that can be
answered. -/
theorem directions_learned_iff (P : Platform Mem Tbl) (vnet : Sys Mem Tbl → Vnet) (nThreads : Nat)
    (bufs : Nat → Buffer) (cs : List Call) :
    (Always (step P) EntriesLearned (initial P nThreads bufs) cs ∧
        EachStep (step P) (ResetsBoth vnet) (initial P nThreads bufs) cs) ↔
      Guarded (step P) (fun s c => LinkHeld P s c ∧ SideUnknown P vnet s c)
        (initial P nThreads bufs) cs := by
  rw [guarded_and]
  refine and_congr (entries_learned_iff P nThreads bufs cs) ?_
  exact eachStep_iff_guarded Sys.Links (fun _ _ _ => step_links)
    (fun _ _ _ => step_resetsBoth_iff) (initial_links P nThreads bufs)

/-- The segment in a frame with MAC addresses, on interface 1. -/
def Segment.linked (p : Segment) : Buffer :=
  { p.buffer 0 with
    data := fun i => if 0 ≤ i ∧ i < 12 then 2 else (p.buffer 0).data i, swIfIndexRx := 1 }

/-- A connection whose two sides send over Ethernet, each packet through both hooks. -/
def ethernet : List Call :=
  [.receive 0 clientSyn.linked, .preProcess 0, .input 0, .output 0,
    .receive 1 serverSynAck.linked, .preProcess 1, .input 1, .output 1,
    .receive 2 { clientSyn with flags := TCP_FLAG_ACK }.linked, .preProcess 2, .input 2]

/-- Every interface is of hardware, and buffers are to be had. -/
def hardwareOnly : Vnet where
  supSwInterface _ := some true
  outputNodeIndex i := i
  bufferAlloc _ := true

instance (vnet : Vnet) (b : Buffer) : Decidable (b.Answerable vnet) :=
  decidable_of_iff (b.mac (b.l2HdrOffset + 6) ≠ zeroMac ∧ b.mac b.l2HdrOffset ≠ zeroMac ∧
      vnet.supSwInterface b.swIfIndexRx = some true)
    ⟨fun both => ⟨both.1, both.2.1, both.2.2⟩, fun known => ⟨known.smac, known.dmac, known.hardware⟩⟩

/-- The packets that were bound, and whether their links can be learned and answered. -/
def bindingView (r : Binding) : Nat × FlowDir × Bool :=
  (r.flow, r.direction, decide (r.link.swIfIndex = 1 ∧ r.packet.Answerable hardwareOnly))

/-- The frames of each reset, the flows reset, and the interfaces of the other sides' entries. -/
def resetView (s : MapSys) : List (List FlowDir) × List Nat × List UInt32 :=
  (s.wrk.resets.map fun g => (tcpSendReset hardwareOnly g).2.map SentFrame.dir,
    s.wrk.resets.map Flow.eltIndex,
    s.wrk.flows.elts.map fun f => (f.flowEntry .dirOut).link.swIfIndex)

/-- Both sides of the connection send, and whatever they send can be learned and answered. -/
theorem ethernet_history :
    ∃ s, run (step portPlatform) portStart ethernet = .ok s ∧
      (∀ r ∈ s.history, r.link.swIfIndex = 1 ∧ r.packet.Answerable hardwareOnly) ∧
      ∀ d, ∃ r ∈ s.history, r.On 0 d := by
  obtain ⟨s, total, history⟩ := completed (x := run (step portPlatform) portStart ethernet)
    (fun s => s.history.map bindingView)
    (b := [(0, .dirIn, true), (0, .dirOut, true), (0, .dirIn, true)]) (by decide +kernel)
  refine ⟨s, total, ?_, ?_⟩
  · intro r member
    have image := List.mem_map_of_mem (f := bindingView) member
    rw [history] at image
    simp only [bindingView, List.mem_cons, Prod.mk.injEq, decide_eq_true_eq, List.not_mem_nil,
      or_false] at image
    rcases image with ⟨-, -, known⟩ | ⟨-, -, known⟩ | ⟨-, -, known⟩ <;> exact known
  · intro d
    have image : ((0, d, true) : Nat × FlowDir × Bool) ∈ s.history.map bindingView := by
      rw [history]
      cases d <;> decide
    obtain ⟨r, member, fields⟩ := List.mem_map.mp image
    simp only [bindingView, Prod.mk.injEq] at fields
    exact ⟨r, member, fields.1, fields.2.1⟩

/-- The reset of the completed connection goes to the client alone: its entry is learned and the
server's is not. -/
theorem server_side_unlearned :
    ∃ s, run (step portPlatform) portStart ethernet = .ok s ∧
      (s.wrk.resets.map fun g => (tcpSendReset hardwareOnly g).2.map SentFrame.dir) = [[.dirIn]] ∧
      ¬ Always (step portPlatform) EntriesLearned portStart ethernet ∧
      ¬ EachStep (step portPlatform) (ResetsBoth fun _ => hardwareOnly) portStart ethernet := by
  obtain ⟨t, total, facts⟩ := completed (x := run (step portPlatform) portStart ethernet)
    resetView (b := ([[.dirIn]], [0], [0])) (by decide +kernel)
  simp only [resetView, Prod.mk.injEq] at facts
  obtain ⟨frames, indices, entry⟩ := facts
  obtain ⟨t', total', listed, sent⟩ := ethernet_history
  cases total.symm.trans total'
  refine ⟨t, total, frames, ?_, ?_⟩
  · intro always
    have learned := always_iff_prefix.mp always ethernet t List.prefix_rfl total
    have at0 := congrArg (fun l : List UInt32 => l[0]?) entry
    simp only [List.getElem?_map] at at0
    obtain ⟨f, found, unset⟩ := Option.map_eq_some_iff.mp at0
    obtain ⟨r, member, _, link⟩ := learned 0 f .dirOut found (sent .dirOut)
    have one := (listed r member).1
    rw [← link, unset] at one
    exact absurd one (by decide)
  · intro each
    have split : ethernet = ethernet.dropLast ++ [.input 2] := rfl
    rw [split] at total each
    obtain ⟨s, reached, input⟩ := run_snoc_ok.mp total
    obtain ⟨s', reached', before⟩ := completed
      (x := run (step portPlatform) portStart ethernet.dropLast)
      (fun s => s.wrk.resets.length) (b := 0) (by decide +kernel)
    cases reached.symm.trans reached'
    obtain ⟨g, one, index⟩ := List.map_eq_singleton_iff.mp indices
    rw [one] at frames
    have known : BothKnown hardwareOnly t.history g.eltIndex := by
      intro d
      obtain ⟨r, member, on⟩ := sent d
      exact ⟨r, member, index ▸ on, (listed r member).2⟩
    have grown : t.wrk.resets = s.wrk.resets ++ [g] := by
      rw [List.length_eq_zero_iff.mp before, one]
      rfl
    have both : (tcpSendReset hardwareOnly g).2.map SentFrame.dir = [.dirIn, .dirOut] :=
      congrArg (fun sent : Int × List SentFrame => sent.2.map SentFrame.dir)
        (eachStep_last reached input each g grown known fun _ => rfl)
    cases (List.singleton_inj.mp frames).symm.trans both

end FlowTable
