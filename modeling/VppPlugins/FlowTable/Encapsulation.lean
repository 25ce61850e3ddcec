import VppPlugins.FlowTable.ResetSequence

/-! The encapsulation of resets. A flow entry remembers how many tags the packet that made the
flow had and their VLAN ids, but not the EtherType of the outer one. -/
namespace FlowTable
open Bytes Faults Runs

variable {Mem Tbl : Type} {P : Platform Mem Tbl}

structure Tag where
  tpid : UInt16
  id : UInt16
  deriving DecidableEq, Repr

/-- The EtherType behind the Ethernet addresses. -/
def Buffer.etherType (b : Buffer) : UInt16 := b.net16 (b.l2HdrOffset + 12)

/-- The tags that `parse_vlan_tags` recognises, outermost first. -/
def Buffer.vlanStack (b : Buffer) : List Tag :=
  if b.etherType = ETHERNET_TYPE_VLAN ∨ b.etherType = ETHERNET_TYPE_DOT1AD then
    ⟨b.etherType, vlanId (b.net16 (b.l2HdrOffset + 14))⟩ ::
      if b.net16 (b.l2HdrOffset + 16) = ETHERNET_TYPE_VLAN then
        [⟨ETHERNET_TYPE_VLAN, vlanId (b.net16 (b.l2HdrOffset + 18))⟩]
      else []
  else []

/-- The frame has the packet's tags, and its Ethernet addresses swapped. -/
structure KeepsEncapsulation (b : Buffer) (fr : ResetFrame) : Prop where
  tags : (Buffer.filled fr.bytes).vlanStack = b.vlanStack
  dst : (Buffer.filled fr.bytes).mac 0 = b.mac (b.l2HdrOffset + 6)
  src : (Buffer.filled fr.bytes).mac 6 = b.mac b.l2HdrOffset

/-! What the parser tells of a tag stack. -/

def TagStack.tags : TagStack → List Tag
  | untagged => []
  | single tpid tci => [⟨tpid.value, vlanId tci⟩]
  | double tpid outerTci innerTci => [⟨tpid.value, vlanId outerTci⟩, ⟨0x8100, vlanId innerTci⟩]

theorem vlanStack_laidOut {b : Buffer} {tags : TagStack} (h : tags.LaidOut b b.l2HdrOffset) :
    b.vlanStack = tags.tags := by
  cases tags with
  | untagged =>
      have plain : b.etherType = 0x0800 := h
      rw [Buffer.vlanStack, plain, if_neg ip4_not_tagged]
      rfl
  | single tpid tci =>
      obtain ⟨outer, id, ip⟩ := h
      have outer' : b.etherType = tpid.value := outer
      rw [Buffer.vlanStack, outer', if_pos tpid.recognised, id, ip,
        if_neg (not_or.mp ip4_not_tagged).1]
      rfl
  | double tpid outerTci innerTci =>
      obtain ⟨outer, id, inner, innerId, _⟩ := h
      have outer' : b.etherType = tpid.value := outer
      have second : (0x8100 : UInt16) = ETHERNET_TYPE_VLAN := rfl
      rw [Buffer.vlanStack, outer', if_pos tpid.recognised, id, inner, if_pos second, innerId]
      rfl

/-- The tag counts and ids that the parser returns, with the tags they stand for. -/
theorem parseVlanTags_cases (b : Buffer) :
    (parseVlanTags b = ⟨14, 0, 0, 0⟩ ∧ b.vlanStack = [] ∧ b.etherType ≠ ETHERNET_TYPE_DOT1AD) ∨
      (b.etherType = ETHERNET_TYPE_VLAN ∨ b.etherType = ETHERNET_TYPE_DOT1AD) ∧
        ((∃ tci, parseVlanTags b = ⟨18, vlanId tci, 0, 1⟩ ∧
            b.vlanStack = [⟨b.etherType, vlanId tci⟩]) ∨
          ∃ outerTci innerTci, parseVlanTags b = ⟨22, vlanId outerTci, vlanId innerTci, 2⟩ ∧
            b.vlanStack = [⟨b.etherType, vlanId outerTci⟩,
              ⟨ETHERNET_TYPE_VLAN, vlanId innerTci⟩]) := by
  have at16 : b.l2HdrOffset + 14 + 2 = b.l2HdrOffset + 16 := by omega
  have at18 : b.l2HdrOffset + 14 + 4 = b.l2HdrOffset + 18 := by omega
  have outer : b.net16 (b.l2HdrOffset + 12) = b.etherType := rfl
  by_cases tagged : b.etherType = ETHERNET_TYPE_VLAN ∨ b.etherType = ETHERNET_TYPE_DOT1AD
  · refine .inr ⟨tagged, ?_⟩
    by_cases second : b.net16 (b.l2HdrOffset + 16) = ETHERNET_TYPE_VLAN
    · refine .inr ⟨b.net16 (b.l2HdrOffset + 14), b.net16 (b.l2HdrOffset + 18), ?_, ?_⟩
      · simp only [parseVlanTags, outer, if_pos tagged, at16, if_pos second, at18, mask_vlanId]
      · rw [Buffer.vlanStack, if_pos tagged, if_pos second]
    · refine .inl ⟨b.net16 (b.l2HdrOffset + 14), ?_, ?_⟩
      · simp only [parseVlanTags, outer, if_pos tagged, at16, if_neg second, mask_vlanId]
      · rw [Buffer.vlanStack, if_pos tagged, if_neg second]
  · refine .inl ⟨?_, ?_, fun dot1ad => tagged (.inr dot1ad)⟩
    · simp only [parseVlanTags, outer, if_neg tagged]
    · rw [Buffer.vlanStack, if_neg tagged]

theorem vlanId_lt (tci : UInt16) : (vlanId tci).toNat < 4096 := by
  rw [vlanId, UInt16.toNat_ofNat']
  omega

/-! The entry made from a packet, and the frames built from it. -/

/-- The entry holds the Ethernet addresses of the packet, and what the parser returned for
its tags. -/
structure FlowEntry.Took (e : FlowEntry) (b : Buffer) : Prop where
  smac : e.smac = b.mac (b.l2HdrOffset + 6)
  dmac : e.dmac = b.mac b.l2HdrOffset
  outer : e.outerVlanId = (parseVlanTags b).outerVlanId
  inner : e.innerVlanId = (parseVlanTags b).innerVlanId
  present : e.vlanPresent = (parseVlanTags b).vlanPresent

theorem FlowEntry.Took.tagged {e : FlowEntry} {b : Buffer} (took : e.Took b) : e.Tagged := by
  obtain ⟨-, -, outer, inner, present⟩ := took
  rcases parseVlanTags_cases b with ⟨parsed, -⟩ | ⟨-, ⟨tci, parsed, -⟩ | ⟨tci, tci', parsed, -⟩⟩
  · have none : e.vlanPresent = 0 := present.trans (congrArg VlanTags.vlanPresent parsed)
    have outerZero : e.outerVlanId = 0 := outer.trans (congrArg VlanTags.outerVlanId parsed)
    have innerZero : e.innerVlanId = 0 := inner.trans (congrArg VlanTags.innerVlanId parsed)
    exact ⟨.inl none, by rw [outerZero]; decide, by rw [innerZero]; decide, fun _ => outerZero,
      fun _ => innerZero⟩
  · have one : e.vlanPresent = 1 := present.trans (congrArg VlanTags.vlanPresent parsed)
    have innerZero : e.innerVlanId = 0 := inner.trans (congrArg VlanTags.innerVlanId parsed)
    refine ⟨.inr (.inl one), ?_, by rw [innerZero]; decide, ?_, fun _ => innerZero⟩
    · rw [outer, parsed]
      exact vlanId_lt tci
    · rw [one]
      exact fun none => absurd none (by decide)
  · have two : e.vlanPresent = 2 := present.trans (congrArg VlanTags.vlanPresent parsed)
    refine ⟨.inr (.inr two), ?_, ?_, ?_, fun other => absurd two other⟩
    · rw [outer, parsed]
      exact vlanId_lt tci
    · rw [inner, parsed]
      exact vlanId_lt tci'
    · rw [two]
      exact fun none => absurd none (by decide)

/-- The tags of the entry's reset. Their EtherTypes are constants of the frame builder. -/
theorem tagStack_tags {e : FlowEntry} {b : Buffer} (took : e.Took b) :
    e.tagStack.tags = b.vlanStack.map fun tag => { tag with tpid := ETHERNET_TYPE_VLAN } := by
  have outerId := vlanId_small took.tagged.outer
  have innerId := vlanId_small took.tagged.inner
  obtain ⟨-, -, outer, inner, present⟩ := took
  rcases parseVlanTags_cases b with ⟨parsed, stack, -⟩ |
    ⟨-, ⟨tci, parsed, stack⟩ | ⟨tci, tci', parsed, stack⟩⟩
  · have none : e.vlanPresent = 0 := present.trans (congrArg VlanTags.vlanPresent parsed)
    rw [stack, FlowEntry.tagStack, none]
    rfl
  · have one : e.vlanPresent = 1 := present.trans (congrArg VlanTags.vlanPresent parsed)
    rw [parsed] at outer
    rw [stack, FlowEntry.tagStack, one, if_neg (by decide), if_pos rfl, TagStack.tags, outerId,
      outer]
    rfl
  · have two : e.vlanPresent = 2 := present.trans (congrArg VlanTags.vlanPresent parsed)
    rw [parsed] at outer inner
    rw [stack, FlowEntry.tagStack, two, if_pos rfl, TagStack.tags, outerId, innerId, outer, inner]
    rfl

section

variable {flow : Flow} {i : FlowDir}

theorem reset_vlanStack (version : flow.ipVersion = 4) (tagged : (flow.flowEntry i).Tagged) :
    (Buffer.filled (resetFrame flow i).bytes).vlanStack = (flow.flowEntry i).tagStack.tags :=
  vlanStack_laidOut (resetVlanTags_laidOut tagged
    (resetHeld_of_holdsAt version tagged (filled_holdsAt _)).tags)

/-- The frame's Ethernet addresses are the entry's. -/
theorem reset_macs (flow : Flow) (i : FlowDir) :
    (Buffer.filled (resetFrame flow i).bytes).mac 0 = (flow.flowEntry i).smac ∧
      (Buffer.filled (resetFrame flow i).bytes).mac 6 = (flow.flowEntry i).dmac := by
  constructor
  · funext k
    fin_cases k <;> rfl
  · funext k
    fin_cases k <;> rfl

theorem dot1q_iff {b : Buffer}
    (tagged : b.etherType = ETHERNET_TYPE_VLAN ∨ b.etherType = ETHERNET_TYPE_DOT1AD) :
    ETHERNET_TYPE_VLAN = b.etherType ↔ b.etherType ≠ ETHERNET_TYPE_DOT1AD := by
  rcases tagged with dot1q | dot1ad
  · rw [dot1q]
    decide
  · rw [dot1ad]
    decide

theorem keepsEncapsulation_iff {b : Buffer} (version : flow.ipVersion = 4)
    (took : (flow.flowEntry i).Took b) :
    KeepsEncapsulation b (resetFrame flow i) ↔ b.etherType ≠ ETHERNET_TYPE_DOT1AD := by
  obtain ⟨dst, src⟩ := reset_macs flow i
  have tags := (reset_vlanStack version took.tagged).trans (tagStack_tags took)
  have same : KeepsEncapsulation b (resetFrame flow i) ↔
      (b.vlanStack.map fun tag => { tag with tpid := ETHERNET_TYPE_VLAN }) = b.vlanStack :=
    ⟨fun keeps => tags.symm.trans keeps.tags,
      fun fixed => ⟨tags.trans fixed, dst.trans took.smac, src.trans took.dmac⟩⟩
  rw [same]
  rcases parseVlanTags_cases b with ⟨-, stack, plain⟩ |
    ⟨tagged, ⟨tci, -, stack⟩ | ⟨tci, tci', -, stack⟩⟩
  · rw [stack]
    exact iff_of_true rfl plain
  · rw [stack, ← dot1q_iff tagged]
    simp
  · rw [stack, ← dot1q_iff tagged]
    simp

end

/-! The flows of a worker, and the resets it has called for, against the packets that made the
flows. -/

/-- Everything of a link but the interface. -/
def Link.encapsulation (l : Link) : Link := { l with swIfIndex := 0 }

/-- The flow is of IPv4, and its entry for direction IN was made from the packet. -/
structure Binding.Makes (r : Binding) (f : Flow) : Prop where
  version : f.ipVersion = 4
  parsed : ip4LookupKey r.packet = some r.key
  link : (f.flowEntry .dirIn).link.encapsulation = r.link.encapsulation

structure Sys.Made (s : Sys Mem Tbl) : Prop where
  tracks : s.Tracks
  flows : ∀ i f, s.wrk.flows.get? i = some f → ∀ r ∈ s.history, r.created = true → r.flow = i →
    r.Makes f
  inside : ∀ g ∈ s.wrk.resets, g.eltIndex < s.wrk.flows.size
  resets : ∀ g ∈ s.wrk.resets, ∀ r ∈ s.history, r.created = true → r.flow = g.eltIndex → r.Makes g

theorem newFlow_version (b : Buffer) (key : FlowKey) (index : Nat) :
    (ip4NewFlow b key index).ipVersion = 4 := by
  simp only [ip4NewFlow, flowTableInitFlow]
  split <;> rfl

theorem newFlow_encapsulation (b : Buffer) (key : FlowKey) (index : Nat) :
    ((ip4NewFlow b key index).flowEntry .dirIn).link.encapsulation =
      (b.link key).encapsulation := by
  rw [newFlow_link]
  split <;> rfl

theorem makes_congr {r : Binding} {f g : Flow} (makes : r.Makes f)
    (version : g.ipVersion = f.ipVersion)
    (link : (g.flowEntry .dirIn).link = (f.flowEntry .dirIn).link) : r.Makes g :=
  ⟨version.trans makes.version, makes.parsed, link ▸ makes.link⟩

theorem makes_of_identity {r : Binding} {f g : Flow} (same : g.identity = f.identity)
    (makes : r.Makes f) : r.Makes g :=
  makes_congr makes (congrArg Flow.ipVersion same :) (link_of_identity same .dirIn)

/-- A flow is made in a new element of the pool. -/
theorem created_at_end {s t : Sys Mem Tbl} {c : Call} {r : Binding} (shaped : s.wrk.Shaped)
    (done : step P s c = .ok t) (member : r ∈ t.history) (created : r.created = true) :
    r ∈ s.history ∨ r.flow = s.wrk.flows.size := by
  cases step_cases shaped done with
  | receive slot b => exact .inl member
  | preProcess slot => exact .inl member
  | idle slot nothing => exact .inl member
  | advance ticks => exact .inl member
  | mirrors slot index f w effect => exact .inl member
  | creates slot h o handler key buf effect =>
      rcases List.mem_append.mp member with old | new
      · exact .inl old
      · rw [List.mem_singleton.mp new]
        exact .inr effect.index
  | finds slot h o a f handler key buf effect =>
      rcases List.mem_append.mp member with old | new
      · exact .inl old
      · rw [List.mem_singleton.mp new] at created
        cases created.symm.trans effect.created

/-- A reset is called for with the flow as it stands in the pool. -/
theorem reset_stored {s t : Sys Mem Tbl} {c : Call} {g : Flow} (shaped : s.wrk.Shaped)
    (done : step P s c = .ok t) (member : g ∈ t.wrk.resets) :
    g ∈ s.wrk.resets ∨ t.wrk.flows.get? g.eltIndex = some g := by
  rcases step_resets shaped done with same | ⟨r, f, f', u⟩
  · exact .inl (same ▸ member)
  · rw [u.resets] at member
    rcases List.mem_append.mp member with old | new
    · exact .inl old
    · have last : g = f' := by
        unfold ProtocolHandler.emitted at new
        dsimp only at new
        split at new
        · exact List.mem_singleton.mp new
        · cases new
      have index := ((step_shaped shaped done).flow _ f' u.after).eltIndex
      rw [last, index]
      exact .inr u.after

theorem step_made_flows {s t : Sys Mem Tbl} {c : Call} (made : s.Made) (done : step P s c = .ok t) :
    ∀ i f, t.wrk.flows.get? i = some f → ∀ r ∈ t.history, r.created = true → r.flow = i →
      r.Makes f := by
  intro i g found r member created here
  cases step_cases made.tracks.shaped done with
  | receive slot b => exact made.flows i g found r member created here
  | preProcess slot => exact made.flows i g found r member created here
  | idle slot nothing => exact made.flows i g found r member created here
  | advance ticks => exact made.flows i g found r member created here
  | creates slot h o handler key buf effect =>
      rcases FixedPool.found_replaced effect.flows found with ⟨new, rfl⟩ | ⟨other, before⟩
      · rcases List.mem_append.mp member with old | last
        · have inside := made.tracks.inside r old
          rw [here, new, effect.index] at inside
          exact absurd inside (Nat.lt_irrefl _)
        · rw [List.mem_singleton.mp last]
          refine makes_of_identity (identity_started ..) ⟨newFlow_version .., ?_, ?_⟩
          · exact lookupKey_of_parsed handler key
          · exact newFlow_encapsulation ..
      · rcases List.mem_append.mp member with old | last
        · exact made.flows i g before r old created here
        · rw [List.mem_singleton.mp last] at here
          exact absurd here.symm other
  | finds slot h o a f handler key buf effect =>
      have old : r ∈ s.history := by
        rcases List.mem_append.mp member with old | last
        · exact old
        · rw [List.mem_singleton.mp last] at created
          cases created.symm.trans effect.created
      rcases FixedPool.found_replaced effect.flows found with ⟨same, rfl⟩ | ⟨other, before⟩
      · exact makes_of_identity (identity_updated ..)
          (made.flows _ f effect.found r old created (here.trans same))
      · exact made.flows i g before r old created here
  | mirrors slot index f w effect =>
      rcases FixedPool.found_replaced effect.replaced.flows found with ⟨same, rfl⟩ | ⟨_, before⟩
      · exact makes_congr (made.flows _ f effect.found r member created (here.trans same)) rfl
          (updateFlow_link ..)
      · exact made.flows i g before r member created here

theorem step_made {s t : Sys Mem Tbl} {c : Call} (made : s.Made) (done : step P s c = .ok t) :
    t.Made := by
  have shaped := made.tracks.shaped
  have flows := step_made_flows made done
  refine ⟨step_tracks made.tracks done, flows, ?_, ?_⟩
  · intro g member
    rcases reset_stored shaped done member with old | stored
    · exact Nat.lt_of_lt_of_le (made.inside g old) (step_size shaped done)
    · exact FixedPool.lt_size_of_get? stored
  · intro g member r recorded created here
    rcases reset_stored shaped done member with old | stored
    · rcases created_at_end shaped done recorded created with before | last
      · exact made.resets g old r before created here
      · exact absurd (made.inside g old) (by rw [← here, last]; exact Nat.lt_irrefl _)
    · exact flows _ g stored r recorded created here

theorem initial_made (P : Platform Mem Tbl) (nThreads : Nat) (bufs : Nat → Buffer) :
    (initial P nThreads bufs).Made :=
  ⟨initial_tracks P nThreads bufs, fun _ _ found => (nomatch found),
    fun _ member => (nomatch member), fun _ member => (nomatch member)⟩

/-- The key takes its VLAN fields from the words that `ip4_pre_process` left. -/
theorem lookupKey_vlan {b : Buffer} {key : FlowKey}
    (looked : ip4LookupKey (ip4PreProcess b).1 = some key) :
    key.outerVlanId = (parseVlanTags b).outerVlanId ∧
      key.innerVlanId = (parseVlanTags b).innerVlanId ∧
      key.vlanPresent = (parseVlanTags b).vlanPresent := by
  obtain ⟨h, -, rfl⟩ := Option.map_eq_some_iff.mp looked
  have kept (p : Buffer) (k : FlowKey) : (h.parseKey p k).outerVlanId = k.outerVlanId ∧
      (h.parseKey p k).innerVlanId = k.innerVlanId ∧
      (h.parseKey p k).vlanPresent = k.vlanPresent := by
    cases h <;> exact ⟨rfl, rfl, rfl⟩
  obtain ⟨outer, inner, present⟩ := kept (ip4PreProcess b).1 (ip4PreProcess b).1.ip4FlowKey
  refine ⟨outer.trans ?_, inner.trans ?_, present.trans ?_⟩
  · change (((ip4PreProcess b).1.unused0 >>> 16) &&& 0xFFFF).toUInt16 = _
    rw [preProcess_unused0, pack_high]
  · change ((ip4PreProcess b).1.unused0 &&& 0xFFFF).toUInt16 = _
    rw [preProcess_unused0, pack_low]
  · change (ip4PreProcess b).1.unused1.toUInt8 = _
    rw [preProcess_unused1, UInt8.toUInt8_toUInt32]

theorem preProcess_link (b : Buffer) (key : FlowKey) :
    ((ip4PreProcess b).1.link key).encapsulation = (b.link key).encapsulation := by
  have mac (off : Int) : (ip4PreProcess b).1.mac off = b.mac off := by
    funext i
    simp only [Buffer.mac, preProcess_data]
  simp only [Buffer.link, Link.encapsulation, mac, preProcess_l2HdrOffset]

theorem took_of_makes {r : Binding} {f : Flow} {b : Buffer} (makes : r.Makes f)
    (packet : r.packet = (ip4PreProcess b).1) : (f.flowEntry .dirIn).Took b := by
  have link := makes.link
  have parsed := makes.parsed
  rw [Binding.link, packet, preProcess_link] at link
  rw [packet] at parsed
  obtain ⟨outer, inner, present⟩ := lookupKey_vlan parsed
  refine ⟨?_, ?_, ?_, ?_, ?_⟩
  · exact (congrArg Link.smac link :)
  · exact (congrArg Link.dmac link :)
  · exact (congrArg Link.outerVlanId link :).trans outer
  · exact (congrArg Link.innerVlanId link :).trans inner
  · exact (congrArg Link.vlanPresent link :).trans present

/-- The frame was built for direction IN of the flow that the TCP packet in `b` has made. -/
def Sys.Answers (s : Sys Mem Tbl) (b : Buffer) (fr : ResetFrame) : Prop :=
  ∃ r ∈ s.history, r.created = true ∧ r.packet = (ip4PreProcess b).1 ∧
    r.packet.ipProtocol = IP_PROTOCOL_TCP ∧ ∃ g ∈ s.wrk.resets, g.eltIndex = r.flow ∧
      ∃ vnm, ∃ sent ∈ (tcpSendReset vnm g).2, sent.dir = .dirIn ∧ sent.frame = fr

/-- A reset keeps the encapsulation of the packet that made its flow exactly when the outer tag
of that packet, if it has one, is not of 802.1ad. -/
theorem resets_keep_encapsulation_iff {nThreads : Nat} {bufs : Nat → Buffer} {cs : List Call}
    {s : Sys Mem Tbl} {b : Buffer} {fr : ResetFrame}
    (reached : run (step P) (initial P nThreads bufs) cs = .ok s) (answer : s.Answers b fr) :
    KeepsEncapsulation b fr ↔ b.etherType ≠ ETHERNET_TYPE_DOT1AD := by
  have made := run_invariant Sys.Made (fun _ _ _ => step_made) (initial_made P nThreads bufs)
    reached
  obtain ⟨r, recorded, created, packet, -, g, called, own, vnm, sent, member, side, rfl⟩ := answer
  have makes := made.resets g called r recorded created own.symm
  obtain ⟨-, frame, -⟩ := sent_frame member
  rw [frame, side]
  exact keepsEncapsulation_iff makes.version (took_of_makes makes packet)

/-- The client's SYN with MAC addresses, behind tags. -/
def Segment.behind (p : Segment) (tags : List UInt8) : Buffer :=
  { p.linked with
    data := fun i =>
      if 12 ≤ i then (tags ++ p.bytes.drop 12).getD (i - 12).toNat 0 else p.linked.data i }

/-- A connection of tagged packets that the handshake completes. -/
def taggedConnection (tags : List UInt8) : List Call :=
  [.receive 0 (clientSyn.behind tags), .preProcess 0] ++
    [.input 0, .output 0, .receive 1 (serverSynAck.behind tags), .preProcess 1, .input 1,
      .output 1, .receive 2 ({ clientSyn with flags := TCP_FLAG_ACK }.behind tags), .preProcess 2,
      .input 2]

/-- What can be read off the evaluated run: its bindings, and the tags of its resets. -/
structure TaggedView where
  bindings : List (Nat × Bool × UInt8)
  resets : List (Nat × List (FlowDir × List Tag))
  deriving DecidableEq

def taggedView (s : MapSys) : TaggedView where
  bindings := s.history.map fun r => (r.flow, r.created, r.packet.ipProtocol)
  resets := s.wrk.resets.map fun g => (g.eltIndex, (tcpSendReset hardwareOnly g).2.map fun sent =>
    (sent.dir, (Buffer.filled sent.frame.bytes).vlanStack))

theorem tagged_answer (tags : List UInt8) (stack : List Tag)
    (view : (run (step portPlatform) portStart (taggedConnection tags)).toOption.map taggedView =
      some ⟨[(0, true, 6), (0, false, 6), (0, false, 6)], [(0, [(.dirIn, stack)])]⟩) :
    ∃ s fr, run (step portPlatform) portStart (taggedConnection tags) = .ok s ∧
      s.Answers (clientSyn.behind tags) fr ∧ (Buffer.filled fr.bytes).vlanStack = stack := by
  obtain ⟨s, reached, facts⟩ := completed taggedView view
  obtain ⟨history, resets⟩ := TaggedView.mk.inj facts
  -- the first binding is that of the SYN as the first hook left it
  obtain ⟨u, waiting, rest⟩ := run_append_ok.mp reached
  have packet : u.bufs 0 = (ip4PreProcess (clientSyn.behind tags)).1 := by
    cases waiting
    rfl
  have empty : u.history = [] := by
    cases waiting
    rfl
  obtain ⟨t, input, later⟩ := run_cons_ok.mp rest
  simp only [step, bind_ok, pure_ok] at input
  obtain ⟨o, -, rfl⟩ := input
  obtain ⟨others, whole⟩ := run_history later
  dsimp only at whole
  rw [empty, List.nil_append, List.singleton_append] at whole
  rw [← whole, List.map_cons] at history
  obtain ⟨first, -⟩ := List.cons.inj history
  simp only [Prod.mk.injEq] at first
  obtain ⟨flow, created, tcp⟩ := first
  obtain ⟨g, one, sent⟩ := List.map_eq_singleton_iff.mp resets
  obtain ⟨index, frames⟩ := Prod.mk.inj sent
  obtain ⟨sent, only, fields⟩ := List.map_eq_singleton_iff.mp frames
  obtain ⟨dir, seen⟩ := Prod.mk.inj fields
  refine ⟨s, sent.frame, reached, ⟨_, whole ▸ List.mem_cons_self, created, packet, tcp, g, ?_,
    index.trans flow.symm, hardwareOnly, sent, ?_, dir, rfl⟩, seen⟩
  · rw [one]
    exact List.mem_cons_self
  · rw [only]
    exact List.mem_cons_self

theorem dot1q_encapsulation_kept :
    ∃ s fr, run (step portPlatform) portStart (taggedConnection [0x81, 0, 0, 100]) = .ok s ∧
      s.Answers (clientSyn.behind [0x81, 0, 0, 100]) fr ∧
      (KeepsEncapsulation (clientSyn.behind [0x81, 0, 0, 100]) fr ↔
        (clientSyn.behind [0x81, 0, 0, 100]).etherType ≠ ETHERNET_TYPE_DOT1AD) := by
  obtain ⟨s, fr, reached, answer, -⟩ := tagged_answer [0x81, 0, 0, 100]
    [⟨0x8100, 100⟩] (by decide +kernel)
  exact ⟨s, fr, reached, answer, resets_keep_encapsulation_iff reached answer⟩

/-- Traffic under an 802.1ad tag is answered under an 802.1Q tag. -/
theorem dot1ad_tag_lost :
    ∃ s fr, run (step portPlatform) portStart (taggedConnection [0x88, 0xA8, 0, 100]) = .ok s ∧
      s.Answers (clientSyn.behind [0x88, 0xA8, 0, 100]) fr ∧
      (clientSyn.behind [0x88, 0xA8, 0, 100]).vlanStack = [⟨0x88A8, 100⟩] ∧
      (Buffer.filled fr.bytes).vlanStack = [⟨0x8100, 100⟩] ∧
      ¬ KeepsEncapsulation (clientSyn.behind [0x88, 0xA8, 0, 100]) fr := by
  obtain ⟨s, fr, reached, answer, seen⟩ := tagged_answer [0x88, 0xA8, 0, 100]
    [⟨0x8100, 100⟩] (by decide +kernel)
  have sent : (clientSyn.behind [0x88, 0xA8, 0, 100]).vlanStack = [⟨0x88A8, 100⟩] := by decide
  refine ⟨s, fr, reached, answer, sent, seen, fun keeps => ?_⟩
  have same := keeps.tags
  rw [seen, sent] at same
  exact absurd same (by decide)

end FlowTable
