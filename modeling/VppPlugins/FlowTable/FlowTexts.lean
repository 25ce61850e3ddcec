import VppPlugins.FlowTable.Show
import VppPlugins.FlowTable.MapRefinement
import VppPlugins.FlowTable.Encapsulation
import VppPlugins.FlowTable.Payload

/-! What the text of a flow tells about it. -/
namespace FlowTable
open Faults Runs TextFormat Vnetfilter

variable {Mem Tbl A : Type} {F : Formatters} {P : Platform Mem Tbl}

/-- The texts of addresses and protocols can be told apart and told from what follows them. -/
structure Formatters.Legible (F : Formatters) : Prop where
  address : Function.Injective F.formatIp4Address
  addressFree : ∀ a, Free [',', ':'] (F.formatIp4Address a)
  protocol : Function.Injective F.formatIpProtocol
  protocolFree : ∀ p, Free [',', '\n'] (F.formatIpProtocol p)

/-! One shape for the four functions. -/

/-- What all formats begin with. -/
def opening : List Piece := pieces "sw_if_index %d %d, src %U, dst %U, protocol ".toList

def ProtocolHandler.endpoint (F : Formatters) (a : IpAddress) (port : UInt16) :
    ProtocolHandler → Text
  | .tcp | .udp => F.formatIp4Address a.ip4 ++ ':' :: signed port.toUInt32
  | .unimplemented | .icmp => F.formatIp4Address a.ip4

/-- What follows the protocol. -/
def ProtocolHandler.ending (f : Flow) : ProtocolHandler → Text
  | .tcp =>
      ',' :: (" state ".toList ++ ((tcpStateName f.state).toList ++ '\n' ::
        (formatFlowVlan (f.flowEntry .dirIn) ++
          format "  seq[0] %u, ack[0] %u, seq[1] %u, ack[1] %u\n"
            [unsigned (f.flowEntry .dirIn).tcpAttr.seq.toNat,
              unsigned (f.flowEntry .dirIn).tcpAttr.ack.toNat,
              unsigned (f.flowEntry .dirOut).tcpAttr.seq.toNat,
              unsigned (f.flowEntry .dirOut).tcpAttr.ack.toNat])))
  | .unimplemented | .icmp | .udp => '\n' :: formatFlowVlan (f.flowEntry .dirIn)

def ProtocolHandler.openingArgs (F : Formatters) (h : ProtocolHandler) (f : Flow) : List Text :=
  [signed (f.flowEntry .dirIn).swIfIndex, signed (f.flowEntry .dirOut).swIfIndex,
    h.endpoint F (f.flowEntry .dirIn).src (f.flowEntry .dirIn).srcPort,
    h.endpoint F (f.flowEntry .dirIn).dst (f.flowEntry .dirIn).dstPort]

theorem formatFlow_eq {f : Flow} (version : f.ipVersion = 4) (h : ProtocolHandler) :
    h.formatFlow F f =
      render opening (h.openingArgs F f) ++ (F.formatIpProtocol f.protocol ++ h.ending f) := by
  cases h with
  | tcp =>
      simp [ProtocolHandler.formatFlow, tcpFlowFormat, ProtocolHandler.openingArgs,
        ProtocolHandler.endpoint, ProtocolHandler.ending, Formatters.address, version, opening,
        format, pieces, render]
  | udp =>
      simp [ProtocolHandler.formatFlow, udpFlowFormat, ProtocolHandler.openingArgs,
        ProtocolHandler.endpoint, ProtocolHandler.ending, Formatters.address, version, opening,
        format, pieces, render]
  | icmp =>
      simp [ProtocolHandler.formatFlow, icmpFlowFormat, portlessFlowFormat,
        ProtocolHandler.openingArgs, ProtocolHandler.endpoint, ProtocolHandler.ending,
        Formatters.address, version, opening, format, pieces, render]
  | unimplemented =>
      simp [ProtocolHandler.formatFlow, umimplementedFlowFormat, portlessFlowFormat,
        ProtocolHandler.openingArgs, ProtocolHandler.endpoint, ProtocolHandler.ending,
        Formatters.address, version, opening, format, pieces, render]

theorem endpoint_free (legible : F.Legible) (h : ProtocolHandler) (a : IpAddress)
    (port : UInt16) : Free [','] (h.endpoint F a port) := by
  have address : Free [','] (F.formatIp4Address a.ip4) := fun c member stop =>
    legible.addressFree _ c member (List.mem_cons.mpr (.inl (List.mem_singleton.mp stop)))
  have ports : Free [','] (F.formatIp4Address a.ip4 ++ ':' :: signed port.toUInt32) := by
    intro c member
    rcases List.mem_append.mp member with front | back
    · exact address c front
    · rcases List.mem_cons.mp back with rfl | digit
      · decide
      · exact signed_free rfl (by decide) _ c digit
  cases h with
  | tcp => exact ports
  | udp => exact ports
  | icmp => exact address
  | unimplemented => exact address

theorem opening_delimited (legible : F.Legible) (h : ProtocolHandler) (f : Flow) :
    Delimited opening (h.openingArgs F f) := by
  change Free [' '] _ ∧ Free [','] _ ∧ Free [','] _ ∧ Free [','] _ ∧ _ = _
  exact ⟨signed_free rfl (by decide) _, signed_free rfl (by decide) _, endpoint_free legible h _ _,
    endpoint_free legible h _ _, rfl⟩

theorem ending_stops (h : ProtocolHandler) (f : Flow) :
    ∃ c rest, h.ending f = c :: rest ∧ c ∈ [',', '\n'] := by
  cases h with
  | tcp => exact ⟨_, _, rfl, by decide⟩
  | udp => exact ⟨_, _, rfl, by decide⟩
  | icmp => exact ⟨_, _, rfl, by decide⟩
  | unimplemented => exact ⟨_, _, rfl, by decide⟩

/-! The line about the tags. -/

def FlowEntry.vlanNumber (e : FlowEntry) : Text :=
  if e.vlanPresent = 0 then [] else signed e.outerVlanId.toUInt32

def FlowEntry.vlanMark (e : FlowEntry) : Char :=
  if e.vlanPresent = 0 then 'n' else if e.vlanPresent = 1 then ' ' else '.'

def FlowEntry.vlanTail (e : FlowEntry) : Text :=
  if e.vlanPresent = 0 then "one\n".toList
  else if e.vlanPresent = 1 then "(802.1Q)\n".toList
  else signed e.innerVlanId.toUInt32 ++ " (QinQ/802.1ad)\n".toList

theorem formatFlowVlan_eq {e : FlowEntry} (tagged : e.Tagged) :
    formatFlowVlan e = "  VLAN: ".toList ++ (e.vlanNumber ++ e.vlanMark :: e.vlanTail) := by
  rcases tagged.present with none | one | two
  · simp [formatFlowVlan, FlowEntry.vlanNumber, FlowEntry.vlanMark, FlowEntry.vlanTail, none,
      format, pieces, render]
  · simp [formatFlowVlan, FlowEntry.vlanNumber, FlowEntry.vlanMark, FlowEntry.vlanTail, one,
      format, pieces, render]
  · simp [formatFlowVlan, FlowEntry.vlanNumber, FlowEntry.vlanMark, FlowEntry.vlanTail, two,
      format, pieces, render]

theorem vlanTail_two {e : FlowEntry} (two : e.vlanPresent = 2) :
    e.vlanTail = signed e.innerVlanId.toUInt32 ++ ' ' :: "(QinQ/802.1ad)\n".toList := by
  rw [FlowEntry.vlanTail, two]
  rfl

theorem vlanNumber_free (e : FlowEntry) : Free ['n', ' ', '.'] e.vlanNumber := by
  unfold FlowEntry.vlanNumber
  split
  · exact fun c member => (List.not_mem_nil member).elim
  · exact signed_free rfl (by decide) _

theorem vlanMark_stops (e : FlowEntry) : e.vlanMark ∈ ['n', ' ', '.'] := by
  unfold FlowEntry.vlanMark
  split
  · decide
  · split <;> decide

theorem vlanMark_inj {e e' : FlowEntry} (tagged : e.Tagged) (tagged' : e'.Tagged)
    (same : e.vlanMark = e'.vlanMark) : e.vlanPresent = e'.vlanPresent := by
  unfold FlowEntry.vlanMark at same
  rcases tagged.present with present | present | present <;>
    rcases tagged'.present with present' | present' | present' <;>
    rw [present, present'] at same ⊢ <;>
    exact absurd same (by decide)

theorem port_inj {p q : UInt16} (same : signed p.toUInt32 = signed q.toUInt32) : p = q :=
  UInt16.toUInt32_inj.mp (signed_inj same)

theorem vlan_inj {e e' : FlowEntry} (tagged : e.Tagged) (tagged' : e'.Tagged)
    {rest rest' : Text} (same : formatFlowVlan e ++ rest = formatFlowVlan e' ++ rest') :
    e.vlanPresent = e'.vlanPresent ∧ e.outerVlanId = e'.outerVlanId ∧
      e.innerVlanId = e'.innerVlanId := by
  rw [formatFlowVlan_eq tagged, formatFlowVlan_eq tagged', List.append_assoc, List.append_assoc,
    List.append_assoc, List.append_assoc] at same
  obtain ⟨number, mark, tail⟩ := stop_inj (vlanNumber_free e) (vlanNumber_free e')
    (vlanMark_stops e) (vlanMark_stops e') (List.append_cancel_left same)
  have present := vlanMark_inj tagged tagged' mark
  refine ⟨present, ?_, ?_⟩
  · by_cases none : e.vlanPresent = 0
    · rw [tagged.noOuter none, tagged'.noOuter (present ▸ none)]
    · rw [FlowEntry.vlanNumber, if_neg none, FlowEntry.vlanNumber, if_neg (present ▸ none)]
        at number
      exact port_inj number
  · by_cases two : e.vlanPresent = 2
    · change e.vlanTail ++ rest = e'.vlanTail ++ rest' at tail
      rw [vlanTail_two two, vlanTail_two (present ▸ two), List.append_assoc, List.append_assoc]
        at tail
      have free (id : UInt16) : Free [' '] (signed id.toUInt32) := signed_free rfl (by decide) _
      obtain ⟨ids, -⟩ := stop_inj (free _) (free _) List.mem_cons_self List.mem_cons_self tail
      exact port_inj ids
    · rw [tagged.noInner two, tagged'.noInner (present ▸ two)]

/-! The whole text -/

/-- A flow as packets that passed the hooks in order leave it. -/
structure Flow.Labelled (f : Flow) : Prop where
  listed : f.Listed
  version : f.ipVersion = 4
  protocol : f.key.protocol = f.protocol
  ports : f.protocol ≠ IP_PROTOCOL_TCP → f.key.srcPort = 0 ∧ f.key.dstPort = 0
  src : f.key.src = IpAddress.zero.setIp4 f.key.src.ip4
  dst : f.key.dst = IpAddress.zero.setIp4 f.key.dst.ip4
  outer : (f.flowEntry .dirIn).outerVlanId = f.key.outerVlanId
  inner : (f.flowEntry .dirIn).innerVlanId = f.key.innerVlanId
  present : (f.flowEntry .dirIn).vlanPresent = f.key.vlanPresent
  tagged : (f.flowEntry .dirIn).Tagged

theorem stateName_free (s : TcpState) : Free ['\n'] (tcpStateName s).toList := by
  cases s <;> decide

theorem endpoint_inj (legible : F.Legible) {h : ProtocolHandler} {a a' : IpAddress}
    {port port' : UInt16} (same : h.endpoint F a port = h.endpoint F a' port') :
    a.ip4 = a'.ip4 ∧ (h = .tcp ∨ h = .udp → port = port') := by
  have address (x : IpAddress) : Free [':'] (F.formatIp4Address x.ip4) := fun c member stop =>
    legible.addressFree _ c member (by simp [List.mem_singleton.mp stop])
  have ports (texts : F.formatIp4Address a.ip4 ++ ':' :: signed port.toUInt32 =
      F.formatIp4Address a'.ip4 ++ ':' :: signed port'.toUInt32) :
      a.ip4 = a'.ip4 ∧ port = port' := by
    obtain ⟨addresses, -, numbers⟩ := stop_inj (address a) (address a') List.mem_cons_self
      List.mem_cons_self texts
    exact ⟨legible.address addresses, port_inj numbers⟩
  cases h with
  | tcp => exact (ports same).imp_right fun equal _ => equal
  | udp => exact (ports same).imp_right fun equal _ => equal
  | icmp => exact ⟨legible.address same, by simp⟩
  | unimplemented => exact ⟨legible.address same, by simp⟩

theorem ending_vlan {h : ProtocolHandler} {f g : Flow} (same : h.ending f = h.ending g) :
    ∃ rest rest', formatFlowVlan (f.flowEntry .dirIn) ++ rest =
      formatFlowVlan (g.flowEntry .dirIn) ++ rest' := by
  cases h with
  | tcp =>
      have states := List.append_cancel_left (List.cons.inj same).2
      obtain ⟨-, -, vlans⟩ := stop_inj (stateName_free f.state) (stateName_free g.state)
        List.mem_cons_self List.mem_cons_self states
      exact ⟨_, _, vlans⟩
  | udp => exact ⟨[], [], by rw [(List.cons.inj same).2]⟩
  | icmp => exact ⟨[], [], by rw [(List.cons.inj same).2]⟩
  | unimplemented => exact ⟨[], [], by rw [(List.cons.inj same).2]⟩

/-- The text of a flow tells its key. -/
theorem flowText_inj (legible : F.Legible) {f g : Flow} {i j : Nat} (labels : f.Labelled)
    (labels' : g.Labelled) (shape : f.Shaped i) (shape' : g.Shaped j)
    (same : flowText F f = flowText F g) : f.key = g.key := by
  obtain ⟨h, handler⟩ := Option.ne_none_iff_exists'.mp labels.listed.handler
  obtain ⟨h', handler'⟩ := Option.ne_none_iff_exists'.mp labels'.listed.handler
  simp only [flowText, handler, handler', formatFlow_eq labels.version,
    formatFlow_eq labels'.version] at same
  obtain ⟨args, later⟩ := render_inj (opening_delimited legible h f)
    (opening_delimited legible h' g) same
  obtain ⟨c, rest, ends, stop⟩ := ending_stops h f
  obtain ⟨c', rest', ends', stop'⟩ := ending_stops h' g
  rw [ends, ends'] at later
  obtain ⟨protocols, heads, tails⟩ := stop_inj (legible.protocolFree _) (legible.protocolFree _)
    stop stop' later
  have protocol := legible.protocol protocols
  have handlers : h = h' := by
    rw [protocol] at handler
    exact Option.some.inj (handler.symm.trans handler')
  subst handlers
  simp only [ProtocolHandler.openingArgs, List.cons.injEq] at args
  obtain ⟨-, -, source, destination, -⟩ := args
  obtain ⟨src, srcPort⟩ := endpoint_inj legible source
  obtain ⟨dst, dstPort⟩ := endpoint_inj legible destination
  obtain ⟨_, _, vlans⟩ := ending_vlan (by rw [ends, ends', heads, tails] : h.ending f = h.ending g)
  obtain ⟨present, outer, inner⟩ := vlan_inj labels.tagged labels'.tagged vlans
  rw [shape.inFields.src, shape'.inFields.src] at src
  rw [shape.inFields.dst, shape'.inFields.dst] at dst
  have ports : f.key.srcPort = g.key.srcPort ∧ f.key.dstPort = g.key.dstPort := by
    by_cases tcp : f.protocol = IP_PROTOCOL_TCP
    · rw [tcp] at handler
      have own : h = .tcp :=
        Option.some.inj (handler.symm.trans (protocolHandlerGet_eq_tcp.mpr rfl))
      have both := And.intro (srcPort (.inl own)) (dstPort (.inl own))
      rw [shape.inFields.srcPort, shape'.inFields.srcPort, shape.inFields.dstPort,
        shape'.inFields.dstPort] at both
      exact both
    · obtain ⟨first, second⟩ := labels.ports tcp
      obtain ⟨first', second'⟩ := labels'.ports (protocol ▸ tcp)
      rw [first, first', second, second']
      exact ⟨rfl, rfl⟩
  apply FlowKey.ext
  · rw [labels.src, labels'.src, src]
  · rw [labels.dst, labels'.dst, dst]
  · exact ports.1
  · exact ports.2
  · rw [labels.protocol, labels'.protocol, protocol]
  · rw [← labels.outer, ← labels'.outer, outer]
  · rw [← labels.inner, ← labels'.inner, inner]
  · rw [← labels.present, ← labels'.present, present]

/-! Flows of the hooks in their order -/

theorem setIp4_ip4 (a : IpAddress) (v : Ip4Address) : (a.setIp4 v).ip4 = v := by
  funext i
  have last : 12 ≤ 12 + i.val := by omega
  simp only [IpAddress.ip4, IpAddress.setIp4, dif_pos last]
  congr 1
  exact Fin.ext (Nat.add_sub_cancel_left ..)

theorem parseKey_fields (h : ProtocolHandler) (b : Buffer) (key : FlowKey) :
    (h.parseKey b key).protocol = key.protocol ∧ (h.parseKey b key).src = key.src ∧
      (h.parseKey b key).dst = key.dst := by
  cases h <;> exact ⟨rfl, rfl, rfl⟩

theorem parseKey_ports {h : ProtocolHandler} (other : h ≠ .tcp) (b : Buffer) :
    (h.parseKey b b.ip4FlowKey).srcPort = 0 ∧ (h.parseKey b b.ip4FlowKey).dstPort = 0 := by
  cases h with
  | tcp => exact absurd rfl other
  | udp => exact ⟨rfl, rfl⟩
  | icmp => exact ⟨rfl, rfl⟩
  | unimplemented => exact ⟨rfl, rfl⟩

theorem newFlow_took {b : Buffer} {h : ProtocolHandler} {key : FlowKey} (index : Nat)
    (handler : protocolHandlerGet (ip4PreProcess b).1.ipProtocol = some h)
    (parsed : key = h.parseKey (ip4PreProcess b).1 (ip4PreProcess b).1.ip4FlowKey) :
    ((ip4NewFlow (ip4PreProcess b).1 key index).flowEntry .dirIn).Took b := by
  obtain ⟨outer, inner, present⟩ := lookupKey_vlan (lookupKey_of_parsed handler parsed)
  have mac (off : Int) : (ip4PreProcess b).1.mac off = b.mac off := by
    funext i
    simp only [Buffer.mac, preProcess_data]
  refine ⟨?_, ?_, ?_, ?_, ?_⟩
  · simp only [ip4NewFlow, setEntry_same, mac, preProcess_l2HdrOffset]
  · simp only [ip4NewFlow, setEntry_same, mac, preProcess_l2HdrOffset]
  · simp only [ip4NewFlow, setEntry_same, outer]
  · simp only [ip4NewFlow, setEntry_same, inner]
  · simp only [ip4NewFlow, setEntry_same, present]

theorem newFlow_labelled {b : Buffer} {h : ProtocolHandler} {key : FlowKey} (index : Nat)
    (handler : protocolHandlerGet (ip4PreProcess b).1.ipProtocol = some h)
    (parsed : key = h.parseKey (ip4PreProcess b).1 (ip4PreProcess b).1.ip4FlowKey) :
    (ip4NewFlow (ip4PreProcess b).1 key index).Labelled := by
  obtain ⟨protocol, src, dst⟩ :=
    parseKey_fields h (ip4PreProcess b).1 (ip4PreProcess b).1.ip4FlowKey
  rw [← parsed] at protocol src dst
  have own := ip4NewFlow_protocol (ip4PreProcess b).1 key index
  refine ⟨⟨ip4NewFlow_refcount .., ?_⟩, newFlow_version .., ?_, ?_, ?_, ?_, ?_, ?_, ?_,
    (newFlow_took index handler parsed).tagged⟩
  · rw [own, handler]
    exact Option.some_ne_none h
  · rw [own, ip4NewFlow_key, protocol]
    rfl
  · intro other
    rw [ip4NewFlow_key, parsed]
    refine parseKey_ports (fun tcp => other ?_) _
    rw [own]
    exact protocolHandlerGet_eq_tcp.mp (tcp ▸ handler)
  · rw [ip4NewFlow_key, src]
    simp only [Buffer.ip4FlowKey, setIp4_ip4]
  · rw [ip4NewFlow_key, dst]
    simp only [Buffer.ip4FlowKey, setIp4_ip4]
  · simp only [ip4NewFlow, setEntry_same, setEntry_key, flowTableInitFlow_key]
  · simp only [ip4NewFlow, setEntry_same, setEntry_key, flowTableInitFlow_key]
  · simp only [ip4NewFlow, setEntry_same, setEntry_key, flowTableInitFlow_key]

theorem labelled_of_identity {f g : Flow} (same : g.identity = f.identity)
    (labels : f.Labelled) : g.Labelled := by
  have entry := identity_entry same .dirIn
  have key := identity_key same
  have protocol : g.protocol = f.protocol := (congrArg Flow.protocol same :)
  have outer : (g.flowEntry .dirIn).outerVlanId = (f.flowEntry .dirIn).outerVlanId :=
    (congrArg FlowEntry.outerVlanId entry :)
  have inner : (g.flowEntry .dirIn).innerVlanId = (f.flowEntry .dirIn).innerVlanId :=
    (congrArg FlowEntry.innerVlanId entry :)
  have present : (g.flowEntry .dirIn).vlanPresent = (f.flowEntry .dirIn).vlanPresent :=
    (congrArg FlowEntry.vlanPresent entry :)
  constructor
  · exact ⟨(congrArg Flow.refcount same :).trans labels.listed.refcount,
      protocol ▸ labels.listed.handler⟩
  · exact (congrArg Flow.ipVersion same :).trans labels.version
  · rw [key, protocol, labels.protocol]
  · rw [key, protocol]
    exact labels.ports
  · rw [key]
    exact labels.src
  · rw [key]
    exact labels.dst
  · rw [key, outer, labels.outer]
  · rw [key, inner, labels.inner]
  · rw [key, present, labels.present]
  · have tagged := labels.tagged
    exact ⟨present ▸ tagged.present, outer ▸ tagged.outer, inner ▸ tagged.inner,
      present ▸ outer ▸ tagged.noOuter, present ▸ inner ▸ tagged.noInner⟩

theorem labelled_of_mirrored {f : Flow} (index : Nat) (labels : f.Labelled) :
    (flowTableUpdateFlow index f (flowKeyReverse f.key) .dirOut).Labelled := by
  have same : (flowTableUpdateFlow index f (flowKeyReverse f.key) .dirOut).flowEntry .dirIn =
      f.flowEntry .dirIn := setEntry_other (by decide)
  refine ⟨⟨labels.listed.refcount, labels.listed.handler⟩, labels.version, labels.protocol,
    labels.ports, labels.src, labels.dst, ?_, ?_, ?_, ?_⟩
  · rw [same]
    exact labels.outer
  · rw [same]
    exact labels.inner
  · rw [same]
    exact labels.present
  · rw [same]
    exact labels.tagged

/-- The pool of a worker whose hooks run in order. -/
structure Worker.Labelled (w : Worker Mem Tbl) : Prop where
  shaped : w.Shaped
  flows : ∀ i f, w.flows.get? i = some f → f.Labelled

theorem step_labelled {s t : Sys Mem Tbl} {c : Call} (inv : s.wrk.Labelled)
    (ready : ∀ slot, c = .input slot → ∃ b, s.bufs slot = (ip4PreProcess b).1)
    (done : step P s c = .ok t) : t.wrk.Labelled := by
  refine ⟨step_shaped inv.shaped done, step_flows inv.shaped done ?_
    (fun _ _ => labelled_of_identity) (fun _ => labelled_of_mirrored) inv.flows⟩
  intro slot h index call handler
  obtain ⟨b, packet⟩ := ready slot call
  rw [packet] at handler ⊢
  exact newFlow_labelled index handler rfl

theorem plugin_labelled {s t : Sys Mem Tbl} {point : HookPoint} {slot : Nat}
    (inv : s.wrk.Labelled) (done : run (step P) s (pluginCalls slot point) = .ok t) :
    t.wrk.Labelled := by
  cases point with
  | l2InputIp4 =>
      obtain ⟨u, parsed, input⟩ := run_cons_ok.mp done
      cases pure_ok.mp parsed
      rw [run_one] at input
      refine step_labelled
        (s := { s with bufs := Function.update s.bufs slot (ip4PreProcess (s.bufs slot)).1 }) inv
        ?_ input
      rintro _ ⟨⟩
      exact ⟨_, Function.update_self ..⟩
  | l2OutputIp4 =>
      rw [pluginCalls, run_one] at done
      exact step_labelled inv (fun _ call => (by cases call)) done
  | l2InputIp6 => cases done; exact inv
  | l2OutputIp6 => cases done; exact inv

theorem nodes_labelled {s t : Sys Mem Tbl} {n : NodeCall A} (inv : s.wrk.Labelled)
    (done : run (step P) s n.calls = .ok t) : t.wrk.Labelled := by
  cases n with
  | receive slot b =>
      rw [NodeCall.calls, run_one] at done
      exact step_labelled inv (fun _ call => (by cases call)) done
  | arcs f => cases done; exact inv
  | timer ticks =>
      rw [NodeCall.calls, run_one] at done
      exact step_labelled inv (fun _ call => (by cases call)) done
  | hook point trace frame stack =>
      rw [NodeCall.calls, run_flatMap] at done
      exact run_invariant (fun s : Sys Mem Tbl => s.wrk.Labelled)
        (fun _ _ _ => plugin_labelled) inv done

/-- The flows of a worker have different keys, whether or not its table is still alive. -/
theorem flows_apart {hash : FlowKey → UInt64} {wheel : TimerWheel.Policy} {nThreads : Nat}
    {bufs : Nat → Buffer} {cs : List Call} {s : VppSys}
    (reached : run (step (vppPlatform hash wheel)) (initial (vppPlatform hash wheel) nThreads bufs)
      cs = .ok s) {i j : Nat} {f g : Flow} (first : s.wrk.flows.get? i = some f)
    (second : s.wrk.flows.get? j = some g) (same : f.key = g.key) : i = j := by
  obtain ⟨m, -, related⟩ : ∃ m, run (step (mapPlatform hash wheel)) _ cs = .ok m ∧
      Matches hash s m :=
    run_simulates (fun _ _ _ _ => step_matched) (initial_matched hash wheel nThreads bufs) reached
  rw [← related.flows] at first second
  exact (represented_of_sound related.sound).apart i j f g first second (congrArg hash same)

/-- `show flow-table` never prints two flows of a thread alike, whatever packets the thread
has processed and whatever its hash function. -/
theorem texts_tell_flows_apart (legible : F.Legible) (hash : FlowKey → UInt64)
    (wheel : TimerWheel.Policy) (nThreads : Nat) (order : StartupOrder) (g : Graph A)
    (bufs : Nat → Buffer) (arc : A) (ns : List (NodeCall A)) :
    ∃ s w, startup (vppPlatform hash wheel) nThreads order = .ok s ∧ s.wrkCtx = some w ∧
      Always (nodeStep (vppPlatform hash wheel) g s.hookLists)
        (fun t => (t.sys.wrk.flows.elts.map (flowText F)).Nodup) ⟨⟨w, bufs, []⟩, arc, []⟩ ns := by
  obtain ⟨s, started, -, lists, context⟩ := startup_completes (vppPlatform hash wheel) nThreads order
  refine ⟨s, _, started, context, ?_⟩
  have hooks : s.hookLists = registeredHooks := lists
  rw [hooks, always_iff_prefix]
  intro ms t _ reached
  have calls := run_expands_ok (nodeStep_calls (vppPlatform hash wheel) g) reached
  have labelled : t.sys.wrk.Labelled :=
    run_invariant (fun s : VppSys => s.wrk.Labelled) (fun _ _ _ => nodes_labelled)
      ⟨initial_shaped _ nThreads bufs, fun _ _ found => (nomatch found)⟩
      ((run_flatMap (step (vppPlatform hash wheel)) (initial _ nThreads bufs) NodeCall.calls
        ms).symm.trans calls)
  rw [List.nodup_iff_getElem?_ne_getElem?]
  intro i j before inside same
  rw [List.length_map] at inside
  obtain ⟨f, first⟩ := FixedPool.get?_isSome_iff.mpr (Nat.lt_trans before inside)
  obtain ⟨h, second⟩ := FixedPool.get?_isSome_iff.mpr inside
  have texts : flowText F f = flowText F h := by
    have listed : (t.sys.wrk.flows.elts[i]?).map (flowText F) =
        (t.sys.wrk.flows.elts[j]?).map (flowText F) := by
      rw [← List.getElem?_map, ← List.getElem?_map, same]
    rw [FixedPool.get?] at first second
    rw [first, second] at listed
    exact Option.some.inj listed
  have keys := flowText_inj legible (labelled.flows i f first) (labelled.flows j h second)
    (labelled.shaped.flow i f first) (labelled.shaped.flow j h second) texts
  exact absurd (flows_apart calls first second keys) (Nat.ne_of_lt before)

/-- Addresses as four decimal numbers, protocols by number but for TCP. -/
def plainFormatters : Formatters where
  formatIp4Address a := format "%d.%d.%d.%d" (List.ofFn fun i => unsigned (a i).toNat)
  formatIp6Address _ := "::".toList
  formatIpProtocol p :=
    if p = IP_PROTOCOL_TCP then "TCP".toList else format "unknown %d" [unsigned p.toNat]

theorem plainAddress_inj : Function.Injective plainFormatters.formatIp4Address := by
  intro a b same
  have split (x : Ip4Address) : plainFormatters.formatIp4Address x =
      render (pieces "%d.%d.%d.".toList)
        [unsigned (x 0).toNat, unsigned (x 1).toNat, unsigned (x 2).toNat] ++
        unsigned (x 3).toNat := by
    simp [plainFormatters, format, pieces, render]
  have delimited (x : Ip4Address) : Delimited (pieces "%d.%d.%d.".toList)
      [unsigned (x 0).toNat, unsigned (x 1).toNat, unsigned (x 2).toNat] :=
    ⟨unsigned_free rfl _, unsigned_free rfl _, unsigned_free rfl _, rfl⟩
  rw [split, split] at same
  obtain ⟨front, last⟩ := render_inj (delimited a) (delimited b) same
  simp only [List.cons.injEq] at front
  obtain ⟨zero, one, two, -⟩ := front
  have texts : (List.ofFn fun i => unsigned (a i).toNat) =
      List.ofFn fun i => unsigned (b i).toNat := by
    simp [zero, one, two, last]
  funext i
  exact UInt8.toNat_inj.mp (unsigned_inj (congrFun (List.ofFn_injective texts) i))

theorem plainFormatters_legible : plainFormatters.Legible := by
  refine ⟨plainAddress_inj, ?_, ?_, ?_⟩
  · intro a
    refine render_free (by decide) fun text member => ?_
    obtain ⟨i, rfl⟩ := List.mem_ofFn.mp member
    exact unsigned_free rfl _
  · intro p q same
    by_cases tcp : p = IP_PROTOCOL_TCP
    · by_cases tcp' : q = IP_PROTOCOL_TCP
      · rw [tcp, tcp']
      · simp [plainFormatters, tcp, tcp', format, pieces, render] at same
    · by_cases tcp' : q = IP_PROTOCOL_TCP
      · simp [plainFormatters, tcp, tcp', format, pieces, render] at same
      · simp only [plainFormatters, if_neg tcp, if_neg tcp'] at same
        have texts : "unknown ".toList ++ (unsigned p.toNat ++ []) =
            "unknown ".toList ++ (unsigned q.toNat ++ []) := same
        have numbers := List.append_cancel_left texts
        rw [List.append_nil, List.append_nil] at numbers
        exact UInt8.toNat_inj.mp (unsigned_inj numbers)
  · intro p
    by_cases tcp : p = IP_PROTOCOL_TCP
    · simp only [plainFormatters, if_pos tcp]
      decide
    · simp only [plainFormatters, if_neg tcp]
      refine render_free (by decide) fun text member => ?_
      rw [List.mem_singleton.mp member]
      exact unsigned_free rfl _

/-- The client's packet and the server's answer, each in a vector of its own. -/
def answered : List (NodeCall Unit) :=
  [.receive 0 (clientSyn.buffer 0),
    .hook .l2InputIp4 false oneVector (Vector.replicate VLIB_FRAME_SIZE 0),
    .receive 0 (serverSynAck.buffer 0),
    .hook .l2InputIp4 false oneVector (Vector.replicate VLIB_FRAME_SIZE 0)]

theorem connection_texts_apart :
    ∃ s w, startup (vppPlatform portHash (TimerWheel.slotted noHandle)) 0 plainOrder = .ok s ∧
      s.wrkCtx = some w ∧
      Always (nodeStep (vppPlatform portHash (TimerWheel.slotted noHandle))
          ⟨fun _ _ => (2, ()), fun _ => false⟩ s.hookLists)
        (fun t => (t.sys.wrk.flows.elts.map (flowText plainFormatters)).Nodup)
        ⟨⟨w, fun _ => clientSyn.buffer 0, []⟩, (), []⟩ answered :=
  texts_tell_flows_apart plainFormatters_legible portHash (TimerWheel.slotted noHandle) 0 plainOrder
    ⟨fun _ _ => (2, ()), fun _ => false⟩ _ () answered

end FlowTable
