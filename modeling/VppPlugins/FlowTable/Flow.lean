import VppPlugins.FlowTable.TcpState
import VppPlugins.Library.Bytes
import Mathlib.Logic.Function.Basic
import Mathlib.Data.List.OfFn

/-! The records of `flow.h`. An address of a `flow_t` is its pool index, an address
of a `flow_entry_t` is the index of its flow and the direction it is stored at. -/
namespace FlowTable
open Bytes

abbrev MacAddress := Fin 6 → UInt8
abbrev Ip4Address := Fin 4 → UInt8

/-- `ip_address_t`: sixteen bytes, of which an IPv4 address takes the last four,
and the version byte. -/
@[ext] structure IpAddress where
  ip : Fin 16 → UInt8
  version : UInt8

instance : DecidableEq IpAddress := fun a b =>
  decidable_of_iff (List.ofFn a.ip = List.ofFn b.ip ∧ a.version = b.version)
    ⟨fun h => IpAddress.ext (List.ofFn_injective h.1) h.2, fun h => by rw [h]; exact ⟨rfl, rfl⟩⟩

def IpAddress.zero : IpAddress := ⟨fun _ => 0, 0⟩

def IpAddress.ip4 (a : IpAddress) : Ip4Address := fun i => a.ip ⟨12 + i.val, by omega⟩

/-- The assignment `a.ip.ip4 = v`. -/
def IpAddress.setIp4 (a : IpAddress) (v : Ip4Address) : IpAddress :=
  { a with ip := fun i => if h : 12 ≤ i.val then v ⟨i.val - 12, by omega⟩ else a.ip i }

@[ext] structure FlowKey where
  src : IpAddress
  dst : IpAddress
  srcPort : UInt16
  dstPort : UInt16
  protocol : UInt8
  outerVlanId : UInt16
  innerVlanId : UInt16
  vlanPresent : UInt8

instance : DecidableEq FlowKey := fun a b =>
  decidable_of_iff
    (a.src = b.src ∧ a.dst = b.dst ∧ a.srcPort = b.srcPort ∧ a.dstPort = b.dstPort ∧
      a.protocol = b.protocol ∧ a.outerVlanId = b.outerVlanId ∧ a.innerVlanId = b.innerVlanId ∧
      a.vlanPresent = b.vlanPresent)
    FlowKey.ext_iff.symm

/-- `flow_key_t key = {0}`. -/
def FlowKey.zero : FlowKey := ⟨.zero, .zero, 0, 0, 0, 0, 0, 0⟩

def flowKeyReverse (key : FlowKey) : FlowKey :=
  { key with src := key.dst, dst := key.src, srcPort := key.dstPort, dstPort := key.srcPort }

@[simp] theorem flowKeyReverse_involutive (key : FlowKey) :
    flowKeyReverse (flowKeyReverse key) = key := rfl

/-- The 48 bytes of a key in memory: the addresses are packed, the other fields aligned
and little-endian, the padding zero. -/
def FlowKey.bytes (key : FlowKey) : List UInt8 :=
  List.ofFn key.src.ip ++ [key.src.version] ++ List.ofFn key.dst.ip ++ [key.dst.version] ++
    [lo key.srcPort, hi key.srcPort, lo key.dstPort, hi key.dstPort, key.protocol, 0,
      lo key.outerVlanId, hi key.outerVlanId, lo key.innerVlanId, hi key.innerVlanId,
      key.vlanPresent, 0, 0, 0]

def FlowKey.word (key : FlowKey) (i : Nat) : UInt64 :=
  UInt64.ofNat (le ((key.bytes.drop (8 * i)).take 8))

/-- `sizeof (flow_key_t) / sizeof (u64)` is six. -/
def flowTableHash (xxhash : UInt64 → UInt64) (key : FlowKey) : UInt64 :=
  (List.range 6).foldl (fun hash i => hash ^^^ xxhash (key.word i)) 0

structure TcpFlowAttr where
  seq : UInt32
  ack : UInt32
  seqInc : UInt32
  deriving DecidableEq

structure FlowEntry where
  flow : Option Nat
  smac : MacAddress
  dmac : MacAddress
  src : IpAddress
  dst : IpAddress
  protocol : UInt8
  srcPort : UInt16
  dstPort : UInt16
  swIfIndex : UInt32
  outerVlanId : UInt16
  innerVlanId : UInt16
  vlanPresent : UInt8
  tcpAttr : TcpFlowAttr

def FlowEntry.zero : FlowEntry :=
  { flow := none, smac := fun _ => 0, dmac := fun _ => 0, src := .zero, dst := .zero,
    protocol := 0, srcPort := 0, dstPort := 0, swIfIndex := 0, outerVlanId := 0,
    innerVlanId := 0, vlanPresent := 0, tcpAttr := ⟨0, 0, 0⟩ }

structure Flow where
  refcount : Nat
  key : FlowKey
  flowEntry : FlowDir → FlowEntry
  ipVersion : UInt8
  protocol : UInt8
  state : TcpState
  threeWayHandshake : Bool
  eltIndex : Nat
  stopTimerHandle : Nat

/-- The address `&flows[flow].flow_entry[dir]`. -/
structure EntryAddr where
  flow : Nat
  dir : FlowDir
  deriving DecidableEq, Repr

/-- `~0` as a `u32`. -/
def noHandle : Nat := 2 ^ 32 - 1

/-- The `flow_t` that `flow_table_alloc_flow` leaves in element `index`. -/
def flowTableAllocatedFlow (index : Nat) : Flow :=
  { refcount := 1, key := .zero, flowEntry := fun _ => .zero, ipVersion := 0, protocol := 0,
    state := .start, threeWayHandshake := false, eltIndex := index, stopTimerHandle := noHandle }

def Flow.setEntry (flow : Flow) (direction : FlowDir) (f : FlowEntry → FlowEntry) : Flow :=
  { flow with
    flowEntry := Function.update flow.flowEntry direction (f (flow.flowEntry direction)) }

/-- `self` is the address of the flow, which the entry keeps as its back pointer. -/
def flowTableUpdateFlow (self : Nat) (flow : Flow) (key : FlowKey) (direction : FlowDir) : Flow :=
  flow.setEntry direction fun e =>
    { e with
      src := key.src, dst := key.dst, protocol := key.protocol, srcPort := key.srcPort,
      dstPort := key.dstPort, flow := some self }

def flowTableInitFlow (self : Nat) (flow : Flow) (key : FlowKey) (swIfIndex : UInt32)
    (direction : FlowDir) : Flow :=
  let flow := { flowTableUpdateFlow self flow key direction with key }
  if swIfIndex ≠ 0xFFFFFFFF then flow.setEntry direction fun e => { e with swIfIndex } else flow

/-- `backPointer` is the `flow` field read at the entry's address. -/
def flowTableGetDirection (backPointer : Nat) (flowEntry : EntryAddr) : FlowDir :=
  if (⟨backPointer, .dirIn⟩ : EntryAddr) = flowEntry then .dirIn else .dirOut

theorem flowTableGetDirection_self (a : EntryAddr) : flowTableGetDirection a.flow a = a.dir := by
  rcases a with ⟨i, _ | _⟩ <;> simp [flowTableGetDirection]

@[simp] theorem setEntry_same (flow : Flow) (d : FlowDir) (f : FlowEntry → FlowEntry) :
    (flow.setEntry d f).flowEntry d = f (flow.flowEntry d) := by simp [Flow.setEntry]

theorem setEntry_entry (flow : Flow) (d e : FlowDir) (f : FlowEntry → FlowEntry) :
    (flow.setEntry d f).flowEntry e = if e = d then f (flow.flowEntry e) else flow.flowEntry e := by
  by_cases same : e = d
  · subst same; simp [Flow.setEntry]
  · simp [Flow.setEntry, same]

@[simp] theorem setEntry_other {flow : Flow} {d e : FlowDir} {f : FlowEntry → FlowEntry}
    (h : e ≠ d) : (flow.setEntry d f).flowEntry e = flow.flowEntry e := by
  rw [setEntry_entry, if_neg h]

@[simp] theorem setEntry_key (flow : Flow) (d : FlowDir) (f : FlowEntry → FlowEntry) :
    (flow.setEntry d f).key = flow.key := rfl

@[simp] theorem flowTableInitFlow_key (self : Nat) (flow : Flow) (key : FlowKey) (i : UInt32)
    (d : FlowDir) : (flowTableInitFlow self flow key i d).key = key := by
  unfold flowTableInitFlow
  dsimp only
  split <;> rfl

end FlowTable
