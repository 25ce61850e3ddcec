import VppPlugins.FlowTable.Flow

/-! Packet buffers as the hooks see them, and `ip4_pre_process`. -/
namespace FlowTable
open Bytes

/-- `VNF_*`. -/
inductive VnetfilterAction where
  | accept
  | drop
  | stolen
  | stop
  deriving DecidableEq, Repr

/-- `data i` is the byte at `b->data + i`. The offsets are those of `vnet_buffer`, the
two `unused` words those of `vnet_buffer2`, and `flowIndex` is the word that
`vlib_buffer_set_flow` keeps at the start of the buffer's pre-data area, held apart from
`data`. -/
structure Buffer where
  data : Int → UInt8
  l2HdrOffset : Int
  l3HdrOffset : Int
  l4HdrOffset : Int
  swIfIndexRx : UInt32
  unused0 : UInt32
  unused1 : UInt32
  flowIndex : UInt32

/-- Conversion to the `i16` of a header offset. -/
def i16 (x : Int) : Int := (x + 32768) % 65536 - 32768

def Buffer.net16 (b : Buffer) (off : Int) : UInt16 := Bytes.net16 (b.data off) (b.data (off + 1))

def Buffer.net32 (b : Buffer) (off : Int) : UInt32 :=
  Bytes.net32 (b.data off) (b.data (off + 1)) (b.data (off + 2)) (b.data (off + 3))

def Buffer.mac (b : Buffer) (off : Int) : MacAddress := fun i => b.data (off + i.val)
def Buffer.ip4 (b : Buffer) (off : Int) : Ip4Address := fun i => b.data (off + i.val)

def ETHERNET_TYPE_VLAN : UInt16 := 0x8100
def ETHERNET_TYPE_DOT1AD : UInt16 := 0x88A8

/-- What `parse_vlan_tags` returns and writes to its output arguments. -/
structure VlanTags where
  l3Offset : Nat
  outerVlanId : UInt16
  innerVlanId : UInt16
  vlanPresent : UInt8

def parseVlanTags (b : Buffer) : VlanTags :=
  let eth := b.l2HdrOffset
  let ethertype := b.net16 (eth + 12)
  if ethertype = ETHERNET_TYPE_VLAN ∨ ethertype = ETHERNET_TYPE_DOT1AD then
    let vlan := eth + 14
    let outerVlanId := b.net16 vlan &&& 0x0FFF
    let ethertype := b.net16 (vlan + 2)
    if ethertype = ETHERNET_TYPE_VLAN then
      let innerVlan := vlan + 4
      ⟨14 + 4 + 4, outerVlanId, b.net16 innerVlan &&& 0x0FFF, 2⟩
    else ⟨14 + 4, outerVlanId, 0, 1⟩
  else ⟨14, 0, 0, 0⟩

def FLOW_UNSET : UInt32 := 0

def vlibBufferInitFlow (b : Buffer) : Buffer := { b with flowIndex := FLOW_UNSET }

def vlibBufferSetFlow (b : Buffer) (index : Nat) : Buffer :=
  { b with flowIndex := UInt32.ofNat index }

def ip4PreProcess (b : Buffer) : Buffer × VnetfilterAction :=
  let tags := parseVlanTags b
  let b := { b with l3HdrOffset := i16 tags.l3Offset }
  let ihl := i16 ((b.data b.l3HdrOffset &&& 0x0F).toNat <<< 2 : Nat)
  let b := { b with l4HdrOffset := i16 (ihl + b.l3HdrOffset) }
  let b := { b with
    unused0 := pack tags.outerVlanId tags.innerVlanId
    unused1 := tags.vlanPresent.toUInt32 }
  (vlibBufferInitFlow b, .accept)

-- With the fields of `b` as variables the two sides are compared without its offsets.
@[simp] theorem preProcess_data (b : Buffer) : (ip4PreProcess b).1.data = b.data := by
  cases b
  rfl

@[simp] theorem preProcess_l2HdrOffset (b : Buffer) :
    (ip4PreProcess b).1.l2HdrOffset = b.l2HdrOffset := by
  cases b
  rfl

@[simp] theorem preProcess_net16 (b : Buffer) (off : Int) :
    (ip4PreProcess b).1.net16 off = b.net16 off := by
  simp only [Buffer.net16, preProcess_data]

@[simp] theorem preProcess_ip4 (b : Buffer) (off : Int) :
    (ip4PreProcess b).1.ip4 off = b.ip4 off := by
  funext i
  simp only [Buffer.ip4, preProcess_data]

theorem preProcess_l3HdrOffset (b : Buffer) :
    (ip4PreProcess b).1.l3HdrOffset = i16 (parseVlanTags b).l3Offset := by
  simp only [ip4PreProcess, vlibBufferInitFlow]

theorem preProcess_l4HdrOffset (b : Buffer) :
    (ip4PreProcess b).1.l4HdrOffset =
      i16 (i16 ((b.data (ip4PreProcess b).1.l3HdrOffset &&& 0x0F).toNat <<< 2 : Nat) +
        (ip4PreProcess b).1.l3HdrOffset) := by
  simp only [ip4PreProcess, vlibBufferInitFlow]

theorem preProcess_unused0 (b : Buffer) :
    (ip4PreProcess b).1.unused0 =
      pack (parseVlanTags b).outerVlanId (parseVlanTags b).innerVlanId := by
  simp only [ip4PreProcess, vlibBufferInitFlow]

theorem preProcess_unused1 (b : Buffer) :
    (ip4PreProcess b).1.unused1 = (parseVlanTags b).vlanPresent.toUInt32 := by
  simp only [ip4PreProcess, vlibBufferInitFlow]

/-! The fields of the headers that the plugin reads. -/

def Buffer.tcpSrcPort (b : Buffer) : UInt16 := b.net16 b.l4HdrOffset
def Buffer.tcpDstPort (b : Buffer) : UInt16 := b.net16 (b.l4HdrOffset + 2)
def Buffer.tcpSeqNumber (b : Buffer) : UInt32 := b.net32 (b.l4HdrOffset + 4)
def Buffer.tcpAckNumber (b : Buffer) : UInt32 := b.net32 (b.l4HdrOffset + 8)
def Buffer.tcpFlags (b : Buffer) : UInt8 := b.data (b.l4HdrOffset + 13)

/-- `flags & TCP_FLAG_CONCERNED`. -/
def Buffer.concernedFlags (b : Buffer) : UInt8 := b.tcpFlags &&& TCP_FLAG_CONCERNED

def Buffer.tcpEvent (b : Buffer) : TcpEvent := flagsToEvents b.concernedFlags

def Buffer.ipProtocol (b : Buffer) : UInt8 := b.data (b.l3HdrOffset + 9)

/-- The flow key as `ip4_input_process` fills it before the protocol's `parse_key`. -/
def Buffer.ip4FlowKey (b : Buffer) : FlowKey :=
  { FlowKey.zero with
    dst := IpAddress.zero.setIp4 (b.ip4 (b.l3HdrOffset + 16))
    src := IpAddress.zero.setIp4 (b.ip4 (b.l3HdrOffset + 12))
    protocol := b.ipProtocol
    outerVlanId := ((b.unused0 >>> 16) &&& 0xFFFF).toUInt16
    innerVlanId := (b.unused0 &&& 0xFFFF).toUInt16
    vlanPresent := b.unused1.toUInt8 }

end FlowTable
