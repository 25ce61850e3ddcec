import Mathlib.Logic.Basic

/-! `flow.h`'s directions and `tcp_state_transfer.h`: the transfer table, the
timeouts and the reduction of TCP flags to events. -/
namespace FlowTable

/-- `FLOW_DIR_IN` and `FLOW_DIR_OUT`. -/
inductive FlowDir where
  | dirIn
  | dirOut
  deriving DecidableEq, Repr

inductive TcpState where
  | start
  | close
  | synSent
  | synRcvd
  | established
  | finWait
  | closeWait
  | timeWait
  | unknown
  deriving DecidableEq, Repr

inductive TcpEvent where
  | unknown
  | syn
  | ack
  | fin
  | rst
  deriving DecidableEq, Repr

def TCP_FLAG_FIN : UInt8 := 0x01
def TCP_FLAG_SYN : UInt8 := 0x02
def TCP_FLAG_RST : UInt8 := 0x04
def TCP_FLAG_ACK : UInt8 := 0x10

def TCP_FLAG_CONCERNED : UInt8 := TCP_FLAG_SYN ||| TCP_FLAG_ACK ||| TCP_FLAG_FIN ||| TCP_FLAG_RST

structure TransferEntry where
  oriState : TcpState
  event : TcpEvent
  dir : FlowDir
  newState : TcpState

/-- The rows of `for_each_tcp_state_transfer_entry`, in the order of the source. -/
def forEachTcpStateTransferEntry : List TransferEntry :=
  [⟨.start, .unknown, .dirIn, .unknown⟩,
   ⟨.start, .syn, .dirIn, .synSent⟩,
   ⟨.start, .ack, .dirIn, .established⟩,
   ⟨.start, .fin, .dirIn, .close⟩,
   ⟨.start, .rst, .dirIn, .close⟩,
   ⟨.start, .unknown, .dirOut, .unknown⟩,
   ⟨.start, .syn, .dirOut, .synSent⟩,
   ⟨.start, .ack, .dirOut, .established⟩,
   ⟨.start, .fin, .dirOut, .close⟩,
   ⟨.start, .rst, .dirOut, .close⟩,

   ⟨.close, .unknown, .dirIn, .unknown⟩,
   ⟨.close, .syn, .dirIn, .synSent⟩,
   ⟨.close, .ack, .dirIn, .established⟩,
   ⟨.close, .fin, .dirIn, .close⟩,
   ⟨.close, .rst, .dirIn, .close⟩,
   ⟨.close, .unknown, .dirOut, .unknown⟩,
   ⟨.close, .syn, .dirOut, .synSent⟩,
   ⟨.close, .ack, .dirOut, .established⟩,
   ⟨.close, .fin, .dirOut, .close⟩,
   ⟨.close, .rst, .dirOut, .close⟩,

   ⟨.synSent, .unknown, .dirIn, .unknown⟩,
   ⟨.synSent, .syn, .dirIn, .synRcvd⟩,
   ⟨.synSent, .ack, .dirIn, .established⟩,
   ⟨.synSent, .fin, .dirIn, .close⟩,
   ⟨.synSent, .rst, .dirIn, .close⟩,
   ⟨.synSent, .unknown, .dirOut, .unknown⟩,
   ⟨.synSent, .syn, .dirOut, .synRcvd⟩,
   ⟨.synSent, .ack, .dirOut, .established⟩,
   ⟨.synSent, .fin, .dirOut, .close⟩,
   ⟨.synSent, .rst, .dirOut, .close⟩,

   ⟨.synRcvd, .unknown, .dirIn, .unknown⟩,
   ⟨.synRcvd, .syn, .dirIn, .unknown⟩,
   ⟨.synRcvd, .ack, .dirIn, .established⟩,
   ⟨.synRcvd, .fin, .dirIn, .close⟩,
   ⟨.synRcvd, .rst, .dirIn, .close⟩,
   ⟨.synRcvd, .unknown, .dirOut, .unknown⟩,
   ⟨.synRcvd, .syn, .dirOut, .unknown⟩,
   ⟨.synRcvd, .ack, .dirOut, .established⟩,
   ⟨.synRcvd, .fin, .dirOut, .close⟩,
   ⟨.synRcvd, .rst, .dirOut, .close⟩,

   ⟨.established, .unknown, .dirIn, .unknown⟩,
   ⟨.established, .syn, .dirIn, .unknown⟩,
   ⟨.established, .ack, .dirIn, .established⟩,
   ⟨.established, .fin, .dirIn, .finWait⟩,
   ⟨.established, .rst, .dirIn, .close⟩,
   ⟨.established, .unknown, .dirOut, .unknown⟩,
   ⟨.established, .syn, .dirOut, .unknown⟩,
   ⟨.established, .ack, .dirOut, .established⟩,
   ⟨.established, .fin, .dirOut, .closeWait⟩,
   ⟨.established, .rst, .dirOut, .close⟩,

   ⟨.closeWait, .unknown, .dirIn, .unknown⟩,
   ⟨.closeWait, .syn, .dirIn, .unknown⟩,
   ⟨.closeWait, .ack, .dirIn, .closeWait⟩,
   ⟨.closeWait, .fin, .dirIn, .close⟩,
   ⟨.closeWait, .rst, .dirIn, .close⟩,
   ⟨.closeWait, .unknown, .dirOut, .unknown⟩,
   ⟨.closeWait, .syn, .dirOut, .unknown⟩,
   ⟨.closeWait, .ack, .dirOut, .closeWait⟩,
   ⟨.closeWait, .fin, .dirOut, .close⟩,
   ⟨.closeWait, .rst, .dirOut, .close⟩,

   ⟨.finWait, .unknown, .dirIn, .unknown⟩,
   ⟨.finWait, .syn, .dirIn, .unknown⟩,
   ⟨.finWait, .ack, .dirIn, .finWait⟩,
   ⟨.finWait, .fin, .dirIn, .timeWait⟩,
   ⟨.finWait, .rst, .dirIn, .close⟩,
   ⟨.finWait, .unknown, .dirOut, .unknown⟩,
   ⟨.finWait, .syn, .dirOut, .unknown⟩,
   ⟨.finWait, .ack, .dirOut, .finWait⟩,
   ⟨.finWait, .fin, .dirOut, .timeWait⟩,
   ⟨.finWait, .rst, .dirOut, .close⟩,

   ⟨.timeWait, .unknown, .dirIn, .unknown⟩,
   ⟨.timeWait, .syn, .dirIn, .synSent⟩,
   ⟨.timeWait, .ack, .dirIn, .unknown⟩,
   ⟨.timeWait, .fin, .dirIn, .unknown⟩,
   ⟨.timeWait, .rst, .dirIn, .close⟩,
   ⟨.timeWait, .unknown, .dirOut, .unknown⟩,
   ⟨.timeWait, .syn, .dirOut, .synSent⟩,
   ⟨.timeWait, .ack, .dirOut, .unknown⟩,
   ⟨.timeWait, .fin, .dirOut, .unknown⟩,
   ⟨.timeWait, .rst, .dirOut, .close⟩,

   ⟨.unknown, .unknown, .dirIn, .unknown⟩,
   ⟨.unknown, .syn, .dirIn, .unknown⟩,
   ⟨.unknown, .ack, .dirIn, .unknown⟩,
   ⟨.unknown, .fin, .dirIn, .unknown⟩,
   ⟨.unknown, .rst, .dirIn, .unknown⟩,
   ⟨.unknown, .unknown, .dirOut, .unknown⟩,
   ⟨.unknown, .syn, .dirOut, .unknown⟩,
   ⟨.unknown, .ack, .dirOut, .unknown⟩,
   ⟨.unknown, .fin, .dirOut, .unknown⟩,
   ⟨.unknown, .rst, .dirOut, .unknown⟩]

/-- The array the designated initializers build: the last row of a cell counts,
a cell without a row holds zero, which is `TCP_STATE_START`. -/
def tcpStateTransferMap (dir : FlowDir) (old : TcpState) (event : TcpEvent) : TcpState :=
  forEachTcpStateTransferEntry.foldl
    (fun cell row =>
      if row.dir = dir ∧ row.oriState = old ∧ row.event = event then row.newState else cell)
    .start

def tcpStateTransfer (old : TcpState) (event : TcpEvent) (dir : FlowDir) : TcpState :=
  tcpStateTransferMap dir old event

/-- The rows of `for_each_tcp_event`. -/
def forEachTcpEvent : List (UInt8 × TcpEvent) :=
  [(TCP_FLAG_SYN, .syn),
   (TCP_FLAG_SYN ||| TCP_FLAG_ACK, .syn),
   (TCP_FLAG_ACK, .ack),
   (TCP_FLAG_FIN, .fin),
   (TCP_FLAG_FIN ||| TCP_FLAG_ACK, .fin),
   (TCP_FLAG_RST, .rst)]

/-- `flags_events_map`; the row for `0xff` gives the array its size and every
combination without a row is `TCP_EVENT_UNKNOWN`. -/
def flagsEventsMap (flags : UInt8) : TcpEvent :=
  (forEachTcpEvent ++ [((0xff : UInt8), TcpEvent.unknown)]).foldl
    (fun cell row => if row.1 = flags then row.2 else cell) .unknown

def flagsToEvents (flags : UInt8) : TcpEvent := flagsEventsMap flags

/-- The fourth column of `for_each_tcp_state`, in seconds. -/
def tcpStateTimeout : TcpState → Nat
  | .start => 5
  | .close => 5
  | .synSent => 5
  | .synRcvd => 5
  | .established => 5
  | .finWait => 5
  | .closeWait => 5
  | .timeWait => 5
  | .unknown => 5

/-! The whole table by event, as the proofs use it. The direction matters in one
cell only: which side's FIN ends `established`. -/

theorem transfer_rst (old : TcpState) (dir : FlowDir) :
    tcpStateTransfer old .rst dir = if old = .unknown then .unknown else .close := by
  cases old <;> cases dir <;> rfl

theorem transfer_unknown (old : TcpState) (dir : FlowDir) :
    tcpStateTransfer old .unknown dir = .unknown := by
  cases old <;> cases dir <;> rfl

theorem transfer_syn (old : TcpState) (dir : FlowDir) :
    tcpStateTransfer old .syn dir =
      match old with
      | .start | .close | .timeWait => .synSent
      | .synSent => .synRcvd
      | _ => .unknown := by
  cases old <;> cases dir <;> rfl

theorem transfer_ack (old : TcpState) (dir : FlowDir) :
    tcpStateTransfer old .ack dir =
      match old with
      | .start | .close | .synSent | .synRcvd | .established => .established
      | .closeWait => .closeWait
      | .finWait => .finWait
      | .timeWait | .unknown => .unknown := by
  cases old <;> cases dir <;> rfl

theorem transfer_fin (old : TcpState) (dir : FlowDir) :
    tcpStateTransfer old .fin dir =
      match old with
      | .start | .close | .synSent | .synRcvd | .closeWait => .close
      | .established => match dir with
          | .dirIn => .finWait
          | .dirOut => .closeWait
      | .finWait => .timeWait
      | .timeWait | .unknown => .unknown := by
  cases old <;> cases dir <;> rfl

end FlowTable
