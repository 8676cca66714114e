import Tun2Socks.Flow.Interface
import Tun2Socks.Framework.Checked
import Tun2Socks.Framework.System
import Tun2Socks.Net.ByteOrder

/-!
# PacketProto

Packets over a byte stream: each packet is preceded by its length, in two bytes. The objects are

* `PacketProtoEncoder`, which fetches a packet from its input to a place behind the header and
  fills the header in,
* `PacketStreamSender`, which writes a packet to a stream that takes as much as it likes,
* `PacketProtoDecoder`, which receives into a buffer for one packet of the largest size and hands
  on packets where they lie in it.

`sendingSystem` is the first two, with a queue between them. `decoderSystem` is the decoder, on a
stream of any bytes that arrive in any pieces. In both, the jobs of the interfaces run in any order
and every choice of the environment is a label.
-/

namespace Tun2Socks.Flow

open Framework Net

/-! ### The format -/

/-- `sizeof(struct packetproto_header)`. -/
def headerSize : ℕ := 2

/-- `PACKETPROTO_MAXPAYLOAD`. -/
def maxPayload : ℕ := 65535

/-- `PACKETPROTO_ENCLEN`. -/
def encLen (len : ℕ) : ℕ := headerSize + len

/-- Why a flow object stops. -/
inductive Fault
  /-- An `ASSERT` fails. -/
  | assert
  /-- An access is outside its buffer. -/
  | memory
  deriving DecidableEq, Repr

variable (o : ByteOrder)

/-- The header of a payload of length `len`. -/
def header (len : ℕ) : List Byte := (htol16 o (Word16.ofNat o len)).bytes

/-- The length in the header at an offset. -/
def headerLen (data : List Byte) (i : ℕ) : ℕ := (ltoh16 o (word16At data i)).toNat o

/-! ### The sending side -/

/-- The packets to send, none longer than the MTU of the encoder's input. -/
structure SendingConfig where
  mtu : ℕ
  mtu_le : mtu ≤ maxPayload
  packets : List (List Byte)
  packets_le : ∀ p ∈ packets, p.length ≤ mtu

/-- `PacketProtoEncoder` and the memory it is given. -/
structure PacketProtoEncoder (mtu : ℕ) where
  input : Interface Unit ℕ
  output : Interface Unit ℕ
  /-- `output_packet` is not `NULL`. -/
  outputPacket : Bool
  memory : Buffer Byte (encLen mtu)

/-- `PacketStreamSender`. -/
structure PacketStreamSender where
  input : Interface (List Byte) Unit
  output : Interface (ℕ × ℕ) ℕ
  inLen : ℤ
  inUsed : ℕ
  data : List Byte

namespace PacketProtoEncoder

variable {mtu : ℕ}

abbrev M (mtu : ℕ) := Checked Fault (PacketProtoEncoder mtu)

def outputHandlerRecv : M mtu Unit := do
  ensure ((← get).outputPacket = false) .assert
  modify fun enc => { enc with outputPacket := true }
  -- PacketRecvInterface_Receiver_Recv
  ensure ((← get).input = .none) .assert
  modify fun enc => { enc with input := .operationPending () }

def inputHandlerDone (inLen : ℕ) : M mtu Unit := do
  ensure ((← get).outputPacket = true) .assert
  modify fun enc => { enc with
    memory := enc.memory.write 0 (header o inLen) (Nat.le_add_right headerSize mtu)
    outputPacket := false }
  -- PacketRecvInterface_Done
  ensure ((← get).output = .busy ()) .assert
  ensure (encLen inLen ≤ encLen mtu) .assert
  modify fun enc => { enc with output := .donePending (encLen inLen) }

end PacketProtoEncoder

namespace PacketStreamSender

abbrev M := Checked Fault PacketStreamSender

def sendData : M Unit := do
  let s ← get
  ensure (0 ≤ s.inLen) .assert
  if s.inUsed < s.inLen then
    -- StreamPassInterface_Sender_Send
    ensure (0 < s.inLen - s.inUsed) .assert
    ensure (s.output = .none) .assert
    modify fun s => { s with output := .operationPending (s.inUsed, (s.inLen - s.inUsed).toNat) }
  else
    modify fun s => { s with inLen := -1 }
    -- PacketPassInterface_Done
    ensure (← get).input.IsBusy .assert
    modify fun s => { s with input := .donePending () }

def inputHandlerSend (data : List Byte) : M Unit := do
  ensure ((← get).inLen = -1) .assert
  modify fun s => { s with inLen := data.length, data := data, inUsed := 0 }
  sendData

def outputHandlerDone (dataLen : ℕ) : M Unit := do
  let s ← get
  ensure (0 ≤ s.inLen) .assert
  ensure (0 < dataLen) .assert
  ensure (dataLen ≤ s.inLen - s.inUsed) .assert
  modify fun s => { s with inUsed := s.inUsed + dataLen }
  sendData

end PacketStreamSender

/-- The sending side. -/
structure SendingWorld (mtu : ℕ) where
  /-- The packets that the encoder's input has still to give, and those it has given. -/
  source : List (List Byte)
  taken : List (List Byte)
  encoder : PacketProtoEncoder mtu
  /-- The encoded packets between the encoder and the sender. -/
  queue : List (List Byte)
  sender : PacketStreamSender
  /-- What the stream has taken. -/
  written : List Byte
  fault : Option Fault

inductive SendingLabel (mtu : ℕ)
  /-- The queue asks the encoder for a packet. -/
  | encoderRecv (memory : Buffer Byte (encLen mtu))
  | encoderOutputOperation
  | encoderInputOperation
  /-- The encoder's input has a packet. -/
  | source
  | encoderInputDone
  | encoderOutputDone
  /-- The queue hands the next packet to the sender. -/
  | senderSend
  | senderInputOperation
  | senderOutputOperation
  /-- The stream takes `n` bytes. -/
  | write (n : ℕ)
  | senderOutputDone
  | senderInputDone

namespace SendingWorld

variable {mtu : ℕ}

/-- What a handler of the encoder leaves. -/
def leaveEncoder (w : SendingWorld mtu) :
    Except Fault (Unit × PacketProtoEncoder mtu) → SendingWorld mtu
  | .ok (_, encoder) => { w with encoder }
  | .error f => { w with fault := some f }

/-- What a handler of the sender leaves. -/
def leaveSender (w : SendingWorld mtu) : Except Fault (Unit × PacketStreamSender) → SendingWorld mtu
  | .ok (_, sender) => { w with sender }
  | .error f => { w with fault := some f }

def encoderNext (w : SendingWorld mtu) : SendingLabel mtu → Option (SendingWorld mtu)
  | .encoderRecv memory =>
    if w.encoder.output = .none then
      some { w with encoder := { w.encoder with memory, output := .operationPending () } }
    else none
  | .encoderOutputOperation =>
    if w.encoder.output = .operationPending () then
      some (w.leaveEncoder (PacketProtoEncoder.outputHandlerRecv.run
        { w.encoder with output := .busy () }))
    else none
  | .encoderInputOperation =>
    if w.encoder.input = .operationPending () then
      some { w with encoder := { w.encoder with input := .busy () } }
    else none
  | .source =>
    match w.source with
    | [] => none
    | p :: source =>
      if w.encoder.input = .busy () then
        if h : headerSize + p.length ≤ encLen mtu then
          some { w with
            source
            taken := w.taken ++ [p]
            encoder := { w.encoder with
              memory := w.encoder.memory.write headerSize p h
              input := .donePending p.length } }
        else some { w with fault := some .memory }
      else none
  | .encoderInputDone =>
    match w.encoder.input with
    | .donePending inLen =>
      some (w.leaveEncoder ((PacketProtoEncoder.inputHandlerDone o inLen).run
        { w.encoder with input := .none }))
    | _ => none
  | .encoderOutputDone =>
    match w.encoder.output with
    | .donePending len => some { w with
        encoder := { w.encoder with output := .none }
        queue := w.queue ++ [w.encoder.memory.take len] }
    | _ => none
  | _ => none

def senderNext (w : SendingWorld mtu) : SendingLabel mtu → Option (SendingWorld mtu)
  | .senderSend =>
    match w.queue with
    | [] => none
    | p :: queue =>
      if w.sender.input = .none then
        some { w with queue, sender := { w.sender with input := .operationPending p } }
      else none
  | .senderInputOperation =>
    match w.sender.input with
    | .operationPending p =>
      some (w.leaveSender ((PacketStreamSender.inputHandlerSend p).run
        { w.sender with input := .busy p }))
    | _ => none
  | .senderOutputOperation =>
    match w.sender.output with
    | .operationPending op => some { w with sender := { w.sender with output := .busy op } }
    | _ => none
  | .write n =>
    match w.sender.output with
    | .busy (place, len) =>
      if 0 < n ∧ n ≤ len then
        some { w with
          sender := { w.sender with output := .donePending n }
          written := w.written ++ (w.sender.data.drop place).take n }
      else none
    | _ => none
  | .senderOutputDone =>
    match w.sender.output with
    | .donePending n =>
      some (w.leaveSender ((PacketStreamSender.outputHandlerDone n).run
        { w.sender with output := .none }))
    | _ => none
  | .senderInputDone =>
    if w.sender.input = .donePending () then
      some { w with sender := { w.sender with input := .none } }
    else none
  | _ => none

def next (w : SendingWorld mtu) (l : SendingLabel mtu) : Option (SendingWorld mtu) :=
  if w.fault = none then (w.encoderNext o l).orElse fun _ => w.senderNext l else none

end SendingWorld

/-- `PacketProtoEncoder_Init` and `PacketStreamSender_Init`. -/
def sendingSystem (cfg : SendingConfig) (memory : Buffer Byte (encLen cfg.mtu)) :
    System (SendingWorld cfg.mtu) (SendingLabel cfg.mtu) where
  init := ⟨cfg.packets, [], ⟨.none, .none, false, memory⟩, [], ⟨.none, .none, -1, 0, []⟩, [], none⟩
  next := SendingWorld.next o

/-! ### The decoder -/

section Decoder

variable (mtu : ℕ)

/-- `output_mtu`. -/
def outputMtu : ℕ := min mtu maxPayload

/-- `buf_size`. -/
def bufSize : ℕ := encLen (outputMtu mtu)

/-- What the decoder tells its output and its user. -/
inductive Event
  /-- A packet is handed over. -/
  | delivered (data : List Byte)
  /-- The output is done with a packet, which is then as given. -/
  | completed (data : List Byte)
  /-- `handler_error` is called. -/
  | error
  deriving DecidableEq

structure PacketProtoDecoder where
  bufStart : ℕ
  bufUsed : ℕ
  buf : Buffer Byte (bufSize mtu)
  input : Interface (ℕ × ℕ) ℕ
  output : Interface (ℕ × ℕ) Unit
  log : List Event
  deriving DecidableEq

namespace PacketProtoDecoder

variable {mtu}

abbrev M (mtu : ℕ) := Checked Fault (PacketProtoDecoder mtu)

/-- `StreamRecvInterface_Receiver_Recv`. -/
def receiverRecv (place len : ℕ) : M mtu Unit := do
  ensure (0 < len) .assert
  ensure ((← get).input = .none) .assert
  modify fun enc => { enc with input := .operationPending (place, len) }

/-- `PacketPassInterface_Sender_Send`. -/
def senderSend (place len : ℕ) : M mtu Unit := do
  ensure (len ≤ mtu) .assert
  ensure ((← get).output = .none) .assert
  modify fun enc => { enc with output := .operationPending (place, len) }

/-- What is at the front of the buffer. -/
inductive Front
  | incomplete
  | tooLarge
  | packet (dataLen : ℕ)
  deriving DecidableEq

/-- The body of the loop of `process_data`. -/
def front (enc : PacketProtoDecoder mtu) : Front :=
  if enc.bufUsed < headerSize then .incomplete
  else
    let dataLen := headerLen o enc.buf.cells enc.bufStart
    if outputMtu mtu < dataLen then .tooLarge
    else if enc.bufUsed - headerSize < dataLen then .incomplete
    else .packet dataLen

/-- Wrap around to allow more data to be received. -/
def wrapAround (enc : PacketProtoDecoder mtu) : PacketProtoDecoder mtu :=
  if h : enc.bufStart + enc.bufUsed = bufSize mtu then
    { enc with buf := enc.buf.shift enc.bufStart enc.bufUsed h.le, bufStart := 0 }
  else enc

/-- Receive data behind what there is. -/
def receive : M mtu Unit := do
  let enc ← get
  receiverRecv (enc.bufStart + enc.bufUsed) (bufSize mtu - (enc.bufStart + enc.bufUsed))

def processData : M mtu Unit := do
  match (← get).front o with
  | .packet dataLen =>
    let data := (← get).bufStart + headerSize
    modify fun enc => { enc with
      bufStart := enc.bufStart + encLen dataLen
      bufUsed := enc.bufUsed - encLen dataLen }
    senderSend data dataLen
  | .tooLarge =>
    modify fun enc => { enc with bufStart := 0, bufUsed := 0 }
    receive
    modify fun enc => { enc with log := enc.log ++ [.error] }
  | .incomplete =>
    modify wrapAround
    receive

def inputHandlerDone (dataLen : ℕ) : M mtu Unit := do
  let enc ← get
  ensure (0 < dataLen) .assert
  ensure (dataLen ≤ bufSize mtu - (enc.bufStart + enc.bufUsed)) .assert
  modify fun enc => { enc with bufUsed := enc.bufUsed + dataLen }
  processData o

def outputHandlerDone : M mtu Unit := processData o

/-- The bytes of the buffer at a place. -/
def bytes (enc : PacketProtoDecoder mtu) (op : ℕ × ℕ) : List Byte :=
  enc.buf.slice op.1 (op.1 + op.2)

/-- The output takes the next step and makes an event of it. -/
def tell (enc : PacketProtoDecoder mtu) (e : Event) (output : Interface (ℕ × ℕ) Unit) :
    PacketProtoDecoder mtu :=
  { enc with output, log := enc.log ++ [e] }

end PacketProtoDecoder

/-- The decoder and its stream. -/
structure DecoderWorld where
  enc : PacketProtoDecoder mtu
  /-- What has been received, and what has arrived and not been received. -/
  read : List Byte
  stream : List Byte
  fault : Option Fault

inductive DecoderLabel
  /-- Bytes arrive. -/
  | arrive (bytes : List Byte)
  | inputOperation
  /-- The stream gives `n` bytes. -/
  | read (n : ℕ)
  | inputDone
  | outputOperation
  /-- The output is done with its packet. -/
  | complete
  | outputDone
  deriving DecidableEq

namespace DecoderWorld

variable {mtu}

def leave (w : DecoderWorld mtu) : Except Fault (Unit × PacketProtoDecoder mtu) → DecoderWorld mtu
  | .ok (_, enc) => { w with enc }
  | .error f => { w with fault := some f }

def next (w : DecoderWorld mtu) : DecoderLabel → Option (DecoderWorld mtu)
  | .arrive bytes => some { w with stream := w.stream ++ bytes }
  | .inputOperation =>
    match w.enc.input with
    | .operationPending op => some { w with enc := { w.enc with input := .busy op } }
    | _ => none
  | .read n =>
    match w.enc.input with
    | .busy (place, len) =>
      if 0 < n ∧ n ≤ len ∧ n ≤ w.stream.length then
        if h : place + (w.stream.take n).length ≤ bufSize mtu then
          some { w with
            enc := { w.enc with
              buf := w.enc.buf.write place (w.stream.take n) h
              input := .donePending n }
            read := w.read ++ w.stream.take n
            stream := w.stream.drop n }
        else some { w with fault := some .memory }
      else none
    | _ => none
  | .inputDone =>
    match w.enc.input with
    | .donePending n =>
      some (w.leave ((PacketProtoDecoder.inputHandlerDone o n).run { w.enc with input := .none }))
    | _ => none
  | .outputOperation =>
    match w.enc.output with
    | .operationPending op => some { w with
        enc := w.enc.tell (.delivered (w.enc.bytes op)) (.busy op) }
    | _ => none
  | .complete =>
    match w.enc.output with
    | .busy op => some { w with
        enc := w.enc.tell (.completed (w.enc.bytes op)) (.donePending ()) }
    | _ => none
  | .outputDone =>
    if w.enc.output = .donePending () then
      some (w.leave ((PacketProtoDecoder.outputHandlerDone o).run { w.enc with output := .none }))
    else none

end DecoderWorld

variable {mtu}

/-- `PacketProtoDecoder_Init` with what `malloc` returns. -/
def packetProtoDecoderInit (memory : Buffer Byte (bufSize mtu)) : PacketProtoDecoder mtu where
  bufStart := 0
  bufUsed := 0
  buf := memory
  input := .operationPending (0, bufSize mtu)
  output := .none
  log := []

def decoderSystem (memory : Buffer Byte (bufSize mtu)) :
    System (DecoderWorld mtu) DecoderLabel where
  init := ⟨packetProtoDecoderInit memory, [], [], none⟩
  next := fun w l => if w.fault = none then w.next o l else none

end Decoder

end Tun2Socks.Flow
