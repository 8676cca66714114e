import Tun2Socks.Socks.Handshake
import Tun2Socks.Flow.Sending

/-!
# A session with a SOCKS server

The client of `Socks.Client` between the connection to a server and its user. The bytes of the
server arrive in any pieces, and a receive returns any non-empty part of what has arrived and was
asked for. A packet of the client goes through its `PacketStreamSender`, and the connection takes
any non-empty part of what the sender offers. Connecting fails or succeeds, an established
connection breaks or is closed by the server at any time, and every `BRealloc` may fail.

What the exchange is for is said over whole byte strings:

* `Offer.Accepted ai bytes` — `bytes` is the server's side of a handshake with the method `ai`;
* `Offer.messages ai` — the client's side of it;
* `Offer.Rejected bytes` — `bytes` is a beginning of the server's side in which the last message,
  which is complete, is not one that the client goes on after.

`Offer.verdict` reads a byte string once from left to right and decides between the two; it is
the function that the callbacks compute over any division of the stream.
-/

namespace Tun2Socks.Socks

open Framework Net

/-! ### The two sides of a handshake -/

/-- The arguments of `BSocksClient_Init`, with the strings that the methods refer to. -/
structure Offer where
  authInfo : List AuthInfo
  destAddr : BAddr
  heap : Heap Byte
  count : 0 < authInfo.length ∧ authInfo.length ≤ 255
  dest : destAddr ≠ .none
  readable : Env.Readable ⟨authInfo, heap, true⟩

/-- The lengths of a username and a password fit into a byte and are not zero. -/
def AuthInfo.Usable : AuthInfo → Prop
  | .none => True
  | .password p => (0 < p.usernameLen ∧ p.usernameLen ≤ 255) ∧
      0 < p.passwordLen ∧ p.passwordLen ≤ 255

instance : ∀ ai : AuthInfo, Decidable ai.Usable
  | .none => inferInstanceAs (Decidable True)
  | .password p => inferInstanceAs (Decidable ((0 < p.usernameLen ∧ p.usernameLen ≤ 255) ∧
      0 < p.passwordLen ∧ p.passwordLen ≤ 255))

/-- What the server answers to the message of a method. -/
def AuthInfo.reply : AuthInfo → List Byte
  | .none => []
  | .password _ => [1, 0]

/-- The server's side until the authentication is finished. -/
def AuthInfo.opening (ai : AuthInfo) : List Byte := [socksVersion, ai.authType] ++ ai.reply

namespace Offer

variable (offer : Offer)

/-- The methods are searched in their order, so of several methods of one type the first counts. -/
def find (m : Byte) : Option AuthInfo := offer.authInfo.find? fun ai => ai.authType = m

/-- The method `ai` is offered, and can be carried out. -/
def Chosen (ai : AuthInfo) : Prop := offer.find ai.authType = some ai ∧ ai.Usable

/-- `bytes` is the server's side of a handshake in which it chose the method `ai`. -/
def Accepted (ai : AuthInfo) (bytes : List Byte) : Prop :=
  offer.Chosen ai ∧ ∃ x t addr, replyAddrLen t = some addr.length ∧
    bytes = ai.opening ++ [socksVersion, 0, x, t] ++ addr

/-- The server's side up to the first message that the client does not go on after. -/
inductive Rejected : List Byte → Prop
  | version (ver m : Byte) (hver : ver ≠ socksVersion) : Rejected [ver, m]
  | method (m : Byte) (hfind : offer.find m = none) : Rejected [socksVersion, m]
  | strings (m : Byte) (ai : AuthInfo) (hfind : offer.find m = some ai) (hai : ¬ ai.Usable) :
      Rejected [socksVersion, m]
  | password (p : Password) (ver status : Byte) (hai : offer.Chosen (.password p))
      (hreply : ver ≠ 1 ∨ status ≠ 0) :
      Rejected [socksVersion, AuthInfo.authType (.password p), ver, status]
  | reply (ai : AuthInfo) (ver rep x t : Byte) (hai : offer.Chosen ai)
      (hreply : ver ≠ socksVersion ∨ rep ≠ 0 ∨ replyAddrLen t = none) :
      Rejected (ai.opening ++ [ver, rep, x, t])

/-- The bytes of a string of the table. -/
def string (address len : ℕ) : List Byte :=
  ((offer.heap[address]?.map Block.cells).getD []).take len

/-- The message of a method. -/
def authMessages : AuthInfo → List (List Byte)
  | .none => []
  | .password p =>
    [passwordPacket (offer.string p.username p.usernameLen)
      (offer.string p.password p.passwordLen)]

/-- The client's side of a handshake in which the server chose the method `ai`. -/
def messages (ai : AuthInfo) : List (List Byte) :=
  [hello offer.authInfo] ++ offer.authMessages ai ++ [request offer.destAddr]

/-! ### One pass over the server's side -/

inductive Verdict
  /-- The bytes are the beginning of a longer message. -/
  | more
  | up
  | error
  deriving DecidableEq, Repr

/-- What is reported for it. -/
def Verdict.events : Verdict → List Event
  | .more => []
  | .up => [.up]
  | .error => [.error]

def replyVerdict : List Byte → Verdict
  | ver :: rep :: _ :: t :: addr =>
    if ver ≠ socksVersion ∨ rep ≠ 0 then .error
    else
      match replyAddrLen t with
      | none => .error
      | some addrLen => if addrLen ≤ addr.length then .up else .more
  | _ => .more

def authVerdict : AuthInfo → List Byte → Verdict
  | .none, bytes => replyVerdict bytes
  | .password _, ver :: status :: bytes =>
    if ver = 1 ∧ status = 0 then replyVerdict bytes else .error
  | .password _, _ => .more

def verdict : List Byte → Verdict
  | ver :: m :: bytes =>
    if ver ≠ socksVersion then .error
    else
      match offer.find m with
      | none => .error
      | some ai => if ai.Usable then authVerdict ai bytes else .error
  | _ => .more

variable {offer} {ai : AuthInfo}

theorem find_authType {m : Byte} (h : offer.find m = some ai) : ai.authType = m := by
  have hdecide := List.find?_some h
  exact of_decide_eq_true hdecide

/-- After a good opening the reply decides. -/
theorem Chosen.verdict (h : offer.Chosen ai) (bytes : List Byte) :
    offer.verdict (ai.opening ++ bytes) = replyVerdict bytes := by
  obtain ⟨hfind, husable⟩ := h
  have hauth : offer.verdict ([socksVersion, ai.authType] ++ (ai.reply ++ bytes))
      = authVerdict ai (ai.reply ++ bytes) := by
    rw [List.cons_append, List.singleton_append, Offer.verdict, if_neg (not_not.mpr rfl), hfind]
    exact if_pos husable
  rw [AuthInfo.opening, List.append_assoc, hauth]
  cases ai with
  | none | password => rfl

theorem Accepted.verdict {bytes : List Byte} (h : offer.Accepted ai bytes) (rest : List Byte) :
    offer.verdict (bytes ++ rest) = .up := by
  obtain ⟨hai, x, t, addr, hlen, rfl⟩ := h
  rw [List.append_assoc, List.append_assoc, hai.verdict]
  simp only [List.cons_append, List.nil_append, replyVerdict, hlen, List.length_append]
  rw [if_neg (by simp), if_pos (Nat.le_add_right _ _)]

theorem Rejected.verdict {bytes : List Byte} (h : offer.Rejected bytes) (rest : List Byte) :
    offer.verdict (bytes ++ rest) = .error := by
  cases h with
  | version _ _ hver => exact if_pos hver
  | method _ hfind =>
    rw [List.cons_append, List.singleton_append, Offer.verdict, if_neg (not_not.mpr rfl), hfind]
  | strings _ _ hfind hai =>
    rw [List.cons_append, List.singleton_append, Offer.verdict, if_neg (not_not.mpr rfl), hfind]
    exact if_neg hai
  | password _ _ _ hai =>
    obtain ⟨hfind, husable⟩ := hai
    simp only [List.cons_append, List.nil_append, Offer.verdict, hfind, if_pos husable,
      authVerdict]
    rw [if_neg (not_not.mpr rfl), if_neg (by tauto)]
  | reply _ _ _ _ t hai =>
    rw [List.append_assoc, hai.verdict]
    simp only [List.cons_append, List.nil_append, replyVerdict]
    split_ifs with hbad
    · rfl
    · have hnone : replyAddrLen t = none := by tauto
      rw [hnone]

end Offer

/-! ### The session -/

/-- A client, its connection, and what has passed over it. -/
structure Session where
  client : Client
  /-- `control.send_sender`. -/
  sender : Flow.PacketStreamSender
  /-- What the server has sent and the client has not read. -/
  stream : List Byte
  /-- What the client has read. -/
  read : List Byte
  /-- What the connection has taken. -/
  written : List Byte
  /-- The connection was not made, broke, or was closed by the server. -/
  connectionFailed : Bool
  /-- Some `BRealloc` failed. -/
  allocFailed : Bool
  fault : Bool

namespace Session

inductive Label
  | connector (isError connectionInit realloc : Bool)
  | connection (recvClosed : Bool)
  | arrive (bytes : List Byte)
  | receive (n : ℕ) (realloc : Bool)
  | senderInputOperation
  | senderOutputOperation
  /-- The connection takes `n` bytes. -/
  | write (n : ℕ)
  | senderOutputDone
  | sent (realloc : Bool)
  deriving DecidableEq

/-- What a callback of the client leaves. A packet that it handed on is an operation of the
sender. -/
def leave (w : Session) : Except Fault (Unit × Client) → Session
  | .error _ => { w with fault := true }
  | .ok (_, client) =>
    match client.sent.drop w.client.sent.length with
    | [] => { w with client }
    | packet :: _ =>
      -- PacketPassInterface_Sender_Send
      if w.sender.input = .none then
        { w with client, sender := { w.sender with input := .operationPending packet } }
      else { w with fault := true }

/-- What a handler of the sender leaves. -/
def leaveSender (w : Session) : Except Flow.Fault (Unit × Flow.PacketStreamSender) → Session
  | .error _ => { w with fault := true }
  | .ok (_, sender) => { w with sender }

/-- The connection is lost with this callback. -/
def failsConnection : Callback → Bool
  | .connector isError connectionInit => isError || !connectionInit
  | .connection _ => true
  | .received _ | .sent => false

variable (offer : Offer)

def env (realloc : Bool) : Env := ⟨offer.authInfo, offer.heap, realloc⟩

def call (w : Session) (cb : Callback) (realloc : Bool) : Option Session :=
  if cb.Enabled w.client then
    some (leave { w with
      connectionFailed := w.connectionFailed || failsConnection cb
      allocFailed := w.allocFailed || !realloc }
      ((callback (env offer realloc) cb).run w.client))
  else none

/-- Steps of the sender. -/
def senderNext (w : Session) : Label → Option Session
  | .senderInputOperation =>
    match w.sender.input with
    | .operationPending packet =>
      some (w.leaveSender ((Flow.PacketStreamSender.inputHandlerSend packet).run
        { w.sender with input := .busy packet }))
    | _ => none
  | .senderOutputOperation =>
    match w.sender.output with
    | .operationPending op => some { w with sender := { w.sender with output := .busy op } }
    | _ => none
  | .write n =>
    match w.sender.output with
    | .busy (place, len) =>
      if 0 < n ∧ n ≤ len then
        some { w with
          sender := { w.sender with output := .donePending n }
          written := w.written ++ (w.sender.data.drop place).take n }
      else none
    | _ => none
  | .senderOutputDone =>
    match w.sender.output with
    | .donePending n =>
      some (w.leaveSender ((Flow.PacketStreamSender.outputHandlerDone n).run
        { w.sender with output := .none }))
    | _ => none
  | _ => none

/-- Steps of the client and of the server. -/
def clientNext (w : Session) : Label → Option Session
  | .connector isError connectionInit realloc =>
    w.call offer (.connector isError connectionInit) realloc
  | .connection recvClosed => w.call offer (.connection recvClosed) true
  | .arrive bytes =>
    if w.client.con = true then some { w with stream := w.stream ++ bytes } else none
  | .receive n realloc =>
    if n ≤ w.stream.length then
      call offer { w with stream := w.stream.drop n, read := w.read ++ w.stream.take n }
        (.received (w.stream.take n)) realloc
    else none
  | .sent realloc =>
    if w.sender.input = .donePending () then
      call offer { w with sender := { w.sender with input := .none } } .sent realloc
    else none
  | _ => none

/-- After an error the user frees the client, and nothing more happens to it. -/
def next (w : Session) (l : Label) : Option Session :=
  if w.fault = false ∧ ¬ w.client.Failed then
    (w.clientNext offer l).orElse fun _ => w.senderNext l
  else none

/-- `BSocksClient_Init`. -/
def initialClient : Client :=
  (bSocksClientInit offer.authInfo.length offer.destAddr true).get rfl

def system : System Session Label where
  init := {
    client := initialClient offer
    sender := ⟨.none, .none, -1, 0, []⟩
    stream := []
    read := []
    written := []
    connectionFailed := false
    allocFailed := false
    fault := false }
  next := next offer

/-- What the connection and the jobs do, as opposed to the server. -/
def Internal : Label → Prop
  | .connector _ _ _ | .connection _ | .arrive _ => False
  | _ => True

end Session

end Tun2Socks.Socks
