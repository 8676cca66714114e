import Tun2Socks.Socks.Client

/-!
# The handshake step by step

What every callback of the SOCKS client keeps, from `BSocksClient_Init` to
`BSocksClient_Free`:

* `Owned` — which parts of the object exist is determined by the state, so that
  `BSocksClient_Free` releases exactly those;
* `Awaiting` — as long as the client has not failed, exactly one operation is outstanding in
  every state of the handshake, and it lies inside the buffer.

`callback_spec` is the step: a callback of the environment returns without a fault, keeps
both, and sends a username/password message only when it has just received the server's
hello, made of the strings the table points to at that moment.

A callback ends in one of three ways: it reports an error, it hands a packet to the sender
(`sends`), or it asks for the next bytes (`awaits`). The specifications of the
pieces are stated with these.
-/

namespace Tun2Socks.Socks

open Framework Net Client

variable {env : Env} {o : Client}

/-! ### How a callback ends -/

namespace Client

variable (o : Client)

/-- The handler was called. -/
def reported (event : Event) : Client := { o with events := o.events ++ [event] }

/-- A buffer of exactly the packet, handed to the sender. -/
def sends (packet : List Byte) (state : State) : Client := { o with
  buffer := some packet
  sending := some packet
  sent := o.sent ++ [packet]
  state }

/-- A receive of `total` bytes to the offset `dest` of the buffer. -/
def awaits (buffer : List Byte) (dest total : ℕ) (state : State) : Client := { o with
  buffer := some buffer
  recvDest := dest
  recvLen := 0
  recvTotal := total
  receiving := some (dest, total)
  state }

/-- The buffer after `BRealloc` to `size` bytes. -/
def reserved (size : ℕ) : Client := { o with
  buffer := some ((o.buffer.getD []).takeD size 0) }

/-- No operation is outstanding. -/
def Idle : Prop := o.sending = none ∧ o.receiving = none

end Client

/-! ### Rules for the operations -/

section Rules

variable {Q : Unit → Client → Prop}

@[simp] theorem wp_assert (p : Prop) [Decidable p] : wp (assert p) Q o ↔ p ∧ Q () o :=
  wp_ensure p _

@[simp] theorem wp_setState (state : State) :
    wp (setState state) Q o ↔ Q () { o with state } :=
  wp_modify _

@[simp] theorem wp_callHandler (event : Event) :
    wp (callHandler event) Q o ↔ Q () (o.reported event) :=
  wp_modify _

@[simp] theorem wp_reportError (event : Event) :
    wp (reportError event) Q o ↔ Q () (o.reported event) :=
  wp_modify _

theorem wp_reserveBuffer {R : Bool → Client → Prop} {size : ℕ} (hidle : o.Idle)
    (hfail : env.realloc = false → R false o) (hok : R true (o.reserved size)) :
    wp (reserveBuffer env size) R o := by
  simp only [reserveBuffer, wp_bind, wp_get, wp_ensure, wp_ite, wp_pure, wp_modify]
  refine ⟨hidle, ?_⟩
  split_ifs with hrealloc
  · exact hfail hrealloc
  · exact hok

theorem wp_readBuffer_of_get {R : Byte → Client → Prop} {offset : ℕ} {buffer : List Byte}
    {b : Byte} (hbuffer : o.buffer = some buffer) (hget : buffer[offset]? = some b)
    (hread : R b o) : wp (readBuffer offset) R o := by
  simp only [readBuffer, wp_bind, wp_get, hbuffer, Option.getD_some, hget, wp_pure]
  exact hread

theorem wp_readBuffer {R : Byte → Client → Prop} {offset : ℕ} {buffer : List Byte}
    (hbuffer : o.buffer = some buffer) (hlt : offset < buffer.length)
    (hread : R buffer[offset] o) : wp (readBuffer offset) R o :=
  wp_readBuffer_of_get hbuffer (List.getElem?_eq_getElem hlt) hread

theorem wp_memcpy {R : List Byte × Bool → Client → Prop} {src len : ℕ} {block : Block Byte}
    (hblock : env.heap[src]? = some block) (hlen : len ≤ block.cells.length)
    (hread : R (block.cells.take len, block.live) o) : wp (memcpy env src len) R o := by
  simp only [memcpy, hblock, wp_bind, wp_ensure, wp_pure]
  exact ⟨hlen, hread⟩

end Rules

/-- Writing a packet over a buffer reserved for it, and sending it. -/
theorem wp_send {Q : Unit → Client → Prop} {packet : List Byte} (hio : o.io = .control)
    (hidle : o.Idle)
    (hpost : Q () { o with
      buffer := some packet, sending := some packet, sent := o.sent ++ [packet] }) :
    wp (writeBuffer packet) (fun _ => wp (senderSend packet.length) Q)
      (o.reserved packet.length) := by
  have hlength : ((o.buffer.getD []).takeD packet.length 0).length = packet.length :=
    List.takeD_length _ _ _
  simp only [writeBuffer, senderSend, wp_bind, wp_get, wp_ensure, wp_modify, reserved,
    Option.getD_some, Option.map_some, List.drop_eq_nil_of_le hlength.le, List.append_nil,
    List.take_length]
  exact ⟨hlength.ge, hio, hidle, le_rfl, hpost⟩

/-! ### The invariant -/

/-- The I/O objects of a state. -/
def State.io : State → Io
  | .connecting => .none
  | .up => .up
  | _ => .control

/-- The parts of the object that exist in a state, and what `BSocksClient_Init` set. -/
structure Owned (methods : ℕ) (state : State) (o : Client) : Prop where
  connector : o.connector = true
  con : o.con = true ↔ state ≠ .connecting
  io : o.io = state.io
  dest : o.destAddr ≠ .none
  numAuthInfo : o.numAuthInfo ≤ methods
  /-- Without control I/O there is no buffer, and nothing is outstanding. -/
  quiet : state.io ≠ .control → o.buffer = none ∧ o.Idle

/-- The next bytes of an answer are awaited, in a buffer of `size` bytes. -/
structure Receiving (size dest total : ℕ) (o : Client) : Prop where
  buffer : ∃ b ∈ o.buffer, b.length = size
  fits : dest + total ≤ size
  sending : o.sending = none
  recvDest : o.recvDest = dest
  recvTotal : o.recvTotal = total
  recvLen : o.recvLen < total
  receiving : o.receiving = some (dest + o.recvLen, total - o.recvLen)

/-- A packet is being sent from the buffer. -/
structure Sending (o : Client) : Prop where
  buffer : o.buffer ≠ none
  sending : o.sending ≠ none
  receiving : o.receiving = none

/-- What is outstanding in a state. -/
def Awaiting (o : Client) : Prop :=
  match o.state with
  | .connecting | .up => True
  | .sendingHello | .sendingPassword | .sendingRequest => Sending o
  | .sentHello | .sentPassword => Receiving 2 0 2 o
  | .sentRequest => Receiving 22 0 4 o
  | .receivedReplyHeader => ∃ addrLen, Receiving 22 4 addrLen o

/-- The invariant of a client that is not freed, with a table of `methods` methods. -/
structure ClientInv (methods : ℕ) (o : Client) : Prop where
  owned : Owned methods o.state o
  awaiting : ¬ o.Failed → Awaiting o

/-- The states before the username is read. -/
def State.beforePassword : State → Bool
  | .connecting | .sendingHello | .sentHello => true
  | _ => false

/-- The client may still read its username. -/
def Client.Pending (o : Client) : Prop :=
  o.connector = true ∧ ¬ o.Failed ∧ o.state.beforePassword = true

instance (o : Client) : Decidable o.Pending := by
  unfold Client.Pending
  infer_instance

/-- The message `p` stands for, in the memory of the moment. -/
def Env.PasswordMessage (env : Env) (p : Password) (m : PasswordMessage) : Prop :=
  ∃ username password : Block Byte,
    env.heap[p.username]? = some username ∧ env.heap[p.password]? = some password ∧
      m = ⟨passwordPacket (username.cells.take p.usernameLen)
        (password.cells.take p.passwordLen), username.live⟩

/-- The strings of the table lie in memory, allocated or not any more. -/
def Env.Readable (env : Env) : Prop :=
  ∀ p, .password p ∈ env.authInfo →
    (∃ b, env.heap[p.username]? = some b ∧ p.usernameLen ≤ b.cells.length) ∧
      ∃ b, env.heap[p.password]? = some b ∧ p.passwordLen ≤ b.cells.length

/-- The size the buffer was last reserved with. -/
def Client.size (o : Client) : ℕ := (o.buffer.getD []).length

/-- What an operation on the buffer may do. -/
structure Disciplined (o : Client) : Prop where
  one : o.sending = none ∨ o.receiving = none
  /-- The sender reads its packet from the start of the buffer. -/
  send : ∀ packet ∈ o.sending, packet.length ≤ o.size ∧
    packet = (o.buffer.getD []).take packet.length
  /-- The receiver writes the rest of what the client waits for. -/
  receive : ∀ r ∈ o.receiving, r = (o.recvDest + o.recvLen, o.recvTotal - o.recvLen) ∧
    o.recvLen < o.recvTotal ∧ o.recvDest + o.recvTotal ≤ o.size

/-- What a callback does to a client. -/
structure Step (env : Env) (o o' : Client) : Prop where
  inv : ClientInv env.authInfo.length o'
  pending : o'.Pending → o.Pending
  /-- A username/password message is sent at most once, by a client that was pending. -/
  messages : o'.passwordMessages = o.passwordMessages ∨
    o.Pending ∧ ∃ p m, .password p ∈ env.authInfo ∧ env.PasswordMessage p m ∧
      o'.passwordMessages = o.passwordMessages ++ [m]

/-- What a callback does to a client and to its buffer, also after an error, when an operation may
be left outstanding. -/
structure Turn (env : Env) (o o' : Client) : Prop extends Step env o o' where
  disciplined : Disciplined o → Disciplined o'

/-! ### Ends that keep the invariant -/

section Ends

variable {n : ℕ} {state : State}

theorem Client.failed_reported (o : Client) {event : Event} (h : event ≠ .up) :
    (o.reported event).Failed := by
  cases event with
  | error => exact .inl (List.mem_append_right _ List.mem_cons_self)
  | up => exact absurd rfl h
  | errorClosed => exact .inr (List.mem_append_right _ List.mem_cons_self)

theorem Disciplined.of_idle (h : o.Idle) : Disciplined o where
  one := .inl h.1
  send packet hpacket := by
    rw [h.1] at hpacket
    cases hpacket
  receive r hr := by
    rw [h.2] at hr
    cases hr

theorem Disciplined.of_sending {packet : List Byte} (hsending : o.sending = some packet)
    (hbuffer : o.buffer = some packet) (h : o.receiving = none) : Disciplined o where
  one := .inr h
  send p hp := by
    obtain rfl := Option.some.inj (hsending.symm.trans hp)
    rw [size, hbuffer]
    exact ⟨le_rfl, List.take_length.symm⟩
  receive r hr := nomatch (h.symm.trans hr).symm

theorem Receiving.disciplined {size dest total : ℕ} (h : Receiving size dest total o) :
    Disciplined o where
  one := .inl h.sending
  send p hp := nomatch (h.sending.symm.trans hp).symm
  receive r hr := by
    obtain ⟨b, hb, hsize⟩ := h.buffer
    obtain rfl := Option.some.inj (hr.symm.trans h.receiving)
    rw [h.recvDest, h.recvTotal, Client.size, Option.mem_def.mp hb, Option.getD_some, hsize]
    exact ⟨rfl, h.recvLen, h.fits⟩

theorem Client.not_pending (h : o.state.beforePassword = false) : ¬ o.Pending := by
  rintro ⟨-, -, hstate⟩
  rw [h] at hstate
  exact Bool.false_ne_true hstate

theorem State.ne_connecting_of_io (h : state.io = .control) : state ≠ .connecting := by
  rintro rfl
  cases h

variable {state' : State}

/-- All states with control I/O own the same. -/
theorem Owned.control (h : Owned n state o) (hio : state.io = .control)
    (hio' : state'.io = .control) : Owned n state' o where
  connector := h.connector
  con := iff_of_true (h.con.mpr (State.ne_connecting_of_io hio))
    (State.ne_connecting_of_io hio')
  io := by rw [h.io, hio, hio']
  dest := h.dest
  numAuthInfo := h.numAuthInfo
  quiet hne := absurd hio' hne

/-- A client that reports an error keeps what it owns and does nothing more. -/
theorem Turn.reported {o' : Client} (h : Owned env.authInfo.length o'.state o')
    (hdisciplined : Disciplined o → Disciplined o')
    (hmessages : o'.passwordMessages = o.passwordMessages) {event : Event}
    (hevent : event ≠ .up) : Turn env o (o'.reported event) where
  inv := ⟨⟨h.connector, h.con, h.io, h.dest, h.numAuthInfo, h.quiet⟩,
    fun hok => absurd (o'.failed_reported hevent) hok⟩
  pending hpending := absurd (o'.failed_reported hevent) hpending.2.1
  messages := .inl hmessages
  disciplined hbefore := ⟨(hdisciplined hbefore).one, (hdisciplined hbefore).send,
    (hdisciplined hbefore).receive⟩

/-- A packet is sent in one of the three states for it. -/
theorem ClientInv.sends (h : Owned n state o) (hio : state.io = .control)
    (hreceiving : o.receiving = none) (packet : List Byte)
    (hstate : state' = .sendingHello ∨ state' = .sendingPassword ∨ state' = .sendingRequest) :
    ClientInv n (o.sends packet state') := by
  have hsending : Sending (o.sends packet state') :=
    ⟨Option.some_ne_none _, Option.some_ne_none _, hreceiving⟩
  have howned (hio' : state'.io = .control) : Owned n state' (o.sends packet state') :=
    have h' := h.control hio hio'
    ⟨h'.connector, h'.con, h'.io, h'.dest, h'.numAuthInfo, fun hne => absurd hio' hne⟩
  obtain rfl | rfl | rfl := hstate <;> exact ⟨howned rfl, fun _ => hsending⟩

theorem Receiving.awaits {size dest total : ℕ} {buffer : List Byte}
    (hsize : buffer.length = size) (hfits : dest + total ≤ size) (hpos : 0 < total)
    (hsending : o.sending = none) :
    Receiving size dest total (o.awaits buffer dest total state) where
  buffer := ⟨buffer, rfl, hsize⟩
  fits := hfits
  sending := hsending
  recvDest := rfl
  recvTotal := rfl
  recvLen := hpos
  receiving := rfl

theorem Owned.awaits (h : Owned n state o) (hio : state.io = .control)
    (hio' : state'.io = .control) (buffer : List Byte) (dest total : ℕ) :
    Owned n state' (o.awaits buffer dest total state') :=
  have h' := h.control hio hio'
  ⟨h'.connector, h'.con, h'.io, h'.dest, h'.numAuthInfo, fun hne => absurd hio' hne⟩

end Ends

/-! ### The pieces of the callbacks -/

/-- Inside a callback of the handshake that started with the client `o`: the client is now
`o'`, what was outstanding has completed, and nothing was sent yet. -/
structure Working (env : Env) (o o' : Client) : Prop where
  owned : Owned env.authInfo.length o'.state o'
  control : o'.state.io = .control
  idle : o'.Idle
  messages : o'.passwordMessages = o.passwordMessages

theorem Working.io {o' : Client} (h : Working env o o') : o'.io = .control :=
  h.owned.io.trans h.control

section Pieces

variable {o' : Client} {state : State}

theorem reportError_spec (h : Owned env.authInfo.length o'.state o') (hidle : o'.Idle)
    (hmessages : o'.passwordMessages = o.passwordMessages) :
    wp (reportError .error) (fun _ => Turn env o) o' := by
  rw [wp_reportError]
  exact Turn.reported h (fun _ => .of_idle hidle) hmessages (by decide)

theorem Working.reportError (h : Working env o o') :
    wp (reportError .error) (fun _ => Turn env o) o' :=
  reportError_spec h.owned h.idle h.messages

variable {buffer : List Byte}

theorem wp_doReceive {Q : Unit → Client → Prop}
    (hbuffer : o.buffer = some buffer) (hmore : o.recvLen < o.recvTotal)
    (hfits : o.recvDest + o.recvTotal ≤ buffer.length) (hio : o.io = .control)
    (hidle : o.Idle)
    (hpost : Q () { o with
      receiving := some (o.recvDest + o.recvLen, o.recvTotal - o.recvLen) }) :
    wp doReceive Q o := by
  simp only [doReceive, receiverRecv, wp_bind, wp_get, wp_assert, wp_modify, wp_ensure]
  refine ⟨hmore, hio, hidle, ?_, hpost⟩
  rw [hbuffer, Option.getD_some]
  omega

/-- `start_receive` into the buffer that was just reserved. -/
theorem wp_startReceive {Q : Unit → Client → Prop} {dest total : ℕ}
    (hbuffer : o.buffer = some buffer) (hfits : dest + total ≤ buffer.length)
    (hpos : 0 < total) (hio : o.io = .control) (hidle : o.Idle)
    (hpost : Q () (o.awaits buffer dest total o.state)) :
    wp (startReceive dest total) Q o := by
  rw [awaits, ← hbuffer] at hpost
  simp only [startReceive, wp_bind, wp_assert, wp_modify]
  exact ⟨hpos, wp_doReceive hbuffer hpos hfits hio hidle hpost⟩

theorem length_request (destAddr : BAddr) :
    (request destAddr).length = 4 + (socksAddr destAddr).length := by
  rw [request, List.length_append, List.length_cons, List.length_cons, List.length_cons,
    List.length_cons, List.length_nil]

/-- `auth_finished` fails for want of memory, or sends the request. -/
theorem authFinished_spec (h : Working env o o') :
    wp (authFinished env) (fun _ => Turn env o) o' := by
  simp only [authFinished, wp_bind, wp_get]
  refine wp_reserveBuffer h.idle (fun _ => ?_) ?_
  · rw [if_pos rfl]
    exact h.reportError
  · simp only [Bool.true_eq_false, if_false, wp_bind, wp_assert]
    refine ⟨h.owned.dest, ?_⟩
    rw [← length_request]
    refine wp_send h.io h.idle ?_
    rw [wp_setState]
    exact {
      inv := ClientInv.sends h.owned h.control h.idle.2 _ (.inr (.inr rfl))
      pending := fun hpending => absurd hpending (not_pending rfl)
      messages := .inl h.messages
      disciplined := fun _ => .of_sending rfl rfl h.idle.2 }

/-- The next part of an answer is asked for, unless there is no memory for it. -/
theorem await_spec (h : Working env o o') {size total : ℕ} (hpos : 0 < total)
    (hfits : 0 + total ≤ size) (hio' : state.io = .control)
    (hawait : ∀ o, o.state = state → Receiving size 0 total o → Awaiting o)
    (hpending : state.beforePassword = true → o.Pending) :
    wp (sendHandlerDone.await env size total state) (fun _ => Turn env o) o' := by
  have hsize : ((o'.buffer.getD []).takeD size 0).length = size := List.takeD_length _ _ _
  simp only [sendHandlerDone.await, wp_bind]
  refine wp_reserveBuffer h.idle (fun _ => ?_) ?_
  · rw [if_pos rfl]
    exact h.reportError
  · simp only [Bool.true_eq_false, if_false, wp_bind]
    refine wp_startReceive rfl (hfits.trans hsize.ge) hpos h.io h.idle ?_
    rw [wp_setState]
    have hrecv : Receiving size 0 total (o'.awaits _ 0 total state) :=
      .awaits hsize hfits hpos h.idle.1
    exact {
      inv := ⟨h.owned.awaits h.control hio' _ 0 total, fun _ => hawait _ rfl hrecv⟩
      pending := fun h' => hpending h'.2.2
      messages := .inl h.messages
      disciplined := fun _ => hrecv.disciplined }

theorem length_passwordPacket (username password : List Byte) :
    (passwordPacket username password).length
      = 1 + 1 + username.length + 1 + password.length := by
  rw [passwordPacket, List.length_append, List.length_append, List.length_append,
    List.length_cons, List.length_singleton, List.length_singleton]

/-- The username/password message is made of the strings in memory now. -/
theorem sendPassword_spec (h : Working env o o') (hpending : o.Pending) (hread : env.Readable)
    {p : Password} (hp : .password p ∈ env.authInfo) :
    wp (sendPassword env p) (fun _ => Turn env o) o' := by
  obtain ⟨⟨username, husername, hulen⟩, password, hpassword, hplen⟩ := hread p hp
  simp only [sendPassword, wp_ite]
  split_ifs with hlen
  · exact h.reportError
  rw [wp_bind]
  refine wp_reserveBuffer h.idle (fun _ => ?_) ?_
  · rw [if_pos rfl]
    exact h.reportError
  simp only [Bool.true_eq_false, if_false, wp_bind]
  refine wp_memcpy husername hulen (wp_memcpy hpassword hplen ?_)
  -- the packet fills the buffer that was reserved for it
  let packet := passwordPacket (username.cells.take p.usernameLen)
    (password.cells.take p.passwordLen)
  have hpacket : packet.length = 1 + 1 + p.usernameLen + 1 + p.passwordLen := by
    rw [length_passwordPacket, List.length_take_of_le hulen, List.length_take_of_le hplen]
  rw [← hpacket]
  refine wp_send h.io h.idle ?_
  rw [wp_modify, wp_setState]
  -- what is owned does not depend on the messages sent
  have howned (messages : List PasswordMessage) :
      Owned env.authInfo.length o'.state { o' with passwordMessages := messages } :=
    have h := h.owned
    ⟨h.connector, h.con, h.io, h.dest, h.numAuthInfo, h.quiet⟩
  let m : PasswordMessage := ⟨packet, username.live⟩
  exact {
    inv := ClientInv.sends (howned (o'.passwordMessages ++ [m])) h.control h.idle.2 packet
      (.inr (.inl rfl))
    pending := fun hpending => absurd hpending (not_pending rfl)
    messages := .inr ⟨hpending, p, m, hp, ⟨username, password, husername, hpassword, rfl⟩,
      congrArg (· ++ [m]) h.messages⟩
    disciplined := fun _ => .of_sending rfl rfl h.idle.2 }

/-- The server's hello chooses a method, or ends the handshake. -/
theorem receivedHello_spec (h : Working env o o') (hpending : o.Pending) (hread : env.Readable)
    (hbuffer : o'.buffer = some buffer) (hsize : buffer.length = 2) :
    wp (receivedHello env) (fun _ => Turn env o) o' := by
  simp only [receivedHello, wp_bind]
  refine wp_readBuffer hbuffer (by omega) (wp_readBuffer hbuffer (by omega) ?_)
  split_ifs
  · exact h.reportError
  rw [wp_bind, wp_get]
  cases hfind : (env.authInfo.take o'.numAuthInfo).find? fun ai => ai.authType = buffer[1] with
  | none => exact h.reportError
  | some ai =>
    cases ai with
    | none => exact authFinished_spec h
    | password =>
      have hp := List.mem_of_mem_take (List.mem_of_find?_eq_some hfind)
      exact sendPassword_spec h hpending hread hp

theorem receivedPasswordReply_spec (h : Working env o o')
    (hbuffer : o'.buffer = some buffer) (hsize : buffer.length = 2) :
    wp (receivedPasswordReply env) (fun _ => Turn env o) o' := by
  simp only [receivedPasswordReply, wp_bind]
  refine wp_readBuffer hbuffer (by omega) (wp_readBuffer hbuffer (by omega) ?_)
  split_ifs
  · exact h.reportError
  · exact h.reportError
  · exact authFinished_spec h

theorem replyAddrLen_le {atyp : Byte} {addrLen : ℕ} (h : replyAddrLen atyp = some addrLen) :
    0 < addrLen ∧ addrLen ≤ 18 := by
  rw [replyAddrLen] at h
  split_ifs at h
  · cases h
    decide
  · cases h
    decide

/-- The header of the reply says how much of it is still to come. -/
theorem receivedReplyHeader_spec (h : Working env o o')
    (hbuffer : o'.buffer = some buffer) (hsize : buffer.length = 22) :
    wp receivedReplyHeader (fun _ => Turn env o) o' := by
  simp only [receivedReplyHeader, wp_bind]
  refine wp_readBuffer hbuffer (by omega) (wp_readBuffer hbuffer (by omega)
    (wp_readBuffer hbuffer (by omega) ?_))
  split_ifs
  · exact h.reportError
  · exact h.reportError
  cases hatyp : replyAddrLen buffer[3] with
  | none => exact h.reportError
  | some addrLen =>
    -- the buffer was reserved for the longest reply, so the address fits behind the header
    obtain ⟨hpos, hle⟩ := replyAddrLen_le hatyp
    rw [wp_bind]
    refine wp_startReceive hbuffer (by omega) hpos h.io h.idle ?_
    rw [wp_setState]
    have hrecv : Receiving 22 4 addrLen (o'.awaits buffer 4 addrLen .receivedReplyHeader) :=
      .awaits hsize (by omega) hpos h.idle.1
    exact {
      inv := ⟨h.owned.awaits h.control rfl buffer 4 addrLen, fun _ => ⟨addrLen, hrecv⟩⟩
      pending := fun hpending => absurd hpending (not_pending rfl)
      messages := .inl h.messages
      disciplined := fun _ => hrecv.disciplined }

/-- The reply is complete, and the client is up. -/
theorem receivedReplyRest_spec (h : Working env o o') :
    wp receivedReplyRest (fun _ => Turn env o) o' := by
  have howned := h.owned
  have hcon : o'.con = true := howned.con.mpr (State.ne_connecting_of_io h.control)
  have hup : State.up ≠ .connecting := by decide
  simp only [receivedReplyRest, freeBuffer, freeControlIo, initUpIo, wp_bind, wp_get, wp_ensure,
    wp_modify, wp_setState, wp_callHandler]
  refine ⟨h.idle, h.io, ⟨hcon, trivial⟩, ?_⟩
  exact {
    inv := ⟨⟨howned.connector, iff_of_true hcon hup, rfl, howned.dest, howned.numAuthInfo,
      fun _ => ⟨rfl, rfl, rfl⟩⟩, fun _ => trivial⟩
    pending := fun hpending => absurd hpending (not_pending rfl)
    messages := .inl h.messages
    disciplined := fun _ => .of_idle ⟨rfl, rfl⟩ }

end Pieces

/-! ### The callbacks -/

section Callbacks

variable {n : ℕ} {data : List Byte}

theorem Client.deliver_eq {dest len : ℕ} (h : o.receiving = some (dest, len)) :
    o.deliver data = { o with
      receiving := none
      buffer := o.buffer.map fun b => b.take dest ++ data ++ b.drop (dest + data.length) } := by
  rw [deliver, h]

/-- What arrives lies inside the buffer, which keeps its size. -/
theorem Receiving.deliver {size dest total : ℕ} (h : Receiving size dest total o)
    (hlen : data.length ≤ total - o.recvLen) :
    ∃ b, (o.deliver data).buffer = some b ∧ b.length = size := by
  obtain ⟨b, hb, hsize⟩ := h.buffer
  have hrecvLen := h.recvLen
  have hfits := h.fits
  rw [deliver_eq h.receiving, Option.mem_def.mp hb]
  refine ⟨_, rfl, ?_⟩
  rw [List.length_append, List.length_append, List.length_take, List.length_drop]
  omega

/-- **A receive completes.** Either more of the answer is asked for, or the answer is there:
`hanswer` is what the code does with it. -/
theorem recvHandlerDone_spec {size dest total : ℕ} (h : Owned env.authInfo.length o.state o)
    (hok : ¬ o.Failed) (hio : o.state.io = .control) (hrecv : Receiving size dest total o)
    (hawait : ∀ o', o'.state = o.state → Receiving size dest total o' → Awaiting o')
    (hlen : data.length ≤ total - o.recvLen)
    (hanswer : ∀ o' b, Working env o o' → o'.buffer = some b → b.length = size →
      wp (match o.state with
        | .sentHello => receivedHello env
        | .sentRequest => receivedReplyHeader
        | .sentPassword => receivedPasswordReply env
        | .receivedReplyHeader => receivedReplyRest
        | _ => throw .assert) (fun _ => Turn env o) o') :
    wp (recvHandlerDone env data.length) (fun _ => Turn env o) (o.deliver data) := by
  obtain ⟨b, hbuffer, hsize⟩ := hrecv.deliver hlen
  obtain rfl := hrecv.recvDest
  obtain rfl := hrecv.recvTotal
  rw [deliver_eq hrecv.receiving] at hbuffer ⊢
  simp only [recvHandlerDone, wp_bind, wp_get, wp_assert, wp_modify, wp_ite]
  refine ⟨hlen, ?_⟩
  split_ifs with hmore
  · -- the rest of the answer is still to come
    refine wp_doReceive hbuffer hmore (hrecv.fits.trans hsize.ge) (h.io.trans hio)
      ⟨hrecv.sending, rfl⟩ ?_
    exact {
      inv := ⟨⟨h.connector, h.con, h.io, h.dest, h.numAuthInfo, fun hne => absurd hio hne⟩,
        fun _ => hawait _ rfl ⟨⟨b, hbuffer, hsize⟩, hrecv.fits, hrecv.sending, rfl, rfl,
          hmore, rfl⟩⟩
      pending := fun hpending => ⟨h.connector, hok, hpending.2.2⟩
      messages := .inl rfl
      disciplined := fun _ => Receiving.disciplined ⟨⟨b, hbuffer, hsize⟩, hrecv.fits,
        hrecv.sending, rfl, rfl, hmore, rfl⟩ }
  · -- the answer is complete
    exact hanswer _ b ⟨⟨h.connector, h.con, h.io, h.dest, h.numAuthInfo,
      fun hne => absurd hio hne⟩, hio, ⟨hrecv.sending, rfl⟩, rfl⟩ hbuffer hsize

/-- The connection that was just made is given up. -/
theorem fail1_spec {o' : Client} (h : Owned env.authInfo.length .sendingHello o')
    (hstate : o'.state = .connecting) (hbuffer : o'.buffer = none)
    (hmessages : o'.passwordMessages = o.passwordMessages) :
    wp connectorHandler.fail1 (fun _ => Turn env o) o' := by
  simp only [connectorHandler.fail1, freeControlIo, bConnectionFree, wp_bind, wp_get, wp_ensure,
    wp_modify]
  refine ⟨h.io, ⟨h.con.mpr (by decide), trivial⟩, reportError_spec ?_ ⟨rfl, rfl⟩ hmessages⟩
  refine ⟨h.connector, ?_, ?_, h.dest, h.numAuthInfo, fun _ => ⟨hbuffer, rfl, rfl⟩⟩
  · exact iff_of_false Bool.false_ne_true (fun hne => hne hstate)
  · exact (congrArg State.io hstate).symm

theorem length_hello (methods : List AuthInfo) : (hello methods).length = 2 + methods.length := by
  rw [hello, List.length_append, List.length_map, List.length_cons, List.length_singleton]

theorem connectorHandler_spec (h : ClientInv env.authInfo.length o) (hok : ¬ o.Failed)
    (hstate : o.state = .connecting) (isError connectionInit : Bool) :
    wp (connectorHandler env isError connectionInit) (fun _ => Turn env o) o := by
  have howned := h.owned
  rw [hstate] at howned
  obtain ⟨hbuffer, hidle⟩ := howned.quiet (by decide)
  simp only [connectorHandler, wp_bind, wp_get, wp_assert, wp_ite]
  refine ⟨hstate, ?_⟩
  split_ifs with herror hmethods
  · exact reportError_spec h.owned hidle rfl
  -- the connection is made in both branches that remain, before the methods are counted
  all_goals
    have hcon : o.con = false :=
      Bool.eq_false_iff.mpr fun hcon => howned.con.mp hcon rfl
    simp only [bConnectionInit, initControlIo, wp_bind, wp_get, wp_ensure, wp_modify]
    refine ⟨⟨howned.connector, hcon⟩, ⟨trivial, howned.io⟩, ?_⟩
    -- with the connection and the control I/O, it owns what the next states own
    have hnext : Owned env.authInfo.length .sendingHello
        { o with con := true, io := .control } :=
      ⟨howned.connector, iff_of_true rfl (by decide), rfl, howned.dest, howned.numAuthInfo,
        fun hne => absurd rfl hne⟩
  · exact fail1_spec hnext hstate hbuffer rfl
  · refine wp_reserveBuffer hidle (fun _ => ?_) ?_
    · rw [if_pos rfl]
      exact fail1_spec hnext hstate hbuffer rfl
    simp only [Bool.true_eq_false, if_false]
    refine ⟨howned.numAuthInfo, ?_⟩
    have hhello : (hello (env.authInfo.take o.numAuthInfo)).length = 2 + o.numAuthInfo := by
      rw [length_hello, List.length_take_of_le howned.numAuthInfo]
    rw [← hhello]
    refine wp_send rfl hidle ?_
    rw [wp_setState]
    exact {
      inv := ClientInv.sends hnext rfl hidle.2 _ (.inl rfl)
      pending := fun _ => ⟨howned.connector, hok, by rw [hstate]; rfl⟩
      messages := .inl rfl
      disciplined := fun _ => .of_sending rfl rfl hidle.2 }

/-- In the states that are not for sending, nothing is being sent. -/
theorem ClientInv.sending (hinv : ClientInv n o) (hok : ¬ o.Failed)
    (hsending : o.sending ≠ none) : Sending o ∧
      (o.state = .sendingHello ∨ o.state = .sendingPassword ∨ o.state = .sendingRequest) := by
  have hquiet := hinv.owned.quiet
  have h := hinv.awaiting hok
  rw [Awaiting] at h
  cases hstate : o.state with rw [hstate] at h hquiet
  | connecting => exact absurd (hquiet (by decide)).2.1 hsending
  | sendingHello => exact ⟨h, .inl rfl⟩
  | sentHello => exact absurd h.sending hsending
  | sendingPassword => exact ⟨h, .inr (.inl rfl)⟩
  | sentPassword => exact absurd h.sending hsending
  | sendingRequest => exact ⟨h, .inr (.inr rfl)⟩
  | sentRequest => exact absurd h.sending hsending
  | receivedReplyHeader => exact absurd h.choose_spec.sending hsending
  | up => exact absurd (hquiet (by decide)).2.1 hsending

/-- A packet is written; the answer to it is awaited. -/
theorem sendHandlerDone_spec {o' : Client} (h : Working env o o') (hbuffer : o'.buffer ≠ none)
    (hstate : o'.state = .sendingHello ∧ o.Pending ∨ o'.state = .sendingPassword ∨
      o'.state = .sendingRequest) :
    wp (sendHandlerDone env) (fun _ => Turn env o) o' := by
  simp only [sendHandlerDone, wp_bind, wp_get, wp_assert]
  refine ⟨hbuffer, ?_⟩
  obtain ⟨hstate, hpending⟩ | hstate | hstate := hstate
  all_goals rw [hstate]
  · refine await_spec h (by decide) (by decide) rfl ?_ fun _ => hpending
    exact fun o' h' hrecv => by rw [Awaiting, h']; exact hrecv
  · refine await_spec h (by decide) (by decide) rfl ?_ fun hbefore => absurd hbefore (by decide)
    exact fun o' h' hrecv => by rw [Awaiting, h']; exact hrecv
  · refine await_spec h (by decide) (by decide) rfl ?_ fun hbefore => absurd hbefore (by decide)
    exact fun o' h' hrecv => by rw [Awaiting, h']; exact hrecv

/-- What arrives is part of the answer. -/
theorem Receiving.le_of_mem {size dest total n : ℕ} (h : Receiving size dest total o)
    (hrecv : ∃ r ∈ o.receiving, 0 < n ∧ n ≤ r.2) : n ≤ total - o.recvLen := by
  obtain ⟨r, hr, -, hlen⟩ := hrecv
  obtain rfl := Option.some.inj (hr.symm.trans h.receiving)
  exact hlen

/-- Data arrives in a state in which an answer is awaited. -/
theorem ClientInv.answering {methods n : ℕ} (h : ClientInv methods o) (hok : ¬ o.Failed)
    (hrecv : ∃ r ∈ o.receiving, 0 < n ∧ n ≤ r.2) : o.state = .sentHello ∨
      o.state = .sentPassword ∨ o.state = .sentRequest ∨ o.state = .receivedReplyHeader := by
  obtain ⟨r, hr, -⟩ := hrecv
  have hbusy : o.receiving ≠ none := fun hnone => nomatch hnone.symm.trans hr
  have hawait := h.awaiting hok
  have hquiet := h.owned.quiet
  rw [Awaiting] at hawait
  cases hstate : o.state with rw [hstate] at hawait hquiet
  | connecting | up => exact absurd (hquiet (by decide)).2.2 hbusy
  | sendingHello | sendingPassword | sendingRequest => exact absurd hawait.receiving hbusy
  | _ => decide

/-- Data arrives while an answer is awaited. -/
theorem received_spec (h : ClientInv env.authInfo.length o) (hok : ¬ o.Failed)
    (hread : env.Readable)
    (hrecv : ∃ r ∈ o.receiving, 0 < data.length ∧ data.length ≤ r.2) :
    wp (recvHandlerDone env data.length) (fun _ => Turn env o) (o.deliver data) := by
  have hawait := h.awaiting hok
  rw [Awaiting] at hawait
  have hcases := h.answering hok hrecv
  have hio : o.state.io = .control := by
    obtain hstate | hstate | hstate | hstate := hcases <;> rw [hstate] <;> rfl
  obtain hstate | hstate | hstate | hstate := hcases <;> rw [hstate] at hawait
  · refine recvHandlerDone_spec h.owned hok hio hawait ?_ (hawait.le_of_mem hrecv) ?_
    · exact fun o' h' hrecv => by rw [Awaiting, h', hstate]; exact hrecv
    · intro o' b hwork hbuffer hsize
      have hpending : o.Pending := ⟨h.owned.connector, hok, by rw [hstate]; rfl⟩
      rw [hstate]
      exact receivedHello_spec hwork hpending hread hbuffer hsize
  · refine recvHandlerDone_spec h.owned hok hio hawait ?_ (hawait.le_of_mem hrecv) ?_
    · exact fun o' h' hrecv => by rw [Awaiting, h', hstate]; exact hrecv
    · intro o' b hwork hbuffer hsize
      rw [hstate]
      exact receivedPasswordReply_spec hwork hbuffer hsize
  · refine recvHandlerDone_spec h.owned hok hio hawait ?_ (hawait.le_of_mem hrecv) ?_
    · exact fun o' h' hrecv => by rw [Awaiting, h', hstate]; exact hrecv
    · intro o' b hwork hbuffer hsize
      rw [hstate]
      exact receivedReplyHeader_spec hwork hbuffer hsize
  · obtain ⟨addrLen, hawait⟩ := hawait
    refine recvHandlerDone_spec h.owned hok hio hawait ?_ (hawait.le_of_mem hrecv) ?_
    · exact fun o' h' hrecv => by rw [Awaiting, h', hstate]; exact ⟨addrLen, hrecv⟩
    · intro o' b hwork _ _
      rw [hstate]
      exact receivedReplyRest_spec hwork

/-- **The step.** Whatever the environment does next, the callback returns without a fault
and keeps the invariant. -/
theorem callback_spec (h : ClientInv env.authInfo.length o) (hread : env.Readable)
    (cb : Callback) (hcb : cb.Enabled o) : wp (callback env cb) (fun _ => Turn env o) o := by
  obtain ⟨-, hok, hcb⟩ := hcb
  cases cb with
  | connector isError connectionInit =>
    exact connectorHandler_spec h hok hcb isError connectionInit
  | connection =>
    simp only [callback, connectionHandler, wp_bind, wp_get, wp_assert, wp_ite, wp_reportError]
    refine ⟨h.owned.con.mp hcb, ?_⟩
    split_ifs
    · exact Turn.reported h.owned id rfl (by decide)
    · exact Turn.reported h.owned id rfl (by decide)
  | received =>
    simp only [callback, wp_bind, wp_modify]
    exact received_spec h hok hread hcb
  | sent =>
    obtain ⟨hawait, hstate⟩ := h.sending hok hcb
    have howned := h.owned
    have hcontrol : o.state.io = .control := by
      obtain hstate | hstate | hstate := hstate <;> rw [hstate] <;> rfl
    simp only [callback, wp_bind, wp_modify]
    refine sendHandlerDone_spec ⟨?_, hcontrol, ⟨rfl, hawait.receiving⟩, rfl⟩ hawait.buffer
      (hstate.imp_left fun hstate => ⟨hstate, ?_⟩)
    · exact ⟨howned.connector, howned.con, howned.io, howned.dest, howned.numAuthInfo,
        fun hne => absurd hcontrol hne⟩
    · exact ⟨howned.connector, hok, by rw [hstate]; rfl⟩

theorem State.io_eq_control {state : State} (h : state ≠ .connecting) (hup : state ≠ .up) :
    state.io = .control := by
  cases state with
  | connecting => exact absurd rfl h
  | up => exact absurd rfl hup
  | _ => rfl

/-- **Release.** In whatever state the client is, `BSocksClient_Free` frees the parts that
exist, each once, and leaves nothing behind. -/
theorem bSocksClientFree_spec (h : ClientInv n o) :
    wp bSocksClientFree (fun _ o' => o'.connector = false ∧ o'.con = false ∧ o'.io = .none ∧
      o'.buffer = none ∧ o'.passwordMessages = o.passwordMessages) o := by
  have howned := h.owned
  have hconnector := howned.connector
  simp only [bSocksClientFree, freeUpIo, freeControlIo, bConnectionFree, bConnectorFree,
    freeBuffer, wp_bind, wp_get, wp_ite, wp_ensure, wp_modify]
  by_cases hconnecting : o.state = .connecting
  · -- there is only the connector
    rw [hconnecting] at howned
    obtain ⟨hbuffer, -⟩ := howned.quiet (by decide)
    have hcon : o.con = false := Bool.eq_false_iff.mpr fun hcon => howned.con.mp hcon rfl
    rw [if_neg (not_not.mpr hconnecting), if_neg (not_not.mpr hbuffer)]
    exact ⟨hconnector, (wp_pure _).mpr ⟨rfl, hcon, howned.io, hbuffer, rfl⟩⟩
  have hcon := howned.con.mpr hconnecting
  rw [if_pos hconnecting]
  by_cases hup : o.state = .up
  · -- the buffer went when the client came up
    rw [hup] at howned
    obtain ⟨hbuffer, -⟩ := howned.quiet (by decide)
    rw [if_pos hup, if_neg (not_not.mpr hbuffer)]
    exact ⟨howned.io, ⟨hcon, trivial⟩, hconnector,
      (wp_pure _).mpr ⟨rfl, rfl, rfl, hbuffer, rfl⟩⟩
  · -- freeing the control I/O ends what was outstanding, so the buffer may go
    have hio := howned.io.trans (State.io_eq_control hconnecting hup)
    rw [if_neg hup]
    refine ⟨hio, ⟨hcon, trivial⟩, hconnector, ?_⟩
    split_ifs with hbuffer
    · exact ⟨⟨trivial, trivial⟩, trivial, trivial, trivial, trivial, trivial⟩
    · exact (wp_pure _).mpr ⟨rfl, rfl, rfl, not_not.mp hbuffer, rfl⟩

end Callbacks

end Tun2Socks.Socks
