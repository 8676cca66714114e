import Tun2Socks.Socks.Session

/-!
# The handshake as an exchange of byte strings

The callbacks of the SOCKS client see the stream in pieces, over one buffer that is reallocated
between them. The invariant says what they have made of it:

* `Reached` — in every state of the handshake, which complete messages of the server have been
  read and which packets have been handed to the sender;
* `Held` — the bytes of the message that is being received are at their place in the buffer, and
  they are the rest of what has been read;
* `Session.Inv` — the sender has taken the packets in their order, and what the connection has
  taken is a beginning of them.

Each piece of the callbacks takes a client with a complete message in its buffer to one that has
`Going` again or to one that has reported an error (`After`), and an error is reported either for
want of memory or because the bytes read are `Rejected`. Chunking is dealt with once, in
`recvHandlerDone_after`.
-/

namespace Tun2Socks.Socks

open Framework Net Session

variable {offer : Offer} {o : Client} {read : List Byte}

/-! ### What has been read and sent -/

/-- The complete messages `base` that have been read in a state, and the packets handed to the
sender; `total` is the length of the address that the header of the reply announced. -/
def Reached (offer : Offer) (total : ℕ) (base : List Byte) (sent : List (List Byte)) :
    State → Prop
  | .connecting => base = [] ∧ sent = []
  | .sendingHello | .sentHello => base = [] ∧ sent = [hello offer.authInfo]
  | .sendingPassword | .sentPassword => ∃ p, offer.Chosen (.password p) ∧
      base = [socksVersion, AuthInfo.authType (.password p)] ∧
      sent = [hello offer.authInfo] ++ offer.authMessages (.password p)
  | .sendingRequest | .sentRequest => ∃ ai, offer.Chosen ai ∧ base = ai.opening ∧
      sent = offer.messages ai
  | .receivedReplyHeader => ∃ ai x t, offer.Chosen ai ∧
      base = ai.opening ++ [socksVersion, 0, x, t] ∧ replyAddrLen t = some total ∧
      sent = offer.messages ai
  | .up => ∃ ai, offer.Accepted ai base ∧ sent = offer.messages ai

/-- The bytes `part` of the message that is being received. -/
def Held (o : Client) (part : List Byte) : Prop :=
  match o.receiving with
  | none => part = []
  | some _ => part.length = o.recvLen ∧
      ∃ b ∈ o.buffer, (b.drop o.recvDest).take o.recvLen = part

/-- What `BSocksClient_Init` was given is still there. -/
structure Made (offer : Offer) (o : Client) : Prop where
  dest : o.destAddr = offer.destAddr
  numAuthInfo : o.numAuthInfo = offer.authInfo.length

/-- The client has read `read`, and goes on. -/
structure Going (offer : Offer) (read : List Byte) (o : Client) : Prop where
  made : Made offer o
  events : o.events = if o.state = .up then [.up] else []
  progress : ∃ base part, read = base ++ part ∧
    Reached offer o.recvTotal base o.sent o.state ∧ Held o part

/-- The client has read `read` and reported an error, which `excused` or the bytes explain. -/
structure Ended (offer : Offer) (excused : Prop) (read : List Byte) (o : Client) : Prop where
  events : o.events = [.error]
  reason : excused ∨ offer.Rejected read

/-- What a callback of the handshake leaves, where `sent` are the packets handed to the sender
before it. -/
structure After (offer : Offer) (excused : Prop) (read : List Byte) (sent : List (List Byte))
    (o : Client) : Prop where
  outcome : Going offer read o ∨ Ended offer excused read o
  hands : o.sending = none ∧ o.sent = sent ∨
    ∃ packet, o.sending = some packet ∧ o.sent = sent ++ [packet]

theorem Going.not_failed (h : Going offer read o) : ¬ o.Failed := by
  rw [Client.Failed, h.events]
  split_ifs <;> decide

/-! ### Incomplete messages -/

theorem replyVerdict_of_length_lt : ∀ {bytes : List Byte}, bytes.length < 4 →
    Offer.replyVerdict bytes = .more
  | [], _ | [_], _ | [_, _], _ | [_, _, _], _ => rfl
  | _ :: _ :: _ :: _ :: _, h => nomatch h

theorem authVerdict_password_of_length_lt {p : Password} :
    ∀ {bytes : List Byte}, bytes.length < 2 → Offer.authVerdict (.password p) bytes = .more
  | [], _ | [_], _ => rfl
  | _ :: _ :: _, h => nomatch h

theorem verdict_of_length_lt : ∀ {bytes : List Byte}, bytes.length < 2 →
    offer.verdict bytes = .more
  | [], _ | [_], _ => rfl
  | _ :: _ :: _, h => nomatch h

/-- **An incomplete message decides nothing.** While a message is being received, the bytes read
so far are neither a handshake nor the end of one. -/
theorem verdict_receiving {n : ℕ} (h : ClientInv n o) (hgoing : Going offer read o)
    (hrecv : o.receiving ≠ none) : offer.verdict read = .more := by
  obtain ⟨base, part, rfl, hreached, hheld⟩ := hgoing.progress
  obtain ⟨r, hr⟩ := Option.ne_none_iff_exists'.mp hrecv
  rw [Held, hr] at hheld
  obtain ⟨hpart, -⟩ := hheld
  have hawait := h.awaiting hgoing.not_failed
  have hquiet := h.owned.quiet
  rw [Awaiting] at hawait
  cases hstate : o.state with rw [hstate] at hawait hquiet hreached
  | connecting => exact absurd (hquiet (by decide)).2.2 hrecv
  | sendingHello => exact absurd hawait.receiving hrecv
  | sendingPassword => exact absurd hawait.receiving hrecv
  | sendingRequest => exact absurd hawait.receiving hrecv
  | up => exact absurd (hquiet (by decide)).2.2 hrecv
  | sentHello =>
    obtain ⟨rfl, -⟩ := hreached
    exact verdict_of_length_lt (hpart.trans_lt hawait.recvLen)
  | sentPassword =>
    obtain ⟨p, ⟨hfind, husable⟩, rfl, -⟩ := hreached
    rw [List.cons_append, List.singleton_append, Offer.verdict, if_neg (not_not.mpr rfl), hfind]
    exact (if_pos husable).trans
      (authVerdict_password_of_length_lt (hpart.trans_lt hawait.recvLen))
  | sentRequest =>
    obtain ⟨ai, hai, rfl, -⟩ := hreached
    rw [hai.verdict]
    exact replyVerdict_of_length_lt (hpart.trans_lt hawait.recvLen)
  | receivedReplyHeader =>
    obtain ⟨ai, x, t, hai, rfl, htotal, -⟩ := hreached
    obtain ⟨addrLen, hawait⟩ := hawait
    have hshort : ¬ o.recvTotal ≤ part.length := by
      rw [hpart, hawait.recvTotal]
      exact Nat.not_le.mpr hawait.recvLen
    rw [List.append_assoc, hai.verdict]
    simp only [List.cons_append, List.nil_append, Offer.replyVerdict, htotal]
    rw [if_neg (by simp), if_neg hshort]

/-! ### The pieces of the callbacks -/

/-- Inside a callback of the handshake: a message has been read, and nothing was done about it
yet. -/
structure Ready (offer : Offer) (o : Client) : Prop where
  made : Made offer o
  owned : Owned offer.authInfo.length o.state o
  control : o.state.io = .control
  idle : o.Idle
  events : o.events = []

theorem Ready.io (h : Ready offer o) : o.io = .control := h.owned.io.trans h.control

theorem held_nil (h : o.receiving = none) : Held o [] := by
  rw [Held, h]

/-- Nothing has been received of a message that was just asked for. -/
theorem held_awaits {buffer : List Byte} {dest total : ℕ} {state : State} :
    Held (o.awaits buffer dest total state) [] :=
  ⟨rfl, buffer, rfl, List.take_zero⟩

section Pieces

variable {realloc : Bool} {ai : AuthInfo}

/-- An error, reported in the middle of the handshake. -/
theorem Ready.reported (h : Ready offer o) {excused : Prop}
    (hreason : excused ∨ offer.Rejected read) :
    wp (reportError .error) (fun _ => After offer excused read o.sent) o := by
  rw [wp_reportError]
  refine ⟨.inr ⟨?_, hreason⟩, .inl ⟨h.idle.1, rfl⟩⟩
  rw [Client.reported, h.events]
  rfl

/-- The request is sent when the authentication is finished. -/
theorem authFinished_after (h : Ready offer o) (hai : offer.Chosen ai)
    (hsent : o.sent = [hello offer.authInfo] ++ offer.authMessages ai) :
    wp (authFinished (env offer realloc))
      (fun _ => After offer (realloc = false) ai.opening o.sent) o := by
  simp only [authFinished, wp_bind, wp_get]
  refine wp_reserveBuffer h.idle (fun hrealloc => ?_) ?_
  · rw [if_pos rfl]
    exact h.reported (.inl hrealloc)
  · simp only [Bool.true_eq_false, if_false, wp_bind, wp_assert]
    refine ⟨h.owned.dest, ?_⟩
    rw [← length_request]
    refine wp_send h.io h.idle ?_
    rw [wp_setState]
    refine ⟨.inl ⟨⟨h.made.dest, h.made.numAuthInfo⟩, h.events, ai.opening, [],
      (List.append_nil _).symm, ⟨ai, hai, rfl, ?_⟩, held_nil h.idle.2⟩, .inr ⟨_, rfl, rfl⟩⟩
    rw [hsent, h.made.dest]
    rfl

/-- The answer to a packet is asked for. -/
theorem await_after (h : Ready offer o) {size total : ℕ} {state : State} (hpos : 0 < total)
    (hfits : 0 + total ≤ size) (hup : state ≠ .up)
    (hreached : Reached offer total read o.sent state) :
    wp (sendHandlerDone.await (env offer realloc) size total state)
      (fun _ => After offer (realloc = false) read o.sent) o := by
  have hsize : ((o.buffer.getD []).takeD size 0).length = size := List.takeD_length _ _ _
  simp only [sendHandlerDone.await, wp_bind]
  refine wp_reserveBuffer h.idle (fun hrealloc => ?_) ?_
  · rw [if_pos rfl]
    exact h.reported (.inl hrealloc)
  · simp only [Bool.true_eq_false, if_false, wp_bind]
    refine wp_startReceive rfl (hfits.trans hsize.ge) hpos h.io h.idle ?_
    rw [wp_setState]
    exact ⟨.inl ⟨⟨h.made.dest, h.made.numAuthInfo⟩, h.events.trans (if_neg hup).symm, read, [],
      (List.append_nil _).symm, hreached, held_awaits⟩, .inl ⟨h.idle.1, rfl⟩⟩

/-- The strings of a usable method are in memory. -/
theorem exists_strings {p : Password} (hp : .password p ∈ offer.authInfo) :
    ∃ username password : Block Byte,
      (offer.heap[p.username]? = some username ∧ p.usernameLen ≤ username.cells.length) ∧
      (offer.heap[p.password]? = some password ∧ p.passwordLen ≤ password.cells.length) ∧
      offer.authMessages (.password p) = [passwordPacket (username.cells.take p.usernameLen)
        (password.cells.take p.passwordLen)] := by
  obtain ⟨⟨username, husername, hulen⟩, password, hpassword, hplen⟩ := offer.readable p hp
  refine ⟨username, password, ⟨husername, hulen⟩, ⟨hpassword, hplen⟩, ?_⟩
  have husername' : offer.heap[p.username]? = some username := husername
  have hpassword' : offer.heap[p.password]? = some password := hpassword
  rw [Offer.authMessages, Offer.string, Offer.string, husername', hpassword']
  rfl

/-- The username/password message is sent, or the method cannot be carried out. -/
theorem sendPassword_after (h : Ready offer o) {m : Byte} {p : Password}
    (hfind : offer.find m = some (.password p)) (hsent : o.sent = [hello offer.authInfo]) :
    wp (sendPassword (env offer realloc) p)
      (fun _ => After offer (realloc = false) [socksVersion, m] o.sent) o := by
  have hp : .password p ∈ offer.authInfo := List.mem_of_find?_eq_some hfind
  obtain ⟨username, password, ⟨husername, hulen⟩, ⟨hpassword, hplen⟩, hmessages⟩ :=
    exists_strings hp
  simp only [sendPassword, wp_ite]
  split_ifs with hlen
  · refine h.reported (.inr (.strings m _ hfind fun husable => ?_))
    obtain ⟨⟨hu, hu'⟩, h_p, hp'⟩ := husable
    omega
  have husable : AuthInfo.Usable (.password p) := ⟨⟨by omega, by omega⟩, by omega, by omega⟩
  rw [wp_bind]
  refine wp_reserveBuffer h.idle (fun hrealloc => ?_) ?_
  · rw [if_pos rfl]
    exact h.reported (.inl hrealloc)
  simp only [Bool.true_eq_false, if_false, wp_bind]
  refine wp_memcpy husername hulen (wp_memcpy hpassword hplen ?_)
  have hpacket : (passwordPacket (username.cells.take p.usernameLen)
      (password.cells.take p.passwordLen)).length = 1 + 1 + p.usernameLen + 1 + p.passwordLen := by
    rw [length_passwordPacket, List.length_take_of_le hulen, List.length_take_of_le hplen]
  rw [← hpacket]
  refine wp_send h.io h.idle ?_
  rw [wp_modify, wp_setState]
  obtain rfl := Offer.find_authType hfind
  refine ⟨.inl ⟨⟨h.made.dest, h.made.numAuthInfo⟩, h.events, [socksVersion, _], [],
    (List.append_nil _).symm, ⟨p, ⟨hfind, husable⟩, rfl, ?_⟩, held_nil h.idle.2⟩,
    .inr ⟨_, rfl, rfl⟩⟩
  rw [hsent, hmessages]

/-- The server's hello. -/
theorem receivedHello_after (h : Ready offer o) (hsent : o.sent = [hello offer.authInfo])
    {ver m : Byte} (hbuffer : o.buffer = some [ver, m]) :
    wp (receivedHello (env offer realloc))
      (fun _ => After offer (realloc = false) [ver, m] o.sent) o := by
  simp only [receivedHello, wp_bind]
  refine wp_readBuffer_of_get hbuffer rfl (wp_readBuffer_of_get hbuffer rfl ?_)
  by_cases hver : ver = socksVersion
  · subst hver
    have hmethods : (env offer realloc).authInfo.take o.numAuthInfo = offer.authInfo := by
      rw [h.made.numAuthInfo]
      exact List.take_length
    simp only [wp_ite, wp_bind, wp_get, hmethods]
    rw [if_neg (not_not.mpr rfl)]
    -- the search for the method is the one of `Offer.find`
    have hsearch : offer.authInfo.find? (fun ai => ai.authType = m) = offer.find m := rfl
    rw [hsearch]
    cases hfind : offer.find m with
    | none => exact h.reported (.inr (.method m hfind))
    | some ai =>
      cases ai with
      | none =>
        obtain rfl := Offer.find_authType hfind
        have hai : offer.Chosen .none := ⟨hfind, trivial⟩
        exact authFinished_after h hai hsent
      | password => exact sendPassword_after h hfind hsent
  · simp only [wp_ite]
    rw [if_pos hver]
    exact h.reported (.inr (.version ver m hver))

theorem receivedPasswordReply_after (h : Ready offer o) {p : Password}
    (hai : offer.Chosen (.password p))
    (hsent : o.sent = [hello offer.authInfo] ++ offer.authMessages (.password p))
    {ver status : Byte} (hbuffer : o.buffer = some [ver, status]) :
    wp (receivedPasswordReply (env offer realloc))
      (fun _ => After offer (realloc = false)
        ([socksVersion, AuthInfo.authType (.password p)] ++ [ver, status]) o.sent) o := by
  simp only [receivedPasswordReply, wp_bind]
  refine wp_readBuffer_of_get hbuffer rfl (wp_readBuffer_of_get hbuffer rfl ?_)
  simp only [wp_ite]
  by_cases hver : ver = 1
  · rw [if_neg (not_not.mpr hver)]
    by_cases hstatus : status = 0
    · rw [if_neg (not_not.mpr hstatus), hver, hstatus]
      exact authFinished_after h hai hsent
    · rw [if_pos hstatus]
      exact h.reported (.inr (.password p ver status hai (.inr hstatus)))
  · rw [if_pos hver]
    exact h.reported (.inr (.password p ver status hai (.inl hver)))

/-- The header of the reply, in a buffer for the longest reply. -/
theorem receivedReplyHeader_after (h : Ready offer o) (hai : offer.Chosen ai)
    (hsent : o.sent = offer.messages ai) {ver rep x t : Byte} {more : List Byte}
    (hbuffer : o.buffer = some ([ver, rep, x, t] ++ more)) (hsize : more.length = 18) :
    wp receivedReplyHeader
      (fun _ => After offer (realloc = false) (ai.opening ++ [ver, rep, x, t]) o.sent) o := by
  simp only [receivedReplyHeader, wp_bind]
  refine wp_readBuffer_of_get hbuffer rfl (wp_readBuffer_of_get hbuffer rfl
    (wp_readBuffer_of_get hbuffer rfl ?_))
  have hreject (hreply : ver ≠ socksVersion ∨ rep ≠ 0 ∨ replyAddrLen t = none) :
      wp (reportError .error)
        (fun _ => After offer (realloc = false) (ai.opening ++ [ver, rep, x, t]) o.sent) o :=
    h.reported (.inr (.reply ai ver rep x t hai hreply))
  simp only [wp_ite]
  by_cases hver : ver = socksVersion
  swap
  · rw [if_pos hver]
    exact hreject (.inl hver)
  rw [if_neg (not_not.mpr hver)]
  by_cases hrep : rep = 0
  swap
  · rw [if_pos hrep]
    exact hreject (.inr (.inl hrep))
  rw [if_neg (not_not.mpr hrep)]
  cases hatyp : replyAddrLen t with
  | none => exact hreject (.inr (.inr hatyp))
  | some addrLen =>
    obtain ⟨hpos, hle⟩ := replyAddrLen_le hatyp
    have hfits : 4 + addrLen ≤ ([ver, rep, x, t] ++ more).length := by
      rw [List.length_append, hsize]
      exact Nat.add_le_add_left hle 4
    dsimp only
    rw [wp_bind]
    refine wp_startReceive hbuffer hfits hpos h.io h.idle ?_
    rw [wp_setState, hver, hrep]
    exact ⟨.inl ⟨⟨h.made.dest, h.made.numAuthInfo⟩, h.events, _, [], (List.append_nil _).symm,
      ⟨ai, x, t, hai, rfl, hatyp, hsent⟩, held_awaits⟩, .inl ⟨h.idle.1, rfl⟩⟩

/-- The reply is complete. -/
theorem receivedReplyRest_after (h : Ready offer o) (haccepted : offer.Accepted ai read)
    (hsent : o.sent = offer.messages ai) :
    wp receivedReplyRest (fun _ => After offer (realloc = false) read o.sent) o := by
  have hcon : o.con = true := h.owned.con.mpr (State.ne_connecting_of_io h.control)
  simp only [receivedReplyRest, freeBuffer, freeControlIo, initUpIo, wp_bind, wp_get, wp_ensure,
    wp_modify, wp_setState, wp_callHandler]
  refine ⟨h.idle, h.io, ⟨hcon, trivial⟩, ?_⟩
  refine ⟨.inl ⟨⟨h.made.dest, h.made.numAuthInfo⟩, ?_, read, [], (List.append_nil _).symm,
    ⟨ai, haccepted, hsent⟩, held_nil rfl⟩, .inl ⟨rfl, rfl⟩⟩
  exact congrArg (· ++ [Event.up]) h.events

/-! ### The callbacks -/

variable {data : List Byte}

/-- What arrives is put behind what is there. -/
theorem Held.deliver {size dest total : ℕ} {part : List Byte} (h : Held o part)
    (hrecv : Receiving size dest total o) (hlen : data.length ≤ total - o.recvLen) :
    ∃ b, (o.deliver data).buffer = some b ∧ b.length = size ∧
      (b.drop dest).take (o.recvLen + data.length) = part ++ data := by
  have hrecvLen := hrecv.recvLen
  have hfits := hrecv.fits
  rw [Held, hrecv.receiving] at h
  obtain ⟨hpart, b, hb, rfl⟩ := h
  obtain ⟨b', hb', hsize⟩ := hrecv.buffer
  obtain rfl := Option.mem_unique hb hb'
  rw [hrecv.recvDest] at hpart ⊢
  have htake : (b.take (dest + o.recvLen)).drop dest = (b.drop dest).take o.recvLen := by
    rw [List.drop_take, Nat.add_sub_cancel_left]
  have hfront : (b.take (dest + o.recvLen)).length = dest + o.recvLen :=
    List.length_take_of_le (by omega)
  refine ⟨b.take (dest + o.recvLen) ++ data ++ b.drop (dest + o.recvLen + data.length), ?_, ?_, ?_⟩
  · rw [Client.deliver_eq hrecv.receiving, Option.mem_def.mp hb]
    rfl
  · rw [List.length_append, List.length_append, hfront, List.length_drop]
    omega
  · rw [List.append_assoc, List.drop_append_of_le_length (by omega), htake, ← List.append_assoc]
    refine List.take_left' ?_
    rw [List.length_append, hpart]

theorem Going.events_eq_nil (h : Going offer read o) (hup : o.state ≠ .up) : o.events = [] :=
  h.events.trans (if_neg hup)

/-- **A receive completes.** The bytes are put behind those of the message that are there. Either
more of it is asked for, or the message `answer` is complete: `hanswer` is what the code does
with it. -/
theorem recvHandlerDone_after {size dest total : ℕ}
    (h : Owned offer.authInfo.length o.state o) (hio : o.state.io = .control)
    (hgoing : Going offer read o) (hrecv : Receiving size dest total o)
    (hlen : data.length ≤ total - o.recvLen)
    (hanswer : ∀ o' base answer b, Ready offer o' →
      Reached offer o'.recvTotal base o'.sent o.state → answer.length = o'.recvTotal →
      o'.buffer = some b → b.length = size → (b.drop dest).take total = answer →
      wp (match o.state with
        | .sentHello => receivedHello (env offer realloc)
        | .sentRequest => receivedReplyHeader
        | .sentPassword => receivedPasswordReply (env offer realloc)
        | .receivedReplyHeader => receivedReplyRest
        | _ => throw .assert)
        (fun _ => After offer (realloc = false) (base ++ answer) o'.sent) o') :
    wp (recvHandlerDone (env offer realloc) data.length)
      (fun _ => After offer (realloc = false) (read ++ data) o.sent) (o.deliver data) := by
  obtain ⟨base, part, rfl, hreached, hheld⟩ := hgoing.progress
  obtain ⟨b, hbuffer, hsize, hbytes⟩ := hheld.deliver hrecv hlen
  have hup : o.state ≠ .up := by
    intro hup
    rw [hup] at hio
    cases hio
  have hevents := hgoing.events_eq_nil hup
  have hpart : part.length = o.recvLen := by
    rw [Held, hrecv.receiving] at hheld
    exact hheld.1
  obtain rfl := hrecv.recvDest
  obtain rfl := hrecv.recvTotal
  have hmade : Made offer (o.deliver data) := by
    rw [Client.deliver_eq hrecv.receiving]
    exact ⟨hgoing.made.dest, hgoing.made.numAuthInfo⟩
  rw [Client.deliver_eq hrecv.receiving] at hbuffer hmade ⊢
  simp only [recvHandlerDone, wp_bind, wp_get, wp_assert, wp_modify, wp_ite]
  refine ⟨hlen, ?_⟩
  rw [List.append_assoc]
  split_ifs with hmore
  · -- the rest of the message is still to come
    refine wp_doReceive hbuffer hmore (hrecv.fits.trans hsize.ge) (h.io.trans hio)
      ⟨hrecv.sending, rfl⟩ ?_
    refine ⟨.inl ⟨⟨hmade.dest, hmade.numAuthInfo⟩, hevents.trans (if_neg hup).symm, base,
      part ++ data, rfl, hreached, ?_, b, hbuffer, hbytes⟩, .inl ⟨hrecv.sending, rfl⟩⟩
    rw [List.length_append, hpart]
  · -- the message is complete
    have hall : o.recvLen + data.length = o.recvTotal := by
      have := hrecv.recvLen
      omega
    refine hanswer _ base (part ++ data) b ⟨⟨hmade.dest, hmade.numAuthInfo⟩, ?_, hio,
      ⟨hrecv.sending, rfl⟩, hevents⟩ hreached ?_ hbuffer hsize (hall ▸ hbytes)
    · exact ⟨h.connector, h.con, h.io, h.dest, h.numAuthInfo, fun hne => absurd hio hne⟩
    · rw [List.length_append, hpart]
      exact hall

/-- **Data arrives.** In every state that awaits a message. -/
theorem received_after (h : ClientInv offer.authInfo.length o) (hgoing : Going offer read o)
    (hrecv : ∃ r ∈ o.receiving, 0 < data.length ∧ data.length ≤ r.2) :
    wp (recvHandlerDone (env offer realloc) data.length)
      (fun _ => After offer (realloc = false) (read ++ data) o.sent) (o.deliver data) := by
  have hawait := h.awaiting hgoing.not_failed
  rw [Awaiting] at hawait
  obtain hstate | hstate | hstate | hstate := h.answering hgoing.not_failed hrecv
  all_goals rw [hstate] at hawait
  · refine recvHandlerDone_after h.owned (by rw [hstate]; rfl) hgoing hawait
      (hawait.le_of_mem hrecv) ?_
    rw [hstate]
    rintro o' _ _ b hready ⟨rfl, hsent⟩ - hbuffer hsize rfl
    obtain ⟨ver, m, rfl⟩ := List.length_eq_two.mp hsize
    exact receivedHello_after hready hsent hbuffer
  · refine recvHandlerDone_after h.owned (by rw [hstate]; rfl) hgoing hawait
      (hawait.le_of_mem hrecv) ?_
    rw [hstate]
    rintro o' _ _ b hready ⟨p, hai, rfl, hsent⟩ - hbuffer hsize rfl
    obtain ⟨ver, status, rfl⟩ := List.length_eq_two.mp hsize
    exact receivedPasswordReply_after hready hai hsent hbuffer
  · refine recvHandlerDone_after h.owned (by rw [hstate]; rfl) hgoing hawait
      (hawait.le_of_mem hrecv) ?_
    rw [hstate]
    rintro o' _ _ b hready ⟨ai, hai, rfl, hsent⟩ - hbuffer hsize rfl
    -- the buffer is longer than the header
    obtain _ | ⟨ver, _ | ⟨rep, _ | ⟨x, _ | ⟨t, more⟩⟩⟩⟩ := b
    all_goals try cases hsize
    exact receivedReplyHeader_after hready hai hsent hbuffer (by simpa using hsize)
  · obtain ⟨addrLen, hawait⟩ := hawait
    refine recvHandlerDone_after h.owned (by rw [hstate]; rfl) hgoing hawait
      (hawait.le_of_mem hrecv) ?_
    rw [hstate]
    rintro o' _ answer b hready ⟨ai, x, t, hai, rfl, htotal, hsent⟩ hlength - - -
    exact receivedReplyRest_after hready ⟨hai, x, t, answer, hlength ▸ htotal, rfl⟩ hsent

/-- The answer to the packet of the state is awaited. -/
theorem sendHandlerDone_after (h : Ready offer o) (hbuffer : o.buffer ≠ none)
    (hreached : Reached offer o.recvTotal read o.sent o.state)
    (hstate : o.state = .sendingHello ∨ o.state = .sendingPassword ∨ o.state = .sendingRequest) :
    wp (sendHandlerDone (env offer realloc))
      (fun _ => After offer (realloc = false) read o.sent) o := by
  simp only [sendHandlerDone, wp_bind, wp_get, wp_assert]
  refine ⟨hbuffer, ?_⟩
  obtain hstate | hstate | hstate := hstate
  all_goals
    rw [hstate] at hreached ⊢
    dsimp only
    refine await_after h ?_ ?_ ?_ ?_
    iterate 3 decide
    exact hreached

/-- A packet is written. -/
theorem sent_after (h : ClientInv offer.authInfo.length o) (hgoing : Going offer read o)
    (hsending : o.sending ≠ none) :
    wp (sendHandlerDone (env offer realloc))
      (fun _ => After offer (realloc = false) read o.sent) { o with sending := none } := by
  obtain ⟨hawait, hstate⟩ := h.sending hgoing.not_failed hsending
  have howned := h.owned
  have hcontrol : o.state.io = .control := by
    obtain hstate | hstate | hstate := hstate <;> rw [hstate] <;> rfl
  have hup : o.state ≠ .up := by
    obtain hstate | hstate | hstate := hstate <;> rw [hstate] <;> decide
  obtain ⟨base, part, rfl, hreached, hheld⟩ := hgoing.progress
  rw [Held, hawait.receiving] at hheld
  subst hheld
  rw [List.append_nil]
  have hready : Ready offer { o with sending := none } :=
    ⟨⟨hgoing.made.dest, hgoing.made.numAuthInfo⟩,
      ⟨howned.connector, howned.con, howned.io, howned.dest, howned.numAuthInfo,
        fun hne => absurd hcontrol hne⟩,
      hcontrol, ⟨rfl, hawait.receiving⟩, hgoing.events_eq_nil hup⟩
  exact sendHandlerDone_after hready hawait.buffer hreached hstate

/-- The connection is made, and the hello is sent. -/
theorem connector_after (h : ClientInv offer.authInfo.length o) (hgoing : Going offer read o)
    (hstate : o.state = .connecting) :
    wp (connectorHandler (env offer realloc) false true)
      (fun _ => After offer (realloc = false) read o.sent) o := by
  have howned := h.owned
  rw [hstate] at howned
  obtain ⟨hbuffer, hidle⟩ := howned.quiet (by decide)
  have hevents : o.events = [] := hgoing.events_eq_nil (by rw [hstate]; decide)
  have hcon : o.con = false := Bool.eq_false_iff.mpr fun hcon => howned.con.mp hcon rfl
  obtain ⟨base, part, rfl, hreached, hheld⟩ := hgoing.progress
  rw [hstate] at hreached
  obtain ⟨rfl, hsent⟩ := hreached
  rw [Held, hidle.2] at hheld
  subst hheld
  have hcount : ¬ (o.numAuthInfo = 0 ∨ 255 < o.numAuthInfo) := by
    have hcount := offer.count
    rw [hgoing.made.numAuthInfo]
    omega
  simp only [connectorHandler, wp_bind, wp_get, wp_assert, wp_ite]
  refine ⟨hstate, ?_⟩
  rw [if_neg (by decide)]
  simp only [bConnectionInit, initControlIo, wp_bind, wp_get, wp_ensure, wp_modify]
  refine ⟨⟨howned.connector, hcon⟩, ⟨trivial, howned.io⟩, ?_⟩
  rw [if_neg hcount]
  refine wp_reserveBuffer hidle (fun hrealloc => ?_) ?_
  · -- the connection that was made is given up again
    rw [if_pos rfl]
    simp only [connectorHandler.fail1, freeControlIo, bConnectionFree, wp_bind, wp_get, wp_ensure,
      wp_modify, wp_reportError]
    refine ⟨trivial, ⟨trivial, trivial⟩, .inr ⟨?_, .inl hrealloc⟩, .inl ⟨rfl, rfl⟩⟩
    rw [Client.reported, hevents]
    rfl
  simp only [Bool.true_eq_false, if_false]
  refine ⟨howned.numAuthInfo, ?_⟩
  have hmethods : (env offer realloc).authInfo.take o.numAuthInfo = offer.authInfo := by
    rw [hgoing.made.numAuthInfo]
    exact List.take_length
  have hhello : (hello offer.authInfo).length = 2 + o.numAuthInfo := by
    rw [length_hello, hgoing.made.numAuthInfo]
  rw [hmethods, ← hhello]
  refine wp_send rfl hidle ?_
  rw [wp_setState]
  refine ⟨.inl ⟨⟨hgoing.made.dest, hgoing.made.numAuthInfo⟩, hevents, [], [], rfl,
    ⟨rfl, ?_⟩, held_nil hidle.2⟩, .inr ⟨_, rfl, rfl⟩⟩
  rw [hsent]
  rfl

end Pieces

end Tun2Socks.Socks
