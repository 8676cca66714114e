import Tun2Socks.Socks.Negotiation

/-!
# The client and the server agree on the handshake

The run of a session, from `BSocksClient_Init` on: however the bytes are divided, the client comes
up exactly when the server's bytes begin with a handshake, and then it has read just these bytes
and written just the messages for them. An error is reported once, in place of `UP` or after it.

An error in the bytes is noticed when the message that it is in is complete, and not before: the
two bytes of the hello and of the password reply and the four bytes of the reply's header are each
received whole before they are looked at. A server that sends one wrong byte and then nothing
leaves the client waiting.
-/

namespace Tun2Socks.Socks.Session

open Framework Net Session

variable {offer : Offer} {w w' : Session}

/-! ### The invariant -/

/-- How the client is doing. -/
inductive Outcome (offer : Offer) (w : Session) : Prop
  | going (h : Going offer w.read w.client) (hconnection : w.connectionFailed = false)
  | ended (h : Ended offer (w.connectionFailed = true ∨ w.allocFailed = true) w.read w.client)
  /-- The connection was lost after the handshake. -/
  | lost (ai : AuthInfo) (event : Event) (hevent : event ≠ .up)
      (hevents : w.client.events = [.up, event]) (haccepted : offer.Accepted ai w.read)
      (hwritten : w.written = (offer.messages ai).flatten)
      (hconnection : w.connectionFailed = true)

structure Inv (offer : Offer) (w : Session) : Prop where
  fault : w.fault = false
  client : ClientInv offer.authInfo.length w.client
  sender : w.sender.Inv
  /-- The sender has a packet while the client is sending. -/
  linked : ¬ w.client.Failed → (w.sender.input = .none ↔ w.client.sending = none)
  written : w.written ++ w.sender.rest = w.client.sent.flatten
  /-- The server has sent nothing before the connection was made. -/
  early : w.client.sent = [] → w.stream = []
  outcome : Outcome offer w

theorem Inv.going (h : Inv offer w) (hok : ¬ w.client.Failed) :
    Going offer w.read w.client ∧ w.connectionFailed = false := by
  cases h.outcome with
  | going h hconnection => exact ⟨h, hconnection⟩
  | ended h =>
    refine absurd (.inl ?_) hok
    rw [h.events]
    exact List.mem_singleton_self _
  | lost _ event hevent hevents _ _ _ =>
    refine absurd ?_ hok
    rw [Client.Failed, hevents]
    cases event with
    | up => exact absurd rfl hevent
    | error | errorClosed => decide

theorem inv_init : Inv offer (system offer).init where
  fault := rfl
  client := {
    owned := ⟨rfl, iff_of_false Bool.false_ne_true (fun h => h rfl), rfl, offer.dest, le_rfl,
      fun _ => ⟨rfl, rfl, rfl⟩⟩
    awaiting := fun _ => trivial }
  sender := .idle rfl rfl id
  linked := fun _ => iff_of_true rfl rfl
  written := rfl
  early := fun _ => rfl
  outcome := .going ⟨⟨rfl, rfl⟩, rfl, [], [], rfl, ⟨rfl, rfl⟩, rfl⟩ rfl

/-! ### The steps -/

/-- **A callback of the handshake.** `w` is the session when the callback is called: what it
delivers counts as read, and the sender is idle. -/
theorem call_inv {cb : Callback} {realloc : Bool} (hnext : w.call offer cb realloc = some w')
    (hfault : w.fault = false) (hclient : ClientInv offer.authInfo.length w.client)
    (hsender : w.sender.Inv) (hinput : w.sender.input = .none)
    (hwritten : w.written ++ w.sender.rest = w.client.sent.flatten)
    (hearly : w.client.sent = [] → w.stream = []) (hconnection : w.connectionFailed = false)
    (hcb : failsConnection cb = false)
    (hafter : wp (callback (env offer realloc) cb)
      (fun _ => After offer (realloc = false) w.read w.client.sent) w.client) : Inv offer w' := by
  rw [call] at hnext
  split_ifs at hnext with henabled
  cases hnext
  have hreadable : (env offer realloc).Readable := offer.readable
  obtain ⟨⟨⟨⟩, o'⟩, hrun, hstep, houtcome, hhands⟩ :=
    wp_and (callback_spec hclient hreadable cb henabled) hafter
  have hrest : w.sender.rest = [] := by rw [Flow.PacketStreamSender.rest, hinput]
  have hlost : (w.connectionFailed || failsConnection cb) = false := by
    rw [hconnection, hcb]
    rfl
  have houtcome' (sender : Flow.PacketStreamSender) : Outcome offer { w with
      client := o'
      sender
      connectionFailed := w.connectionFailed || failsConnection cb
      allocFailed := w.allocFailed || !realloc } := by
    obtain hgoing | hended := houtcome
    · exact .going hgoing hlost
    · refine .ended ⟨hended.events, hended.reason.imp_left fun hrealloc => .inr ?_⟩
      change (w.allocFailed || !realloc) = true
      rw [hrealloc, Bool.not_false, Bool.or_true]
  rw [hrun]
  rw [hrest, List.append_nil] at hwritten
  obtain ⟨hsending, hsent⟩ | ⟨packet, hsending, hsent⟩ := hhands
  · have hdrop : o'.sent.drop w.client.sent.length = [] := by rw [hsent, List.drop_length]
    rw [leave]
    dsimp only
    rw [hdrop]
    exact {
      fault := hfault
      client := hstep.inv
      sender := hsender
      linked := fun _ => iff_of_true hinput hsending
      written := by
        rw [hrest, List.append_nil, hsent]
        exact hwritten
      early := fun hnone => hearly (hsent ▸ hnone)
      outcome := houtcome' w.sender }
  · have hdrop : o'.sent.drop w.client.sent.length = [packet] := by rw [hsent, List.drop_left]
    rw [leave]
    dsimp only
    rw [hdrop]
    dsimp only
    rw [if_pos hinput]
    exact {
      fault := hfault
      client := hstep.inv
      sender := hsender.start packet hinput
      linked := fun _ => iff_of_false (by simp) (by rw [hsending]; simp)
      written := by
        rw [hsent, List.flatten_append, List.flatten_singleton, ← hwritten]
        rfl
      early := fun hnone => absurd (hsent.symm.trans hnone) (by simp)
      outcome := houtcome' _ }

/-- A callback that ends the connection reports one event and does nothing else. -/
theorem callback_failing {o : Client} {cb : Callback} (realloc : Bool)
    (h : ClientInv offer.authInfo.length o) (henabled : cb.Enabled o)
    (hcb : failsConnection cb = true) :
    ∃ event, event ≠ .up ∧ (o.state ≠ .up → event = .error) ∧
      wp (callback (env offer realloc) cb) (fun _ o' => o' = o.reported event) o := by
  obtain ⟨-, -, henabled⟩ := henabled
  cases cb with
  | received | sent => cases hcb
  | connector isError connectionInit =>
    refine ⟨.error, by decide, fun _ => rfl, ?_⟩
    have herror : isError = true ∨ connectionInit = false := by
      simpa [failsConnection] using hcb
    simp only [callback, connectorHandler, wp_bind, wp_get, wp_assert, wp_ite]
    rw [if_pos herror, wp_reportError]
    exact ⟨henabled, rfl⟩
  | connection recvClosed =>
    have hstate := h.owned.con.mp henabled
    simp only [callback, connectionHandler, wp_bind, wp_get, wp_assert, wp_ite, wp_reportError]
    by_cases hclosed : o.state = .up ∧ recvClosed = true
    · refine ⟨.errorClosed, by decide, fun hup => absurd hclosed.1 hup, hstate, ?_⟩
      rw [if_pos hclosed]
    · refine ⟨.error, by decide, fun _ => rfl, hstate, ?_⟩
      rw [if_neg hclosed]

/-- **A client that is up** has read just the server's side of a handshake, and its side has been
written. -/
theorem Inv.accepted_of_up (h : Inv offer w) (hok : ¬ w.client.Failed)
    (hup : w.client.state = .up) :
    ∃ ai, offer.Accepted ai w.read ∧ w.written = (offer.messages ai).flatten := by
  obtain ⟨base, part, hread, hreached, hheld⟩ := (h.going hok).1.progress
  obtain ⟨-, hsending, hreceiving⟩ := h.client.owned.quiet (by rw [hup]; decide)
  rw [Held, hreceiving] at hheld
  rw [hheld, List.append_nil] at hread
  rw [hup] at hreached
  obtain ⟨ai, haccepted, hsent⟩ := hreached
  refine ⟨ai, hread ▸ haccepted, ?_⟩
  have hrest : w.sender.rest = [] := by
    rw [Flow.PacketStreamSender.rest, (h.linked hok).mpr hsending]
  rw [← hsent, ← h.written, hrest, List.append_nil]

/-- **The connection is lost.** -/
theorem Inv.lose {cb : Callback} {realloc : Bool} (h : Inv offer w)
    (hnext : w.call offer cb realloc = some w') (hcb : failsConnection cb = true) :
    Inv offer w' := by
  rw [call] at hnext
  split_ifs at hnext with henabled
  cases hnext
  obtain ⟨hgoing, -⟩ := h.going henabled.2.1
  obtain ⟨event, hevent, herror, ⟨⟨⟩, o'⟩, hrun, ho'⟩ :=
    callback_failing realloc h.client henabled hcb
  obtain rfl : o' = w.client.reported event := ho'
  have howned := h.client.owned
  have hfailed := w.client.failed_reported hevent
  have hdrop : (w.client.reported event).sent.drop w.client.sent.length = [] := List.drop_length
  rw [hrun, leave]
  dsimp only
  rw [hdrop]
  refine {
    fault := h.fault
    client := {
      owned := ⟨howned.connector, howned.con, howned.io, howned.dest, howned.numAuthInfo,
        howned.quiet⟩
      awaiting := fun hok => absurd hfailed hok }
    sender := h.sender
    linked := fun hok => absurd hfailed hok
    written := h.written
    early := h.early
    outcome := ?_ }
  have hlost : (w.connectionFailed || failsConnection cb) = true := by
    rw [hcb, Bool.or_true]
  by_cases hup : w.client.state = .up
  · -- the handshake was over
    obtain ⟨ai, haccepted, hwritten⟩ := h.accepted_of_up henabled.2.1 hup
    refine .lost ai event hevent ?_ haccepted hwritten hlost
    change w.client.events ++ [event] = [.up, event]
    rw [hgoing.events, if_pos hup]
    rfl
  · refine .ended ⟨?_, .inl (.inl hlost)⟩
    change w.client.events ++ [event] = [.error]
    rw [hgoing.events_eq_nil hup, herror hup]
    rfl

/-- A client that has a connection has sent its hello. -/
theorem sent_ne_nil {o : Client} {read : List Byte} (h : ClientInv offer.authInfo.length o)
    (hgoing : Going offer read o) (hcon : o.con = true) : o.sent ≠ [] := by
  have hstate := h.owned.con.mp hcon
  obtain ⟨base, part, -, hreached, -⟩ := hgoing.progress
  cases hcase : o.state with rw [hcase] at hreached
  | connecting => exact absurd hcase hstate
  | sendingHello | sentHello =>
    rw [hreached.2]
    exact List.cons_ne_nil _ _
  | sendingPassword | sentPassword | sendingRequest | sentRequest =>
    obtain ⟨_, -, -, hsent⟩ := hreached
    rw [hsent]
    exact List.cons_ne_nil _ _
  | receivedReplyHeader =>
    obtain ⟨ai, x, t, -, -, -, hsent⟩ := hreached
    rw [hsent]
    exact List.cons_ne_nil _ _
  | up =>
    obtain ⟨ai, -, hsent⟩ := hreached
    rw [hsent]
    exact List.cons_ne_nil _ _

/-- A step of the client or of the server. -/
theorem Inv.clientNext (h : Inv offer w) (hok : ¬ w.client.Failed) {l : Label}
    (hnext : w.clientNext offer l = some w') : Inv offer w' := by
  obtain ⟨hgoing, hconnection⟩ := h.going hok
  have hlinked := h.linked hok
  cases l with
  | connector isError connectionInit =>
    cases hcb : failsConnection (.connector isError connectionInit) with
    | true => exact h.lose hnext hcb
    | false =>
      obtain ⟨rfl, rfl⟩ : isError = false ∧ connectionInit = true := by
        simpa [failsConnection] using hcb
      have hstate : w.client.state = .connecting := by
        rw [Session.clientNext, call] at hnext
        split_ifs at hnext with henabled
        exact henabled.2.2
      have hidle := (h.client.owned.quiet (by rw [hstate]; decide)).2
      exact call_inv hnext h.fault h.client h.sender (hlinked.mpr hidle.1) h.written h.early
        hconnection hcb (connector_after h.client hgoing hstate)
  | connection => exact h.lose hnext rfl
  | arrive =>
    rw [Session.clientNext] at hnext
    split_ifs at hnext with hcon
    cases hnext
    have hsent := sent_ne_nil h.client hgoing hcon
    exact { h with
      early := fun hnone => absurd hnone hsent
      outcome := .going hgoing hconnection }
  | receive n =>
    rw [Session.clientNext] at hnext
    split_ifs at hnext with hn
    have hrecv : ∃ r ∈ w.client.receiving, 0 < (w.stream.take n).length ∧
        (w.stream.take n).length ≤ r.2 := by
      rw [call] at hnext
      split_ifs at hnext with henabled
      exact henabled.2.2
    have hidle : w.client.sending = none := by
      by_contra hsending
      obtain ⟨r, hr, -⟩ := hrecv
      have hnone := (h.client.sending hok hsending).1.receiving
      rw [Option.mem_def.mp hr] at hnone
      cases hnone
    refine call_inv hnext h.fault h.client h.sender (hlinked.mpr hidle) h.written ?_
      hconnection rfl ?_
    · intro hnone
      change w.stream.drop n = []
      rw [h.early hnone, List.drop_nil]
    · simp only [callback, wp_bind, wp_modify]
      exact received_after h.client hgoing hrecv
  | sent =>
    rw [Session.clientNext] at hnext
    split_ifs at hnext with hdone
    have hsending : w.client.sending ≠ none := by
      rw [call] at hnext
      split_ifs at hnext with henabled
      exact henabled.2.2
    obtain ⟨hinv, hrest⟩ := h.sender.inputDone hdone
    refine call_inv hnext h.fault h.client hinv rfl (hrest ▸ h.written) h.early hconnection
      rfl ?_
    simp only [callback, wp_bind, wp_modify]
    exact sent_after h.client hgoing hsending
  | _ => cases hnext

/-- The sender goes on with its packet. -/
theorem Inv.leaveSender (h : Inv offer w) (hok : ¬ w.client.Failed)
    {prog : Flow.PacketStreamSender.M Unit} {s : Flow.PacketStreamSender}
    (hinput : w.sender.input ≠ .none)
    (hspec : wp prog (fun _ s' => s'.Inv ∧ s'.rest = w.sender.rest ∧ s'.input ≠ .none) s) :
    Inv offer (w.leaveSender (prog.run s)) := by
  obtain ⟨hgoing, hconnection⟩ := h.going hok
  obtain ⟨⟨⟨⟩, s'⟩, hrun, hinv, hrest, hinput'⟩ := hspec
  have hsending : w.client.sending ≠ none := fun hnone =>
    hinput ((h.linked hok).mpr hnone)
  rw [hrun]
  exact { h with
    sender := hinv
    linked := fun _ => iff_of_false hinput' hsending
    written := hrest ▸ h.written
    outcome := .going hgoing hconnection }

/-- A step of the sender. -/
theorem Inv.senderNext (h : Inv offer w) (hok : ¬ w.client.Failed) {l : Label}
    (hnext : w.senderNext l = some w') : Inv offer w' := by
  obtain ⟨hgoing, hconnection⟩ := h.going hok
  cases l with
  | senderInputOperation =>
    rw [Session.senderNext] at hnext
    cases hinput : w.sender.input with rw [hinput] at hnext
    | operationPending packet =>
      cases hnext
      refine h.leaveSender hok ?_
        (Flow.PacketStreamSender.inputHandlerSend_spec h.sender hinput)
      rw [hinput]
      exact nofun
    | _ => cases hnext
  | senderOutputOperation =>
    rw [Session.senderNext] at hnext
    cases houtput : w.sender.output with rw [houtput] at hnext
    | operationPending op =>
      cases hnext
      obtain ⟨hinv, hrest⟩ := h.sender.outputOperation houtput
      exact { h with
        sender := hinv
        written := hrest ▸ h.written
        outcome := .going hgoing hconnection }
    | _ => cases hnext
  | write =>
    rw [Session.senderNext] at hnext
    cases houtput : w.sender.output with rw [houtput] at hnext
    | busy op =>
      obtain ⟨place, len⟩ := op
      dsimp only at hnext
      split_ifs at hnext with hn
      cases hnext
      obtain ⟨hinv, hrest⟩ := h.sender.write houtput hn.1 hn.2
      refine { h with
        sender := hinv
        written := ?_
        outcome := .going hgoing hconnection }
      rw [List.append_assoc, ← hrest]
      exact h.written
    | _ => cases hnext
  | senderOutputDone =>
    rw [Session.senderNext] at hnext
    cases houtput : w.sender.output with rw [houtput] at hnext
    | donePending n =>
      cases hnext
      refine h.leaveSender hok ?_
        (Flow.PacketStreamSender.outputHandlerDone_spec h.sender houtput)
      exact h.sender.input_ne_none (by rw [houtput]; nofun)
    | _ => cases hnext
  | _ => cases hnext

theorem inv_of_reachable (h : (system offer).Reachable w) : Inv offer w := by
  refine h.invariant inv_init fun w l w' h hnext => ?_
  change next offer w l = some w' at hnext
  rw [next] at hnext
  split_ifs at hnext with hok
  cases hclient : w.clientNext offer l with rw [hclient] at hnext
  | some =>
    exact h.clientNext hok.2 (hclient.trans hnext)
  | none =>
    exact h.senderNext hok.2 hnext

/-! ### Sessions that wait for the server -/

section Quiet

/-- Neither the client nor the sender can go on by itself. -/
theorem next_eq_none_of_quiescent (hinv : Inv offer w) (hok : ¬ w.client.Failed)
    (h : (system offer).Quiescent Internal w) {l : Label} (hl : Internal l) :
    w.clientNext offer l = none ∧ w.senderNext l = none := by
  have hnone : w.next offer l = none := h l hl
  rw [next, if_pos ⟨hinv.fault, hok⟩] at hnone
  cases hclient : w.clientNext offer l with rw [hclient] at hnone
  | none =>
    exact ⟨rfl, hnone⟩
  | some => cases hnone

/-- A client that waits for the server has no packet to send. -/
theorem Inv.sending_eq_none (h : Inv offer w) (hok : ¬ w.client.Failed)
    (hquiet : (system offer).Quiescent Internal w) : w.client.sending = none := by
  have hnext {l : Label} (hl : Internal l) := next_eq_none_of_quiescent h hok hquiet hl
  rw [← h.linked hok]
  by_contra hbusy
  have hsending : w.client.sending ≠ none := fun hnone => hbusy ((h.linked hok).mpr hnone)
  refine hbusy (h.sender.input_eq_none (fun p hinput => ?_) (fun hinput => ?_)
    (fun op houtput => ?_) (fun place len hlen houtput => ?_) (fun n houtput => ?_))
  · have hjob := (hnext (l := .senderInputOperation) trivial).2
    rw [Session.senderNext, hinput] at hjob
    cases hjob
  · have hjob := (hnext (l := .sent true) trivial).1
    rw [Session.clientNext, if_pos hinput, call,
      if_pos ⟨h.client.owned.connector, hok, hsending⟩] at hjob
    cases hjob
  · have hjob := (hnext (l := .senderOutputOperation) trivial).2
    rw [Session.senderNext, houtput] at hjob
    cases hjob
  · -- the connection could take one byte
    have hjob := (hnext (l := .write 1) trivial).2
    rw [Session.senderNext, houtput] at hjob
    dsimp only at hjob
    rw [if_pos ⟨Nat.one_pos, hlen⟩] at hjob
    cases hjob
  · have hjob := (hnext (l := .senderOutputDone) trivial).2
    rw [Session.senderNext, houtput] at hjob
    cases hjob

/-- A client that waits for a message has read all there is. -/
theorem Inv.stream_eq_nil (h : Inv offer w) (hok : ¬ w.client.Failed)
    (hquiet : (system offer).Quiescent Internal w) {r : ℕ × ℕ}
    (hreceiving : w.client.receiving = some r) (hpos : 0 < r.2) : w.stream = [] := by
  by_contra hstream
  have hlength : 1 ≤ w.stream.length := List.length_pos_iff.mpr hstream
  have hone : (w.stream.take 1).length = 1 := List.length_take_of_le hlength
  have hjob := (next_eq_none_of_quiescent h hok hquiet (l := .receive 1 true) trivial).1
  have henabled : (Callback.received (w.stream.take 1)).Enabled w.client := by
    refine ⟨h.client.owned.connector, hok, r, hreceiving, ?_⟩
    rw [hone]
    exact ⟨Nat.one_pos, hpos⟩
  rw [Session.clientNext, if_pos hlength, call, if_pos henabled] at hjob
  cases hjob

/-- What is outstanding in a state of the handshake. -/
theorem receiving_of_idle {n : ℕ} {o : Client} (h : ClientInv n o) (hok : ¬ o.Failed)
    (hsending : o.sending = none) (hconnecting : o.state ≠ .connecting)
    (hup : o.state ≠ .up) : ∃ r, o.receiving = some r ∧ 0 < r.2 := by
  have hawait := h.awaiting hok
  rw [Awaiting] at hawait
  have hrecv {size dest total : ℕ} (hrecv : Receiving size dest total o) :
      ∃ r, o.receiving = some r ∧ 0 < r.2 :=
    ⟨_, hrecv.receiving, Nat.sub_pos_of_lt hrecv.recvLen⟩
  cases hstate : o.state with rw [hstate] at hawait
  | connecting => exact absurd hstate hconnecting
  | up => exact absurd hstate hup
  | sendingHello | sendingPassword | sendingRequest => exact absurd hsending hawait.sending
  | sentHello | sentPassword | sentRequest => exact hrecv hawait
  | receivedReplyHeader => exact hrecv hawait.choose_spec

/-- **The client has decided what the bytes decide.** When nothing but the server can go on, the
client has reported what the bytes that have arrived amount to. -/
theorem Inv.events_of_quiescent (h : Inv offer w)
    (hquiet : (system offer).Quiescent Internal w) (hconnection : w.connectionFailed = false)
    (halloc : w.allocFailed = false) :
    w.client.events = (offer.verdict (w.read ++ w.stream)).events := by
  cases h.outcome with
  | lost _ _ _ _ _ _ hlost =>
    rw [hconnection] at hlost
    cases hlost
  | ended hended =>
    have hrejected : offer.Rejected w.read := by
      obtain hexcused | hrejected := hended.reason
      · rw [hconnection, halloc] at hexcused
        exact nomatch hexcused
      · exact hrejected
    rw [hrejected.verdict, hended.events]
    rfl
  | going hgoing =>
    have hok := hgoing.not_failed
    have hsending := h.sending_eq_none hok hquiet
    by_cases hup : w.client.state = .up
    · obtain ⟨ai, haccepted, -⟩ := h.accepted_of_up hok hup
      rw [haccepted.verdict, hgoing.events, if_pos hup]
      rfl
    rw [hgoing.events_eq_nil hup]
    by_cases hconnecting : w.client.state = .connecting
    · -- nothing has been sent, so nothing has arrived
      obtain ⟨base, part, hread, hreached, hheld⟩ := hgoing.progress
      obtain ⟨-, -, hreceiving⟩ := h.client.owned.quiet (by rw [hconnecting]; decide)
      rw [Held, hreceiving] at hheld
      rw [hconnecting] at hreached
      rw [h.early hreached.2, hread, hreached.1, hheld]
      rfl
    · obtain ⟨r, hreceiving, hpos⟩ :=
        receiving_of_idle h.client hok hsending hconnecting hup
      have hstream := h.stream_eq_nil hok hquiet hreceiving hpos
      have hbusy : w.client.receiving ≠ none := hreceiving ▸ Option.some_ne_none r
      rw [hstream, List.append_nil, verdict_receiving h.client hgoing hbusy]
      rfl

end Quiet

/-- What is promised of a session. -/
structure Sound (offer : Offer) (w : Session) : Prop where
  fault : w.fault = false
  /-- `UP` is reported at most once, and an error at most once and never before `UP`. -/
  events : w.client.events = [] ∨ w.client.events = [.up] ∨ w.client.events = [.error] ∨
    w.client.events = [.up, .error] ∨ w.client.events = [.up, .errorClosed]
  /-- `UP` is reported for a handshake: just its bytes are read and just the messages for it are
  written. -/
  up : .up ∈ w.client.events →
    ∃ ai, offer.Accepted ai w.read ∧ w.written = (offer.messages ai).flatten
  /-- An error in place of `UP` has a reason. -/
  error : w.client.events = [.error] →
    w.connectionFailed = true ∨ w.allocFailed = true ∨ offer.Rejected w.read
  /-- A lost connection is reported. -/
  failed : w.connectionFailed = true → w.client.Failed
  /-- The client waits only where the bytes that have arrived decide nothing. -/
  complete : (system offer).Quiescent Internal w → w.connectionFailed = false →
    w.allocFailed = false →
      (.up ∈ w.client.events ↔
        ∃ ai bytes, offer.Accepted ai bytes ∧ bytes <+: w.read ++ w.stream) ∧
      (.error ∈ w.client.events ↔ ∃ bytes, offer.Rejected bytes ∧ bytes <+: w.read ++ w.stream)

theorem Inv.up (h : Inv offer w) (hup : .up ∈ w.client.events) :
    ∃ ai, offer.Accepted ai w.read ∧ w.written = (offer.messages ai).flatten := by
  cases h.outcome with
  | going hgoing _ =>
    refine h.accepted_of_up hgoing.not_failed ?_
    by_contra hstate
    rw [hgoing.events_eq_nil hstate] at hup
    cases hup
  | ended hended =>
    rw [hended.events] at hup
    exact nomatch hup
  | lost ai _ _ _ haccepted hwritten => exact ⟨ai, haccepted, hwritten⟩

theorem Inv.error (h : Inv offer w) (herror : w.client.events = [.error]) :
    w.connectionFailed = true ∨ w.allocFailed = true ∨ offer.Rejected w.read := by
  cases h.outcome with
  | going hgoing =>
    rw [hgoing.events] at herror
    split_ifs at herror
    cases herror
  | ended hended => exact or_assoc.mp hended.reason
  | lost _ _ _ _ _ _ hconnection => exact .inl hconnection

theorem Inv.events (h : Inv offer w) :
    w.client.events = [] ∨ w.client.events = [.up] ∨ w.client.events = [.error] ∨
      w.client.events = [.up, .error] ∨ w.client.events = [.up, .errorClosed] := by
  cases h.outcome with
  | going hgoing =>
    rw [hgoing.events]
    split_ifs <;> decide
  | ended hended =>
    rw [hended.events]
    decide
  | lost _ event hevent hevents =>
    rw [hevents]
    cases event with
    | up => exact absurd rfl hevent
    | error | errorClosed => decide

/-- When nothing but the server can go on, the reports are the decisions. -/
theorem Inv.complete (h : Inv offer w) (hquiet : (system offer).Quiescent Internal w)
    (hconnection : w.connectionFailed = false) (halloc : w.allocFailed = false) :
    (.up ∈ w.client.events ↔
      ∃ ai bytes, offer.Accepted ai bytes ∧ bytes <+: w.read ++ w.stream) ∧
    (.error ∈ w.client.events ↔
      ∃ bytes, offer.Rejected bytes ∧ bytes <+: w.read ++ w.stream) := by
  have hevents := h.events_of_quiescent hquiet hconnection halloc
  have hread : w.read <+: w.read ++ w.stream := List.prefix_append _ _
  refine ⟨⟨fun hup => ?_, ?_⟩, ⟨fun herror => ?_, ?_⟩⟩
  · obtain ⟨ai, haccepted, -⟩ := h.up hup
    exact ⟨ai, w.read, haccepted, hread⟩
  · rintro ⟨ai, bytes, haccepted, rest, hbytes⟩
    rw [hevents, ← hbytes, haccepted.verdict]
    exact List.mem_singleton_self _
  · have honly : w.client.events = [.error] := by
      cases hverdict : offer.verdict (w.read ++ w.stream) with rw [hverdict] at hevents
      | error => exact hevents
      | more | up =>
        rw [hevents] at herror
        exact nomatch herror
    obtain hlost | hlost | hrejected := h.error honly
    · rw [hconnection] at hlost
      cases hlost
    · rw [halloc] at hlost
      cases hlost
    · exact ⟨w.read, hrejected, hread⟩
  · rintro ⟨bytes, hrejected, rest, hbytes⟩
    rw [hevents, ← hbytes, hrejected.verdict]
    exact List.mem_singleton_self _

/-- **The handshake**, over every stream of the server, every division of it, every way in which
the packets are written, and every failure. -/
theorem handshake_agreed (offer : Offer) (w : Session) (h : (system offer).Reachable w) :
    Sound offer w := by
  have hinv := inv_of_reachable h
  refine ⟨hinv.fault, hinv.events, hinv.up, hinv.error, fun hlost => ?_, hinv.complete⟩
  by_contra hok
  rw [(hinv.going hok).2] at hlost
  exact Bool.false_ne_true hlost

/-- A username and a password in memory, and an offer of both methods. -/
def exampleOffer : Offer where
  authInfo := [.none, .password ⟨0, 1, 1, 2⟩]
  destAddr := .ipv4 (.four 10 0 0 1) ⟨0, 80⟩
  heap := [⟨[117], true⟩, ⟨[112, 119], true⟩]
  count := by decide
  dest := by decide
  readable := by
    intro p hp
    obtain rfl : p = ⟨0, 1, 1, 2⟩ := by simpa using hp
    exact ⟨⟨_, rfl, le_rfl⟩, _, rfl, le_rfl⟩

/-- The sender writes a packet of `n` bytes. -/
def writesPacket (n : ℕ) : List Label :=
  [.senderInputOperation, .senderOutputOperation, .write n, .senderOutputDone, .sent true]

/-- The server chooses username and password; the hello is written and read in two pieces, and
the first byte after the reply stays where it is. -/
theorem handshake_agreed_password : ∃ w, (system exampleOffer).Reachable w ∧
    (w.client.events = [.up] ∧ w.stream = [22]) ∧ Sound exampleOffer w := by
  obtain ⟨w, hreachable, hw⟩ := System.exists_of_run (system exampleOffer)
    (fun w => w.client.events = [.up] ∧ w.stream = [22])
    ([.connector false true true, .senderInputOperation, .senderOutputOperation, .write 1,
        .senderOutputDone, .senderOutputOperation, .write 3, .senderOutputDone, .sent true,
        .arrive [5], .receive 1 true, .arrive [2, 1, 0], .receive 1 true] ++ writesPacket 6 ++
      [.receive 2 true] ++ writesPacket 10 ++
      [.arrive [5, 0, 0, 1, 10, 0], .receive 4 true, .receive 2 true, .arrive [0, 1, 0, 80, 22],
        .receive 4 true])
    (by decide +kernel)
  exact ⟨w, hreachable, hw, handshake_agreed exampleOffer w hreachable⟩

/-- With nothing to read and an idle sender, only the server can go on. -/
theorem quiescent_of_idle (hstream : w.stream = []) (hinput : w.sender.input = .none)
    (houtput : w.sender.output = .none) : (system offer).Quiescent Internal w := by
  intro l hl
  have hclient : w.clientNext offer l = none := by
    cases l with
    | connector _ _ _ | connection _ | arrive _ => exact absurd hl id
    | receive =>
      rw [clientNext, hstream]
      split_ifs with hn
      · -- no bytes can be delivered
        refine if_neg fun henabled => ?_
        obtain ⟨-, -, r, -, hpos, -⟩ := henabled
        rw [List.take_nil] at hpos
        exact Nat.lt_irrefl 0 hpos
      · rfl
    | sent =>
      rw [clientNext, hinput]
      exact if_neg nofun
    | _ => rfl
  have hsender : w.senderNext l = none := by
    cases l with
    | senderInputOperation => rw [senderNext, hinput]
    | senderOutputOperation | write n | senderOutputDone => rw [senderNext, houtput]
    | _ => rfl
  change w.next offer l = none
  rw [next, hclient, hsender]
  exact ite_self _

/-- **A wrong byte is not reported.** The server has sent the version `4`, which no handshake
begins with, and the client waits for the second byte of the hello. -/
theorem wrong_byte_unreported : ∃ w, (system exampleOffer).Reachable w ∧
    w.read ++ w.stream = [4] ∧
    (∀ more ai bytes, exampleOffer.Accepted ai bytes → ¬ bytes <+: [4] ++ more) ∧
    (system exampleOffer).Quiescent Internal w ∧ w.client.events = [] := by
  obtain ⟨w, hreachable, hread, hstream, hinput, houtput, hevents⟩ :=
    System.exists_of_run (system exampleOffer)
      (fun w => w.read = [4] ∧ w.stream = [] ∧ w.sender.input = .none ∧
        w.sender.output = .none ∧ w.client.events = [])
      ([.connector false true true] ++ writesPacket 4 ++ [.arrive [4], .receive 1 true])
      (by decide +kernel)
  refine ⟨w, hreachable, by rw [hread, hstream]; rfl, ?_,
    quiescent_of_idle hstream hinput houtput, hevents⟩
  rintro more ai bytes ⟨-, x, t, addr, -, rfl⟩ hbegins
  -- a handshake begins with the version
  have hversion := (List.cons_prefix_cons.mp hbegins).1
  exact absurd hversion (by decide)

end Tun2Socks.Socks.Session
