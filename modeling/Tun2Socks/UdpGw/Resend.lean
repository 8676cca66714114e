import Tun2Socks.UdpGw.Reconnect

/-!
# Reconnecting keeps the framing

Whatever happens to the connection, each stream starts at the beginning of a packet and carries
packets whole and in order; the packet that a disconnect interrupts is the first on the next stream.

* `Framed` says this of the streams, from the newest back: with `last` packets finished when the
  stream ended, it has carried the packets from its `first` up to `last` and a part of the next, and
  the streams before it have ended at its `first`.
* `Mode` says how the flags of the client go together.
* `Hold` says which packet the connector holds, and `Link` how much of it is on the stream.

The result is `reconnect_framed`.
-/

namespace Tun2Socks.UdpGw.Reconnect

open Framework Tun2Socks.Flow

/-! ### Streams -/

/-- The packets from number `i` up to number `j`, one after the other. -/
def whole (given : List (List Byte)) (i j : ℕ) : List Byte := ((given.take j).drop i).flatten

/-- The streams, the newest first, have carried the first `last` packets whole and in order, and the
beginning of the next. -/
def Framed (given : List (List Byte)) : ℕ → List Stream → Prop
  | last, [] => last = 0
  | last, s :: older => s.first ≤ last ∧
      (∃ part, s.bytes = whole given s.first last ++ part ∧ part <+: (given.drop last).headD []) ∧
      Framed given s.first older

section Framed

variable {given : List (List Byte)} {i last : ℕ} {p part : List Byte}

theorem whole_self : whole given i i = [] := by
  have hnil : (given.take i).drop i = [] := List.drop_eq_nil_of_le (List.length_take_le _ _)
  rw [whole, hnil]
  rfl

theorem whole_append (h : last ≤ given.length) :
    whole (given ++ [p]) i last = whole given i last := by
  rw [whole, whole, List.take_append_of_le_length h]

/-- One more packet is finished. -/
theorem whole_succ {before : List (List Byte)} (h : i ≤ before.length) :
    whole (before ++ [p]) i (before.length + 1) = whole (before ++ [p]) i before.length ++ p := by
  have htake : (before ++ [p]).take (before.length + 1) = before ++ [p] :=
    List.take_of_length_le (by rw [List.length_append]; rfl)
  rw [whole, whole, htake, List.take_left, List.drop_append_of_le_length h, List.flatten_append,
    List.flatten_singleton]

theorem Framed.append {streams : List Stream} (h : Framed given last streams)
    (hlast : last ≤ given.length) : Framed (given ++ [p]) last streams := by
  induction streams generalizing last with
  | nil => exact h
  | cons _ _ ih =>
    obtain ⟨hfirst, ⟨part, hbytes, hpart⟩, holder⟩ := h
    refine ⟨hfirst, ⟨part, ?_, ?_⟩, ih holder (hfirst.trans hlast)⟩
    · rw [whole_append hlast]
      exact hbytes
    · rw [List.drop_append_of_le_length hlast]
      cases hdrop : given.drop last with rw [hdrop] at hpart
      | nil =>
        rw [List.prefix_nil.mp hpart]
        exact List.nil_prefix
      | cons =>
        exact hpart

end Framed

/-! ### The invariant -/

/-- The packet that the connector has taken. -/
def State.held (o : State) : Option (List Byte) :=
  match o.input with
  | .busy p => some p
  | .none | .operationPending _ | .donePending _ => none

/-- How the flags go together. -/
inductive Mode (o : State) : Prop
  | waiting (htimer : o.reconnectTimer = true) (hsocks : o.haveSocks = false)
      (hclient : o.socksClient = .none) (hserver : o.haveServer = false)
  | connecting (htimer : o.reconnectTimer = false) (hsocks : o.haveSocks = true)
      (hup : o.socksUp = false) (hclient : o.socksClient = .connecting)
      (hserver : o.haveServer = false)
  | up (htimer : o.reconnectTimer = false) (hsocks : o.haveSocks = true)
      (hup : o.socksUp = true) (hclient : o.socksClient = .up) (hserver : o.haveServer = true)

/-- Which packet the connector has. -/
inductive Hold (mtu : ℕ) (o : State) : Prop
  | idle (hinput : o.input = .none ∨ o.input = .donePending ()) (hinLen : o.inLen = -1)
      (hgiven : o.finished = o.given.length)
  | pending (p : List Byte) (before : List (List Byte)) (hinput : o.input = .operationPending p)
      (hlen : p.length ≤ mtu) (hinLen : o.inLen = -1) (hgiven : o.given = before ++ [p])
      (hfinished : o.finished = before.length)
  | holding (p : List Byte) (before : List (List Byte)) (hinput : o.input = .busy p)
      (hinLen : o.inLen = p.length) (hdata : o.data = p) (hgiven : o.given = before ++ [p])
      (hfinished : o.finished = before.length)

/-- The sender has what is left of the packet that is held, and the stream has the part before. -/
structure Carries (o : State) (s : PacketStreamSender) (cur : Stream) (older : List Stream)
    (part : List Byte) : Prop where
  server : o.haveServer = true
  sender : o.sendSender = some s
  decoder : o.recvDecoder = true
  output : o.output = true
  inv : s.Inv
  idle : s.input = .none ↔ o.held = none
  streams : o.streams = cur :: older
  first : cur.first ≤ o.finished
  bytes : cur.bytes = whole o.given cur.first o.finished ++ part
  part : part ++ s.rest = o.held.getD []
  older : Framed o.given cur.first older

/-- The server is not connected, or its stream carries the packets. -/
inductive Link (o : State) : Prop
  | down (hserver : o.haveServer = false) (hsender : o.sendSender = none)
      (hdecoder : o.recvDecoder = false) (houtput : o.output = false)
      (hframed : Framed o.given o.finished o.streams)
  | up (s : PacketStreamSender) (cur : Stream) (older : List Stream) (part : List Byte)
      (hup : Carries o s cur older part)

structure Inv (mtu : ℕ) (o : State) : Prop where
  mode : Mode o
  hold : Hold mtu o
  link : Link o

section Steps

variable {o : State} {mtu : ℕ}

theorem Hold.finished_le (h : Hold mtu o) : o.finished ≤ o.given.length := by
  cases h with
  | idle _ _ hgiven => exact hgiven.le
  | pending _ _ _ _ _ hgiven hfinished | holding _ _ _ _ _ hgiven hfinished =>
    rw [hgiven, hfinished, List.length_append]
    exact Nat.le_add_right _ _

/-- A part of what is held is a part of the packet that comes after the finished ones. -/
theorem Hold.part_begins (h : Hold mtu o) {part rest : List Byte}
    (hpart : part ++ rest = o.held.getD []) :
    part <+: (o.given.drop o.finished).headD [] := by
  cases h with
  | idle hinput =>
    have hheld : o.held = none := by
      rw [State.held]
      obtain hinput | hinput := hinput <;> rw [hinput]
    rw [hheld] at hpart
    rw [(List.append_eq_nil_iff.mp hpart).1]
    exact List.nil_prefix
  | pending _ _ hinput =>
    have hheld : o.held = none := by rw [State.held, hinput]
    rw [hheld] at hpart
    rw [(List.append_eq_nil_iff.mp hpart).1]
    exact List.nil_prefix
  | holding p _ hinput _ _ hgiven hfinished =>
    have hheld : o.held = some p := by rw [State.held, hinput]
    rw [hheld] at hpart
    rw [hgiven, hfinished, List.drop_left]
    exact ⟨rest, hpart⟩

theorem Hold.length_le (h : Hold mtu o) : o.given.length ≤ o.finished + 1 := by
  cases h with
  | idle _ _ hgiven => exact hgiven ▸ Nat.le_succ _
  | pending _ _ _ _ _ hgiven hfinished | holding _ _ _ _ _ hgiven hfinished =>
    rw [hgiven, hfinished, List.length_append]
    rfl

theorem Mode.server_iff (h : Mode o) :
    o.haveServer = true ↔ o.haveSocks = true ∧ o.socksUp = true := by
  cases h with
  | waiting _ hsocks _ hserver => simp [hsocks, hserver]
  | connecting _ _ hup _ hserver => simp [hup, hserver]
  | up _ hsocks hup _ hserver => simp [hsocks, hup, hserver]

theorem Mode.timer_iff (h : Mode o) : o.reconnectTimer = true ↔ o.haveSocks = false := by
  cases h with
  | waiting htimer hsocks | connecting htimer hsocks | up htimer hsocks =>
    simp [htimer, hsocks]

/-- The streams are framed, also the one that is open. -/
theorem Inv.framed (h : Inv mtu o) : Framed o.given o.finished o.streams := by
  cases h.link with
  | down _ _ _ _ hframed => exact hframed
  | up _ _ _ part hup =>
    rw [hup.streams]
    exact ⟨hup.first, ⟨part, hup.bytes, h.hold.part_begins hup.part⟩, hup.older⟩

/-- The packet that is held does not depend on the connection. -/
theorem Hold.congr {o' : State} (h : Hold mtu o) (hinput : o'.input = o.input)
    (hinLen : o'.inLen = o.inLen) (hdata : o'.data = o.data) (hgiven : o'.given = o.given)
    (hfinished : o'.finished = o.finished) : Hold mtu o' := by
  cases h with
  | idle h1 h2 h3 =>
    exact .idle (hinput ▸ h1) (hinLen.trans h2) (by rw [hfinished, hgiven, h3])
  | pending p before h1 h2 h3 h4 h5 =>
    exact .pending p before (hinput.trans h1) h2 (hinLen.trans h3) (hgiven.trans h4)
      (hfinished.trans h5)
  | holding p before h1 h2 h3 h4 h5 =>
    exact .holding p before (hinput.trans h1) (hinLen.trans h2) (hdata.trans h3)
      (hgiven.trans h4) (hfinished.trans h5)

theorem Link.closed (h : Link o) (hserver : o.haveServer = false) :
    o.sendSender = none ∧ o.recvDecoder = false ∧ o.output = false := by
  cases h with
  | down _ hsender hdecoder houtput => exact ⟨hsender, hdecoder, houtput⟩
  | up _ _ _ _ hup => exact absurd hup.server (hserver ▸ Bool.false_ne_true)

/-- **The connection is given up**, whatever it was doing. -/
theorem reset_spec (hsocks : o.haveSocks = true) (hclient : o.socksClient ≠ .none)
    (hserver : o.haveServer = o.socksUp) (hhold : Hold mtu o) (hlink : Link o)
    (hframed : Framed o.given o.finished o.streams) :
    wp (do freeSocks; setReconnectTimer) (fun _ o' => Inv mtu o') o := by
  unfold freeSocks setReconnectTimer
  simp only [wp_bind, wp_get, wp_ensure, wp_modify, wp_ite]
  refine ⟨hsocks, ?_⟩
  cases hlink with
  | down hdown hsender hdecoder houtput =>
    rw [if_neg (by rw [← hserver, hdown]; exact Bool.false_ne_true)]
    exact ⟨hclient, .waiting rfl rfl rfl hdown, hhold.congr rfl rfl rfl rfl rfl,
      .down hdown hsender hdecoder houtput hframed⟩
  | up _ _ _ _ hup =>
    rw [if_pos (hserver.symm.trans hup.server)]
    unfold disconnectServer freeServer disconnectOutput
    simp only [wp_bind, wp_get, wp_ensure, wp_modify]
    refine ⟨hup.server, hup.output, ?_, hup.decoder, hclient, .waiting rfl rfl rfl rfl,
      hhold.congr rfl rfl rfl rfl rfl, .down rfl rfl rfl rfl hframed⟩
    rw [hup.sender]
    rfl

/-- `try_connect`. -/
theorem tryConnect_spec {socksInit : Bool} (htimer : o.reconnectTimer = false)
    (hsocks : o.haveSocks = false) (hclient : o.socksClient = .none)
    (hserver : o.haveServer = false) (hhold : Hold mtu o) (hlink : Link o)
    (hframed : Framed o.given o.finished o.streams) :
    wp (tryConnect socksInit) (fun _ o' => Inv mtu o') o := by
  obtain ⟨hsender, hdecoder, houtput⟩ := hlink.closed hserver
  unfold tryConnect setReconnectTimer
  simp only [wp_bind, wp_get, wp_ensure, wp_modify, wp_ite]
  refine ⟨hsocks, htimer, ?_⟩
  split_ifs
  · exact ⟨.connecting htimer rfl rfl rfl hserver, hhold.congr rfl rfl rfl rfl rfl,
      .down hserver hsender hdecoder houtput hframed⟩
  · exact ⟨.waiting rfl hsocks hclient hserver, hhold.congr rfl rfl rfl rfl rfl,
      .down hserver hsender hdecoder houtput hframed⟩

/-- **A new stream.** The packet that is held goes to the new sender from its beginning. -/
theorem Link.connect {o' : State} (hframed : Framed o.given o.finished o.streams)
    (hinput : o'.input = o.input) (hgiven : o'.given = o.given)
    (hfinished : o'.finished = o.finished) (hserver : o'.haveServer = true)
    (hdecoder : o'.recvDecoder = true) (houtput : o'.output = true)
    (hsender : o'.sendSender = some { packetStreamSenderInit with
      input := o.held.elim .none .operationPending })
    (hstreams : o'.streams = ⟨o.finished, []⟩ :: o.streams) : Link o' := by
  have hheld : o'.held = o.held := by rw [State.held, State.held, hinput]
  refine .up _ _ _ [] {
    server := hserver
    sender := hsender
    decoder := hdecoder
    output := houtput
    inv := ?_
    idle := ?_
    streams := hstreams
    first := hfinished.ge
    bytes := ?_
    part := ?_
    older := hgiven ▸ hframed }
  · refine .idle rfl rfl ?_
    cases o.held <;> exact id
  · rw [hheld]
    cases o.held with
    | none => exact ⟨fun _ => rfl, fun _ => rfl⟩
    | some => exact ⟨nofun, nofun⟩
  · rw [hgiven, hfinished, whole_self]
    rfl
  · rw [hheld]
    cases o.held <;> rfl

/-- What the connector sends to a new output. -/
theorem Hold.held_eq (h : Hold mtu o) :
    o.inLen = -1 ∧ o.held = none ∨ 0 ≤ o.inLen ∧ o.held = some o.data := by
  cases h with
  | idle hinput hinLen =>
    left
    rw [State.held]
    obtain hinput | hinput := hinput <;> rw [hinput] <;> exact ⟨hinLen, rfl⟩
  | pending _ _ hinput _ hinLen =>
    left
    rw [State.held, hinput]
    exact ⟨hinLen, rfl⟩
  | holding _ _ hinput hinLen hdata =>
    right
    rw [State.held, hinput, hdata, hinLen]
    exact ⟨Int.natCast_nonneg _, rfl⟩

/-- `BSOCKSCLIENT_EVENT_UP`. -/
theorem socksClientHandlerUp_spec (h : Inv mtu o) {decoderInit : Bool}
    (hclient : o.socksClient = .connecting) :
    wp (socksClientHandlerUp decoderInit) (fun _ o' => Inv mtu o')
      { o with socksClient := .up } := by
  cases h.mode with
  | connecting htimer hsocks hup _ hserver =>
    obtain ⟨hsender, hdecoder, houtput⟩ := h.link.closed hserver
    unfold socksClientHandlerUp connectServer
    cases decoderInit with
    | false =>
      simp only [wp_bind, wp_get, wp_ensure, wp_pure, Bool.false_eq_true, if_false]
      refine ⟨hsocks, hup, hserver, ?_⟩
      rw [← wp_bind]
      refine reset_spec hsocks (by simp) (hserver.trans hup.symm)
        (h.hold.congr rfl rfl rfl rfl rfl) (.down hserver hsender hdecoder houtput h.framed)
        h.framed
    | true =>
      unfold connectOutput sendToOutput
      simp only [wp_bind, wp_get, wp_ensure, wp_modify, wp_pure, wp_ite, if_true]
      refine ⟨hsocks, hup, hserver, houtput, ?_⟩
      obtain ⟨hinLen, hheld⟩ | ⟨hinLen, hheld⟩ := h.hold.held_eq
      · rw [if_neg (by omega)]
        refine ⟨.up htimer hsocks rfl rfl rfl, h.hold.congr rfl rfl rfl rfl rfl,
          Link.connect h.framed rfl rfl rfl rfl rfl rfl ?_ rfl⟩
        rw [hheld]
        rfl
      · rw [if_pos hinLen]
        refine ⟨rfl, .up htimer hsocks rfl rfl rfl, h.hold.congr rfl rfl rfl rfl rfl,
          Link.connect h.framed rfl rfl rfl rfl rfl rfl ?_ rfl⟩
        rw [hheld]
        rfl
  | waiting _ _ hnone => rw [hclient] at hnone; cases hnone
  | up _ _ _ his_up => rw [hclient] at his_up; cases his_up

variable {w w' : World}

theorem leave_inv {prog : M Unit} (h : wp prog (fun _ o' => Inv mtu o') o) :
    Inv mtu (w.leave (prog.run o)).state ∧ (w.leave (prog.run o)).fault = w.fault := by
  obtain ⟨⟨_, o'⟩, hrun, hinv⟩ := h
  rw [hrun]
  exact ⟨hinv, rfl⟩

/-- Opening and closing connections. -/
theorem Inv.connectionNext (h : Inv mtu w.state) {l : Label}
    (hnext : connectionNext w l = some w') : Inv mtu w'.state ∧ w'.fault = w.fault := by
  unfold Reconnect.connectionNext at hnext
  cases l with
  | timer =>
    obtain ⟨hrunning, rfl⟩ := guard_eq_some.mp hnext
    refine leave_inv ?_
    cases h.mode with
    | waiting _ hsocks hclient hserver =>
      obtain ⟨hsender, hdecoder, houtput⟩ := h.link.closed hserver
      unfold reconnectTimerHandler
      simp only [wp_bind, wp_get, wp_ensure]
      exact ⟨hsocks, tryConnect_spec rfl hsocks hclient hserver
        (h.hold.congr rfl rfl rfl rfl rfl) (.down hserver hsender hdecoder houtput h.framed)
        h.framed⟩
    | connecting htimer | up htimer =>
      rw [htimer] at hrunning
      cases hrunning
  | socksUp =>
    obtain ⟨hconnecting, rfl⟩ := guard_eq_some.mp hnext
    exact leave_inv (socksClientHandlerUp_spec h hconnecting)
  | socksError =>
    obtain ⟨hclient, rfl⟩ := guard_eq_some.mp hnext
    refine leave_inv ?_
    unfold socksClientHandlerError
    simp only [wp_bind, wp_get, wp_ensure]
    rw [← wp_bind]
    cases h.mode with
    | waiting _ _ hnone => exact absurd hnone hclient
    | connecting _ hsocks hup _ hserver | up _ hsocks hup _ hserver =>
      exact ⟨hsocks, reset_spec hsocks hclient (hserver.trans hup.symm) h.hold h.link h.framed⟩
  | decoderError =>
    obtain ⟨hexists, rfl⟩ := guard_eq_some.mp hnext
    refine leave_inv ?_
    cases h.link with
    | down _ _ hdecoder =>
      rw [hdecoder] at hexists
      cases hexists
    | up _ _ _ _ hlink =>
      have hserver := hlink.server
      unfold decoderHandlerError udpgwHandlerServererror
      simp only [wp_bind, wp_get, wp_ensure]
      rw [← wp_bind]
      cases h.mode with
      | waiting _ _ _ hno | connecting _ _ _ _ hno => rw [hserver] at hno; cases hno
      | up _ hsocks hup hclient =>
        refine ⟨hserver, hsocks, hup, reset_spec hsocks ?_ (hserver.trans hup.symm) h.hold
          h.link h.framed⟩
        simp [hclient]
  | send p | inputOperation | inputDone | senderInputOperation | senderOutputOperation | write n
  | senderOutputDone | senderInputDone => cases hnext

/-- The mode does not depend on the packets. -/
theorem Mode.congr {o' : State} (h : Mode o) (htimer : o'.reconnectTimer = o.reconnectTimer)
    (hsocks : o'.haveSocks = o.haveSocks) (hup : o'.socksUp = o.socksUp)
    (hclient : o'.socksClient = o.socksClient) (hserver : o'.haveServer = o.haveServer) :
    Mode o' := by
  cases h with
  | waiting h1 h2 h3 h4 =>
    exact .waiting (htimer.trans h1) (hsocks.trans h2) (hclient.trans h3) (hserver.trans h4)
  | connecting h1 h2 h3 h4 h5 =>
    exact .connecting (htimer.trans h1) (hsocks.trans h2) (hup.trans h3) (hclient.trans h4)
      (hserver.trans h5)
  | up h1 h2 h3 h4 h5 =>
    exact .up (htimer.trans h1) (hsocks.trans h2) (hup.trans h3) (hclient.trans h4)
      (hserver.trans h5)

/-- A packet leaves the queue. -/
theorem Inv.send (h : Inv mtu o) {p : List Byte} (hnone : o.input = .none)
    (hlen : p.length ≤ mtu) :
    Inv mtu { o with input := .operationPending p, given := o.given ++ [p] } := by
  have hheld : o.held = none := by rw [State.held, hnone]
  have hfinished : o.finished = o.given.length := by
    cases h.hold with
    | idle _ _ hgiven => exact hgiven
    | pending _ _ hinput | holding _ _ hinput =>
      rw [hnone] at hinput
      cases hinput
  have hinLen : o.inLen = -1 := by
    obtain ⟨hinLen, -⟩ | ⟨-, hsome⟩ := h.hold.held_eq
    · exact hinLen
    · rw [hheld] at hsome
      cases hsome
  refine ⟨h.mode.congr rfl rfl rfl rfl rfl, .pending p o.given rfl hlen hinLen rfl hfinished, ?_⟩
  cases h.link with
  | down hserver hsender hdecoder houtput hframed =>
    exact .down hserver hsender hdecoder houtput (hframed.append hfinished.le)
  | up s cur older part hup =>
    have hidle := hup.idle
    have hpart := hup.part
    rw [hheld] at hidle hpart
    refine .up s cur older part { hup with
      idle := hidle
      bytes := ?_
      part := hpart
      older := hup.older.append (hup.first.trans hfinished.le) }
    change cur.bytes = whole (o.given ++ [p]) cur.first o.finished ++ part
    rw [whole_append hfinished.le]
    exact hup.bytes

/-- The connector takes a packet and gives it to its output, if it has one. -/
theorem inputHandlerSend_spec (h : Inv mtu o) {p : List Byte}
    (hpending : o.input = .operationPending p) :
    wp (inputHandlerSend mtu p) (fun _ o' => Inv mtu o') { o with input := .busy p } := by
  have hheld : o.held = none := by rw [State.held, hpending]
  cases h.hold with
  | pending _ before hinput hlen hinLen hgiven hfinished =>
    obtain rfl := Interface.operationPending.inj (hpending.symm.trans hinput)
    unfold inputHandlerSend sendToOutput
    simp only [wp_bind, wp_get, wp_ensure, wp_modify, wp_ite]
    refine ⟨hlen, hinLen, ?_⟩
    cases h.link with
    | down hserver hsender hdecoder houtput hframed =>
      rw [if_neg (by rw [houtput]; exact Bool.false_ne_true), wp_pure]
      exact ⟨h.mode.congr rfl rfl rfl rfl rfl, .holding p before rfl rfl rfl hgiven hfinished,
        .down hserver hsender hdecoder houtput hframed⟩
    | up s cur older part hup =>
      have hnone : s.input = .none := hup.idle.mpr hheld
      have hpart := hup.part
      rw [hheld] at hpart
      rw [if_pos hup.output, hup.sender]
      simp only [wp_bind, wp_ensure, wp_modify]
      refine ⟨hnone, h.mode.congr rfl rfl rfl rfl rfl,
        .holding p before rfl rfl rfl hgiven hfinished, ?_⟩
      refine .up { s with input := .operationPending p } cur older part { hup with
        sender := rfl
        inv := hup.inv.start p hnone
        idle := iff_of_false (by simp) (Option.some_ne_none p)
        part := ?_ }
      rw [(List.append_eq_nil_iff.mp hpart).1]
      rfl
  | idle hinput =>
    rw [hpending] at hinput
    obtain hinput | hinput := hinput <;> cases hinput
  | holding _ _ hinput =>
    rw [hpending] at hinput
    cases hinput

/-- The queue learns that the connector is finished with its packet. -/
theorem Inv.inputDone (h : Inv mtu o) (hdone : o.input = .donePending ()) :
    Inv mtu { o with input := .none } := by
  have hheld : o.held = none := by rw [State.held, hdone]
  have hhold : Hold mtu { o with input := .none } := by
    cases h.hold with
    | idle _ hinLen hgiven => exact .idle (.inl rfl) hinLen hgiven
    | pending _ _ hinput | holding _ _ hinput =>
      rw [hdone] at hinput
      cases hinput
  refine ⟨h.mode.congr rfl rfl rfl rfl rfl, hhold, ?_⟩
  cases h.link with
  | down hserver hsender hdecoder houtput hframed =>
    exact .down hserver hsender hdecoder houtput hframed
  | up s cur older part hup =>
    have hidle := hup.idle
    have hpart := hup.part
    rw [hheld] at hidle hpart
    exact .up s cur older part { hup with idle := hidle, part := hpart }

/-- The connector with its user. -/
theorem Inv.inputNext (h : Inv mtu w.state) {l : Label} (hnext : inputNext mtu w l = some w') :
    Inv mtu w'.state ∧ w'.fault = w.fault := by
  unfold Reconnect.inputNext at hnext
  cases l with
  | send =>
    obtain ⟨hcan, rfl⟩ := guard_eq_some.mp hnext
    exact ⟨h.send hcan.1 hcan.2, rfl⟩
  | inputOperation =>
    cases hinput : w.state.input with rw [hinput] at hnext
    | operationPending =>
      cases hnext
      exact leave_inv (inputHandlerSend_spec h hinput)
    | _ => cases hnext
  | inputDone =>
    obtain ⟨hdone, rfl⟩ := guard_eq_some.mp hnext
    exact ⟨h.inputDone hdone, rfl⟩
  | timer socksInit | socksUp decoderInit | socksError | decoderError | senderInputOperation
  | senderOutputOperation | write n | senderOutputDone | senderInputDone => cases hnext

/-- The sender goes on with what it has. -/
theorem Inv.sender (h : Inv mtu o) {s s' : PacketStreamSender} (hsome : o.sendSender = some s)
    (hinv : s'.Inv) (hrest : s'.rest = s.rest) (hinput : s'.input = .none ↔ s.input = .none) :
    Inv mtu { o with sendSender := some s' } := by
  refine ⟨h.mode.congr rfl rfl rfl rfl rfl, h.hold.congr rfl rfl rfl rfl rfl, ?_⟩
  cases h.link with
  | down _ hsender => rw [hsome] at hsender; cases hsender
  | up _ cur older part hup =>
    obtain rfl := Option.some.inj (hsome.symm.trans hup.sender)
    exact .up s' cur older part { hup with
      sender := rfl
      inv := hinv
      idle := hinput.trans hup.idle
      part := hrest ▸ hup.part }

/-- The stream takes a part of the packet. -/
theorem Inv.write (h : Inv mtu o) {s : PacketStreamSender} {cur : Stream} {older : List Stream}
    {place len n : ℕ} (hsome : o.sendSender = some s) (hbusy : s.output = .busy (place, len))
    (hcur : o.streams = cur :: older) (hpos : 0 < n) (hlen : n ≤ len) :
    Inv mtu { o with
      sendSender := some { s with output := .donePending n }
      streams := { cur with bytes := cur.bytes ++ (s.data.drop place).take n } :: older } := by
  refine ⟨h.mode.congr rfl rfl rfl rfl rfl, h.hold.congr rfl rfl rfl rfl rfl, ?_⟩
  cases h.link with
  | down _ hsender => rw [hsome] at hsender; cases hsender
  | up _ _ _ part hup =>
    obtain rfl := Option.some.inj (hsome.symm.trans hup.sender)
    obtain ⟨rfl, rfl⟩ := List.cons.inj (hcur.symm.trans hup.streams)
    obtain ⟨hinv, hrest⟩ := hup.inv.write hbusy hpos hlen
    have hpart := hup.part
    rw [hrest, ← List.append_assoc] at hpart
    refine .up _ _ older (part ++ (s.data.drop place).take n) { hup with
      sender := rfl
      inv := hinv
      idle := hup.idle
      streams := rfl
      first := hup.first
      bytes := ?_
      part := hpart }
    change cur.bytes ++ _ = whole o.given cur.first o.finished ++ _
    rw [hup.bytes, List.append_assoc]

/-- **The sender is finished with the packet**, and so is the connector. -/
theorem outputHandlerDone_spec (h : Inv mtu o) {s : PacketStreamSender}
    (hsome : o.sendSender = some s) (hdone : s.input = .donePending ()) :
    wp outputHandlerDone (fun _ o' => Inv mtu o')
      { o with sendSender := some { s with input := .none } } := by
  cases h.link with
  | down _ hsender => rw [hsome] at hsender; cases hsender
  | up _ cur older part hup =>
    obtain rfl := Option.some.inj (hsome.symm.trans hup.sender)
    obtain ⟨hinv, hrest⟩ := hup.inv.inputDone hdone
    have hnil : s.rest = [] := by rw [PacketStreamSender.rest, hdone]
    have hpart := hup.part
    rw [hnil, List.append_nil] at hpart
    have hheld : o.held ≠ none := fun hnone => by
      rw [hup.idle.mpr hnone] at hdone
      cases hdone
    cases h.hold with
    | holding _ _ hinput hinLen _ hgiven hfinished =>
      have hfirst := hup.first
      rw [State.held, hinput] at hpart
      unfold outputHandlerDone
      simp only [wp_bind, wp_get, wp_ensure, wp_modify]
      refine ⟨hinLen ▸ Int.natCast_nonneg _, hup.output, ?_, h.mode.congr rfl rfl rfl rfl rfl,
        ?_, ?_⟩
      · rw [hinput]
        trivial
      · refine .idle (.inr rfl) rfl ?_
        change o.finished + 1 = o.given.length
        rw [hgiven, hfinished, List.length_append]
        rfl
      · refine .up { s with input := .none } cur older [] { hup with
          sender := rfl
          inv := hinv
          idle := ⟨fun _ => rfl, fun _ => rfl⟩
          first := Nat.le_succ_of_le hfirst
          bytes := ?_
          part := hrest.trans hnil }
        change cur.bytes = whole o.given cur.first (o.finished + 1) ++ []
        rw [hfinished] at hfirst
        rw [List.append_nil, hup.bytes, hgiven, hfinished, whole_succ hfirst, hpart]
        rfl
    | idle hinput =>
      refine absurd ?_ hheld
      rw [State.held]
      obtain hinput | hinput := hinput <;> rw [hinput]
    | pending _ _ hinput =>
      refine absurd ?_ hheld
      rw [State.held, hinput]

end Steps

section Run

variable {mtu : ℕ} {w w' : World} {s : PacketStreamSender} {socksInit : Bool}

theorem Inv.leaveSender (h : Inv mtu w.state) (hsome : w.state.sendSender = some s)
    (hinput : s.input ≠ .none) {prog : PacketStreamSender.M Unit} {t : PacketStreamSender}
    (hprog : wp prog (fun _ s' => s'.Inv ∧ s'.rest = s.rest ∧ s'.input ≠ .none) t) :
    Inv mtu (w.leaveSender (prog.run t)).state ∧
      (w.leaveSender (prog.run t)).fault = w.fault := by
  obtain ⟨⟨_, s'⟩, hrun, hinv, hrest, hinput'⟩ := hprog
  rw [hrun]
  exact ⟨h.sender hsome hinv hrest (iff_of_false hinput' hinput), rfl⟩

/-- A sender that exists has its invariant. -/
theorem Link.sender_inv {o : State} (h : Link o) (hsome : o.sendSender = some s) : s.Inv := by
  cases h with
  | down _ hsender => rw [hsome] at hsender; cases hsender
  | up _ _ _ _ hup =>
    obtain rfl := Option.some.inj (hsome.symm.trans hup.sender)
    exact hup.inv

/-- The steps of the sender. -/
theorem Inv.senderNext (h : Inv mtu w.state) (hsome : w.state.sendSender = some s) {l : Label}
    (hnext : senderNext w s l = some w') : Inv mtu w'.state ∧ w'.fault = w.fault := by
  have hs := h.link.sender_inv hsome
  unfold Reconnect.senderNext at hnext
  cases l with
  | senderInputOperation =>
    cases hinput : s.input with rw [hinput] at hnext
    | operationPending =>
      cases hnext
      refine h.leaveSender hsome ?_ (PacketStreamSender.inputHandlerSend_spec hs hinput)
      rw [hinput]
      exact nofun
    | _ => cases hnext
  | senderOutputOperation =>
    cases houtput : s.output with rw [houtput] at hnext
    | operationPending =>
      cases hnext
      obtain ⟨hinv, hrest⟩ := hs.outputOperation houtput
      exact ⟨h.sender hsome hinv hrest Iff.rfl, rfl⟩
    | _ => cases hnext
  | write n =>
    cases houtput : s.output with
    | busy =>
      cases hstreams : w.state.streams with
      | nil => rw [houtput, hstreams] at hnext; cases hnext
      | cons =>
        rw [houtput, hstreams] at hnext
        obtain ⟨hn, rfl⟩ := guard_eq_some.mp hnext
        exact ⟨h.write hsome houtput hstreams hn.1 hn.2, rfl⟩
    | none | operationPending op | donePending n => rw [houtput] at hnext; cases hnext
  | senderOutputDone =>
    cases houtput : s.output with rw [houtput] at hnext
    | donePending =>
      cases hnext
      refine h.leaveSender hsome ?_ (PacketStreamSender.outputHandlerDone_spec hs houtput)
      refine hs.input_ne_none ?_
      rw [houtput]
      exact nofun
    | _ => cases hnext
  | senderInputDone =>
    obtain ⟨hdone, rfl⟩ := guard_eq_some.mp hnext
    exact leave_inv (outputHandlerDone_spec h hsome hdone)
  | timer socksInit | socksUp decoderInit | socksError | decoderError | send p | inputOperation
  | inputDone => cases hnext

/-- **Every step** keeps the invariant and meets no fault. -/
theorem Inv.step (h : Inv mtu w.state) {l : Label} (hnext : next mtu w l = some w') :
    Inv mtu w'.state ∧ w'.fault = none := by
  obtain ⟨hfault, hnext⟩ := Option.ite_none_right_eq_some.mp hnext
  rw [← hfault]
  cases hconnection : Reconnect.connectionNext w l with rw [hconnection] at hnext
  | some =>
    cases hnext
    exact h.connectionNext hconnection
  | none =>
    cases hinput : Reconnect.inputNext mtu w l with rw [hinput] at hnext
    | some =>
      cases hnext
      exact h.inputNext hinput
    | none =>
      obtain ⟨s, hsome, hnext⟩ := Option.bind_eq_some_iff.mp hnext
      exact h.senderNext hsome hnext

/-- What holds in every reachable state. -/
def WorldInv (mtu : ℕ) (w : World) : Prop := Inv mtu w.state ∧ w.fault = none

theorem inv_of_reachable (h : (system mtu socksInit).Reachable w) : WorldInv mtu w := by
  refine h.invariant ?_ fun _ _ _ hinv hnext => hinv.1.step hnext
  have hhold : Hold mtu initialState := .idle (.inl rfl) rfl rfl
  exact leave_inv (tryConnect_spec rfl rfl rfl rfl hhold (.down rfl rfl rfl rfl rfl) rfl)

/-- The connector and the sender do something by themselves. -/
def Internal : Label → Prop
  | .inputOperation | .inputDone | .senderInputOperation | .senderOutputOperation | .write _
  | .senderOutputDone | .senderInputDone => True
  | .timer _ | .socksUp _ | .socksError | .decoderError | .send _ => False

theorem of_next_eq_none (hfault : w.fault = none) {l : Label} (h : next mtu w l = none) :
    inputNext mtu w l = none ∧
      ∀ s, w.state.sendSender = some s → senderNext w s l = none := by
  rw [next, if_pos hfault] at h
  cases hconnection : connectionNext w l with rw [hconnection] at h
  | none =>
    cases hinput : inputNext mtu w l with rw [hinput] at h
    | none =>
      refine ⟨rfl, fun s hsome => ?_⟩
      rw [hsome] at h
      exact h
    | some => cases h
  | some => cases h

/-- A sender that can do nothing has no packet. -/
theorem input_eq_none_of_quiet (h : s.Inv) {cur : Stream} {older : List Stream}
    (hstreams : w.state.streams = cur :: older)
    (hquiet : ∀ l, Internal l → senderNext w s l = none) : s.input = .none := by
  refine h.input_eq_none (fun p hinput => ?_) (fun hinput => ?_) (fun op houtput => ?_)
    (fun place len hlen houtput => ?_) (fun n houtput => ?_)
  · have hjob := hquiet .senderInputOperation trivial
    rw [senderNext, hinput] at hjob
    cases hjob
  · have hjob := hquiet .senderInputDone trivial
    rw [senderNext, if_pos hinput] at hjob
    cases hjob
  · have hjob := hquiet .senderOutputOperation trivial
    rw [senderNext, houtput] at hjob
    cases hjob
  · -- the stream could take one byte
    have hjob := hquiet (.write 1) trivial
    rw [senderNext, houtput, hstreams] at hjob
    dsimp only at hjob
    rw [if_pos ⟨Nat.one_pos, hlen⟩] at hjob
    cases hjob
  · have hjob := hquiet .senderOutputDone trivial
    rw [senderNext, houtput] at hjob
    cases hjob

/-- **Nothing is left behind.** While the server is connected, the connector and the sender can go
on until every packet is finished. -/
theorem finished_of_quiescent (h : Inv mtu w.state) (hfault : w.fault = none)
    (hserver : w.state.haveServer = true)
    (hquiet : (system mtu socksInit).Quiescent Internal w) :
    w.state.finished = w.state.given.length := by
  have hnext : ∀ l, Internal l → inputNext mtu w l = none ∧
      ∀ s, w.state.sendSender = some s → senderNext w s l = none :=
    fun l hl => of_next_eq_none hfault (hquiet l hl)
  cases h.hold with
  | idle _ _ hgiven => exact hgiven
  | pending _ _ hinput =>
    have hjob := (hnext .inputOperation trivial).1
    rw [inputNext, hinput] at hjob
    cases hjob
  | holding _ _ hinput =>
    cases h.link with
    | down hdown => rw [hserver] at hdown; cases hdown
    | up s _ _ _ hup =>
      have hnone := input_eq_none_of_quiet hup.inv hup.streams
        fun l hl => (hnext l hl).2 s hup.sender
      have hheld := hup.idle.mp hnone
      rw [State.held, hinput] at hheld
      cases hheld

end Run

/-- What is promised of the connection. -/
structure Sound (mtu : ℕ) (socksInit : Bool) (w : World) : Prop where
  /-- No assertion fails and nothing is used that does not exist. -/
  fault : w.fault = none
  server : w.state.haveServer = true ↔ w.state.haveSocks = true ∧ w.state.socksUp = true
  timer : w.state.reconnectTimer = true ↔ w.state.haveSocks = false
  /-- Every stream carries whole packets from a packet boundary on and then the beginning of a
  packet, which is the first on the next stream. -/
  framed : Framed w.state.given w.state.finished w.state.streams
  /-- At most one packet is on its way. -/
  finished : w.state.finished ≤ w.state.given.length ∧
    w.state.given.length ≤ w.state.finished + 1
  /-- It is not lost: with a server the connector and the sender go on until it is finished. -/
  complete : w.state.haveServer = true → (system mtu socksInit).Quiescent Internal w →
    w.state.finished = w.state.given.length

/-- **Reconnecting keeps the framing**, for every order of events. -/
theorem reconnect_framed (mtu : ℕ) (socksInit : Bool) (w : World)
    (h : (system mtu socksInit).Reachable w) : Sound mtu socksInit w := by
  obtain ⟨hinv, hfault⟩ := inv_of_reachable h
  exact {
    fault := hfault
    server := hinv.mode.server_iff
    timer := hinv.mode.timer_iff
    framed := hinv.framed
    finished := ⟨hinv.hold.finished_le, hinv.hold.length_le⟩
    complete := finished_of_quiescent hinv hfault }

/-- A packet that a disconnect interrupts after its first byte. -/
theorem reconnect_framed_interrupted :
    ∃ w, (system 5 true).Reachable w ∧ w.state.streams = [⟨0, [3, 0, 7]⟩, ⟨0, [3]⟩] ∧
      w.state.finished = 1 ∧ Sound 5 true w := by
  obtain ⟨w, hw, hstreams, hfinished⟩ := (system 5 true).exists_of_run
    (fun w => w.state.streams = [⟨0, [3, 0, 7]⟩, ⟨0, [3]⟩] ∧ w.state.finished = 1)
    [.send [3, 0, 7], .socksUp true, .inputOperation, .senderInputOperation,
      .senderOutputOperation, .write 1, .socksError, .timer false, .timer true, .socksUp true,
      .senderInputOperation, .senderOutputOperation, .write 2, .senderOutputDone,
      .senderOutputOperation, .write 1, .senderOutputDone, .senderInputDone] (by decide +kernel)
  exact ⟨w, hw, hstreams, hfinished, reconnect_framed 5 true w hw⟩

end Tun2Socks.UdpGw.Reconnect
