import Tun2Socks.UdpGw.Server
import Tun2Socks.UdpGw.Table

/-!
# From submission to delivery

One udpgw client and one udpgw server, joined by a stream in each direction. The streams deliver
whole messages in order, which is what the framing gives; which flow sends next, when a job runs,
whether a buffer has room and when a datagram arrives are open.

A packet that the client hands to its user for a pair should have arrived at a socket that the
server has opened for that pair. It need not: the server knows a connection by its id and the
remote address. When the client takes an id for another pair with the same remote address, what is
still on its way for the old pair is delivered to the new one.

* `inFlight` is everything that is on its way under an id and a remote address: messages,
  connections of the server and replies, each with the pair it is on account of.
* `RebindOk` is the condition under which an id may be taken for another pair: what is in flight
  under the id and the new remote address is on account of the new pair.
* `Accounted` is the invariant of everything in flight. `ServerOk` is the part of it that concerns
  the server, for an arbitrary property of what is in flight; the server keeps any such property.

The results are `delivery_misattributed`, a run that delivers a reply to the wrong local address,
and `delivery_accounted`, for every run whose steps meet `RebindOk`.
-/

namespace Tun2Socks.UdpGw.Delivery

open Framework Net Client Server Function UdpGwClient

/-! ### The system -/

/-- A packet handed to `handler_received`, and the pair whose packet has opened the socket it
arrived at. -/
structure Delivered where
  conaddr : ConAddr
  data : List Byte
  account : ConAddr
  deriving DecidableEq

structure World where
  client : UdpGwClient
  /-- The fault that has stopped the client. -/
  fault : Option Fault
  toServer : List Message
  server : ClientState
  toClient : List Message
  delivered : List Delivered

inductive Label
  | submitPacket (localAddr remoteAddr : BAddr) (isDns : Bool) (data : List Byte) (r : Resources)
  | firstJob (con : ℕ) (room : Bool)
  /-- The next message of a connection goes to the stream. -/
  | clientSend (con : ℕ)
  | keepalive
  | serverReceive (env : Environment)
  | serverFirstJob (i : ℕ) (room : Bool)
  /-- A datagram arrives at the socket of a connection. -/
  | udpReceived (i : ℕ) (data : List Byte) (room : Bool)
  /-- The socket of a connection has failed. -/
  | serverClose (i : ℕ) (busy : Bool)
  /-- The flow of a closing connection is not busy any more. -/
  | serverFinish (i : ℕ)
  | serverSend (i : ℕ)
  | serverSendClosing (i : ℕ)
  | clientReceive

/-- What a call of the client leaves. -/
def World.leave {α : Type} (w : World) (k : α → World → World) :
    Except Fault (α × UdpGwClient) → World
  | .ok (a, s) => k a { w with client := s }
  | .error f => { w with fault := some f }

/-- What is handed to `handler_received`. -/
def World.deliver (account : ConAddr) (r : Option (ConAddr × List Byte)) (w : World) : World :=
  { w with delivered := w.delivered ++ r.toList.map fun p => ⟨p.1, p.2, account⟩ }

/-- The next message of the connection at a place of a list, and the list without it. -/
def takeMessage (l : List Server.Connection) (i : ℕ) :
    Option (Message × List Server.Connection) :=
  l[i]?.bind fun con => match con.sendIf with
    | [] => none
    | m :: rest => some (m, l.set i { con with sendIf := rest })

variable (o : ByteOrder) (options : Options)

def next (w : World) : Label → Option World
  | .submitPacket localAddr remoteAddr isDns data r =>
    if w.fault = none ∧ w.client.CanSubmit localAddr remoteAddr data r then
      some (w.leave (fun _ => id)
        ((submitPacket o localAddr remoteAddr isDns data r).run w.client))
    else none
  | .firstJob con room =>
    if w.fault = none ∧ w.client.CanRunFirstJob con then
      some (w.leave (fun _ => id)
        ((Client.connectionFirstJobHandler o con room).run w.client))
    else none
  | .clientSend con =>
    if con ∈ w.client.connectionsList then
      match (w.client.connections con).sendIf with
      | [] => none
      | m :: rest => some { w with
          client := w.client.update con fun c => { c with sendIf := rest }
          toServer := w.toServer ++ [m] }
    else none
  | .keepalive => some { w with
      toServer := w.toServer ++ [⟨keepalivePacket, ⟨.none, .none⟩⟩] }
  | .serverReceive env =>
    match w.toServer with
    | [] => none
    | m :: rest =>
      if m.bytes.length ≤ serverMtu options.udpMtu then
        some { w with
          toServer := rest
          server := clientRecvIfHandlerSend w.server o options m env }
      else none
  | .serverFirstJob i room =>
    if (w.server.connectionsList[i]?.map (·.firstJob)) = some true then
      some { w with server := Server.connectionFirstJobHandler w.server i room }
    else none
  | .udpReceived i data room =>
    if i < w.server.connectionsList.length ∧ data.length ≤ options.udpMtu then
      some { w with server := connectionUdpRecvIfHandlerSend w.server o options i data room }
    else none
  | .serverClose i busy =>
    if i < w.server.connectionsList.length then
      some { w with server := connectionClose w.server i busy }
    else none
  | .serverFinish i =>
    if i < w.server.closingConnectionsList.length then
      some { w with server := { w.server with
        closingConnectionsList := w.server.closingConnectionsList.eraseIdx i } }
    else none
  | .serverSend i =>
    (takeMessage w.server.connectionsList i).map fun r => { w with
      server := { w.server with connectionsList := r.2 }
      toClient := w.toClient ++ [r.1] }
  | .serverSendClosing i =>
    (takeMessage w.server.closingConnectionsList i).map fun r => { w with
      server := { w.server with closingConnectionsList := r.2 }
      toClient := w.toClient ++ [r.1] }
  | .clientReceive =>
    match w.toClient with
    | [] => none
    | m :: rest =>
      if w.fault = none ∧ m.bytes.length ≤ w.client.udpgwMtu then
        some (World.leave { w with toClient := rest } (World.deliver m.account)
          ((recvInterfaceHandlerSend o m.bytes).run w.client))
      else none

def system (cfg : Config) : System World Label where
  init := ⟨udpGwClientInit cfg, none, [], ⟨[], []⟩, [], []⟩
  next := next o options

/-! ### What is in flight -/

/-- Something on its way under an id and a remote address, and the pair it is on account of. -/
structure Item where
  conid : Word16
  remoteAddr : BAddr
  account : ConAddr
  deriving DecidableEq

/-- A message on its way to the server, as the server reads it. -/
def upItem (m : Message) : Option Item :=
  match clientRecvParse o options.udpMtu m.bytes with
  | .ok (some parsed) => some ⟨parsed.conid, parsed.addr, m.account⟩
  | _ => none

/-- A message on its way to the client, as the client reads it. -/
def downItem (cfg : Config) (m : Message) : Option Item :=
  match recvParse o cfg.udpMtu m.bytes with
  | .ok parsed => some ⟨parsed.conid, parsed.addr, m.account⟩
  | _ => none

/-- A connection of the server. -/
def connectionItem (con : Server.Connection) : Item := ⟨con.conid, con.origAddr, con.account⟩

/-- Everything that is in flight. -/
def World.inFlight (cfg : Config) (w : World) : List Item :=
  (w.client.connectionsList.flatMap (fun con => (w.client.connections con).sendIf)
    ++ w.toServer).filterMap (upItem o options) ++
  (w.server.connectionsList ++ w.server.closingConnectionsList).flatMap (fun con =>
    connectionItem con :: con.sendIf.filterMap (downItem o cfg)) ++
  w.toClient.filterMap (downItem o cfg)

/-- **The condition.** When a connection of the client is taken for another pair, its first job has
run, and everything in flight under its id and the new remote address is on account of the new
pair. -/
def RebindOk (cfg : Config) (w : World) : Label → Prop
  | .submitPacket localAddr remoteAddr _ _ _ =>
    w.client.findConnectionByConaddr o ⟨localAddr, remoteAddr⟩ = none →
    w.client.numConnections = w.client.maxConnections →
    ∀ con ∈ w.client.connectionsList.head?, (w.client.connections con).firstJob = false ∧
      ∀ x ∈ w.inFlight o options cfg, x.conid = w.client.conidOf con →
        x.remoteAddr = remoteAddr → x.account = ⟨localAddr, remoteAddr⟩
  | _ => True

instance (cfg : Config) (w : World) : ∀ l, Decidable (RebindOk o options cfg w l)
  | .submitPacket _ _ _ _ _ => inferInstanceAs (Decidable (_ → _ → ∀ con ∈ _, _))
  | .firstJob _ _ | .clientSend _ | .keepalive | .serverReceive _ | .serverFirstJob _ _
  | .udpReceived _ _ _ | .serverClose _ _ | .serverFinish _ | .serverSend _
  | .serverSendClosing _ | .clientReceive => inferInstanceAs (Decidable True)

/-! ### A reply to the wrong address -/

/-- A client for one connection. -/
def oneConnection : Config :=
  { Client.exampleConfig with maxConnections := 1, maxConnections_pos := Nat.one_pos }

def exampleOptions : Options := ⟨100, 1⟩

/-- Memory and room everywhere. -/
def plenty : Environment := ⟨false, false, .none, true, none, true, true⟩

/-- **A reply is delivered to an address that did not ask for it.** The id of the first pair is
taken for a second pair with the same remote address while a reply for the first is in the
stream. -/
theorem delivery_misattributed :
    ∃ w, (system .little exampleOptions oneConnection).Reachable w ∧
      ∃ d ∈ w.delivered, d.account ≠ d.conaddr := by
  refine (system .little exampleOptions oneConnection).exists_of_run _
    [.submitPacket (exampleAddr 1) (exampleAddr 9) false [7] ⟨some 11, true, true⟩,
      .firstJob 11 true, .clientSend 11, .serverReceive plenty, .udpReceived 0 [8] true,
      .serverSend 0,
      .submitPacket (exampleAddr 2) (exampleAddr 9) false [7] ⟨none, true, true⟩,
      .clientReceive] (by decide +kernel)

/-! ### What the server keeps -/

section Server

variable {o options} {cfg : Config} {P : Item → Prop}

/-- A message to the server is `P`, if it is anything to the server. -/
def UpOk (o : ByteOrder) (options : Options) (P : Item → Prop) (m : Message) : Prop :=
  ∀ x ∈ upItem o options m, P x

/-- A message to the client is `P`, if it is anything to the client. -/
def DownOk (o : ByteOrder) (cfg : Config) (P : Item → Prop) (m : Message) : Prop :=
  ∀ x ∈ downItem o cfg m, P x

/-- A connection and its messages are `P`. -/
structure ConnectionOk (o : ByteOrder) (cfg : Config) (P : Item → Prop) (con : Server.Connection) :
    Prop where
  orig : con.origAddr ≠ .none
  item : P (connectionItem con)
  sendIf : ∀ m ∈ con.sendIf, DownOk o cfg P m

/-- All connections of the server are. -/
structure ServerOk (o : ByteOrder) (cfg : Config) (P : Item → Prop) (s : ClientState) : Prop where
  live : ∀ con ∈ s.connectionsList, ConnectionOk o cfg P con
  closing : ∀ con ∈ s.closingConnectionsList, ConnectionOk o cfg P con

namespace ServerOk

variable {s : ClientState} {i : ℕ}

theorem update (h : ServerOk o cfg P s) {f : Server.Connection → Server.Connection}
    (hf : ∀ con, ConnectionOk o cfg P con → ConnectionOk o cfg P (f con)) :
    ServerOk o cfg P (s.update i f) := by
  refine ⟨fun con hcon => ?_, h.closing⟩
  obtain ⟨j, hj⟩ := List.mem_iff_getElem?.mp hcon
  change (s.connectionsList.modify i f)[j]? = _ at hj
  rw [List.getElem?_modify] at hj
  obtain ⟨con, hold, rfl⟩ := Option.map_eq_some_iff.mp hj
  have hcon := h.live con (List.mem_of_getElem? hold)
  split_ifs
  · exact hf con hcon
  · exact hcon

theorem moveToEnd (h : ServerOk o cfg P s) : ServerOk o cfg P (s.moveToEnd i) := by
  refine ⟨fun con hcon => ?_, h.closing⟩
  obtain hcon | hcon := List.mem_append.mp hcon
  · exact h.live con (List.mem_of_mem_eraseIdx hcon)
  · exact h.live con (List.mem_of_getElem? (Option.mem_toList.mp hcon))

theorem connectionClose (h : ServerOk o cfg P s) {busy : Bool} :
    ServerOk o cfg P (connectionClose s i busy) := by
  refine ⟨fun con hcon => h.live con (List.mem_of_mem_eraseIdx hcon), fun con hcon => ?_⟩
  obtain hcon | hcon := List.mem_append.mp hcon
  · exact h.closing con hcon
  · split_ifs at hcon
    · obtain ⟨con, hold, rfl⟩ := List.mem_map.mp hcon
      have hlive := h.live con (List.mem_of_getElem? (Option.mem_toList.mp hold))
      exact ⟨hlive.orig, hlive.item, hlive.sendIf⟩
    · cases hcon

variable {data : List Byte} {room : Bool}

section

variable (h : ServerOk o cfg P s)

include h

theorem connectionSendToUdp :
    ServerOk o cfg P (connectionSendToUdp s i data room) := by
  refine (h.update ?_).moveToEnd
  exact fun _ hcon => ⟨hcon.orig, hcon.item, hcon.sendIf⟩

theorem connectionFirstJobHandler :
    ServerOk o cfg P (Server.connectionFirstJobHandler s i room) := by
  unfold Server.connectionFirstJobHandler
  cases s.connectionsList[i]? with
  | none => exact h
  | some con =>
    have hjob : ServerOk o cfg P (s.update i fun con => { con with firstJob := false }) :=
      h.update fun _ hcon => ⟨hcon.orig, hcon.item, hcon.sendIf⟩
    exact hjob.connectionSendToUdp

/-- **A datagram at the socket of a connection** makes a message under the id and the address of
the connection, and on its account. -/
theorem connectionUdpRecvIfHandlerSend :
    ServerOk o cfg P (connectionUdpRecvIfHandlerSend s o options i data room) := by
  refine (h.update ?_).moveToEnd
  intro con hcon
  unfold connectionSendToClient
  cases hbytes : connectionToClientPacket o (serverMtu options.udpMtu) con.conid con.origAddr 0
    data with
  | none => exact hcon
  | some bytes =>
    refine ⟨hcon.orig, hcon.item, fun m hm => ?_⟩
    obtain hm | hm := List.mem_append.mp hm
    · exact hcon.sendIf m hm
    · have hpacket : bytes = packet o 0 con.conid con.origAddr data := by
        unfold connectionToClientPacket at hbytes
        split_ifs at hbytes
        exact (Option.some.inj hbytes).symm
      split_ifs at hm
      · obtain rfl := List.mem_singleton.mp hm
        intro x hx
        unfold downItem at hx
        rw [hpacket, recvParse_packet hcon.orig] at hx
        split_ifs at hx
        · cases hx
        · cases hx
          exact hcon.item
      · cases hm

/-- A new connection is `P`. -/
theorem connectionInit {conid : Word16} {addr origAddr : BAddr}
    {account : ConAddr} {env : Environment} (horig : origAddr ≠ .none)
    (hitem : P ⟨conid, origAddr, account⟩) :
    ServerOk o cfg P (connectionInit s conid addr origAddr data account env) := by
  have hadd {s : ClientState} (h : ServerOk o cfg P s) : ServerOk o cfg P
      { s with connectionsList := s.connectionsList ++
        [⟨conid, addr, origAddr, data, true, [], [], account⟩] } := by
    refine ⟨fun con hcon => ?_, h.closing⟩
    obtain hcon | hcon := List.mem_append.mp hcon
    · exact h.live con hcon
    · obtain rfl := List.mem_singleton.mp hcon
      exact ⟨horig, hitem, fun m hm => nomatch hm⟩
  unfold Server.connectionInit
  cases env.leastCon with
  | none => split_ifs <;> [exact h; exact h; exact hadd h]
  | some => split_ifs <;> [exact h; exact h.connectionClose; exact hadd h.connectionClose]

theorem closeOld {parsed : Parsed} {busy : Bool} :
    ServerOk o cfg P (closeOld s parsed busy).1 := by
  unfold Server.closeOld
  cases findConnection s parsed.conid with
  | none => exact h
  | some =>
    dsimp only
    split_ifs
    · exact h.connectionClose
    · exact h

/-- **A message of the client** leaves the server with connections that are `P`, if it is `P`
itself. -/
theorem clientRecvIfHandlerSend {message : Message} {env : Environment}
    (hmessage : UpOk o options P message) :
    ServerOk o cfg P (clientRecvIfHandlerSend s o options message env) := by
  unfold UpOk upItem at hmessage
  unfold Server.clientRecvIfHandlerSend
  cases hparse : clientRecvParse o options.udpMtu message.bytes with
  | error => exact h
  | ok parsed =>
    cases parsed with
    | none => exact h
    | some parsed =>
      rw [hparse] at hmessage
      have hitem : P ⟨parsed.conid, parsed.addr, message.account⟩ := hmessage _ rfl
      have hold : ServerOk o cfg P (Server.closeOld s parsed env.oldBusy).1 := h.closeOld
      dsimp only
      unfold submitMessage
      generalize Server.closeOld s parsed env.oldBusy = r at hold ⊢
      obtain ⟨s', found⟩ := r
      cases found with
      | some => exact hold.connectionSendToUdp
      | none =>
        refine connectionInit ?_ (addr_ne_none_of_parse hparse) hitem
        split_ifs
        · exact hold.connectionClose
        · exact hold

end

end ServerOk

/-- A message that is taken from a connection. -/
theorem of_takeMessage {l l' : List Server.Connection} {i : ℕ} {m : Message}
    (h : ∀ con ∈ l, ConnectionOk o cfg P con) (htake : takeMessage l i = some (m, l')) :
    DownOk o cfg P m ∧ ∀ con ∈ l', ConnectionOk o cfg P con := by
  unfold takeMessage at htake
  obtain ⟨con, hget, htake⟩ := Option.bind_eq_some_iff.mp htake
  have hcon := h con (List.mem_of_getElem? hget)
  have hsendIf := hcon.sendIf
  cases hmessages : con.sendIf with
  | nil =>
    rw [hmessages] at htake
    cases htake
  | cons m' =>
    rw [hmessages] at htake hsendIf
    obtain ⟨rfl, rfl⟩ := Prod.mk.inj (Option.some.inj htake)
    refine ⟨hsendIf m' List.mem_cons_self, fun con' hcon' => ?_⟩
    obtain hcon' | rfl := List.mem_or_eq_of_mem_set hcon'
    · exact h con' hcon'
    · exact ⟨hcon.orig, hcon.item, fun m hm => hsendIf m (List.mem_cons_of_mem _ hm)⟩

end Server

/-! ### What is accounted for -/

section Accounted

variable {o options} {cfg : Config} {w w' : World} {s s' : UdpGwClient} {P P' : Item → Prop}

/-- Something in flight is under the id of a connection, and if it is for the remote address of the
connection it is on account of its pair. -/
def Accounted (s : UdpGwClient) (x : Item) : Prop :=
  (∃ con ∈ s.connectionsList, s.conidOf con = x.conid) ∧
  ∀ con ∈ s.connectionsList, s.conidOf con = x.conid →
    (s.conaddrOf con).remoteAddr = x.remoteAddr → x.account = s.conaddrOf con

theorem Accounted.congr {x : Item} (h : Accounted s x)
    (hlist : ∀ a, a ∈ s'.connectionsList ↔ a ∈ s.connectionsList)
    (hconid : ∀ a ∈ s.connectionsList, s'.conidOf a = s.conidOf a)
    (hconaddr : ∀ a ∈ s.connectionsList, s'.conaddrOf a = s.conaddrOf a) : Accounted s' x := by
  obtain ⟨⟨con, hcon, heq⟩, haccount⟩ := h
  refine ⟨⟨con, (hlist con).mpr hcon, (hconid con hcon).trans heq⟩, ?_⟩
  intro a ha
  rw [hlist] at ha
  rw [hconid a ha, hconaddr a ha]
  exact haccount a ha

variable {con : ℕ}

/-- A connection accounts for what is sent through it. -/
theorem accounted_self (h : TableInv o s) (hcon : con ∈ s.connectionsList) :
    Accounted s ⟨s.conidOf con, (s.conaddrOf con).remoteAddr, s.conaddrOf con⟩ := by
  refine ⟨⟨con, hcon, rfl⟩, fun a ha hconid _ => ?_⟩
  obtain rfl := h.conid_inj ha hcon hconid
  rfl

/-- A message of a connection, as the server reads it. -/
theorem upOk_connectionPacket {conid : Word16} {addr : BAddr} {account : ConAddr}
    (haddr : addr ≠ .none) (h : P ⟨conid, addr, account⟩) (rebind dns : Bool) (data : List Byte) :
    UpOk o options P ⟨connectionPacket o conid addr (dataFlags rebind dns) data, account⟩ := by
  intro x hx
  unfold upItem at hx
  rw [clientRecvParse_connectionPacket haddr] at hx
  split_ifs at hx
  · cases hx
  · cases hx
    exact h

/-- Everything in flight is `P`. -/
structure Flight (o : ByteOrder) (options : Options) (cfg : Config) (P : Item → Prop) (w : World) :
    Prop where
  buffers : ∀ con ∈ w.client.connectionsList, ∀ m ∈ (w.client.connections con).sendIf,
    UpOk o options P m
  toServer : ∀ m ∈ w.toServer, UpOk o options P m
  server : ServerOk o cfg P w.server
  toClient : ∀ m ∈ w.toClient, DownOk o cfg P m

theorem Flight.imp (h : Flight o options cfg P w)
    (himp : ∀ x ∈ w.inFlight o options cfg, P x → P' x) : Flight o options cfg P' w := by
  have hconnection : ∀ con ∈ w.server.connectionsList ++ w.server.closingConnectionsList,
      ConnectionOk o cfg P con → ConnectionOk o cfg P' con := by
    intro con hcon hok
    have hflight : ∀ x ∈ connectionItem con :: con.sendIf.filterMap (downItem o cfg),
        x ∈ w.inFlight o options cfg := by
      intro x hx
      refine List.mem_append_left _ (List.mem_append_right _ ?_)
      exact List.mem_flatMap.mpr ⟨con, hcon, hx⟩
    refine ⟨hok.orig, himp _ (hflight _ List.mem_cons_self) hok.item, fun m hm x hx => ?_⟩
    refine himp x (hflight x (List.mem_cons_of_mem _ ?_)) (hok.sendIf m hm x hx)
    exact List.mem_filterMap.mpr ⟨m, hm, hx⟩
  refine ⟨fun con hcon m hm x hx => ?_, fun m hm x hx => ?_, ⟨fun con hcon => ?_,
    fun con hcon => ?_⟩, fun m hm x hx => ?_⟩
  · refine himp x ?_ (h.buffers con hcon m hm x hx)
    refine List.mem_append_left _ (List.mem_append_left _ (List.mem_filterMap.mpr ⟨m, ?_, hx⟩))
    exact List.mem_append_left _ (List.mem_flatMap.mpr ⟨con, hcon, hm⟩)
  · refine himp x ?_ (h.toServer m hm x hx)
    refine List.mem_append_left _ (List.mem_append_left _ (List.mem_filterMap.mpr ⟨m, ?_, hx⟩))
    exact List.mem_append_right _ hm
  · exact hconnection con (List.mem_append_left _ hcon) (h.server.live con hcon)
  · exact hconnection con (List.mem_append_right _ hcon) (h.server.closing con hcon)
  · refine himp x (List.mem_append_right _ ?_) (h.toClient m hm x hx)
    exact List.mem_filterMap.mpr ⟨m, hm, hx⟩

variable {m : Message}

theorem Flight.toClient_concat (h : Flight o options cfg P w)
    (hm : DownOk o cfg P m) : ∀ m' ∈ w.toClient ++ [m], DownOk o cfg P m' := by
  intro m' hm'
  obtain hm' | hm' := List.mem_append.mp hm'
  · exact h.toClient m' hm'
  · obtain rfl := List.mem_singleton.mp hm'
    exact hm

theorem Flight.toServer_concat (h : Flight o options cfg P w)
    (hm : UpOk o options P m) : ∀ m' ∈ w.toServer ++ [m], UpOk o options P m' := by
  intro m' hm'
  obtain hm' | hm' := List.mem_append.mp hm'
  · exact h.toServer m' hm'
  · obtain rfl := List.mem_singleton.mp hm'
    exact hm

/-- What holds between two steps. -/
structure DeliveryInv (o : ByteOrder) (options : Options) (cfg : Config) (w : World) : Prop where
  world : Client.WorldInv o ⟨w.client, w.fault⟩
  mtu : w.client.udpMtu = cfg.udpMtu
  remote : ∀ con ∈ w.client.connectionsList, (w.client.conaddrOf con).remoteAddr ≠ .none
  first : ∀ con ∈ w.client.connectionsList, (w.client.connections con).firstJob = true →
    (w.client.connections con).firstAccount = w.client.conaddrOf con ∧
    ∃ dns, (w.client.connections con).firstFlags = dataFlags false dns
  flight : Flight o options cfg (Accounted w.client) w
  delivered : ∀ d ∈ w.delivered, d.account = d.conaddr

section

variable (h : DeliveryInv o options cfg w)

include h

/-- A step of the server or a stream, which leaves the client alone. -/
theorem DeliveryInv.others {toServer toClient : List Message}
    {server : ClientState} (htoServer : ∀ m ∈ toServer, UpOk o options (Accounted w.client) m)
    (hserver : ServerOk o cfg (Accounted w.client) server)
    (htoClient : ∀ m ∈ toClient, DownOk o cfg (Accounted w.client) m) :
    DeliveryInv o options cfg { w with toServer, server, toClient } :=
  { h with flight := ⟨h.flight.buffers, htoServer, hserver, htoClient⟩ }

/-- **A packet is submitted.** If it takes a connection from another pair, the condition makes what
is in flight accounted for by the new one. -/
theorem DeliveryInv.submitPacket {localAddr remoteAddr : BAddr}
    {isDns : Bool} {data : List Byte} {r : Resources}
    (hcan : w.client.CanSubmit localAddr remoteAddr data r)
    (hok : RebindOk o options cfg w (.submitPacket localAddr remoteAddr isDns data r)) :
    DeliveryInv o options cfg (w.leave (fun _ => id)
      ((submitPacket o localAddr remoteAddr isDns data r).run w.client)) := by
  have hspec : wp (Client.submitPacket o localAddr remoteAddr isDns data r) _ w.client :=
    submitPacket_spec h.world.table hcan
  obtain ⟨⟨_, s⟩, hrun, htable, hsubmits⟩ := hspec
  have hworld : Client.WorldInv o ⟨s, w.fault⟩ := by
    have hnext : Client.next o ⟨w.client, w.fault⟩
        (.submitPacket localAddr remoteAddr isDns data r) = some ⟨s, w.fault⟩ := by
      rw [Client.next, if_pos ⟨h.world.fault, hcan⟩, hrun]
      rfl
    exact h.world.step hnext
  rw [hrun]
  have hflight : Flight o options cfg (Accounted s) w := by
    refine h.flight.imp ?_
    rintro x hx ⟨⟨con, hcon, hconid⟩, haccount⟩
    refine ⟨⟨con, hsubmits.frame.2 con hcon, (hsubmits.conidOf hcon).trans hconid⟩, ?_⟩
    intro a ha h_a haddr
    cases hsubmits.comes ha with
    | kept _ hmem hsame =>
      rw [conidOf, hsame] at h_a
      rw [conaddrOf, hsame] at haddr ⊢
      exact haccount a hmem h_a haddr
    | taken _ hhead hfull hnew hsame =>
      rw [conidOf, hsame] at h_a
      rw [conaddrOf, hsame] at haddr ⊢
      exact (hok hnew hfull a hhead).2 x hx h_a.symm haddr.symm
    | made _ _ _ hunused hnew =>
      -- nothing is in flight under an id that no connection has
      rw [conidOf, hnew] at h_a
      exact absurd (hconid.trans h_a.symm) (hunused con hcon)
  have hremote : ∀ con ∈ s.connectionsList, (s.conaddrOf con).remoteAddr ≠ .none := by
    intro con hcon
    cases hsubmits.comes hcon with
    | kept _ hmem hsame =>
      rw [conaddrOf, hsame]
      exact h.remote con hmem
    | taken _ _ _ _ hsame | made _ _ _ _ hsame =>
      rw [conaddrOf, hsame]
      exact hcan.2.1
  exact {
    world := hworld
    mtu := hsubmits.frame.1.trans h.mtu
    remote := hremote
    first := fun con hcon hjob => by
      change (s.connections con).firstJob = true at hjob
      change (s.connections con).firstAccount = s.conaddrOf con ∧
        ∃ dns, (s.connections con).firstFlags = dataFlags false dns
      rw [conaddrOf]
      cases hsubmits.comes hcon with
      | kept _ hmem hsame =>
        rw [hsame] at hjob ⊢
        exact h.first con hmem hjob
      | taken _ hhead hfull hnew hsame =>
        rw [hsame] at hjob
        cases (hok hnew hfull con hhead).1.symm.trans hjob
      | made _ dns _ _ hnew =>
        rw [hnew]
        exact ⟨rfl, dns, rfl⟩
    flight := {
      buffers := fun con hcon m hm => by
        change m ∈ (s.connections con).sendIf at hm
        have hself := accounted_self htable hcon
        have haddr := hremote con hcon
        rw [conidOf, conaddrOf] at hself
        rw [conaddrOf] at haddr
        cases hsubmits.comes hcon with
        | kept _ hmem hsame hl =>
          rw [hsame] at hm hself haddr
          obtain hm | hm := List.mem_append.mp hm
          · exact hflight.buffers con hmem m hm
          · obtain ⟨rebind, dns, rfl⟩ := hl m hm
            exact upOk_connectionPacket haddr hself rebind dns data
        | taken _ hhead _ _ hsame hl =>
          rw [hsame] at hm hself haddr
          obtain hm | hm := List.mem_append.mp hm
          · exact hflight.buffers con (List.mem_of_mem_head? hhead) m hm
          · obtain ⟨rebind, dns, rfl⟩ := hl m hm
            exact upOk_connectionPacket haddr hself rebind dns data
        | made _ _ _ _ hnew =>
          rw [hnew] at hm
          cases hm
      toServer := hflight.toServer
      server := hflight.server
      toClient := hflight.toClient }
    delivered := h.delivered }

/-- A step of the client that changes no pair and no id. -/
theorem DeliveryInv.client (hworld : Client.WorldInv o ⟨s, w.fault⟩) (hmtu : s.udpMtu = w.client.udpMtu)
    (hlist : ∀ a, a ∈ s.connectionsList ↔ a ∈ w.client.connectionsList)
    (hsame : ∀ a ∈ w.client.connectionsList, s.connections a = { w.client.connections a with
      firstJob := (s.connections a).firstJob, sendIf := (s.connections a).sendIf })
    (hjob : ∀ a ∈ w.client.connectionsList, (s.connections a).firstJob = true →
      (w.client.connections a).firstJob = true)
    (hsendIf : ∀ a ∈ w.client.connectionsList, ∀ m ∈ (s.connections a).sendIf,
      UpOk o options (Accounted w.client) m) :
    DeliveryInv o options cfg { w with client := s } := by
  have hconid : ∀ a ∈ w.client.connectionsList, s.conidOf a = w.client.conidOf a := by
    intro a ha
    rw [conidOf, hsame a ha]
    rfl
  have hconaddr : ∀ a ∈ w.client.connectionsList, s.conaddrOf a = w.client.conaddrOf a := by
    intro a ha
    rw [conaddrOf, hsame a ha]
    rfl
  have haccounted : ∀ x, Accounted w.client x → Accounted s x :=
    fun x hx => hx.congr hlist hconid hconaddr
  have hflight := h.flight.imp fun x _ => haccounted x
  exact {
    world := hworld
    mtu := hmtu.trans h.mtu
    remote := fun a ha => by
      have ha := (hlist a).mp ha
      change (s.conaddrOf a).remoteAddr ≠ .none
      rw [hconaddr a ha]
      exact h.remote a ha
    first := fun a ha hset => by
      have ha := (hlist a).mp ha
      change (s.connections a).firstAccount = s.conaddrOf a ∧
        ∃ dns, (s.connections a).firstFlags = dataFlags false dns
      rw [hconaddr a ha, hsame a ha]
      exact h.first a ha (hjob a ha hset)
    flight := {
      buffers := fun a ha m hm x hx =>
        haccounted x (hsendIf a ((hlist a).mp ha) m hm x hx)
      toServer := hflight.toServer
      server := hflight.server
      toClient := hflight.toClient }
    delivered := h.delivered }

/-- **The first job of a connection** sends a message on account of the pair it was made for, and
the connection still has that pair. -/
theorem DeliveryInv.firstJob {room : Bool}
    (hcan : w.client.CanRunFirstJob con) :
    DeliveryInv o options cfg (w.leave (fun _ => id)
      ((Client.connectionFirstJobHandler o con room).run w.client)) := by
  obtain ⟨hcon, hjob⟩ := hcan
  obtain ⟨haccount, dns, hflags⟩ := h.first con hcon hjob
  have hspec : wp (Client.connectionFirstJobHandler o con room) _ w.client :=
    connectionFirstJobHandler_spec h.world.table (h.world.first con hcon)
  obtain ⟨⟨_, s⟩, hrun, htable, hs⟩ := hspec
  have hworld : Client.WorldInv o ⟨s, w.fault⟩ := by
    have hnext : Client.next o ⟨w.client, w.fault⟩ (.firstJob con room) = some ⟨s, w.fault⟩ := by
      rw [Client.next, if_pos ⟨h.world.fault, hcon, hjob⟩, hrun]
      rfl
    exact h.world.step hnext
  have hrebind : flagRebind ||| dataFlags false dns = dataFlags true dns := by
    cases dns <;> decide
  rw [hrun]
  change s = _ at hs
  rw [hflags, hrebind, haccount] at hs
  have hself : (w.client.update con fun c => { c with firstJob := false }).connections con
      = { w.client.connections con with firstJob := false } := update_self con _ _
  have hothers : ∀ a, a ≠ con → s.connections a = w.client.connections a := by
    intro a hne
    rw [hs, sent_of_ne hne]
    exact update_of_ne hne _ _
  refine h.client hworld ?_ ?_ ?_ ?_ ?_
  · rw [hs, sent_frame.1]
    rfl
  · intro a
    rw [hs, sent_frame.2.2]
    exact Iff.rfl
  · intro a _
    obtain rfl | hne := eq_or_ne a con
    · rw [hs, sent_self, hself]
    · rw [hothers a hne]
  · intro a _ hset
    obtain rfl | hne := eq_or_ne a con
    · exact hjob
    · rw [hothers a hne] at hset
      exact hset
  · intro a ha m hm
    obtain rfl | hne := eq_or_ne a con
    · rw [hs, sent_self, hself] at hm
      obtain hm | hm := List.mem_append.mp hm
      · exact h.flight.buffers a ha m hm
      · rw [eq_of_mem_newMessage hm]
        exact upOk_connectionPacket (h.remote a ha) (accounted_self h.world.table ha) true dns _
    · rw [hothers a hne] at hm
      exact h.flight.buffers a ha m hm

/-- The next message of a connection goes to the stream. -/
theorem DeliveryInv.clientSend {rest : List Message} (hcon : con ∈ w.client.connectionsList)
    (hsendIf : (w.client.connections con).sendIf = m :: rest) :
    DeliveryInv o options cfg { w with
      client := w.client.update con fun c => { c with sendIf := rest }
      toServer := w.toServer ++ [m] } := by
  have hbuffer := h.flight.buffers con hcon
  rw [hsendIf] at hbuffer
  have hself : (w.client.update con fun c => { c with sendIf := rest }).connections con
      = { w.client.connections con with sendIf := rest } := update_self con _ _
  have hothers : ∀ a, a ≠ con →
      (w.client.update con fun c => { c with sendIf := rest }).connections a
        = w.client.connections a := fun a hne => update_of_ne hne _ _
  have htoServer := h.flight.toServer_concat (hbuffer m List.mem_cons_self)
  have hworld : Client.WorldInv o
      ⟨w.client.update con fun c => { c with sendIf := rest }, w.fault⟩ := by
    have htable : TableInv o (w.client.update con fun c => { c with sendIf := rest }) :=
      TableInv.update (s := w.client) h.world.table rfl rfl
    refine ⟨h.world.fault, htable, fun a ha => ?_⟩
    refine le_of_eq_of_le (congrArg List.length ?_) (h.world.first a ha)
    exact update_field (s := w.client) (f := fun c => { c with sendIf := rest })
      Client.Connection.firstData rfl a
  refine (h.others htoServer h.flight.server h.flight.toClient).client hworld rfl
    (fun a => Iff.rfl) ?_ ?_ ?_
  · intro a _
    obtain rfl | hne := eq_or_ne a con
    · rw [hself]
    · rw [hothers a hne]
  · intro a _ hset
    rw [← hset]
    exact (update_field (s := w.client) Client.Connection.firstJob rfl a).symm
  · intro a ha m' hm'
    obtain rfl | hne := eq_or_ne a con
    · rw [hself] at hm'
      exact hbuffer m' (List.mem_cons_of_mem m hm')
    · rw [hothers a hne] at hm'
      exact h.flight.buffers a ha m' hm'

/-- What is delivered comes with its account. -/
theorem DeliveryInv.deliver {account : ConAddr}
    {r : Option (ConAddr × List Byte)} (haccount : ∀ p, r = some p → account = p.1) :
    DeliveryInv o options cfg (w.deliver account r) := by
  refine ⟨h.world, h.mtu, h.remote, h.first, ⟨h.flight.buffers, h.flight.toServer,
    h.flight.server, h.flight.toClient⟩, fun d hd => ?_⟩
  obtain hd | hd := List.mem_append.mp hd
  · exact h.delivered d hd
  · obtain ⟨p, hp, rfl⟩ := List.mem_map.mp hd
    exact haccount p (Option.mem_toList.mp hp)

/-- **A message reaches the client.** It is passed on for the pair it is on account of. -/
theorem DeliveryInv.clientReceive {rest : List Message} (htoClient : w.toClient = m :: rest)
    (hmtu : m.bytes.length ≤ w.client.udpgwMtu) :
    DeliveryInv o options cfg (World.leave { w with toClient := rest } (World.deliver m.account)
      ((recvInterfaceHandlerSend o m.bytes).run w.client)) := by
  have hmessages := h.flight.toClient
  rw [htoClient] at hmessages
  have hspec : wp (recvInterfaceHandlerSend o m.bytes) _ w.client :=
    recvInterfaceHandlerSend_spec h.world.table hmtu
  obtain ⟨⟨r, s⟩, hrun, htable, hconnections, hlist, hudpMtu, -, hreceives⟩ := hspec
  have hworld : Client.WorldInv o ⟨s, w.fault⟩ := by
    have hnext : Client.next o ⟨w.client, w.fault⟩ (.received m.bytes) = some ⟨s, w.fault⟩ := by
      rw [Client.next, if_pos ⟨h.world.fault, hmtu⟩, hrun]
      rfl
    exact h.world.step hnext
  have hrest : ∀ m' ∈ rest, DownOk o cfg (Accounted w.client) m' :=
    fun m' hm' => hmessages m' (List.mem_cons_of_mem m hm')
  have hclient := (h.others h.flight.toServer h.flight.server hrest).client hworld hudpMtu
    hlist (fun a _ => by rw [hconnections]) (fun a _ hset => by rwa [hconnections] at hset)
    (fun a ha => by rw [hconnections]; exact h.flight.buffers a ha)
  rw [hrun]
  refine hclient.deliver fun p hp => ?_
  obtain ⟨con, hcon, parsed, hparse, hconid, hconaddr, haddr⟩ := hreceives p hp
  have hitem : downItem o cfg m = some ⟨parsed.conid, parsed.addr, m.account⟩ := by
    rw [h.mtu] at hparse
    rw [downItem, hparse]
  have haccounted := hmessages m List.mem_cons_self _ hitem
  rw [← hconaddr] at haddr ⊢
  exact haccounted.2 con hcon hconid haddr

end

/-- A keepalive is nothing to the server. -/
theorem upItem_keepalivePacket (account : ConAddr) :
    upItem o options ⟨keepalivePacket, account⟩ = none := by
  have hparse : clientRecvParse o options.udpMtu keepalivePacket = .ok none := by
    rw [clientRecvParse, if_neg (by decide), if_pos (by decide)]
  rw [upItem, hparse]

/-- **A step that meets the condition** keeps the invariant. -/
theorem DeliveryInv.step (h : DeliveryInv o options cfg w) {l : Label}
    (hok : RebindOk o options cfg w l) (hnext : next o options w l = some w') :
    DeliveryInv o options cfg w' := by
  have hflight := h.flight
  cases l with
  | submitPacket =>
    obtain ⟨hcan, rfl⟩ := guard_eq_some.mp hnext
    exact h.submitPacket hcan.2 hok
  | firstJob =>
    obtain ⟨hcan, rfl⟩ := guard_eq_some.mp hnext
    exact h.firstJob hcan.2
  | clientSend con =>
    obtain ⟨hcon, hnext⟩ := Option.ite_none_right_eq_some.mp hnext
    cases hsendIf : (w.client.connections con).sendIf with rw [hsendIf] at hnext
    | cons =>
      cases hnext
      exact h.clientSend hcon hsendIf
    | nil => cases hnext
  | keepalive =>
    cases hnext
    refine h.others (hflight.toServer_concat ?_) hflight.server hflight.toClient
    intro x hx
    rw [upItem_keepalivePacket] at hx
    cases hx
  | serverReceive =>
    unfold next at hnext
    cases htoServer : w.toServer with rw [htoServer] at hnext
    | cons m =>
      obtain ⟨-, rfl⟩ := guard_eq_some.mp hnext
      have hmessages := hflight.toServer
      rw [htoServer] at hmessages
      exact h.others (fun m' hm' => hmessages m' (List.mem_cons_of_mem m hm'))
        (hflight.server.clientRecvIfHandlerSend (hmessages m List.mem_cons_self))
        hflight.toClient
    | nil => cases hnext
  | serverFirstJob =>
    obtain ⟨-, rfl⟩ := guard_eq_some.mp hnext
    exact h.others hflight.toServer hflight.server.connectionFirstJobHandler hflight.toClient
  | udpReceived =>
    obtain ⟨-, rfl⟩ := guard_eq_some.mp hnext
    exact h.others hflight.toServer hflight.server.connectionUdpRecvIfHandlerSend
      hflight.toClient
  | serverClose =>
    obtain ⟨-, rfl⟩ := guard_eq_some.mp hnext
    exact h.others hflight.toServer hflight.server.connectionClose hflight.toClient
  | serverFinish =>
    obtain ⟨-, rfl⟩ := guard_eq_some.mp hnext
    refine h.others hflight.toServer ⟨hflight.server.live, fun con hcon => ?_⟩
      hflight.toClient
    exact hflight.server.closing con (List.mem_of_mem_eraseIdx hcon)
  | serverSend =>
    obtain ⟨⟨m, l'⟩, htake, hnext⟩ := Option.map_eq_some_iff.mp hnext
    cases hnext
    obtain ⟨hm, hl'⟩ := of_takeMessage hflight.server.live htake
    exact h.others hflight.toServer ⟨hl', hflight.server.closing⟩ (hflight.toClient_concat hm)
  | serverSendClosing =>
    obtain ⟨⟨m, l'⟩, htake, hnext⟩ := Option.map_eq_some_iff.mp hnext
    cases hnext
    obtain ⟨hm, hl'⟩ := of_takeMessage hflight.server.closing htake
    exact h.others hflight.toServer ⟨hflight.server.live, hl'⟩ (hflight.toClient_concat hm)
  | clientReceive =>
    unfold next at hnext
    cases htoClient : w.toClient with rw [htoClient] at hnext
    | cons =>
      obtain ⟨hcan, rfl⟩ := guard_eq_some.mp hnext
      exact h.clientReceive htoClient hcan.2
    | nil => cases hnext

theorem deliveryInv_init : DeliveryInv o options cfg (system o options cfg).init where
  world := ⟨rfl, TableInv.initial cfg, nofun⟩
  mtu := rfl
  remote := nofun
  first := nofun
  flight := ⟨nofun, nofun, ⟨nofun, nofun⟩, nofun⟩
  delivered := nofun

end Accounted

/-- **Every reply goes to the pair that has asked for it**, in every run in which no id is taken
for a pair while something is in flight under it and the remote address for another. -/
theorem delivery_accounted (o : ByteOrder) (options : Options) (cfg : Config) (w : World)
    (h : (system o options cfg).ReachableUnder (RebindOk o options cfg) w) :
    w.fault = none ∧ ∀ d ∈ w.delivered, d.account = d.conaddr := by
  have hinv : DeliveryInv o options cfg w :=
    h.invariant deliveryInv_init fun _ _ _ hinv hok hnext => hinv.step hok hnext
  exact ⟨hinv.world.fault, hinv.delivered⟩

/-- Both pairs get their replies when the id is taken for another remote address. -/
theorem delivery_accounted_rebind :
    ∃ w, (system .little exampleOptions oneConnection).ReachableUnder
        (RebindOk .little exampleOptions oneConnection) w ∧
      w.delivered.map (·.conaddr)
        = [⟨exampleAddr 1, exampleAddr 9⟩, ⟨exampleAddr 2, exampleAddr 8⟩] ∧
      ∀ d ∈ w.delivered, d.account = d.conaddr := by
  obtain ⟨w, hw, hdelivered⟩ :=
    (system .little exampleOptions oneConnection).exists_of_runUnder
      (RebindOk .little exampleOptions oneConnection)
      (fun w => w.delivered.map (·.conaddr)
        = [⟨exampleAddr 1, exampleAddr 9⟩, ⟨exampleAddr 2, exampleAddr 8⟩])
      [.submitPacket (exampleAddr 1) (exampleAddr 9) false [7] ⟨some 11, true, true⟩,
        .firstJob 11 true, .clientSend 11, .serverReceive plenty, .serverFirstJob 0 true,
        .udpReceived 0 [8] true, .serverSend 0, .clientReceive,
        .submitPacket (exampleAddr 2) (exampleAddr 8) false [7] ⟨none, true, true⟩,
        .clientSend 11, .serverReceive plenty, .udpReceived 0 [8] true, .serverSend 0,
        .clientReceive] (by decide +kernel)
  exact ⟨w, hw, hdelivered, (delivery_accounted _ _ _ w hw).2⟩

end Tun2Socks.UdpGw.Delivery
