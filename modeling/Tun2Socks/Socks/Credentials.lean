import Tun2Socks.Framework.System
import Tun2Socks.Socks.Handshake

/-!
# Which credentials a client sends

With `--append-source-to-username`, every TCP client is to log in to the SOCKS server under a
username of its own, `options.username`, an `@` and the address it was accepted from.
`listener_accept_func` builds the string and stores its address in the one global table
`socks_auth_info`; `BSocksClient` reads it from there when the server's hello has chosen the
password method; `client_dealloc` frees it.

The system is the table, the strings and the clients, under any interleaving of

* accepts, in which `malloc`, `concat_strings` and `BSocksClient_Init` may fail;
* callbacks of the SOCKS clients. A client that reports an error is freed by its handler
  before the callback returns, as `client_socks_handler` does;
* `client_free_socks` and `client_dealloc`, at any time, in this order. When the code calls
  them is the subject of the modules on the TCP client; here it may do so whenever it likes.

What goes wrong is that an accept overwrites the entry that an earlier client has still to
read. `credentials_overwritten` shows two such runs. `credentials_own` says that nothing else
goes wrong: in a run in which no accept stores a username while an earlier client has still to
read its own, every client sends its own credentials, read from memory that is still
allocated.
-/

namespace Tun2Socks.Socks

open Framework Net

/-! ### The program -/

/-- The options the credentials depend on, and the machine. -/
structure Options where
  order : ByteOrder
  /-- `SIZE_MAX`. -/
  sizeMax : ℕ
  username : Option CString
  /-- `options.password`, or the contents of the password file. -/
  password : List Byte
  appendSourceToUsername : Bool

/-- The part of `struct tcp_client` that the credentials depend on. -/
structure TcpClient where
  remoteAddr : BAddr
  socksUsername : Option ℕ
  socksClient : Client
  /-- `client_dealloc` has run. -/
  freed : Bool
  deriving DecidableEq

/-- The state of the program. -/
structure World where
  heap : Heap Byte
  /-- `socks_auth_info`, as far as `socks_num_auth_info`. -/
  authInfo : List AuthInfo
  clients : List TcpClient
  fault : Option Fault
  deriving DecidableEq

/-- What `process_arguments` leaves behind. -/
def World.init (options : Options) : World :=
  match options.username with
  | none => ⟨[], [.none], [], none⟩
  | some username => ⟨[⟨username.memory, true⟩, ⟨options.password, true⟩],
      [.none, .password ⟨0, CString.strlen username.memory, 1, options.password.length⟩], [], none⟩

/-- The first loop of `concat_strings`. -/
def sumLengths (sizeMax : ℕ) : ℕ → List CString → Option ℕ
  | sum, [] => some sum
  | sum, s :: ss =>
    if sizeMax - 1 - sum < s.chars.length then none
    else sumLengths sizeMax (sum + s.chars.length) ss

/-- `concat_strings`: the new string in memory. -/
def concatStrings (sizeMax : ℕ) (malloc : Bool) (strs : List CString) : Option (List Byte) :=
  (sumLengths sizeMax 0 strs).bind fun _ =>
    if malloc = true then some (strs.flatMap CString.chars ++ [0]) else none

/-- The text `"@"`. -/
def atSign : CString := ⟨[64], by decide⟩

/-- `socks_auth_info[1].password.username = username`, and its length. -/
def storeUsername (authInfo : List AuthInfo) (username usernameLen : ℕ) : List AuthInfo :=
  authInfo.modify 1 fun
    | .none => .none
    | .password p => .password { p with username, usernameLen }

/-- The calls of `listener_accept_func` that can fail. -/
structure AcceptOutcome where
  malloc : Bool
  concatMalloc : Bool
  connectorInit : Bool
  deriving DecidableEq, Repr

/-- `free(client->socks_username)`. -/
def freeUsername (heap : Heap Byte) : Option ℕ → Heap Byte
  | none => heap
  | some p => heap.free p

namespace World

variable (w : World)

/-- The end of `listener_accept_func`, from `BSocksClient_Init` on. -/
def initSocks (localAddr remoteAddr : BAddr) (socksUsername : Option ℕ) (connectorInit : Bool) :
    World :=
  match bSocksClientInit w.authInfo.length localAddr connectorInit with
  | none => { w with heap := freeUsername w.heap socksUsername }
  | some socksClient =>
    { w with clients := w.clients ++ [⟨remoteAddr, socksUsername, socksClient, false⟩] }

/-- The username string of `listener_accept_func`, if it is to be made and there is memory
for it. -/
def appendedUsername (options : Options) (username : CString) (remoteAddr : BAddr)
    (concatMalloc : Bool) : Option (List Byte) :=
  concatStrings options.sizeMax concatMalloc
    [username, atSign, bAddrPrint options.order remoteAddr]

def listenerAcceptFunc (options : Options) (localAddr remoteAddr : BAddr)
    (outcome : AcceptOutcome) : World :=
  if outcome.malloc = false then w
  else
    match options.username, options.appendSourceToUsername with
    | some username, true =>
      match appendedUsername options username remoteAddr outcome.concatMalloc with
      | none => w
      | some str =>
        { w with
          heap := w.heap.alloc str
          authInfo := storeUsername w.authInfo w.heap.length (CString.strlen str) }.initSocks
          localAddr remoteAddr (some w.heap.length) outcome.connectorInit
    | _, _ => w.initSocks localAddr remoteAddr none outcome.connectorInit

/-- A callback of client `i` returns, or stops with a fault. -/
def leaveCallback (i : ℕ) (c : TcpClient) : Except Fault (Unit × Client) → World
  | .error f => { w with fault := some f }
  | .ok (_, socksClient) => { w with clients := w.clients.set i { c with socksClient } }

/-- `client_dealloc`. -/
def clientDealloc (i : ℕ) (c : TcpClient) : World := { w with
  heap := freeUsername w.heap c.socksUsername
  clients := w.clients.set i { c with freed := true } }

end World

/-- A callback, and `client_free_socks` by the handler if it reported an error. -/
def socksCallback (env : Env) (cb : Callback) : M Unit := do
  callback env cb
  let o ← get
  if o.Failed then bSocksClientFree else pure ()

/-- One entry into the program. -/
inductive Label
  | accept (localAddr remoteAddr : BAddr) (outcome : AcceptOutcome)
  | socks (i : ℕ) (cb : Callback) (realloc : Bool)
  | freeSocks (i : ℕ)
  | dealloc (i : ℕ)

/-- One step. -/
def next (options : Options) (w : World) : Label → Option World
  | .accept localAddr remoteAddr outcome =>
    if w.fault = none ∧ localAddr ≠ .none then
      some (w.listenerAcceptFunc options localAddr remoteAddr outcome)
    else none
  | .socks i cb realloc =>
    (w.clients[i]?).bind fun c =>
      if w.fault = none ∧ cb.Enabled c.socksClient then
        some (w.leaveCallback i c
          ((socksCallback ⟨w.authInfo, w.heap, realloc⟩ cb).run c.socksClient))
      else none
  | .freeSocks i =>
    (w.clients[i]?).bind fun c =>
      if w.fault = none ∧ c.socksClient.connector = true then
        some (w.leaveCallback i c (bSocksClientFree.run c.socksClient))
      else none
  | .dealloc i =>
    (w.clients[i]?).bind fun c =>
      if w.fault = none ∧ c.socksClient.connector = false ∧ c.freed = false then
        some (w.clientDealloc i c)
      else none

/-- The program with no clients. -/
def system (options : Options) : System World Label where
  init := World.init options
  next := next options

/-! ### The invariant -/

section Invariant

variable (options : Options) (username : CString)

/-- The username of a client that was accepted from `remoteAddr`. -/
def ownUsername (remoteAddr : BAddr) : CString :=
  username ++ (atSign ++ bAddrPrint options.order remoteAddr)

/-- The message such a client is to send. -/
def ownMessage (remoteAddr : BAddr) : PasswordMessage :=
  ⟨passwordPacket (ownUsername options username remoteAddr).chars options.password, true⟩

/-- The table, with a username at `p` in memory. -/
def authTable (p len : ℕ) : List AuthInfo :=
  [.none, .password ⟨p, len, 1, options.password.length⟩]

/-- What holds of a client. -/
structure Keeps (heap : Heap Byte) (authInfo : List AuthInfo) (c : TcpClient) : Prop where
  /-- Its string is there until it is deallocated. -/
  string : c.freed = false →
    ∃ p ∈ c.socksUsername, 1 < p ∧ heap.Holds p (ownUsername options username c.remoteAddr).memory
  live : c.socksClient.connector = true → c.freed = false ∧ ClientInv 2 c.socksClient
  /-- As long as it has to read its username, the table points to it. -/
  pending : c.socksClient.Pending → ∃ p ∈ c.socksUsername,
    authInfo = authTable options p (ownUsername options username c.remoteAddr).chars.length
  messages : ∀ m ∈ c.socksClient.passwordMessages, m = ownMessage options username c.remoteAddr

/-- What holds of the program. -/
structure WorldInv (w : World) : Prop where
  fault : w.fault = none
  table : ∃ p len cells, w.authInfo = authTable options p len ∧ w.heap.Cells p cells ∧
    len ≤ cells.length
  password : w.heap.Holds 1 options.password
  clients : ∀ c ∈ w.clients, Keeps options username w.heap w.authInfo c
  /-- No two clients share a string. -/
  distinct : ∀ (i j : ℕ) (c d : TcpClient), w.clients[i]? = some c → w.clients[j]? = some d →
    c.freed = false → d.freed = false → c.socksUsername = d.socksUsername → i = j

variable {options username} {w : World}

theorem WorldInv.initial (husername : options.username = some username) :
    WorldInv options username (World.init options) := by
  simp only [World.init, husername]
  exact {
    fault := rfl
    table := by
      refine ⟨0, _, username.memory, rfl, ⟨true, rfl⟩, ?_⟩
      rw [CString.strlen_memory, CString.memory, List.length_append]
      exact Nat.le_add_right _ _
    password := rfl
    clients := fun c hc => nomatch hc
    distinct := fun i j c d hc => nomatch hc }

/-- The table can be read, whether or not the username in it was freed. -/
theorem WorldInv.readable (h : WorldInv options username w) (realloc : Bool) :
    Env.Readable ⟨w.authInfo, w.heap, realloc⟩ := by
  intro p hp
  obtain ⟨q, len, cells, htable, ⟨live, hq⟩, hlen⟩ := h.table
  change AuthInfo.password p ∈ w.authInfo at hp
  rw [htable, authTable, List.mem_cons, List.mem_singleton] at hp
  obtain hp | hp := hp
  · exact AuthInfo.noConfusion hp
  · obtain rfl := AuthInfo.password.inj hp
    exact ⟨⟨_, hq, hlen⟩, _, h.password, le_rfl⟩

variable {c : TcpClient} {i : ℕ}

/-- A client with the same string replaces the one at `i`. -/
theorem WorldInv.set (h : WorldInv options username w)
    (hc : w.clients[i]? = some c) (c' : TcpClient) (hstring : c'.socksUsername = c.socksUsername)
    (hfreed : c'.freed = false → c.freed = false)
    (hc' : Keeps options username w.heap w.authInfo c') :
    WorldInv options username { w with clients := w.clients.set i c' } where
  fault := h.fault
  table := h.table
  password := h.password
  clients d hd := by
    obtain hd | rfl := List.mem_or_eq_of_mem_set hd
    · exact h.clients d hd
    · exact hc'
  distinct j k d e hd he h_d h_e heq := by
    -- a client of the new list has its string from the client at the same place before
    have hbefore : ∀ (j : ℕ) d, (w.clients.set i c')[j]? = some d → d.freed = false →
        ∃ d₀, w.clients[j]? = some d₀ ∧ d₀.freed = false ∧ d₀.socksUsername = d.socksUsername := by
      intro j d hd h_d
      rw [List.getElem?_set] at hd
      split_ifs at hd with hij hlt
      · cases hd
        exact ⟨c, hij ▸ hc, hfreed h_d, hstring.symm⟩
      · exact ⟨d, hd, h_d, rfl⟩
    obtain ⟨d₀, hd₀, h_d₀, hsd⟩ := hbefore j d hd h_d
    obtain ⟨e₀, he₀, h_e₀, hse⟩ := hbefore k e he h_e
    exact h.distinct j k d₀ e₀ hd₀ he₀ h_d₀ h_e₀ (hsd.trans (heq.trans hse.symm))

/-- **A callback of a SOCKS client.** It keeps the client in order, and a message it sends is
its own. -/
theorem socksCallback_spec (env : Env) {o : Client} (h : ClientInv env.authInfo.length o)
    (hread : env.Readable) (cb : Callback) (hcb : cb.Enabled o) :
    wp (socksCallback env cb) (fun _ o' =>
      (o'.connector = true → ClientInv env.authInfo.length o') ∧ (o'.Pending → o.Pending) ∧
      (o'.passwordMessages = o.passwordMessages ∨
        o.Pending ∧ ∃ p m, .password p ∈ env.authInfo ∧ env.PasswordMessage p m ∧
          o'.passwordMessages = o.passwordMessages ++ [m])) o := by
  simp only [socksCallback, wp_bind, wp_get, wp_ite, wp_pure]
  refine wp_mono (callback_spec h hread cb hcb) fun _ o₁ hstep => ?_
  split_ifs
  · -- the handler frees the client, which keeps what it has sent
    refine wp_mono (bSocksClientFree_spec hstep.inv) fun _ o' hfree => ?_
    obtain ⟨hconnector, -, -, -, hmessages⟩ := hfree
    have hfreed : o'.connector ≠ true := ne_true_of_eq_false hconnector
    refine ⟨fun hlive => absurd hlive hfreed, fun hpending => absurd hpending.1 hfreed, ?_⟩
    rw [hmessages]
    exact hstep.messages
  · exact ⟨fun _ => hstep.inv, hstep.pending, hstep.messages⟩

/-- What the table says while a client has to read its username is the client's own. -/
theorem Keeps.own_message (h : WorldInv options username w)
    (hc : Keeps options username w.heap w.authInfo c) (hpending : c.socksClient.Pending)
    {realloc : Bool} {p : Password} {m : PasswordMessage} (hp : .password p ∈ w.authInfo)
    (hm : Env.PasswordMessage ⟨w.authInfo, w.heap, realloc⟩ p m) :
    m = ownMessage options username c.remoteAddr := by
  -- the entry the client finds is its own, and its string has not been freed
  obtain ⟨q, hq, htable⟩ := hc.pending hpending
  obtain ⟨q', hq', -, hstring⟩ := hc.string (hc.live hpending.1).1
  obtain rfl := Option.some.inj (hq.symm.trans hq')
  rw [htable, authTable, List.mem_cons, List.mem_singleton] at hp
  obtain hp | hp := hp
  · exact AuthInfo.noConfusion hp
  obtain rfl := AuthInfo.password.inj hp
  obtain ⟨ustr, pstr, hu, h_p, rfl⟩ := hm
  obtain rfl := Option.some.inj (hu.symm.trans hstring)
  obtain rfl := Option.some.inj (h_p.symm.trans h.password)
  change PasswordMessage.mk (passwordPacket (List.take _ (CString.memory _))
    (options.password.take options.password.length)) true = _
  rw [CString.memory, List.take_left, List.take_length]
  rfl

theorem WorldInv.socks (h : WorldInv options username w)
    (hc : w.clients[i]? = some c) {cb : Callback} (hcb : cb.Enabled c.socksClient)
    (realloc : Bool) :
    WorldInv options username (w.leaveCallback i c
      ((socksCallback ⟨w.authInfo, w.heap, realloc⟩ cb).run c.socksClient)) := by
  have hkeeps := h.clients c (List.mem_of_getElem? hc)
  have hlength : w.authInfo.length = 2 := by
    obtain ⟨p, len, -, htable, -⟩ := h.table
    rw [htable]
    rfl
  obtain ⟨halloc, hinv⟩ := hkeeps.live hcb.1
  rw [← hlength] at hinv
  obtain ⟨⟨_, o'⟩, hrun, hlive, hpending, hmessages⟩ :=
    socksCallback_spec ⟨w.authInfo, w.heap, realloc⟩ hinv (h.readable realloc) cb hcb
  rw [hrun]
  refine h.set hc _ rfl id ⟨hkeeps.string, fun h_c => ⟨halloc, hlength ▸ hlive h_c⟩,
    fun h_p => hkeeps.pending (hpending h_p), fun m hm => ?_⟩
  change m ∈ o'.passwordMessages at hm
  obtain hsame | ⟨h_p, p, m', hp, hm', hnew⟩ := hmessages
  · rw [hsame] at hm
    exact hkeeps.messages m hm
  · rw [hnew, List.mem_append, List.mem_singleton] at hm
    obtain hm | rfl := hm
    · exact hkeeps.messages m hm
    · exact hkeeps.own_message h h_p hp hm'

theorem WorldInv.freeSocks (h : WorldInv options username w)
    (hc : w.clients[i]? = some c) (hlive : c.socksClient.connector = true) :
    WorldInv options username (w.leaveCallback i c (bSocksClientFree.run c.socksClient)) := by
  have hkeeps := h.clients c (List.mem_of_getElem? hc)
  obtain ⟨⟨_, o'⟩, hrun, hconnector, -, -, -, hmessages⟩ :=
    bSocksClientFree_spec (hkeeps.live hlive).2
  have hfreed : o'.connector ≠ true := ne_true_of_eq_false hconnector
  rw [hrun]
  refine h.set hc _ rfl id ⟨hkeeps.string, fun h_c => absurd h_c hfreed,
    fun hp => absurd hp.1 hfreed, fun m hm => hkeeps.messages m ?_⟩
  change m ∈ o'.passwordMessages at hm
  rwa [hmessages] at hm

/-- A client keeps its string when another one is allocated, or freed. -/
theorem Keeps.heap {heap : Heap Byte} {authInfo : List AuthInfo}
    (h : Keeps options username heap authInfo c) (heap' : Heap Byte)
    (hheap : c.freed = false → ∀ p ∈ c.socksUsername, ∀ cells,
      heap.Holds p cells → heap'.Holds p cells) :
    Keeps options username heap' authInfo c where
  string hfreed := by
    obtain ⟨p, hp, hlt, hholds⟩ := h.string hfreed
    exact ⟨p, hp, hlt, hheap hfreed p hp _ hholds⟩
  live := h.live
  pending := h.pending
  messages := h.messages

/-- The heap changes, and what is needed of it stays. -/
theorem WorldInv.heap (h : WorldInv options username w) {heap' : Heap Byte}
    (hcells : ∀ p cells, w.heap.Cells p cells → heap'.Cells p cells)
    (hpassword : heap'.Holds 1 options.password)
    (hheap : ∀ c ∈ w.clients, c.freed = false → ∀ p ∈ c.socksUsername, ∀ cells,
      w.heap.Holds p cells → heap'.Holds p cells) :
    WorldInv options username { w with heap := heap' } where
  fault := h.fault
  table := by
    obtain ⟨p, len, cells, htable, hp, hlen⟩ := h.table
    exact ⟨p, len, cells, htable, hcells p cells hp, hlen⟩
  password := hpassword
  clients c hc := (h.clients c hc).heap heap' (hheap c hc)
  distinct := h.distinct

theorem WorldInv.dealloc (h : WorldInv options username w)
    (hc : w.clients[i]? = some c) (hclosed : c.socksClient.connector = false)
    (hfreed : c.freed = false) : WorldInv options username (w.clientDealloc i c) := by
  have hkeeps := h.clients c (List.mem_of_getElem? hc)
  obtain ⟨p, hp, hlt, -⟩ := hkeeps.string hfreed
  have hdead : c.socksClient.connector ≠ true := ne_true_of_eq_false hclosed
  have hgone : true ≠ false := by decide
  have hkeeps' : Keeps options username w.heap w.authInfo { c with freed := true } :=
    ⟨fun h_c => absurd h_c hgone, fun h_c => absurd h_c hdead,
      fun h_p => absurd h_p.1 hdead, hkeeps.messages⟩
  have hheap : freeUsername w.heap c.socksUsername = w.heap.free p := by
    rw [Option.mem_def.mp hp, freeUsername]
  rw [World.clientDealloc, hheap]
  have hset := h.set hc { c with freed := true } rfl (fun _ => hfreed) hkeeps'
  refine hset.heap (fun q cells hq => hq.free p) (h.password.free (by omega))
    fun d hd h_d q hq cells hholds => hholds.free ?_
  -- a client that is still there, at another place, has another string
  rintro rfl
  obtain ⟨j, hj⟩ := List.mem_iff_getElem?.mp hd
  change (w.clients.set i { c with freed := true })[j]? = some d at hj
  rw [List.getElem?_set] at hj
  split_ifs at hj with hij hlen
  · cases hj
    exact absurd h_d hgone
  · exact hij (h.distinct i j c d hc hj hfreed h_d (hp.trans hq.symm))

/-! ### Accepting a client -/

theorem concatStrings_eq {malloc : Bool} {remoteAddr : BAddr} {str : List Byte}
    (h : World.appendedUsername options username remoteAddr malloc = some str) :
    str = (ownUsername options username remoteAddr).memory := by
  rw [World.appendedUsername, concatStrings, Option.bind_eq_some_iff] at h
  obtain ⟨_, -, h⟩ := h
  split_ifs at h
  rw [← Option.some.inj h]
  simp only [List.flatMap_cons, List.flatMap_nil, List.append_nil]
  rfl

theorem storeUsername_authTable (p len p' len' : ℕ) :
    storeUsername (authTable options p len) p' len' = authTable options p' len' :=
  rfl

section

variable (h : WorldInv options username w)

include h

/-- The state in which the username is made and stored. -/
theorem WorldInv.store (halone : ∀ c ∈ w.clients, ¬ c.socksClient.Pending) (remoteAddr : BAddr) :
    WorldInv options username { w with
      heap := w.heap.alloc (ownUsername options username remoteAddr).memory
      authInfo := authTable options w.heap.length
        (ownUsername options username remoteAddr).chars.length } where
  fault := h.fault
  table := by
    refine ⟨_, _, _, rfl, (Heap.holds_alloc _).cells, ?_⟩
    rw [CString.memory, List.length_append]
    exact Nat.le_add_right _ _
  password := h.password.alloc _
  clients c hc := by
    have hkeeps := (h.clients c hc).heap
      (w.heap.alloc (ownUsername options username remoteAddr).memory)
      fun _ _ _ _ hholds => hholds.alloc _
    exact ⟨hkeeps.string, hkeeps.live, fun hp => absurd hp (halone c hc), hkeeps.messages⟩
  distinct := h.distinct

/-- `BSocksClient_Init` fails: the new string goes again, and the table points to it all the
same. -/
theorem WorldInv.abandon {p : ℕ} (hlt : 1 < p)
    (hfresh : ∀ c ∈ w.clients, c.freed = false → ∀ q ∈ c.socksUsername, q ≠ p) :
    WorldInv options username { w with heap := w.heap.free p } :=
  h.heap (fun _ _ hq => hq.free p) (h.password.free (by omega))
    fun c hc hfreed q hq _ hholds => hholds.free (hfresh c hc hfreed q hq).symm

/-- A new client, with a string that no other client has, in the table. -/
theorem WorldInv.add {p : ℕ} {localAddr remoteAddr : BAddr}
    (hlocal : localAddr ≠ .none) {socksClient : Client}
    (hinit : bSocksClientInit w.authInfo.length localAddr true = some socksClient)
    (hlt : 1 < p) (hstring : w.heap.Holds p (ownUsername options username remoteAddr).memory)
    (htable : w.authInfo = authTable options p
      (ownUsername options username remoteAddr).chars.length)
    (hfresh : ∀ c ∈ w.clients, c.freed = false → ∀ q ∈ c.socksUsername, q ≠ p) :
    WorldInv options username { w with
      clients := w.clients ++ [⟨remoteAddr, some p, socksClient, false⟩] } := by
  have hclient : Keeps options username w.heap w.authInfo
      ⟨remoteAddr, some p, socksClient, false⟩ := by
    rw [bSocksClientInit, if_neg (by decide)] at hinit
    cases hinit
    refine ⟨fun _ => ⟨p, rfl, hlt, hstring⟩, fun _ => ⟨rfl, ⟨?_, fun _ => trivial⟩⟩,
      fun _ => ⟨p, rfl, htable⟩, fun m hm => nomatch hm⟩
    refine ⟨rfl, iff_of_false Bool.false_ne_true (fun hne => hne rfl), rfl, hlocal, ?_,
      fun _ => ⟨rfl, rfl, rfl⟩⟩
    rw [htable]
    exact le_rfl
  exact {
    fault := h.fault
    table := h.table
    password := h.password
    clients := fun c hc => by
      rw [List.mem_append, List.mem_singleton] at hc
      obtain hc | rfl := hc
      · exact h.clients c hc
      · exact hclient
    distinct := fun i j c d hc hd h_c h_d heq => by
      obtain hc | ⟨rfl, rfl⟩ := getElem?_concat hc <;> obtain hd | ⟨rfl, rfl⟩ := getElem?_concat hd
      · exact h.distinct i j c d hc hd h_c h_d heq
      · exact absurd rfl (hfresh c (List.mem_of_getElem? hc) h_c p heq)
      · exact absurd rfl (hfresh d (List.mem_of_getElem? hd) h_d p heq.symm)
      · rfl }

/-- The addresses of the strings in use are below the length of the heap. -/
theorem WorldInv.ne_length (hc : c ∈ w.clients)
    (hfreed : c.freed = false) {q : ℕ} (hq : q ∈ c.socksUsername) : q ≠ w.heap.length := by
  obtain ⟨p, hp, -, hholds⟩ := (h.clients c hc).string hfreed
  obtain rfl := Option.some.inj (hq.symm.trans hp)
  exact hholds.lt.ne

theorem WorldInv.accept (husername : options.username = some username)
    (happend : options.appendSourceToUsername = true) {localAddr remoteAddr : BAddr}
    (hlocal : localAddr ≠ .none) {outcome : AcceptOutcome}
    (halone : outcome.malloc = true →
      (World.appendedUsername options username remoteAddr outcome.concatMalloc).isSome →
      ∀ c ∈ w.clients, ¬ c.socksClient.Pending) :
    WorldInv options username (w.listenerAcceptFunc options localAddr remoteAddr outcome) := by
  rw [World.listenerAcceptFunc]
  split_ifs with hmalloc
  · exact h
  rw [husername, happend]
  dsimp only
  cases hstr : World.appendedUsername options username remoteAddr outcome.concatMalloc with
  | none => exact h
  | some =>
    obtain rfl := concatStrings_eq hstr
    -- the table is overwritten before `BSocksClient_Init` is called
    have hstore := h.store (halone (Bool.eq_true_of_not_eq_false hmalloc)
      (by rw [hstr]; rfl)) remoteAddr
    obtain ⟨p, len, -, htable, -⟩ := h.table
    have hlt : 1 < w.heap.length := h.password.lt
    dsimp only
    rw [htable, storeUsername_authTable, CString.strlen_memory, World.initSocks]
    cases hinit : outcome.connectorInit with
    | false => exact hstore.abandon hlt fun c hc hfreed q hq => h.ne_length hc hfreed hq
    | true =>
      exact hstore.add hlocal rfl hlt (Heap.holds_alloc _) rfl
        fun c hc hfreed q hq => h.ne_length hc hfreed hq

end

end Invariant

/-! ### Every run -/

/-- A username is stored in the table only when no earlier client has still to read its own:
every client that was accepted before has received the server's hello, failed or been freed. -/
def AcceptsAlone (options : Options) (w : World) : Label → Prop
  | .accept _ remoteAddr outcome => outcome.malloc = true → ∀ username ∈ options.username,
      (World.appendedUsername options username remoteAddr outcome.concatMalloc).isSome →
      ∀ c ∈ w.clients, ¬ c.socksClient.Pending
  | _ => True

instance (options : Options) (w : World) (l : Label) : Decidable (AcceptsAlone options w l) := by
  cases l <;> unfold AcceptsAlone <;> infer_instance

theorem WorldInv.step {options : Options} {username : CString}
    (husername : options.username = some username)
    (happend : options.appendSourceToUsername = true) {w w' : World} {l : Label}
    (h : WorldInv options username w) (halone : AcceptsAlone options w l)
    (hnext : (system options).next w l = some w') : WorldInv options username w' := by
  cases l with
  | accept =>
    simp only [system, next, Option.ite_none_right_eq_some] at hnext
    obtain ⟨⟨-, hlocal⟩, hnext⟩ := hnext
    cases hnext
    exact h.accept husername happend hlocal fun hmalloc => halone hmalloc username husername
  | socks _ _ realloc =>
    simp only [system, next, Option.bind_eq_some_iff, Option.ite_none_right_eq_some] at hnext
    obtain ⟨c, hc, ⟨-, hcb⟩, hnext⟩ := hnext
    cases hnext
    exact h.socks hc hcb realloc
  | freeSocks =>
    simp only [system, next, Option.bind_eq_some_iff, Option.ite_none_right_eq_some] at hnext
    obtain ⟨c, hc, ⟨-, hlive⟩, hnext⟩ := hnext
    cases hnext
    exact h.freeSocks hc hlive
  | dealloc =>
    simp only [system, next, Option.bind_eq_some_iff, Option.ite_none_right_eq_some] at hnext
    obtain ⟨c, hc, ⟨-, hclosed, hfreed⟩, hnext⟩ := hnext
    cases hnext
    exact h.dealloc hc hclosed hfreed

/-- **Every client sends its own credentials**, if usernames are stored one at a time: the
message consists of `options.username`, an `@` and the client's own address, with the
password, and the string it was read from was still allocated. No callback faults. -/
theorem credentials_own (options : Options) (username : CString)
    (husername : options.username = some username)
    (happend : options.appendSourceToUsername = true) {w : World}
    (h : (system options).ReachableUnder (AcceptsAlone options) w) :
    w.fault = none ∧ ∀ c ∈ w.clients, ∀ m ∈ c.socksClient.passwordMessages,
      m.packet = passwordPacket
          (username ++ (atSign ++ bAddrPrint options.order c.remoteAddr)).chars options.password ∧
        m.usernameLive = true := by
  have hinv : WorldInv options username w := System.ReachableUnder.invariant
    (WorldInv.initial husername) (fun _ _ _ hinv => hinv.step husername happend) h
  refine ⟨hinv.fault, fun c hc m hm => ?_⟩
  rw [(hinv.clients c hc).messages m hm]
  exact ⟨rfl, rfl⟩

/-! ### Runs -/

/-- The user `u` with the password `p`. -/
def userOptions : Options where
  order := .little
  sizeMax := 4294967295
  username := some ⟨[117], by decide⟩
  password := [112]
  appendSourceToUsername := true

/-- `10.0.0.2`, with the port `256 * hi + lo`. -/
def hostAddr (hi lo : Byte) : BAddr := .ipv4 (.four 10 0 0 2) ⟨hi, lo⟩

/-- lwIP accepts a connection from `10.0.0.2` to `10.0.0.1`, and nothing fails but, possibly,
`BSocksClient_Init`. -/
def acceptFrom (lo : Byte) (connectorInit : Bool) : Label :=
  .accept (.ipv4 (.four 10 0 0 1) ⟨0, 80⟩) (hostAddr 4 lo) ⟨true, true, connectorInit⟩

/-- The SOCKS client `i` connects, sends its hello, and the server asks for a password. -/
def handshake (i : ℕ) : List Label :=
  [.socks i (.connector false true) true, .socks i .sent true, .socks i (.received [5, 2]) true]

theorem credentials_own_two_clients :
    ∃ w, (system userOptions).ReachableUnder (AcceptsAlone userOptions) w ∧
      (∃ c ∈ w.clients, c.remoteAddr = hostAddr 4 1 ∧ c.socksClient.passwordMessages ≠ []) ∧
      (∃ c ∈ w.clients, c.remoteAddr = hostAddr 4 2 ∧ c.socksClient.passwordMessages ≠ []) ∧
      (w.fault = none ∧ ∀ c ∈ w.clients, ∀ m ∈ c.socksClient.passwordMessages,
        m.packet = passwordPacket (⟨[117], by decide⟩ ++
            (atSign ++ bAddrPrint userOptions.order c.remoteAddr)).chars userOptions.password ∧
          m.usernameLive = true) := by
  obtain ⟨w, h, hsent⟩ := System.exists_of_runUnder (system userOptions)
    (AcceptsAlone userOptions)
    (fun w => (∃ c ∈ w.clients, c.remoteAddr = hostAddr 4 1 ∧ c.socksClient.passwordMessages ≠ [])
      ∧ ∃ c ∈ w.clients, c.remoteAddr = hostAddr 4 2 ∧ c.socksClient.passwordMessages ≠ [])
    ([acceptFrom 1 true] ++ handshake 0 ++ [acceptFrom 2 true] ++ handshake 1) (by decide)
  exact ⟨w, h, hsent.1, hsent.2, credentials_own userOptions _ rfl rfl h⟩

/-- **An accept replaces the username of a client that has still to send its own.** Client 0
is accepted, then client 1; when client 0 gets the server's hello, it sends the username of
client 1. If `BSocksClient_Init` fails for client 1, it reads a string that is freed. -/
theorem credentials_overwritten :
    (∃ w, (system userOptions).Reachable w ∧ ∃ c ∈ w.clients, c.remoteAddr = hostAddr 4 1 ∧
      ∃ m ∈ c.socksClient.passwordMessages,
        m.packet = passwordPacket (⟨[117], by decide⟩ ++
          (atSign ++ bAddrPrint userOptions.order (hostAddr 4 2))).chars userOptions.password ∧
        m.packet ≠ passwordPacket (⟨[117], by decide⟩ ++
          (atSign ++ bAddrPrint userOptions.order c.remoteAddr)).chars userOptions.password) ∧
    ∃ w, (system userOptions).Reachable w ∧ ∃ c ∈ w.clients,
      ∃ m ∈ c.socksClient.passwordMessages, m.usernameLive = false := by
  constructor
  · exact System.exists_of_run (system userOptions) _
      ([acceptFrom 1 true, acceptFrom 2 true] ++ handshake 0) (by decide)
  · exact System.exists_of_run (system userOptions) _
      ([acceptFrom 1 true, acceptFrom 2 false] ++ handshake 0) (by decide)

end Tun2Socks.Socks
