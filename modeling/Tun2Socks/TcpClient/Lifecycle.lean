import Tun2Socks.TcpClient.Safety

/-!
# The life of a TCP client

Either side of a client can go first, from inside a callback of the other. `lifecycle` says
what holds in every state any run reaches:

* a client that is allocated has one of three shapes (`Conn.Shape`), and none of them is
  closed on both sides;
* nothing is freed or released twice, and a client that is gone has had its `BSocksClient` freed
  and its pcb released, once each (`Conn.Accounts`);
* `tcp_clients` lists the clients that are allocated, and `num_clients` counts them;
* a callback has returned `ERR_ABRT` exactly when the program released the pcb in it;
* once the reactor has ended, murdering the clients that are listed leaves none.

That no client, pcb or `BSocksClient` is touched after it is gone, and that no assertion fails,
is `w.fault = none`.
-/

namespace Tun2Socks.TcpClient

open Framework

variable {P : Params} {w : World P} {c : Conn P}

/-- The three shapes of an allocated client between callbacks. -/
def Conn.Shape (c : Conn P) : Prop :=
  (c.client.clientClosed = false ∧ c.client.socksClosed = false) ∨
  (c.client.clientClosed = true ∧ c.client.socksClosed = false ∧ 0 < c.client.bufUsed) ∨
  (c.client.clientClosed = false ∧ c.client.socksClosed = true ∧ c.client.socksUp = true ∧
    (c.client.socksRecvBufUsed ≠ none ∨ 0 < c.client.socksRecvTcpPending))

/-- Nothing happens twice, and nothing is left of a client that is gone. -/
structure Conn.Accounts (c : Conn P) : Prop where
  allocs : c.allocs ≤ 1
  frees : c.frees ≤ c.allocs
  inits : c.socks.inits ≤ 1
  socksFrees : c.socks.frees ≤ c.socks.inits
  releases : c.pcb.releases.length ≤ 1
  gone : c.frees = c.allocs → c.socks.frees = c.socks.inits ∧ c.pcb.releases.length = 1

theorem ConnInv.shape (h : ConnInv c) (hlive : c.Live) : c.Shape := by
  have hsides := h.books.live_iff.mp hlive
  have hclient := h.settled.clientDown
  have hsocks := h.settled.socksDown
  cases hcl : c.client.clientClosed with
  | false =>
    cases hso : c.client.socksClosed with
    | false => exact .inl ⟨hcl, hso⟩
    | true => exact .inr (.inr ⟨hcl, hso, hsocks hso hcl⟩)
  | true =>
    -- with both sides closed it would have been freed
    have hso : c.client.socksClosed = false := hsides.resolve_left (by simp [hcl])
    exact .inr (.inl ⟨hcl, hso, hclient hcl hso⟩)

theorem ConnInv.accounts (h : ConnInv c) : c.Accounts where
  allocs := h.books.allocs.le
  frees := by
    rw [h.books.allocs, h.books.frees]
    exact Bool.toNat_le _
  inits := h.books.inits.le
  socksFrees := by
    rw [h.books.inits, h.books.socksFrees]
    exact Bool.toNat_le _
  releases := by
    rw [h.books.releases]
    exact Bool.toNat_le _
  gone := by
    intro hgone
    rw [h.books.allocs, h.books.frees, Bool.toNat_eq_one, Bool.and_eq_true] at hgone
    rw [h.books.inits, h.books.socksFrees, h.books.releases, hgone.1, hgone.2]
    exact ⟨rfl, rfl⟩

theorem RefusedInv.accounts (h : RefusedInv c) : c.Accounts where
  allocs := h.allocs
  frees := h.frees.le
  inits := by rw [h.socks]; exact Nat.zero_le _
  socksFrees := by rw [h.socks]; exact le_rfl
  releases := by rw [h.releases]; exact le_rfl
  gone := fun _ => by
    rw [h.socks, h.releases]
    exact ⟨rfl, rfl⟩

theorem WorldInv.accounts (h : WorldInv w) (hc : c ∈ w.conns) : c.Accounts := by
  obtain ⟨i, hi⟩ := List.mem_iff_getElem?.mp hc
  obtain hconn | hrefused := h.conns i c hi
  · exact hconn.accounts
  · exact hrefused.accounts

/-! ### The end -/

/-- **One murder takes one client off the list.** -/
theorem WorldInv.murder_step (h : WorldInv w) (hquit : w.quitting = true)
    (hsome : 0 < w.numClients) :
    ∃ w', next w .murder = some w' ∧ w'.quitting = true ∧ w'.numClients + 1 = w.numClients := by
  have hpos : 0 < w.tcpClients.length := h.count ▸ hsome
  obtain ⟨i, rest, hlist⟩ := List.exists_cons_of_length_pos hpos
  have hmem : i ∈ w.tcpClients := hlist ▸ List.mem_cons_self
  obtain ⟨c, hc, hlive⟩ := (h.listed i).mp hmem
  have hconn := (h.conns i c hc).resolve_right fun hrefused => hrefused.not_live hlive
  obtain ⟨⟨u, m⟩, hrun, hkept, hclient, hsocks⟩ :=
    clientMurder_spec (h.between hc hconn [] []).toKept hlive
  refine ⟨w.leaveHandler i (.ok (u, m)), ?_, hquit, ?_⟩
  · rw [next, if_pos ⟨h.fault, hquit⟩, hlist]
    change (w.conns[i]?).bind _ = _
    rw [show w.conns[i]? = some c from hc]
    change some (w.leaveHandler i _) = _
    rw [hrun]
  · -- the others are still listed, and this one is not
    change m.numClients + 1 = w.numClients
    have hlisted := hkept.listed
    have hfrees : m.frees ≠ 0 := by
      rw [hkept.books.frees, hclient, hsocks]
      exact one_ne_zero
    have hperm : m.tcpClients.Perm (w.tcpClients.erase i) := by
      rw [List.perm_ext_iff_of_nodup hlisted.nodup (h.nodup.erase i)]
      intro j
      by_cases hj : j = i
      · have hid : m.id = i := hlisted.id
        have hgone : i ∉ m.tcpClients := fun hin =>
          hfrees (hlisted.listed.mp (hid.symm ▸ hin))
        rw [hj]
        exact iff_of_false hgone h.nodup.not_mem_erase
      · rw [List.mem_erase_of_ne hj]
        exact hlisted.others j (hlisted.id ▸ hj)
    rw [hlisted.count, hperm.length_eq, List.length_erase_of_mem hmem, h.count]
    omega

/-- **The clean-up loop** ends with the list empty. -/
theorem WorldInv.murder_all (n : ℕ) (h : WorldInv w) (hquit : w.quitting = true)
    (hn : w.numClients = n) :
    ∃ w', (system P).run w (List.replicate n .murder) = some w' ∧ WorldInv w' ∧
      w'.tcpClients = [] := by
  -- by induction on the number of clients that are left
  induction n generalizing w with
  | zero =>
    refine ⟨w, rfl, h, List.length_eq_zero_iff.mp ?_⟩
    rw [← h.count, hn]
  | succ n ih =>
    obtain ⟨w', hnext, hquit', hcount⟩ := h.murder_step hquit (by omega)
    obtain ⟨w'', hrun, hend⟩ := ih (h.step hnext) hquit' (by omega)
    refine ⟨w'', ?_, hend⟩
    rw [List.replicate_succ, System.run_cons]
    change (next w .murder).bind _ = _
    rw [hnext]
    exact hrun

/-- A client that is not listed is gone. -/
theorem WorldInv.all_gone (h : WorldInv w) (hlist : w.tcpClients = []) (hc : c ∈ w.conns) :
    c.frees = c.allocs := by
  have haccounts := h.accounts hc
  obtain ⟨i, hi⟩ := List.mem_iff_getElem?.mp hc
  have hdead : ¬ c.Live := fun hlive => by
    have hmem := (h.listed i).mpr ⟨c, hi, hlive⟩
    rw [hlist] at hmem
    cases hmem
  have hallocs := haccounts.allocs
  have hfrees := haccounts.frees
  by_contra hne
  exact hdead ⟨by omega, by omega⟩

/-- **Every client lives once.** In every state any run reaches: no assertion has failed and
nothing was used after it was gone; every allocated client has one of its three shapes; no
client, `BSocksClient` or pcb goes twice, and a client that is gone has taken both others with
it; `tcp_clients` lists exactly the allocated clients and `num_clients` counts them; a
callback has returned `ERR_ABRT` exactly when the program released the pcb in it; and when the
reactor has ended, as many murders as there are clients free every client that was ever
allocated. -/
theorem lifecycle (h : (system P).Reachable w) :
    w.fault = none ∧
    (∀ c ∈ w.conns, c.Live → c.Shape) ∧
    (∀ c ∈ w.conns, c.Accounts) ∧
    w.tcpClients.Nodup ∧ (∀ i : ℕ, i ∈ w.tcpClients ↔ ∃ c ∈ w.conns[i]?, c.Live) ∧
    w.numClients = w.tcpClients.length ∧
    (∀ r ∈ w.returns, r.err = .abrt ↔ r.released = true) ∧
    (w.quitting = true → ∃ w', (system P).run w (List.replicate w.numClients .murder) = some w' ∧
      w'.fault = none ∧ ∀ c ∈ w'.conns, c.frees = c.allocs ∧ c.Accounts) := by
  have hinv := worldInv_of_reachable h
  refine ⟨hinv.fault, fun c hc hlive => (hinv.connInv hc hlive).shape hlive,
    fun c hc => hinv.accounts hc, hinv.nodup, hinv.listed, hinv.count,
    fun r hr => (hinv.returns r hr).abrt, fun hquit => ?_⟩
  obtain ⟨w', hrun, hinv', hlist⟩ := hinv.murder_all w.numClients hquit rfl
  exact ⟨w', hrun, hinv'.fault, fun c hc => ⟨hinv'.all_gone hlist hc, hinv'.accounts hc⟩⟩

/-- A client that has closed its side with a byte left for SOCKS. -/
theorem lifecycle_half_closed : ∃ w, (system small).Reachable w ∧
    (∃ c ∈ w.conns, c.Live ∧ c.client.clientClosed = true) ∧
    ∀ c ∈ w.conns, c.Live → c.Shape := by
  obtain ⟨w, h, hc⟩ := System.exists_of_run (system small)
    (fun w => ∃ c ∈ w.conns, c.Live ∧ c.client.clientClosed = true)
    [.accept goodAccept [] [], .socks 0 .up [], .recv 0 (some [1]) [] [], .recv 0 none [] []]
    (by decide)
  exact ⟨w, h, hc, (lifecycle h).2.1⟩

end Tun2Socks.TcpClient
