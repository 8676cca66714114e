import Tun2Socks.TcpClient.Safety

/-!
# Who frees a received pbuf

lwIP hands a pbuf to `client_recv_func` and takes it back only if the answer is an error other
than `ERR_ABRT`. The function frees the pbuf at its end, after the `SYNC_COMMIT` that follows
the start of a send; when `DEAD_KILLED` is set there it returns `ERR_ABRT` at once, and the
pbuf stays behind.

`pbuf_discharged_iff` says for every state and every pbuf that the rule is met exactly when the
jobs of that `SYNC_COMMIT`, if it is reached, leave the pcb in place.
-/

namespace Tun2Socks.TcpClient

open Framework

variable {P : Params} {w : World P} {i : ℕ} {c : Conn P}

/-- The rule: freed once with `ERR_OK` and `ERR_ABRT`, not freed with `ERR_MEM`. -/
def PbufDischarged (err : ErrT) (frees : ℕ) : Prop :=
  (err = .ok ∨ err = .abrt → frees = 1) ∧ (err = .mem → frees = 0)

instance (err : ErrT) (frees : ℕ) : Decidable (PbufDischarged err frees) := by
  unfold PbufDischarged
  infer_instance

/-- lwIP keeps the pbuf as `refused_data`. -/
def PbufRefused (err : ErrT) : Prop := err ≠ .ok ∧ err ≠ .abrt

/-- The jobs that `client_recv_func` runs in its `SYNC_COMMIT`, if it gets there with `p`, leave
the pcb in place. -/
def Machine.JobsSpare (m : Machine P) (p : List Byte) : Prop :=
  ∀ hwnd : m.client.bufUsed + p.length ≤ P.tcpWnd,
    m.client.bufUsed = 0 → m.client.socksUp = true →
      wp (runJobs m.jobs) (fun _ m' => m'.pcb.releases = []) (m.recvCommit p hwnd).atCommit

/-- The end of a callback that has room, seen from the pbuf. -/
theorem RecvEnd.discharged_iff {x : Context} {m : Machine P} {killed : Bool} {err : ErrT}
    (h : RecvEnd x killed err m) (hnone : x.pbufFrees = 0) :
    (PbufDischarged err m.pbufFrees ↔ killed = false) ∧
      ((m.pbufFrees = 0 → PbufRefused err) ↔ killed = false) := by
  cases killed with
  | true =>
    -- `ERR_ABRT` with the pbuf still there: lwIP does not take it back
    obtain ⟨rfl, hbetween, -⟩ := h
    rw [hbetween.pbufFrees, hnone]
    simp [PbufDischarged, PbufRefused]
  | false =>
    obtain ⟨rfl, hbetween, -⟩ := h
    rw [hbetween.pbufFrees, Context.freed, hnone]
    simp [PbufDischarged]

/-- What the jobs leave of the pcb is what `DEAD_KILLED` says. -/
theorem runJobs_spare_iff {x : Context} {m : Machine P} {p : List Byte}
    {hwnd : m.client.bufUsed + p.length ≤ P.tcpWnd}
    (h : Between x (m.recvCommit p hwnd).atCommit) (hzero : m.client.bufUsed = 0)
    (hup : m.client.socksUp = true) :
    wp (runJobs m.jobs) (fun _ m' => m'.client.clientClosed = false ↔ m.JobsSpare p)
      (m.recvCommit p hwnd).atCommit := by
  obtain ⟨r, hrun, hr⟩ : wp (runJobs m.jobs) (fun _ => Between x) _ := runJobs_spec h
  refine ⟨r, hrun, ?_⟩
  have hspare : m.JobsSpare p ↔ r.2.pcb.releases = [] :=
    ⟨fun hall => (wp_iff_of_run hrun).mp (hall hwnd hzero hup),
      fun hheld _ _ _ => (wp_iff_of_run hrun).mpr hheld⟩
  change r.2.client.clientClosed = false ↔ m.JobsSpare p
  rw [hspare, ← Bool.not_eq_true, ← hr.books.released_iff, not_not]

/-- **The pbuf is discharged exactly when the jobs spare the pcb.** For every reachable state,
every connection lwIP can deliver to, every pbuf and every choice of lwIP and of the jobs, the
callback returns; it has met the rule, and no pbuf is left that neither lwIP nor the program
holds, exactly when the jobs it ran in `SYNC_COMMIT` did not release the pcb. -/
theorem pbuf_discharged_iff {p : List Byte} {replies : List Reply} {jobs : List SocksEvent}
    (h : (system P).Reachable w) (hc : w.conns[i]? = some c) (hheld : c.pcb.releases = [])
    (hfn : c.pcb.recvFn = true) (hpos : 0 < p.length) :
    ∃ err m', (clientRecvFunc (some p)).run (w.machine i c replies jobs) = .ok (err, m') ∧
      (PbufDischarged err m'.pbufFrees ↔ (w.machine i c replies jobs).JobsSpare p) ∧
      ((m'.pbufFrees = 0 → PbufRefused err) ↔ (w.machine i c replies jobs).JobsSpare p) := by
  have hinv := worldInv_of_reachable h
  obtain ⟨hconn, hopen⟩ := hinv.opened hc hheld
  have hsocks := hconn.settled.socks_open hopen hfn
  have hbetween := hinv.between hc hconn replies jobs
  by_cases hwnd : c.client.bufUsed + p.length ≤ P.tcpWnd
  · -- with room, everything depends on whether `DEAD_KILLED` is set after the jobs, if any
    obtain ⟨⟨err, m'⟩, hrun, killed, hkilled, hend⟩ := clientRecvFunc_some
      (S := fun killed => killed = false ↔ (w.machine i c replies jobs).JobsSpare p)
      hbetween rfl hopen hsocks hpos hwnd
      (fun hwait => iff_of_true rfl fun _ hzero hup => absurd ⟨hzero, hup⟩ hwait)
      (fun hzero hup => runJobs_spare_iff ((hbetween.recvCommit hwnd hpos hsocks hzero
        hup).atCommit hopen rfl) hzero hup)
    obtain ⟨hdischarged, hrefused⟩ := hend.discharged_iff rfl
    exact ⟨err, m', hrun, hdischarged.trans hkilled, hrefused.trans hkilled⟩
  · -- no room: lwIP gets the pbuf back
    have hlive : (w.machine i c replies jobs).Live := hconn.books.live_iff.mpr (Or.inl hopen)
    have hfull : wp (clientRecvFunc (some p)) (fun err m' => err = .mem ∧ m'.pbufFrees = 0)
        (w.machine i c replies jobs) := by
      simp only [clientRecvFunc, wp_bind, wp_client, wp_assert, wp_ite, wp_pure]
      refine ⟨hlive, hopen, hpos, ?_⟩
      rw [if_pos (by change P.tcpWnd - c.client.bufUsed < p.length; omega)]
      exact ⟨trivial, rfl⟩
    obtain ⟨⟨err, m'⟩, hrun, rfl, hfrees⟩ := hfull
    have hspare : (w.machine i c replies jobs).JobsSpare p := fun hfits => absurd hfits hwnd
    refine ⟨.mem, m', hrun, iff_of_true ⟨by simp, fun _ => hfrees⟩ hspare, ?_⟩
    exact iff_of_true (fun _ => ⟨by simp, by simp⟩) hspare

/-- The callback at a state where it starts a send and no job runs. -/
theorem pbuf_discharged_iff_quiet : ∃ w, (system small).Reachable w ∧
    ∃ c, w.conns[0]? = some c ∧ c.client.socksUp = true ∧
      ∃ err m', (clientRecvFunc (some [1])).run (w.machine 0 c [] []) = .ok (err, m') ∧
        (PbufDischarged err m'.pbufFrees ↔ (w.machine 0 c [] []).JobsSpare [1]) := by
  obtain ⟨w, h, c, hc, hup, hheld, hfn⟩ := System.exists_of_run (system small)
    (fun w => ∃ c ∈ w.conns[0]?, c.client.socksUp = true ∧ c.pcb.releases = [] ∧
      c.pcb.recvFn = true)
    [.accept goodAccept [] [], .socks 0 .up []] (by decide)
  obtain ⟨err, m', hrun, hiff, -⟩ := pbuf_discharged_iff (p := [1]) h hc hheld hfn (by simp)
  exact ⟨w, h, c, hc, hup, err, m', hrun, hiff⟩

/-- SOCKS fails in the `SYNC_COMMIT` of a callback that has just started a send: the callback
returns `ERR_ABRT`, and the pbuf is not freed. -/
theorem pbuf_counterexample : ∃ w, (system small).Reachable w ∧
    ∃ c ∈ w.conns, ∃ r ∈ w.returns.getLast?, r.callback = .recv ∧
      ¬ PbufDischarged r.err c.pbufFrees :=
  System.exists_of_run (system small) _
    [.accept goodAccept [] [], .socks 0 .up [], .recv 0 (some [1]) [] [.error]] (by decide)

end Tun2Socks.TcpClient
