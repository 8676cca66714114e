import Tun2Socks.Dns.Routing

/-!
# Packets that are declined

`process_device_udp_packet` returns 0 for a packet that it does not handle, and then
`device_read_handler_send` hands the packet to lwIP. It should have done nothing with it by then;
and a DNS query for which it returns 1 should have gone to the relay as a whole, with its sender
stored under its id (`Honest`).

A query is sent first. After that the function still returns 0, if fewer bytes were sent than the
payload has or if the sender cannot be stored. What was sent is compared with the length of the
payload, not of the request, so a query is also taken for sent if a part of it was, and an empty one
if the send has failed.

`honest_iff` says for which packets and outcomes all is well: those of a query that is `Clean`.
-/

namespace Tun2Socks.Dns

open Framework Net Structure

variable {config : Config} {r : Outcome} {data : List Byte} {dataLen : ℕ} {s : State}

/-- Nothing was sent, stored or submitted. -/
structure Untouched (s s' : State) : Prop where
  sent : s'.sent = s.sent
  map : s'.map = s.map
  submitted : s'.submitted = s.submitted

/-- The whole request was sent, and the sender is stored under the id of the query. -/
structure Forwarded (config : Config) (datagram : Datagram) (s s' : State) : Prop where
  sent : s'.sent = s.sent ++ [socksUdpRequest datagram]
  stored : s'.map.bStringMapGet (dnsGetHeaderIdStr config.order datagram.data) =
    some (bAddrPrint config.order datagram.localAddr)

/-- A packet for which 0 is returned is untouched, and a query for which 1 is returned is
forwarded. -/
def Honest (config : Config) (r : Outcome) (data : List Byte) (dataLen : ℕ) (s : State) : Prop :=
  ((processDeviceUdpPacket config r data dataLen s).1 = false →
    Untouched s (processDeviceUdpPacket config r data dataLen s).2) ∧
  ((processDeviceUdpPacket config r data dataLen s).1 = true →
    ∀ datagram, dnsQuery config data dataLen = some datagram →
      Forwarded config datagram s (processDeviceUdpPacket config r data dataLen s).2)

/-- Either the send fails, for a payload that is not empty or with no memory to store the sender; or
all of the request is sent and there is memory. -/
def Clean (r : Outcome) (datagram : Datagram) : Prop :=
  match r.send with
  | none => 0 < datagram.dataLen ∨ ¬ r.mallocs.Succeed
  | some n => (socksUdpRequest datagram).length ≤ n ∧ r.mallocs.Succeed

theorem fst_forwardDns (config : Config) (r : Outcome) (datagram : Datagram) (s : State) :
    (forwardDns config r datagram s).1 = true ↔
      datagram.dataLen ≤ r.send.getD 0 ∧ r.mallocs.Succeed := by
  unfold forwardDns
  dsimp only
  rw [udpSend_fst]
  split_ifs with hsend
  · exact iff_of_false id fun h => absurd h.1 (not_le.mpr hsend)
  · rw [and_iff_right (not_lt.mp hsend)]
    by_cases hmallocs : r.mallocs.Succeed
    · exact iff_of_true (StringMap.fst_set_of_succeed _ _ hmallocs) hmallocs
    · rw [StringMap.set_of_not_succeed _ _ hmallocs]
      exact iff_of_false Bool.false_ne_true hmallocs

/-- What a query has sent by the time the function returns. -/
theorem sent_forwardDns (config : Config) (r : Outcome) (datagram : Datagram) (s : State) :
    (forwardDns config r datagram s).2.sent =
      s.sent ++ (r.send.map fun n => (socksUdpRequest datagram).take n).toList := by
  have hsent : (udpSend r.send (socksUdpRequest datagram) s).2.sent =
      s.sent ++ (r.send.map fun n => (socksUdpRequest datagram).take n).toList := by
    cases r.send with
    | none => exact (List.append_nil _).symm
    | some => rfl
  unfold forwardDns
  dsimp only
  split_ifs
  · exact hsent
  · exact hsent

theorem submitted_forwardDns (config : Config) (r : Outcome) (datagram : Datagram) (s : State) :
    (forwardDns config r datagram s).2.submitted = s.submitted := by
  have hsubmitted : (udpSend r.send (socksUdpRequest datagram) s).2.submitted = s.submitted := by
    cases r.send <;> rfl
  unfold forwardDns
  dsimp only
  split_ifs
  · exact hsubmitted
  · exact hsubmitted

/-- A packet that is not a query is untouched if 0 is returned. -/
theorem untouched_of_dnsQuery_eq_none (h : dnsQuery config data dataLen = none)
    (hdeclined : (processDeviceUdpPacket config r data dataLen s).1 = false) :
    Untouched s (processDeviceUdpPacket config r data dataLen s).2 := by
  unfold processDeviceUdpPacket at hdeclined ⊢
  cases hparse : parseDeviceUdpPacket config data dataLen with
  | none => exact ⟨rfl, rfl, rfl⟩
  | some =>
    rw [hparse] at hdeclined
    rw [dnsQuery, hparse, Option.filter_some_eq_none] at h
    dsimp only at hdeclined
    rw [if_neg (by simpa using h)] at hdeclined
    split_ifs at hdeclined

/-- A query that is clean: 0 is returned and it is untouched, or 1 and it is forwarded. -/
theorem Clean.honest {datagram : Datagram} (h : Clean r datagram) (config : Config) (s : State) :
    ((forwardDns config r datagram s).1 = false →
      Untouched s (forwardDns config r datagram s).2) ∧
    ((forwardDns config r datagram s).1 = true →
      Forwarded config datagram s (forwardDns config r datagram s).2) := by
  have hfst := fst_forwardDns config r datagram s
  have hsent := sent_forwardDns config r datagram s
  unfold Clean at h
  cases hsend : r.send with
  | none =>
    rw [hsend, Option.getD_none] at hfst
    rw [hsend, Option.map_none, Option.toList_none, List.append_nil] at hsent
    rw [hsend] at h
    constructor
    · intro _
      refine ⟨hsent, ?_, submitted_forwardDns config r datagram s⟩
      by_cases hmallocs : r.mallocs.Succeed
      · have hstop : (udpSend r.send (socksUdpRequest datagram) s).1 < datagram.dataLen := by
          rw [udpSend_fst, hsend]
          exact h.resolve_right (not_not_intro hmallocs)
        unfold forwardDns
        dsimp only
        rw [if_pos hstop]
        exact map_udpSend _ _
      · exact map_forwardDns datagram hmallocs
    · intro htrue
      obtain ⟨hlen, hmallocs⟩ := hfst.mp htrue
      obtain hpos | hfails := h
      · omega
      · exact absurd hmallocs hfails
  | some =>
    rw [hsend] at h
    obtain ⟨hall, hmallocs⟩ := h
    have hlen : datagram.dataLen ≤ r.send.getD 0 := by
      rw [hsend, Option.getD_some]
      exact (dataLen_le_length_request datagram).trans hall
    have htrue := hfst.mpr ⟨hlen, hmallocs⟩
    refine ⟨fun hfalse => absurd (htrue.symm.trans hfalse) Bool.noConfusion, fun _ => ?_⟩
    constructor
    · rw [hsent, hsend, Option.map_some, Option.toList_some, List.take_of_length_le hall]
    · rw [get_forwardDns datagram hmallocs, if_pos ⟨hlen, rfl⟩]

/-- A query that is not clean: 0 is returned after something was sent, or 1 after less than all. -/
theorem clean_of_honest {datagram : Datagram}
    (hfalse : (forwardDns config r datagram s).1 = false →
      Untouched s (forwardDns config r datagram s).2)
    (htrue : (forwardDns config r datagram s).1 = true →
      Forwarded config datagram s (forwardDns config r datagram s).2) : Clean r datagram := by
  have hfst := fst_forwardDns config r datagram s
  have hsent := sent_forwardDns config r datagram s
  unfold Clean
  cases hsend : r.send with
  | none =>
    rw [hsend, Option.getD_none] at hfst
    rw [hsend, Option.map_none, Option.toList_none, List.append_nil] at hsent
    dsimp only
    by_contra hnot
    push Not at hnot
    obtain ⟨hempty, hmallocs⟩ := hnot
    have hall := (htrue (hfst.mpr ⟨hempty, hmallocs⟩)).sent
    rw [hsent, List.self_eq_append_right] at hall
    exact List.cons_ne_nil _ _ hall
  | some =>
    rw [hsend, Option.map_some, Option.toList_some] at hsent
    dsimp only
    -- something was sent, so 1 must have been returned
    have hok : (forwardDns config r datagram s).1 = true := by
      by_contra hnot
      have hnone := (hfalse (Bool.eq_false_of_not_eq_true hnot)).sent
      rw [hsent, List.append_right_eq_self] at hnone
      exact List.cons_ne_nil _ _ hnone
    have hall := (htrue hok).sent
    rw [hsent, List.append_cancel_left_eq, List.singleton_inj, List.take_eq_self_iff] at hall
    exact ⟨hall, (hfst.mp hok).2⟩

/-- **When a packet that is declined is untouched, and a query that is accepted is forwarded**: for
every packet that is not a query, and for the queries that are clean. -/
theorem honest_iff (config : Config) (r : Outcome) (data : List Byte) (dataLen : ℕ) (s : State) :
    Honest config r data dataLen s ↔
      ∀ datagram, dnsQuery config data dataLen = some datagram → Clean r datagram := by
  unfold Honest
  cases hquery : dnsQuery config data dataLen with
  | none => exact iff_of_true ⟨untouched_of_dnsQuery_eq_none hquery, fun _ => nofun⟩ nofun
  | some datagram =>
    rw [process_of_dnsQuery hquery]
    constructor
    · rintro ⟨hfalse, htrue⟩ datagram' heq
      obtain rfl := Option.some.inj heq
      exact clean_of_honest hfalse fun hok => htrue hok datagram rfl
    · intro hclean
      obtain ⟨hfalse, htrue⟩ := (hclean datagram rfl).honest config s
      refine ⟨hfalse, fun hok datagram' heq => ?_⟩
      obtain rfl := Option.some.inj heq
      exact htrue hok

/-- The query of the example is sent, there is no memory to store its sender, and it is declined;
and if 12 of the 22 bytes of the request are sent, it is accepted. -/
theorem declined_after_send :
    ¬ Honest exampleConfig ⟨some 22, ⟨false, true, true⟩⟩ (examplePacket ⟨19, 137⟩ ⟨208, 238⟩ ⟨0, 7⟩)
      40 ⟨.empty, [], [], []⟩ ∧
    ¬ Honest exampleConfig ⟨some 12, ⟨true, true, true⟩⟩ (examplePacket ⟨19, 137⟩ ⟨208, 238⟩ ⟨0, 7⟩)
      40 ⟨.empty, [], [], []⟩ := by
  constructor
  · rintro ⟨hfalse, -⟩
    exact absurd (hfalse (by decide +kernel)).sent (by decide +kernel)
  · rintro ⟨-, htrue⟩
    have hquery : (dnsQuery exampleConfig (examplePacket ⟨19, 137⟩ ⟨208, 238⟩ ⟨0, 7⟩) 40).isSome =
        true := by
      decide +kernel
    exact absurd (htrue (by decide +kernel) _ (Option.some_get hquery).symm).sent
      (by decide +kernel +revert)

end Tun2Socks.Dns
