import FdfiToken.Oft.Reference

/-!
# Peer addresses

An account for a peer can be created by any configuration, and its address is all zero until
one is set. Messages go to, and are accepted from, exactly the address the account holds.
-/

namespace FdfiToken

open Word Fallible Runs

/-- The address held for `eid`, all zero as long as none was set. -/
def World.peerAddress (w : World) (eid : U32) : Bytes32 :=
  ((w.peers eid).map (·.peerAddress)).getD (Bytes32.fill 0)

/-- The address an event sets for `eid`. -/
def Event.peerAddress (eid : U32) : Event → Option Bytes32
  | .executed _ (.setPeerConfig _ params) _ =>
    match params.config with
    | .peerAddress address => if params.remoteEid = eid then some address else none
    | _ => none
  | _ => none

/-- A successful configuration of `eid`, of whatever kind. -/
def Event.configures (eid : U32) : Event → Bool
  | .executed _ (.setPeerConfig _ params) _ => params.remoteEid = eid
  | _ => false

/-- The address last set for `eid`, all zero if none was. -/
def lastPeerAddress (eid : U32) (events : List Event) : Bytes32 :=
  ((events.filterMap (Event.peerAddress eid)).getLast?).getD (Bytes32.fill 0)

section Steps

variable {rt : Runtime} {w w' : World} {e : Event} {eid : U32}

private theorem setPeer_address (w : World) (eid eid' : U32) (peer : PeerConfig) :
    (w.setPeer eid' peer).peerAddress eid =
      if eid' = eid then peer.peerAddress else w.peerAddress eid := by
  by_cases heid : eid' = eid
  · rw [if_pos heid, heid, World.peerAddress, World.setPeer_peers, Function.update_self]
    rfl
  · rw [if_neg heid, World.peerAddress, World.setPeer_peers, Function.update_of_ne (Ne.symm heid),
      World.peerAddress]

private theorem setPeer_exists (w : World) (eid eid' : U32) (peer : PeerConfig) :
    ((w.setPeer eid' peer).peers eid).isSome = (decide (eid' = eid) || (w.peers eid).isSome) := by
  by_cases heid : eid' = eid
  · rw [heid, World.setPeer_peers, Function.update_self]
    simp
  · rw [World.setPeer_peers, Function.update_of_ne (Ne.symm heid)]
    simp [heid]

/-- Transfers keep the address of the peer they use. -/
private theorem setPeer_same {peer peer' : PeerConfig} {eid' : U32} {v : World}
    (hpeers : v.peers = w.peers) (hold : w.peers eid' = some peer)
    (haddress : peer'.peerAddress = peer.peerAddress) :
    (v.setPeer eid' peer').peerAddress eid = w.peerAddress eid ∧
      ((v.setPeer eid' peer').peers eid).isSome = (w.peers eid).isSome := by
  rw [setPeer_address, setPeer_exists, World.peerAddress, World.peerAddress, hpeers]
  by_cases heid : eid' = eid
  · subst heid
    simp [hold, haddress]
  · simp [heid]

theorem Step.peer (h : Step rt w e w') (eid : U32) :
    w'.peerAddress eid = (e.peerAddress eid).getD (w.peerAddress eid) ∧
      (w'.peers eid).isSome = (e.configures eid || (w.peers eid).isSome) := by
  have hsame (hpeers : w'.peers = w.peers) :
      w'.peerAddress eid = w.peerAddress eid ∧ (w'.peers eid).isSome = (w.peers eid).isSome := by
    rw [World.peerAddress, World.peerAddress, hpeers]
    exact ⟨rfl, rfl⟩
  cases h with
  | failed _ => exact hsame rfl
  | external _ => exact hsame rfl
  | executed _ hrun =>
    cases execute_executed hrun with
    | setOftConfig ep run => exact hsame (by rw [(SetOFTConfig.reconfigured run).eq])
    | setPause run => exact hsame (by rw [(SetPause.reconfigured run).eq])
    | withdrawFee run => exact hsame (by rw [(WithdrawFee.apply_eq_ok run).2.2.1])
    | send sent =>
      obtain ⟨outbound, -, heq⟩ := sent.limited
      rw [heq]
      exact setPeer_same rfl sent.peer_eq rfl
    | lzReceive _ received =>
      obtain ⟨inbound, -, heq⟩ := received.limited
      rw [heq]
      exact setPeer_same rfl received.peer_eq rfl
    | @setPeerConfig admin params run =>
      obtain ⟨-, peer, hconf, heq⟩ := SetPeerConfig.apply_eq_ok run
      rw [heq, setPeer_address, setPeer_exists]
      refine ⟨?_, rfl⟩
      have hold : ((w.peers params.remoteEid).getD PeerConfig.default).peerAddress =
          w.peerAddress params.remoteEid := by
        rw [World.peerAddress]
        cases w.peers params.remoteEid <;> rfl
      obtain ⟨hset, -⟩ := PeerConfig.configure_eq_ok hconf
      change (if _ then peer.peerAddress else _) = _
      obtain ⟨remoteEid, config⟩ := params
      by_cases heid : remoteEid = eid
      · subst heid
        rw [if_pos rfl, hset]
        cases config with
        | peerAddress address => simp [PeerConfigParam.set, Event.peerAddress]
        | _ => exact hold
      · rw [if_neg heid]
        cases config with
        | peerAddress address => simp [Event.peerAddress, heid]
        | _ => rfl

private theorem run_peer {events : List Event} (h : Run (Step rt) w events w') (eid : U32) :
    w'.peerAddress eid =
        ((events.filterMap (Event.peerAddress eid)).getLast?).getD (w.peerAddress eid) ∧
      (w'.peers eid).isSome = (events.any (Event.configures eid) || (w.peers eid).isSome) := by
  constructor
  · exact h.last_written (μ := fun w : World => w.peerAddress eid)
      fun _ _ _ hstep => (hstep.peer eid).1
  · exact h.once_raised (μ := fun w : World => (w.peers eid).isSome)
      fun _ _ _ hstep => (hstep.peer eid).2

end Steps

section Reachable

variable {rt : Runtime} {sd : U8} {events : List Event} {w : World}

/-- What a reachable store knows of a peer is the history of its configurations. -/
theorem Reaches.peer (h : Reaches rt sd events w) (eid : U32) :
    w.peerAddress eid = lastPeerAddress eid events ∧
      (w.peers eid).isSome = events.any (Event.configures eid) := by
  obtain ⟨w₀, hgen, hrun⟩ := h
  obtain ⟨haddress, hexists⟩ := run_peer hrun eid
  have hfresh := hgen.fresh.2.2 eid
  have hzero : w₀.peerAddress eid = Bytes32.fill 0 := by
    rw [World.peerAddress, hfresh]
    rfl
  rw [hzero] at haddress
  rw [hfresh] at hexists
  exact ⟨haddress, by simpa using hexists⟩

theorem Reaches.peer_eq (h : Reaches rt sd events w) {eid : U32} {peer : PeerConfig}
    (hpeer : w.peers eid = some peer) :
    peer.peerAddress = lastPeerAddress eid events ∧ events.any (Event.configures eid) = true := by
  have hhistory := h.peer eid
  rw [World.peerAddress, hpeer] at hhistory
  exact ⟨hhistory.1, hhistory.2.symm⟩

/-- Every message handed to the endpoint is addressed to the address last set for its
destination, and a message is accepted only from the address last set for its source; both are
all zero as long as none was set. Without any configuration nothing is sent or accepted. -/
theorem messages_follow_peer (h : Reaches rt sd events w) (eid : U32) :
    (∀ ep clock accs params w' out, params.dstEid = eid →
        Send.apply rt ep clock accs params w = .ok (w', out) →
        out.endpointCall.dstEid = eid ∧
          out.endpointCall.receiver = lastPeerAddress eid events) ∧
      (∀ ep clock metas params w' out, params.srcEid = eid →
        LzReceive.apply rt ep clock metas params w = .ok (w', out) →
        params.sender = lastPeerAddress eid events) ∧
      (events.any (Event.configures eid) = false →
        (∀ ep clock accs params r, params.dstEid = eid →
          Send.apply rt ep clock accs params w ≠ .ok r) ∧
        ∀ ep clock metas params r, params.srcEid = eid →
          LzReceive.apply rt ep clock metas params w ≠ .ok r) := by
  refine ⟨?_, ?_, fun hnone => ⟨?_, ?_⟩⟩
  · intro ep clock accs params w' out heid hrun
    obtain ⟨peer, hsent⟩ := Send.apply_sent hrun
    subst heid
    exact ⟨hsent.dstEid, hsent.receiver.trans (h.peer_eq hsent.peer_eq).1⟩
  · intro ep clock metas params w' out heid hrun
    obtain ⟨a, peer, -, hreceived⟩ := LzReceive.apply_received hrun
    subst heid
    exact hreceived.sender.symm.trans (h.peer_eq hreceived.peer_eq).1
  · intro ep clock accs params r heid hrun
    obtain ⟨peer, hsent⟩ := Send.apply_sent hrun
    subst heid
    rw [(h.peer_eq hsent.peer_eq).2] at hnone
    cases hnone
  · intro ep clock metas params r heid hrun
    obtain ⟨a, peer, -, hreceived⟩ := LzReceive.apply_received hrun
    subst heid
    rw [(h.peer_eq hreceived.peer_eq).2] at hnone
    cases hnone

end Reachable

namespace Reference

def feeOnlyRun : World × List Event :=
  replay runtime endpoint adapterStore [setPeer (clockAt 10) 7 (.feeBps (some 25))]

private theorem feeOnlyRun_reaches : Reaches runtime 6 feeOnlyRun.2 feeOnlyRun.1 :=
  adapter.replay_reaches adapter_init _ (by decide)

def sendToUnset : Result (World × SendOutcome) :=
  Send.apply runtime endpoint (clockAt 20) ⟨user, userTokens, [admin, storeKey]⟩
    ⟨7, Bytes32.fill 33, 2000000, 0, [], none, 5000, 0⟩ feeOnlyRun.1

def zeroArrival : LzReceiveParams := arrival 7 (Bytes32.fill 0) (Bytes32.fill 34) 500

def receiveFromUnset (w : World) : Result (World × LzReceiveOutcome) :=
  LzReceive.apply runtime endpoint (clockAt 30)
    ((LzReceiveTypes.apply runtime (clockAt 30) zeroArrival w).toOption.getD []) zeroArrival w

private theorem sendToUnset_ok : sendToUnset.isOk = true := by decide

def worldAfterSend : World := (value sendToUnset sendToUnset_ok).1

private theorem receiveFromUnset_ok : (receiveFromUnset worldAfterSend).isOk = true := by decide

/-- A peer whose address was never set is not inert: a send locks the sender's tokens and hands
the endpoint a message to the all-zero address, and a message from that address is accepted. -/
theorem unset_peer_not_inert :
    Reaches runtime 6 feeOnlyRun.2 feeOnlyRun.1 ∧
      (∀ e ∈ feeOnlyRun.2, e.peerAddress 7 = none) ∧ feeOnlyRun.1.tvl = 0 ∧
      (∃ out, sendToUnset = .ok (worldAfterSend, out) ∧
        out.endpointCall.receiver = Bytes32.fill 0) ∧
      worldAfterSend.tvl = 1991000 ∧
      ∃ w out, receiveFromUnset worldAfterSend = .ok (w, out) ∧ w.tvl = 1491000 :=
  ⟨feeOnlyRun_reaches, by decide, by decide,
    ⟨(value sendToUnset sendToUnset_ok).2, eq_ok_value _ sendToUnset_ok, by decide⟩,
    by decide, (value _ receiveFromUnset_ok).1, (value _ receiveFromUnset_ok).2,
    eq_ok_value _ receiveFromUnset_ok, by decide⟩

def readdressedRun : World × List Event :=
  replay runtime endpoint adapterStore [
    setPeer (clockAt 10) 7 (.peerAddress (Bytes32.fill 76)),
    setPeer (clockAt 11) 7 (.peerAddress (Bytes32.fill 77))]

def sendToReaddressed : Result (World × SendOutcome) :=
  Send.apply runtime endpoint (clockAt 20) ⟨user, userTokens, [admin, storeKey]⟩
    ⟨7, Bytes32.fill 33, 2000000, 0, [], none, 5000, 0⟩ readdressedRun.1

private theorem sendToReaddressed_ok : sendToReaddressed.isOk = true := by decide

theorem messages_follow_peer_sample :
    (value sendToReaddressed sendToReaddressed_ok).2.endpointCall.receiver = Bytes32.fill 77 := by
  have hreach : Reaches runtime 6 readdressedRun.2 readdressedRun.1 :=
    adapter.replay_reaches adapter_init _ (by decide)
  have hreceiver := ((messages_follow_peer hreach 7).1 _ _ _ _ _ _ rfl
    (eq_ok_value sendToReaddressed sendToReaddressed_ok)).2
  have hlast : lastPeerAddress 7 readdressedRun.2 = Bytes32.fill 77 := by decide
  exact hreceiver.trans hlast

end Reference

end FdfiToken
