import FdfiToken.Lib.LockIssue
import FdfiToken.Mesh.Network
import Mathlib.Algebra.BigOperators.Ring.List

/-!
# Conservation across chains

In shared decimals a network is a lock-and-issue bridge: sends are departures, receives are
arrivals, and nothing else moves value between stores. Both unit conversions are exact, so the
adapter's total locked is what is in flight or issued by the native stores.
-/

namespace FdfiToken

open Word Fallible Runs LockIssue

private theorem messageAmountSd_encode (toAddress : Bytes32) (amountSd : U64) (sender : Pubkey)
    (composeMsg : Option Bytes) :
    messageAmountSd (MsgCodec.encode toAddress amountSd sender composeMsg) = amountSd.toNat := by
  rw [messageAmountSd, MsgCodec.amountSd_encode]

section Store

variable {rt : Runtime} {sd : U8} {w w' : World} {clock : Clock}

theorem Send.Sent.units {accs : SendAccounts} {params : SendParams} {peer : PeerConfig}
    {out : SendOutcome} (h : Send.Sent rt clock accs params peer w w' out) :
    out.oftReceipt.amountReceivedLd.toNat =
      messageAmountSd out.endpointCall.message * w.oftStore.rate := by
  obtain ⟨amountSd, hsd, hmessage⟩ := h.message
  have hdiv := (OFTStore.ld2sd_eq_ok.mp hsd).2
  rw [hmessage, Send.messageOf, messageAmountSd_encode, hdiv,
    Nat.div_mul_cancel h.split.dvd_received]

theorem LzReceive.Received.units {a : LzReceiveAccounts} {params : LzReceiveParams}
    {peer : PeerConfig} {out : LzReceiveOutcome}
    (h : LzReceive.Received rt clock a params peer w w' out) :
    out.amountLd.toNat = messageAmountSd params.message * w.oftStore.rate := by
  obtain ⟨amountSd, hsd, hld⟩ := h.amount
  rw [messageAmountSd, hsd, OFTStore.sd2ld_eq_ok.mp hld]

end Store

section Bridge

variable {ι : Type} [DecidableEq ι] {net : Network ι} {m m' : Mesh ι} {l : ι × Event}

def transferOf : ι × Event → Option (Transfer ι)
  | (i, .executed _ (.send _ _) (.sent out)) =>
    some (.depart i (messageAmountSd out.endpointCall.message))
  | (i, .executed _ (.lzReceive _ params) (.received _)) =>
    some (.arrive i (messageAmountSd params.message))
  | _ => none

omit [DecidableEq ι] in
theorem transferOf_quiet {i : ι} {e : Event} (h : e.isTransfer = false) :
    transferOf (i, e) = none ∧ e.sentLd = 0 ∧ e.receivedLd = 0 := by
  cases e with
  | executed clock instruction outcome =>
    cases instruction with
    | send accs params =>
      cases outcome with
      | sent out => cases h
      | _ => exact ⟨rfl, rfl, rfl⟩
    | lzReceive metas params =>
      cases outcome with
      | received out => cases h
      | _ => exact ⟨rfl, rfl, rfl⟩
    | _ => exact ⟨rfl, rfl, rfl⟩
  | _ => exact ⟨rfl, rfl, rfl⟩

/-- The network and the books of a bridge: the hub locks in its own units. -/
structure Network.Refines (net : Network ι) (m : Mesh ι) (b : Books ι) : Prop where
  sound : net.Sound m
  locked : ((m.stores net.hub).tvl : ℤ) = b.locked * (m.stores net.hub).oftStore.rate
  inFlight : m.inFlight.map Packet.amountSd = b.inFlight

private theorem locked_release {b : Books ι} {i : ι} {w : World} {n : ℤ}
    (hlocked : ((m.stores net.hub).tvl : ℤ) = b.locked * (m.stores net.hub).oftStore.rate)
    (hstores : m'.stores = Function.update m.stores i w) (hsame : SameStore (m.stores i) w)
    (hhub : i = net.hub → (w.tvl : ℤ) = (m.stores i).tvl + n * (m.stores i).oftStore.rate) :
    ((m'.stores net.hub).tvl : ℤ) =
      (b.release net.hub i n).locked * (m'.stores net.hub).oftStore.rate := by
  by_cases hi : i = net.hub
  · have hrate : w.oftStore.rate = (m.stores i).oftStore.rate := by
      rw [OFTStore.rate, hsame.ld2sdRate, OFTStore.rate]
    have htvl := hhub hi
    subst hi
    rw [hstores, Function.update_self, hrate, Books.release, if_pos rfl, htvl, hlocked]
    ring
  · rw [hstores, Function.update_of_ne (Ne.symm hi), Books.release, if_neg hi]
    exact hlocked

theorem Network.Refines.quiet {b : Books ι} (h : net.Refines m b) (hstep : net.Step m l m')
    (hnone : transferOf l = none) : net.Refines m' b := by
  have hsound := h.sound.step hstep
  cases hstep with
  | @internal i e w step quiet allowed =>
    refine ⟨hsound, ?_, h.inFlight⟩
    have hstores : (Mesh.mk (Function.update m.stores i w) m.inFlight).stores =
        Function.update m.stores i w := rfl
    have hkeep : i = net.hub →
        (w.tvl : ℤ) = (m.stores i).tvl + 0 * (m.stores i).oftStore.rate := by
      intro _
      rw [(step.quiet quiet).1, zero_mul, add_zero]
    rw [locked_release h.locked hstores step.sameStore hkeep, Books.release]
    split
    · rw [add_zero]
    · rfl
  | send step => cases hnone
  | deliver step sent => cases hnone
  | foreign step nonzero outside => cases hnone

/-- A transfer is a step of the books. -/
theorem Network.Refines.transfer {b : Books ι} {t : Transfer ι} (h : net.Refines m b)
    (hstep : net.Step m l m') (hsome : transferOf l = some t) :
    ∃ b', Books.Step net.hub b t b' ∧ net.Refines m' b' := by
  have hsound := h.sound.step hstep
  cases hstep with
  | internal step quiet allowed =>
    rw [(transferOf_quiet quiet).1] at hsome
    cases hsome
  | @send i clock accs params out w step =>
    obtain ⟨hsigned, peer, sent⟩ := step.sent
    cases hsome
    refine ⟨_, .depart b i _, hsound, ?_, ?_⟩
    · refine locked_release h.locked rfl step.sameStore (fun hi => ?_)
      have htype : (m.stores i).oftStore.oftType = .adapter := hi ▸ h.sound.hub
      rw [(sent.books (h.sound.wellFormed i) htype hsigned).2, sent.units]
      push_cast
      rfl
    · rw [Multiset.map_cons, h.inFlight]
      rfl
  | @deliver i clock metas params out w step sent =>
    obtain ⟨a, peer, received⟩ := step.received
    cases hsome
    have hmem : messageAmountSd params.message ∈ b.inFlight := by
      rw [← h.inFlight]
      exact Multiset.mem_map_of_mem Packet.amountSd sent
    refine ⟨_, .arrive b i _ hmem, hsound, ?_, ?_⟩
    · refine locked_release h.locked rfl step.sameStore (fun hi => ?_)
      have htype : (m.stores i).oftStore.oftType = .adapter := hi ▸ h.sound.hub
      have hbooks := (received.books (h.sound.wellFormed i) htype).2
      rw [received.units] at hbooks
      rw [← hbooks]
      push_cast
      ring
    · rw [Multiset.map_erase_of_mem _ _ sent, h.inFlight]
      rfl
  | foreign step nonzero outside =>
    obtain ⟨j, hj, hmember⟩ := h.sound.not_foreign step nonzero
    exact absurd hmember (outside j hj)

/-- A run of a network is a run of the books. -/
theorem Network.Launched.refines {ls : List (ι × Event)} (h : net.Launched m)
    (hrun : Run net.Step m ls m') :
    ∃ b, Run (Books.Step net.hub) Books.empty (ls.filterMap transferOf) b ∧ net.Refines m' b := by
  have hstart : net.Refines m Books.empty := by
    refine ⟨h.sound, ?_, ?_⟩
    · rw [(h.genesis net.hub).fresh.2.1]
      exact (zero_mul _).symm
    · rw [h.quiet]
      rfl
  exact hrun.simulates (fun _ _ _ _ hR hstep hnone => hR.quiet hstep hnone)
    (fun _ _ _ _ _ hR hstep hsome => hR.transfer hstep hsome) hstart

/-- What a label contributes to a column of store `i`. -/
def share (i : ι) (f : Event → ℕ) (l : ι × Event) : ℕ := if l.1 = i then f l.2 else 0

/-- A column of store `i`, added up over a run. -/
def total (i : ι) (f : Event → ℕ) (ls : List (ι × Event)) : ℕ := (ls.map (share i f)).sum

private theorem Network.Sound.share_units (h : net.Sound m) (hstep : net.Step m l m') (i : ι) :
    (share i Event.receivedLd l : ℤ) - share i Event.sentLd l =
      ((transferOf l).map (Books.entry i)).getD 0 * (m.stores i).oftStore.rate := by
  cases hstep with
  | @internal j e w step quiet allowed =>
    obtain ⟨hnone, hsent, hreceived⟩ := transferOf_quiet (i := j) quiet
    simp [share, hnone, hsent, hreceived]
  | @send j clock accs params out w step =>
    obtain ⟨hsigned, peer, sent⟩ := step.sent
    have hunits := sent.units
    by_cases hj : j = i
    · subst hj
      simp [share, transferOf, Books.entry, Event.receivedLd, Event.sentLd, hunits]
    · simp [share, transferOf, Books.entry, hj]
  | @deliver j clock metas params out w step sent =>
    obtain ⟨a, peer, received⟩ := step.received
    have hunits := received.units
    by_cases hj : j = i
    · subst hj
      simp [share, transferOf, Books.entry, Event.receivedLd, Event.sentLd, hunits]
    · simp [share, transferOf, Books.entry, hj]
  | @foreign j clock metas params out w step nonzero outside =>
    obtain ⟨k, hk, hmember⟩ := h.not_foreign step nonzero
    exact absurd hmember (outside k hk)

private theorem Network.Sound.share_supply (h : net.Sound m) (hstep : net.Step m l m') {i : ι}
    (hi : i ≠ net.hub) :
    (m'.stores i).supply + share i Event.sentLd l + share i Event.burnedOutside l =
      (m.stores i).supply + share i Event.receivedLd l := by
  have hnative := h.others i hi
  cases hstep with
  | @internal j e w step quiet allowed =>
    obtain ⟨-, hsent, hreceived⟩ := transferOf_quiet (i := j) quiet
    by_cases hj : j = i
    · subst hj
      have hsupply := (step.quiet quiet).2
      rw [allowed.minter hi] at hsupply
      simpa [share, hsent, hreceived] using hsupply
    · simp [share, hj, Function.update_of_ne (Ne.symm hj)]
  | @send j clock accs params out w step =>
    obtain ⟨hsigned, peer, sent⟩ := step.sent
    by_cases hj : j = i
    · subst hj
      simpa [share, Event.sentLd, Event.receivedLd, Event.burnedOutside] using
        sent.burns (h.wellFormed j) hnative hsigned
    · simp [share, hj, Function.update_of_ne (Ne.symm hj)]
  | @deliver j clock metas params out w step sent =>
    obtain ⟨a, peer, received⟩ := step.received
    by_cases hj : j = i
    · subst hj
      simpa [share, Event.sentLd, Event.receivedLd, Event.burnedOutside] using
        received.mints hnative
    · simp [share, hj, Function.update_of_ne (Ne.symm hj)]
  | @foreign j clock metas params out w step nonzero outside =>
    obtain ⟨k, hk, hmember⟩ := h.not_foreign step nonzero
    exact absurd hmember (outside k hk)

private theorem Network.Launched.total_units {ls : List (ι × Event)} (h : net.Launched m)
    (hrun : Run net.Step m ls m') (i : ι) :
    (total i Event.receivedLd ls : ℤ) - total i Event.sentLd ls =
      ((ls.filterMap transferOf).map (Books.entry i)).sum * (m'.stores i).oftStore.rate := by
  let I (v : Mesh ι) : Prop :=
    net.Sound v ∧ (v.stores i).oftStore.rate = (m.stores i).oftStore.rate
  have hkeep : ∀ v l v', I v → net.Step v l v' → I v' := by
    intro v l v' hv hstep
    refine ⟨hv.1.step hstep, ?_⟩
    rw [OFTStore.rate, (hstep.sameStore i).ld2sdRate]
    exact hv.2
  have hstart : I m := ⟨h.sound, rfl⟩
  have hlabels : ∀ l ∈ ls, (share i Event.receivedLd l : ℤ) - share i Event.sentLd l =
      ((transferOf l).map (Books.entry i)).getD 0 * (m.stores i).oftStore.rate :=
    hrun.label_of hkeep (fun v l v' hv hstep => hv.2 ▸ hv.1.share_units hstep i) hstart
  have hrate : (m'.stores i).oftStore.rate = (m.stores i).oftStore.rate :=
    (hrun.invariant hkeep hstart).2
  have hsum := sum_map_sub (share i Event.receivedLd) (share i Event.sentLd) ls
  rw [List.map_congr_left hlabels, List.sum_map_mul_right] at hsum
  rw [hrate, sum_map_filterMap]
  exact hsum.symm

private theorem Network.Launched.total_supply {ls : List (ι × Event)} (h : net.Launched m)
    (hrun : Run net.Step m ls m') {i : ι} (hi : i ≠ net.hub) :
    ((m'.stores i).supply : ℤ) + total i Event.burnedOutside ls =
      total i Event.receivedLd ls - total i Event.sentLd ls := by
  have hledger := hrun.ledger (I := net.Sound) (fun v : Mesh ι => ((v.stores i).supply : ℤ))
    (fun l => ((share i Event.receivedLd l : ℕ) : ℤ) -
      (share i Event.sentLd l + share i Event.burnedOutside l : ℕ))
    (fun _ _ _ hv hstep => hv.step hstep)
    (fun v l v' hv hstep => by
      have hsupply := hv.share_supply hstep hi
      omega) h.sound
  rw [sum_map_sub, List.sum_map_add, h.unminted i hi] at hledger
  change _ = _ + ((total i Event.receivedLd ls : ℤ) -
    (total i Event.sentLd ls + total i Event.burnedOutside ls : ℕ)) at hledger
  omega

/-- Whatever the stores of a network do, in any order, the adapter has locked exactly what is
in flight together with what each native store has minted and not burned, in shared decimals;
every amount is a whole number of them. -/
theorem mesh_conserves [Fintype ι] {ls : List (ι × Event)} (h : net.Launched m)
    (hrun : Run net.Step m ls m') :
    (m'.stores net.hub).oftStore.rate ∣ (m'.stores net.hub).tvl ∧
      (((m'.stores net.hub).tvl / (m'.stores net.hub).oftStore.rate : ℕ) : ℤ) =
        (m'.inFlight.map Packet.amountSd).sum + ∑ i ∈ Finset.univ.erase net.hub,
          ((total i Event.receivedLd ls : ℤ) - total i Event.sentLd ls) /
            (m'.stores i).oftStore.rate ∧
      ∀ i, i ≠ net.hub →
        ((m'.stores i).oftStore.rate : ℤ) ∣
            (total i Event.receivedLd ls : ℤ) - total i Event.sentLd ls ∧
          ((m'.stores i).supply : ℤ) + total i Event.burnedOutside ls =
            total i Event.receivedLd ls - total i Event.sentLd ls := by
  obtain ⟨b, hbooks, hrefines⟩ := h.refines hrun
  have hpos (i : ι) : ((m'.stores i).oftStore.rate : ℤ) ≠ 0 := by
    exact_mod_cast (hrefines.sound.wellFormed i).rate_pos.ne'
  have hunits := h.total_units hrun
  have hdvd : ((m'.stores net.hub).oftStore.rate : ℤ) ∣ (m'.stores net.hub).tvl := by
    rw [hrefines.locked]
    exact Dvd.intro_left _ rfl
  refine ⟨by exact_mod_cast hdvd, ?_, fun i hi => ⟨?_, h.total_supply hrun hi⟩⟩
  · have houtside : ∑ i ∈ Finset.univ.erase net.hub,
        ((total i Event.receivedLd ls : ℤ) - total i Event.sentLd ls) /
          (m'.stores i).oftStore.rate = b.outside net.hub := by
      refine Finset.sum_congr rfl (fun i hi => ?_)
      rw [hunits i, Int.mul_ediv_cancel _ (hpos i),
        Books.issued_eq net.hub hbooks (Finset.ne_of_mem_erase hi)]
    rw [houtside, hrefines.inFlight, ← Books.conserved net.hub hbooks]
    push_cast
    rw [hrefines.locked, Int.mul_ediv_cancel _ (hpos _)]
  · rw [hunits i]
    exact Dvd.intro_left _ rfl

end Bridge

namespace Reference

def pair : Network Bool where
  runtime _ := runtime
  eid hub := if hub then 7 else 8
  sharedDecimals := 6
  hub := true

def pairStores (hub : Bool) : World := if hub then adapterStore else nativeStore

def pairLaunch : Mesh Bool := ⟨pairStores, 0⟩

private theorem pairLaunch_launched : pair.Launched pairLaunch where
  genesis i := by
    cases i with
    | true => exact adapter.store_genesis adapter_init
    | false => exact native.store_genesis native_init
  hub := by decide
  others i hi := by
    cases i with
    | true => exact absurd rfl hi
    | false => decide
  unminted i hi := by
    cases i with
    | true => exact absurd rfl hi
    | false => decide
  quiet := rfl

def pairPeer (hub : Bool) : Result World :=
  SetPeerConfig.apply runtime (clockAt 10) admin
    ⟨if hub then 8 else 7, .peerAddress storeKey⟩ (pairStores hub)

private theorem pairPeer_ok (hub : Bool) : (pairPeer hub).isOk = true := by
  cases hub <;> decide

def hubParams (amount : U64) : SendParams := ⟨8, user, amount, 0, [], none, 5000, 0⟩

def hubSend (amount : U64) (w : World) : Result (World × SendOutcome) :=
  Send.apply runtime endpoint (clockAt 20) ⟨user, userTokens, [admin, storeKey]⟩ (hubParams amount)
    w

def hubPeeredMesh : Mesh Bool where
  stores := Function.update pairStores true (value _ (pairPeer_ok true))
  inFlight := 0

def peeredMesh : Mesh Bool where
  stores := Function.update hubPeeredMesh.stores false (value _ (pairPeer_ok false))
  inFlight := 0

private theorem firstSend_ok : (hubSend 2000000 (peeredMesh.stores true)).isOk = true := by
  decide

def firstMesh : Mesh Bool where
  stores := Function.update peeredMesh.stores true (value _ firstSend_ok).1
  inFlight := pair.packet peeredMesh true (value _ firstSend_ok).2.endpointCall ::ₘ 0

private theorem secondSend_ok : (hubSend 1000000 (firstMesh.stores true)).isOk = true := by
  decide

def secondMesh : Mesh Bool where
  stores := Function.update firstMesh.stores true (value _ secondSend_ok).1
  inFlight := pair.packet firstMesh true (value _ secondSend_ok).2.endpointCall ::ₘ
    firstMesh.inFlight

def firstParams : LzReceiveParams :=
  ⟨7, storeKey, 1, Bytes32.fill 9, (value _ firstSend_ok).2.endpointCall.message, []⟩

def firstMetas : List LzAccount :=
  (LzReceiveTypes.apply runtime (clockAt 30) firstParams (secondMesh.stores false)).toOption.getD []

def nativeReceive : Result (World × LzReceiveOutcome) :=
  LzReceive.apply runtime endpoint (clockAt 30) firstMetas firstParams (secondMesh.stores false)

private theorem nativeReceive_ok : nativeReceive.isOk = true := by decide

def lastMesh : Mesh Bool where
  stores := Function.update secondMesh.stores false (value _ nativeReceive_ok).1
  inFlight := secondMesh.inFlight.erase (pair.delivery secondMesh false firstParams)

private theorem peering_allowed (m : Mesh Bool) (i : Bool) (eid : U32)
    (hkey : ∀ j, (m.stores j).storeKey = storeKey) (heid : ∃ j, pair.eid j = eid) :
    pair.Allowed m i
      (.executed (clockAt 10) (.setPeerConfig admin ⟨eid, .peerAddress storeKey⟩) .done) where
  peering eid' address hset := by
    simp only [Event.peerAddress] at hset
    split at hset
    · rename_i hsame
      cases hset
      obtain ⟨j, hj⟩ := heid
      exact ⟨j, hj.trans hsame, hkey j⟩
    · cases hset
  minter _ := rfl

def pairLabels : List (Bool × Event) := [
  (true, .executed (clockAt 10) (.setPeerConfig admin ⟨8, .peerAddress storeKey⟩) .done),
  (false, .executed (clockAt 10) (.setPeerConfig admin ⟨7, .peerAddress storeKey⟩) .done),
  (true, .executed (clockAt 20) (.send ⟨user, userTokens, [admin, storeKey]⟩ (hubParams 2000000))
    (.sent (value _ firstSend_ok).2)),
  (true, .executed (clockAt 20) (.send ⟨user, userTokens, [admin, storeKey]⟩ (hubParams 1000000))
    (.sent (value _ secondSend_ok).2)),
  (false, .executed (clockAt 30) (.lzReceive firstMetas firstParams)
    (.received (value _ nativeReceive_ok).2))]

private theorem pairLabels_run : Run pair.Step pairLaunch pairLabels lastMesh := by
  have hhub : pair.Step pairLaunch
      (true, .executed (clockAt 10) (.setPeerConfig admin ⟨8, .peerAddress storeKey⟩) .done)
      hubPeeredMesh :=
    .of_setPeerConfig endpoint (by decide) (eq_ok_value _ (pairPeer_ok true))
      (peering_allowed pairLaunch true 8 (by decide) ⟨false, rfl⟩)
  have hnative : pair.Step hubPeeredMesh
      (false, .executed (clockAt 10) (.setPeerConfig admin ⟨7, .peerAddress storeKey⟩) .done)
      peeredMesh :=
    .of_setPeerConfig endpoint (by decide) (eq_ok_value _ (pairPeer_ok false))
      (peering_allowed hubPeeredMesh false 7 (by decide) ⟨true, rfl⟩)
  have hfirst : pair.Step peeredMesh (true, _) firstMesh :=
    .of_send endpoint (by decide) (eq_ok_value (hubSend 2000000 _) firstSend_ok)
  have hsecond : pair.Step firstMesh (true, _) secondMesh :=
    .of_send endpoint (by decide) (eq_ok_value (hubSend 1000000 _) secondSend_ok)
  have harrive : pair.Step secondMesh (false, _) lastMesh :=
    .of_lzReceive endpoint (eq_ok_value nativeReceive nativeReceive_ok) (by decide)
  exact .cons hhub (.cons hnative (.cons hfirst (.cons hsecond (.cons harrive (.nil _)))))

theorem mesh_conserves_sample :
    (lastMesh.stores true).tvl = 2990000 ∧
      (lastMesh.inFlight.map Packet.amountSd).sum = 995 ∧
      (total false Event.receivedLd pairLabels, total false Event.sentLd pairLabels) = (199500, 0) ∧
      (((lastMesh.stores true).tvl / (lastMesh.stores true).oftStore.rate : ℕ) : ℤ) =
        (lastMesh.inFlight.map Packet.amountSd).sum + ∑ i ∈ Finset.univ.erase true,
          ((total i Event.receivedLd pairLabels : ℤ) - total i Event.sentLd pairLabels) /
            (lastMesh.stores i).oftStore.rate :=
  ⟨by decide, by decide, by decide,
    (mesh_conserves pairLaunch_launched pairLabels_run).2.1⟩

end Reference

end FdfiToken
