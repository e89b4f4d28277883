import FdfiToken.Oft.Solvency

/-!
# Who may do what

Every change of a store is traced to the key that may make it. The admin configures, the pauser
and the unpauser pause, and value leaves the store only for a message its peer sent or for the
admin. The keys are those the store holds when the step is taken.
-/

namespace FdfiToken

open Word Fallible Runs

def RateLimiter.limits (l : RateLimiter) : U64 × U64 := (l.capacity, l.refillPerSecond)

structure PeerSettings where
  peerAddress : Bytes32
  enforcedOptions : EnforcedOptions
  feeBps : Option U16
  outboundLimits : Option (U64 × U64)
  inboundLimits : Option (U64 × U64)

def PeerConfig.settings (peer : PeerConfig) : PeerSettings where
  peerAddress := peer.peerAddress
  enforcedOptions := peer.enforcedOptions
  feeBps := peer.feeBps
  outboundLimits := peer.outboundRateLimiter.map RateLimiter.limits
  inboundLimits := peer.inboundRateLimiter.map RateLimiter.limits

/-- What is configured of a store and its peers, the pause flag apart. -/
structure Configuration where
  admin : Pubkey
  defaultFeeBps : U16
  pauser : Option Pubkey
  unpauser : Option Pubkey
  peers : U32 → Option PeerSettings

def World.configuration (w : World) : Configuration where
  admin := w.oftStore.admin
  defaultFeeBps := w.oftStore.defaultFeeBps
  pauser := w.oftStore.pauser
  unpauser := w.oftStore.unpauser
  peers eid := (w.peers eid).map PeerConfig.settings

def Event.signer : Event → Option Pubkey
  | .executed _ i _ => i.signer
  | _ => none

private theorem consumeLimiter_limits {clock : Clock} {limiter limiter' : Option RateLimiter}
    {amount : U64} (h : consumeLimiter clock limiter amount = .ok limiter') :
    limiter'.map RateLimiter.limits = limiter.map RateLimiter.limits := by
  rcases consumeLimiter_eq_ok.mp h with ⟨rfl, rfl⟩ | ⟨l, rfl, hok, rfl⟩
  · rfl
  · obtain ⟨-, hcapacity, hrate, -⟩ := RateLimiter.tryConsume_ok hok
    rw [Option.map_some, Option.map_some, RateLimiter.limits, hcapacity, hrate]
    rfl

private theorem refillLimiter_limits (clock : Clock) (limiter : Option RateLimiter) (amount : U64) :
    (refillLimiter clock limiter amount).map RateLimiter.limits =
      limiter.map RateLimiter.limits := by
  rw [refillLimiter, Option.map_map]
  rfl

private theorem World.configuration_setPeer {w : World} {eid : U32} {peer peer' : PeerConfig}
    {tvl : U64} {ledger : TokenLedger} (hpeer : w.peers eid = some peer)
    (hsettings : peer'.settings = peer.settings) :
    (World.setPeer { w with oftStore := { w.oftStore with tvlLd := tvl }, ledger := ledger } eid
      peer').configuration = w.configuration := by
  rw [configuration, configuration, Configuration.mk.injEq]
  refine ⟨rfl, rfl, rfl, rfl, ?_⟩
  funext eid'
  by_cases heid : eid' = eid
  · subst heid
    rw [setPeer_peers, Function.update_self, hpeer, Option.map_some, hsettings, Option.map_some]
  · rw [setPeer_peers, Function.update_of_ne heid]

theorem SetOFTConfig.apply_admin {rt : Runtime} {ep : Endpoint} {accs : AdminAccounts}
    {params : SetOFTConfigParams} {w w' : World}
    (h : SetOFTConfig.apply rt ep accs params w = .ok w') : w.oftStore.admin = accs.admin := by
  simp only [apply, bind_eq_ok, World.checkAdmin_eq_ok, exists_const] at h
  exact h.1.2

theorem SetPause.apply_signer {rt : Runtime} {signer : Pubkey} {paused : Bool} {w w' : World}
    (h : SetPause.apply rt signer paused w = .ok w') :
    isValidSigner signer w.oftStore paused = true ∧
      w' = { w with oftStore := { w.oftStore with paused := paused } } := by
  simp only [apply, bind_eq_ok, require_eq_ok, exists_const, pure_eq_ok] at h
  obtain ⟨_, -, hvalid, rfl⟩ := h
  exact ⟨hvalid, rfl⟩

section Steps

variable {rt : Runtime} {sd : U8} {w w' : World} {clock : Clock} {e : Event}

theorem Send.Sent.configuration {accs : SendAccounts} {params : SendParams} {peer : PeerConfig}
    {out : SendOutcome} (h : Send.Sent rt clock accs params peer w w' out) :
    w'.configuration = w.configuration := by
  obtain ⟨outbound, hconsume, heq⟩ := h.limited
  rw [heq]
  refine World.configuration_setPeer h.peer_eq ?_
  simp only [PeerConfig.settings, consumeLimiter_limits hconsume, refillLimiter_limits]

theorem LzReceive.Received.configuration {a : LzReceiveAccounts} {params : LzReceiveParams}
    {peer : PeerConfig} {out : LzReceiveOutcome}
    (h : LzReceive.Received rt clock a params peer w w' out) :
    w'.configuration = w.configuration := by
  obtain ⟨inbound, hconsume, heq⟩ := h.limited
  rw [heq]
  refine World.configuration_setPeer h.peer_eq ?_
  simp only [PeerConfig.settings, consumeLimiter_limits hconsume, refillLimiter_limits]

/-- Only the admin configures. -/
theorem Step.configuration (h : Step rt w e w') :
    w'.configuration = w.configuration ∨ e.signer = some w.oftStore.admin := by
  cases h with
  | failed _ => exact .inl rfl
  | external _ => exact .inl rfl
  | executed _ hrun =>
    cases execute_executed hrun with
    | setOftConfig ep run => exact .inr (congrArg some (SetOFTConfig.apply_admin run).symm)
    | setPeerConfig run => exact .inr (congrArg some (SetPeerConfig.apply_eq_ok run).1.symm)
    | setPause run =>
      rw [(SetPause.apply_signer run).2]
      exact .inl rfl
    | withdrawFee run =>
      rw [(WithdrawFee.apply_eq_ok run).2.2.1]
      exact .inl rfl
    | send sent => exact .inl sent.configuration
    | lzReceive _ received => exact .inl received.configuration

theorem Step.paused (h : Step rt w e w') :
    w'.oftStore.paused = w.oftStore.paused ∨ ∃ signer, e.signer = some signer ∧
      (signer = w.oftStore.admin ∨
        isValidSigner signer w.oftStore w'.oftStore.paused = true) := by
  cases h with
  | failed _ => exact .inl rfl
  | external _ => exact .inl rfl
  | executed _ hrun =>
    cases execute_executed hrun with
    | setOftConfig ep run => exact .inr ⟨_, rfl, .inl (SetOFTConfig.apply_admin run).symm⟩
    | setPeerConfig run =>
      obtain ⟨-, peer, -, heq⟩ := SetPeerConfig.apply_eq_ok run
      rw [heq]
      exact .inl rfl
    | setPause run =>
      obtain ⟨hvalid, heq⟩ := SetPause.apply_signer run
      refine .inr ⟨_, rfl, .inr ?_⟩
      rwa [heq]
    | withdrawFee run =>
      rw [(WithdrawFee.apply_eq_ok run).2.2.1]
      exact .inl rfl
    | send sent =>
      obtain ⟨outbound, -, heq⟩ := sent.limited
      rw [heq]
      exact .inl rfl
    | lzReceive _ received =>
      obtain ⟨inbound, -, heq⟩ := received.limited
      rw [heq]
      exact .inl rfl

/-- Value may leave for a message: the store was not paused, whatever endpoint let the step through
cleared the message, the peer's current address sent it, and no more left than it carries. -/
structure LzReceive.Honoured (rt : Runtime) (w w' : World) (clock : Clock)
    (metas : List LzAccount) (params : LzReceiveParams) (out : LzReceiveOutcome) : Prop where
  unpaused : w.oftStore.paused = false
  executed : ∃ ep, apply rt ep clock metas params w = .ok (w', out)
  cleared : ∀ ep r, apply rt ep clock metas params w = .ok r →
    ep.clear ⟨w.storeKey, params.srcEid, params.sender, params.nonce, params.guid, params.message⟩
      out.clearAccounts = true
  sender : ∃ peer, w.peers params.srcEid = some peer ∧ peer.peerAddress = params.sender
  amount : ∃ amountSd amountLd, MsgCodec.amountSd params.message = .ok amountSd ∧
    w.oftStore.sd2ld amountSd = .ok amountLd ∧ w.escrow ≤ w'.escrow + amountLd.toNat ∧
    w'.supply ≤ w.supply + amountLd.toNat

theorem Send.Sent.value (hwf : WellFormed rt sd w) {accs : SendAccounts} {params : SendParams}
    {peer : PeerConfig} {out : SendOutcome} (hsigned : rt.signable accs.signer = true)
    (h : Send.Sent rt clock accs params peer w w' out) :
    w.escrow ≤ w'.escrow ∧ w'.supply ≤ w.supply := by
  cases htype : w.oftStore.oftType with
  | adapter =>
    obtain ⟨hescrow, -⟩ := h.books hwf htype hsigned
    have hne := hwf.source_ne_escrow h.sourceOwner hsigned
    have hmint := (Send.collect_adapter htype hne h.collected).2.mint
    refine ⟨by omega, ?_⟩
    rw [World.supply, hmint]
    exact le_rfl
  | native =>
    have hburned := h.burns hwf htype hsigned
    have hnative : w.oftStore.oftType ≠ .adapter := OFTType.ne_adapter htype
    have hsum := h.split.credited
    rw [OFTStore.credited_native hnative] at hsum
    have hescrow := (Send.collect_native hnative (hwf.source_ne_escrow h.sourceOwner hsigned) hsum
      h.collected).2.2.2
    refine ⟨?_, by omega⟩
    rw [World.escrow, World.escrow, h.sameStore.tokenEscrow]
    exact hescrow

theorem LzReceive.Received.value (hwf : WellFormed rt sd w) {a : LzReceiveAccounts}
    {params : LzReceiveParams} {peer : PeerConfig} {out : LzReceiveOutcome}
    (h : LzReceive.Received rt clock a params peer w w' out) :
    w.escrow ≤ w'.escrow + out.amountLd.toNat ∧ w'.supply ≤ w.supply + out.amountLd.toNat := by
  obtain ⟨opened, received, hopened, hrelease, -, -⟩ := h.released
  obtain ⟨-, hmint, -, hbalance, -⟩ := TokenLedger.initIfNeeded_spec hopened
  have hdest : w.oftStore.tokenEscrow ≠ a.tokenDest := by
    rw [h.tokenDest]
    exact hwf.escrow_ne_associated _ _ _
  cases htype : w.oftStore.oftType with
  | adapter =>
    obtain ⟨hescrow, -⟩ := h.books hwf htype
    have hne : a.tokenEscrow ≠ a.tokenDest := by
      rw [h.tokenEscrow]
      exact hdest
    have hkeep := (release_adapter (w := { w with ledger := opened }) htype hne hrelease).2.1.mint
    refine ⟨by omega, ?_⟩
    rw [World.supply, hkeep]
    change opened.mint.supply.toNat ≤ _
    rw [hmint]
    exact Nat.le_add_right _ _
  | native =>
    have hminted := h.mints htype
    have hnative : w.oftStore.oftType ≠ .adapter := OFTType.ne_adapter htype
    have hframe := (release_native (w := { w with ledger := opened }) hnative hrelease).2.1.frame
    have hescrow : w'.escrow = w.escrow := by
      rw [World.escrow, h.sameStore.tokenEscrow, hframe.balance (by simpa using hdest)]
      exact hbalance _
    omega

/-- No endpoint lets a receive through that it does not clear. -/
theorem LzReceive.Received.cleared_by {ep ep' : Endpoint} {metas : List LzAccount}
    {a : LzReceiveAccounts} {params : LzReceiveParams} {peer : PeerConfig}
    {out : LzReceiveOutcome} {r : World × LzReceiveOutcome}
    (hreceived : Received rt clock a params peer w w' out)
    (h : apply rt ep clock metas params w = .ok (w', out))
    (h' : apply rt ep' clock metas params w = .ok r) :
    ep'.clear ⟨w.storeKey, params.srcEid, params.sender, params.nonce, params.guid,
      params.message⟩ out.clearAccounts = true := by
  have hsame : r = (w', out) := apply_unique h' h
  rw [hsame] at h'
  rw [← hreceived.cleared]
  exact ((apply_asks h ep').mp h').1

/-- Value leaves a store by an honoured message or by the admin's withdrawal of what is not
locked. -/
theorem Step.value (hwf : WellFormed rt sd w) (h : Step rt w e w')
    (hout : w'.escrow < w.escrow ∨ w.supply + e.mintedOutside < w'.supply) :
    (∃ clock metas params out, e = .executed clock (.lzReceive metas params) (.received out) ∧
        LzReceive.Honoured rt w w' clock metas params out) ∨
      ∃ clock accs feeLd, e = .executed clock (.withdrawFee accs feeLd) .done ∧
        accs.admin = w.oftStore.admin ∧ w'.tvl ≤ w'.escrow := by
  have hsame (hescrow : w'.escrow = w.escrow) (hsupply : w'.supply = w.supply) : False := by
    omega
  cases h with
  | failed _ => exact (hsame rfl rfl).elim
  | @external _ ledger credit minted burned change =>
    have hescrow : World.escrow { w with ledger := ledger } = w.escrow + credit := change.credited
    have hsupply : World.supply { w with ledger := ledger } + burned = w.supply + minted :=
      change.supply
    change _ ∨ w.supply + minted < _ at hout
    omega
  | @executed ep clock i _ _ o signed hrun =>
    cases i with
    | lzReceive metas params =>
      simp only [execute, bind_eq_ok, pure_eq_ok, Prod.mk.injEq, Prod.exists] at hrun
      obtain ⟨v, out, hrun, rfl, rfl⟩ := hrun
      obtain ⟨a, peer, -, hreceived⟩ := LzReceive.apply_received hrun
      obtain ⟨hescrow, hsupply⟩ := hreceived.value hwf
      obtain ⟨amountSd, hsd, hld⟩ := hreceived.amount
      exact .inl ⟨clock, metas, params, out, rfl, hreceived.unpaused, ⟨ep, hrun⟩,
        fun ep' r => hreceived.cleared_by hrun, ⟨peer, hreceived.peer_eq, hreceived.sender⟩,
        ⟨amountSd, out.amountLd, hsd, hld, hescrow, hsupply⟩⟩
    | withdrawFee accs feeLd =>
      cases execute_executed hrun with
      | withdrawFee run =>
        exact .inr ⟨clock, accs, feeLd, rfl, (WithdrawFee.apply_eq_ok run).1.symm,
          (WithdrawFee.books run).2.1⟩
    | send accs params =>
      cases execute_executed hrun with
      | send sent =>
        obtain ⟨hescrow, hsupply⟩ := sent.value hwf (signed _ rfl)
        omega
    | setOftConfig accs params =>
      cases execute_executed hrun with
      | setOftConfig ep run =>
        rw [(SetOFTConfig.reconfigured run).eq] at hsame
        exact (hsame rfl rfl).elim
    | setPeerConfig admin params =>
      cases execute_executed hrun with
      | setPeerConfig run =>
        obtain ⟨-, peer, -, heq⟩ := SetPeerConfig.apply_eq_ok run
        rw [heq] at hsame
        exact (hsame rfl rfl).elim
    | setPause signer paused =>
      cases execute_executed hrun with
      | setPause run =>
        rw [(SetPause.apply_signer run).2] at hsame
        exact (hsame rfl rfl).elim

private theorem Step.quiet_of_paused (h : Step rt w e w') (hpaused : w.oftStore.paused = true) :
    e.isTransfer = false := by
  cases h with
  | failed _ => rfl
  | external _ => rfl
  | executed _ hrun =>
    cases execute_executed hrun with
    | send sent =>
      rw [sent.unpaused] at hpaused
      cases hpaused
    | lzReceive _ received =>
      rw [received.unpaused] at hpaused
      cases hpaused
    | _ => rfl

private theorem quotes_fail_of_paused (hpaused : w.oftStore.paused = true) (clock : Clock)
    (params : QuoteSendParams) :
    (∀ quote, QuoteOFT.apply rt clock params w ≠ .ok quote) ∧
      ∀ ep remaining fee, QuoteSend.apply rt ep clock remaining params w ≠ .ok fee := by
  have hamounts (peer : PeerConfig) (amounts : U64 × U64 × U64) :
      w.checkedAmounts clock peer params.amountLd params.minAmountLd ≠ .ok amounts := by
    intro h
    rw [(Send.checkedAmounts_eq_ok.mp h).1] at hpaused
    cases hpaused
  constructor
  · intro quote h
    simp only [QuoteOFT.apply, QuoteOFT.handler, bind_eq_ok] at h
    obtain ⟨_, -, peer, -, _, -, amounts, h, -⟩ := h
    exact hamounts peer amounts h
  · intro ep remaining fee h
    simp only [QuoteSend.apply, QuoteSend.quoteParams, bind_eq_ok] at h
    obtain ⟨_, -, peer, -, _, -, _, ⟨amounts, h, -⟩, -⟩ := h
    exact hamounts peer amounts h

end Steps

/-- What a step may do, and at whose word. -/
structure Authorised (rt : Runtime) (w : World) (e : Event) (w' : World) : Prop where
  pauses : w.oftStore.paused = false → w'.oftStore.paused = true →
    ∃ signer, e.signer = some signer ∧
      (signer = w.oftStore.admin ∨ w.oftStore.pauser = some signer)
  unpauses : w.oftStore.paused = true → w'.oftStore.paused = false →
    ∃ signer, e.signer = some signer ∧
      (signer = w.oftStore.admin ∨ w.oftStore.unpauser = some signer)
  configures : w'.configuration ≠ w.configuration → e.signer = some w.oftStore.admin
  gives : w'.escrow < w.escrow ∨ w.supply + e.mintedOutside < w'.supply →
    (∃ clock metas params out, e = .executed clock (.lzReceive metas params) (.received out) ∧
        LzReceive.Honoured rt w w' clock metas params out) ∨
      ∃ clock accs feeLd, e = .executed clock (.withdrawFee accs feeLd) .done ∧
        accs.admin = w.oftStore.admin ∧ w'.tvl ≤ w'.escrow

private theorem Step.authorised {rt : Runtime} {sd : U8} {w w' : World} {e : Event}
    (hwf : WellFormed rt sd w) (h : Step rt w e w') : Authorised rt w e w' := by
  refine ⟨?_, ?_, ?_, h.value hwf⟩
  · intro hbefore hafter
    have hchanged : w'.oftStore.paused ≠ w.oftStore.paused := by simp [hbefore, hafter]
    obtain ⟨signer, hsigner, hkey⟩ := h.paused.resolve_left hchanged
    rw [hafter] at hkey
    exact ⟨signer, hsigner, by simpa [isValidSigner] using hkey⟩
  · intro hbefore hafter
    have hchanged : w'.oftStore.paused ≠ w.oftStore.paused := by simp [hbefore, hafter]
    obtain ⟨signer, hsigner, hkey⟩ := h.paused.resolve_left hchanged
    rw [hafter] at hkey
    exact ⟨signer, hsigner, by simpa [isValidSigner] using hkey⟩
  · intro hchanged
    exact h.configuration.resolve_left hchanged

/-- Nothing is transferred: the total locked stays, no message is sent or cleared, and only others
change the supply. -/
structure Frozen (w : World) (events : List Event) (w' : World) : Prop where
  tvl : w'.tvl = w.tvl
  quiet : ∀ e ∈ events, e.isTransfer = false
  supply : (w'.supply : ℤ) =
    w.supply + (events.map fun e => (e.mintedOutside : ℤ) - e.burnedOutside).sum

private theorem run_frozen {rt : Runtime} {w w' : World} {events : List Event}
    (h : Run (fun v e v' => v.oftStore.paused = true ∧ Step rt v e v') w events w') :
    Frozen w events w' := by
  have hstep (v : World) (e : Event) (v' : World)
      (hv : v.oftStore.paused = true ∧ Step rt v e v') :=
    hv.2.quiet (hv.2.quiet_of_paused hv.1)
  refine ⟨?_, ?_, ?_⟩
  · exact h.invariant (I := fun v => v.tvl = w.tvl)
      (fun v e v' hv hrun => (hstep v e v' hrun).1.trans hv) rfl
  · exact h.label_of (I := fun _ => True) (fun _ _ _ _ _ => trivial)
      (fun v e v' _ hrun => hrun.2.quiet_of_paused hrun.1) trivial
  · refine h.ledger (I := fun _ => True) (fun v : World => (v.supply : ℤ)) _
      (fun _ _ _ _ _ => trivial) ?_ trivial
    intro v e v' _ hrun
    have hsupply := (hstep v e v' hrun).2
    omega

/-- Every step of every run is authorised by the keys held at that step. While a store is paused
it transfers nothing and answers no quote. Its type, rate, mint, escrow and endpoint never
change. -/
theorem runs_authorised {rt : Runtime} {sd : U8} {events : List Event} {w : World}
    (h : Reaches rt sd events w) :
    (∀ e w', Step rt w e w' → Authorised rt w e w') ∧
    (∀ events' w', Run (fun v e v' => v.oftStore.paused = true ∧ Step rt v e v') w events' w' →
      Frozen w events' w') ∧
    (w.oftStore.paused = true → ∀ clock params,
      (∀ quote, QuoteOFT.apply rt clock params w ≠ .ok quote) ∧
        ∀ ep remaining fee, QuoteSend.apply rt ep clock remaining params w ≠ .ok fee) ∧
    ∀ events' w', Run (Step rt) w events' w' →
      w'.oftStore.oftType = w.oftStore.oftType ∧ w'.oftStore.ld2sdRate = w.oftStore.ld2sdRate ∧
        w'.oftStore.tokenMint = w.oftStore.tokenMint ∧
        w'.oftStore.tokenEscrow = w.oftStore.tokenEscrow ∧
        w'.oftStore.endpointProgram = w.oftStore.endpointProgram := by
  refine ⟨fun e w' => Step.authorised h.wellFormed, fun events' w' => run_frozen,
    quotes_fail_of_paused, ?_⟩
  intro events' w' hrun
  have hsame := run_sameStore hrun
  exact ⟨hsame.oftType, hsame.ld2sdRate, hsame.tokenMint, hsame.tokenEscrow,
    hsame.endpointProgram⟩

namespace Reference

def guardian : Pubkey := Bytes32.fill 6

def guardedRun : World × List Event :=
  replay runtime endpoint adapterStore [
    setPeer (clockAt 10) 7 (.peerAddress (Bytes32.fill 77)),
    (clockAt 11, .setOftConfig ⟨admin, []⟩ (.pauser (some guardian))),
    (clockAt 12, .setOftConfig ⟨admin, []⟩ (.defaultFee 100)),
    send (clockAt 20) 7 (Bytes32.fill 33) 2000000 none]

def guardianPauses : World × Event :=
  submit runtime endpoint guardedRun.1 (clockAt 30, .setPause guardian true)

def guardedArrival : World × Event :=
  submit runtime endpoint guardedRun.1
    (receive guardedRun.1 (clockAt 30) (arrival 7 (Bytes32.fill 77) user 700))

def guardedWithdrawal : World × Event :=
  submit runtime endpoint guardedRun.1 (clockAt 30, .withdrawFee ⟨admin, userTokens⟩ 9000)

theorem runs_authorised_sample :
    (∃ signer, guardianPauses.2.signer = some signer ∧
      (signer = guardedRun.1.oftStore.admin ∨ guardedRun.1.oftStore.pauser = some signer)) ∧
    (∃ clock metas params out,
      guardedArrival.2 = .executed clock (.lzReceive metas params) (.received out) ∧
        LzReceive.Honoured runtime guardedRun.1 guardedArrival.1 clock metas params out) ∧
    ∃ clock accs feeLd, guardedWithdrawal.2 = .executed clock (.withdrawFee accs feeLd) .done ∧
      accs.admin = guardedRun.1.oftStore.admin ∧
        guardedWithdrawal.1.tvl ≤ guardedWithdrawal.1.escrow := by
  have hreach : Reaches runtime 6 guardedRun.2 guardedRun.1 :=
    adapter.replay_reaches adapter_init _ (by decide)
  refine ⟨?_, ?_, ?_⟩
  · exact ((runs_authorised hreach).1 _ _ (submit_step rfl)).pauses (by decide) (by decide)
  · refine (((runs_authorised hreach).1 _ _ (submit_step rfl)).gives
      (.inl (by decide))).resolve_right ?_
    rintro ⟨_, _, _, hevent, -⟩
    have htransfer : guardedArrival.2.isTransfer = true := by decide
    rw [guardedArrival, hevent] at htransfer
    cases htransfer
  · refine (((runs_authorised hreach).1 _ _ (submit_step rfl)).gives
      (.inl (by decide))).resolve_left ?_
    rintro ⟨_, _, _, _, hevent, -⟩
    have htransfer : guardedWithdrawal.2.isTransfer = false := by decide
    rw [guardedWithdrawal, hevent] at htransfer
    cases htransfer

end Reference

end FdfiToken
