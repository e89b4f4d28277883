import FdfiToken.Oft.Reference

/-!
# Solvency of the escrow

An adapter's escrow holds what is locked for other chains together with the fees that have not
been withdrawn. The difference between its balance and the total locked is an exact ledger of
fees, deposits and withdrawals, so locked value is always covered.
-/

namespace FdfiToken

open Word Fallible Runs

def Event.feeKept : Event → ℕ
  | .executed _ (.send _ _) (.sent out) => out.oftFeeLd.toNat
  | _ => 0

def Event.deposited : Event → ℕ
  | .external credit _ _ => credit
  | _ => 0

def Event.withdrawn (escrow : Pubkey) : Event → ℕ
  | .executed _ (.withdrawFee accs feeLd) _ => if accs.tokenDest = escrow then 0 else feeLd.toNat
  | _ => 0

def Event.mintedOutside : Event → ℕ
  | .external _ minted _ => minted
  | _ => 0

def Event.burnedOutside : Event → ℕ
  | .external _ _ burned => burned
  | _ => 0

def Event.isTransfer : Event → Bool
  | .executed _ (.send _ _) (.sent _) => true
  | .executed _ (.lzReceive _ _) (.received _) => true
  | _ => false

section Steps

variable {rt : Runtime} {sd : U8} {w w' : World} {clock : Clock}

theorem Send.Sent.books (hwf : WellFormed rt sd w) (htype : w.oftStore.oftType = .adapter)
    {accs : SendAccounts} {params : SendParams} {peer : PeerConfig} {out : SendOutcome}
    (hsigned : rt.signable accs.signer = true)
    (h : Send.Sent rt clock accs params peer w w' out) :
    w'.escrow = w.escrow + out.oftReceipt.amountReceivedLd.toNat + out.oftFeeLd.toNat ∧
      w'.tvl = w.tvl + out.oftReceipt.amountReceivedLd.toNat := by
  have hne := hwf.source_ne_escrow h.sourceOwner hsigned
  obtain ⟨htvl, hmoved⟩ := Send.collect_adapter htype hne h.collected
  have hnet := h.split.credited
  rw [OFTStore.credited_adapter htype] at hnet
  have hcredited := hmoved.credited
  rw [hnet] at hcredited
  have hkey : w'.oftStore.tokenEscrow = w.oftStore.tokenEscrow := h.sameStore.tokenEscrow
  refine ⟨?_, htvl⟩
  rw [World.escrow, hkey, hcredited, World.escrow, Nat.add_assoc]

theorem LzReceive.Received.books (hwf : WellFormed rt sd w) (htype : w.oftStore.oftType = .adapter)
    {a : LzReceiveAccounts} {params : LzReceiveParams} {peer : PeerConfig}
    {out : LzReceiveOutcome} (h : LzReceive.Received rt clock a params peer w w' out) :
    w'.escrow + out.amountLd.toNat = w.escrow ∧ w'.tvl + out.amountLd.toNat = w.tvl := by
  obtain ⟨opened, received, hopened, hrelease, -, -⟩ := h.released
  have hne : a.tokenEscrow ≠ a.tokenDest := by
    rw [h.tokenEscrow, h.tokenDest]
    exact hwf.escrow_ne_associated _ _ _
  obtain ⟨htvl, hmoved, -⟩ := release_adapter (w := { w with ledger := opened }) htype hne hrelease
  have hdebited := hmoved.debited
  have hbalance := (TokenLedger.initIfNeeded_spec hopened).2.2.2.1
  have hkey : w'.oftStore.tokenEscrow = w.oftStore.tokenEscrow := h.sameStore.tokenEscrow
  rw [h.tokenEscrow] at hdebited
  refine ⟨?_, htvl⟩
  rw [World.escrow, hkey, hdebited, World.escrow]
  exact hbalance _

theorem WithdrawFee.books {accs : WithdrawFeeAccounts} {feeLd : U64}
    (h : WithdrawFee.apply rt clock accs feeLd w = .ok w') :
    w'.tvl = w.tvl ∧ w'.tvl ≤ w'.escrow ∧
      w'.escrow + (if accs.tokenDest = w.oftStore.tokenEscrow then 0 else feeLd.toNat) =
        w.escrow := by
  obtain ⟨-, hle, heq, hmove⟩ := apply_eq_ok h
  have hstore : w'.oftStore = w.oftStore := by rw [heq]
  have htvl : w'.tvl = w.tvl := by rw [World.tvl, hstore, World.tvl]
  have hescrow : w'.escrow = w'.ledger.balance w.oftStore.tokenEscrow := by
    rw [World.escrow, hstore]
  by_cases hdest : accs.tokenDest = w.oftStore.tokenEscrow
  · rw [hdest] at hmove
    have hself := TokenLedger.transferChecked_self hmove
    have hsame : w'.escrow = w.escrow := by rw [hescrow, hself, World.escrow]
    rw [if_pos hdest]
    omega
  · have hdebited := (TokenLedger.transferChecked_moved (Ne.symm hdest) hmove).debited
    rw [← hescrow] at hdebited
    change _ = w.escrow at hdebited
    rw [if_neg hdest]
    omega

/-- What one step books in the escrow and in the total locked. -/
theorem Step.books {e : Event} (hwf : WellFormed rt sd w) (htype : w.oftStore.oftType = .adapter)
    (h : Step rt w e w') :
    w'.escrow + e.withdrawn w.oftStore.tokenEscrow + w.tvl =
        w.escrow + e.feeKept + e.deposited + w'.tvl ∧
      (w.tvl ≤ w.escrow → w'.tvl ≤ w'.escrow) := by
  have hsame (hescrow : w'.escrow = w.escrow) (htvl : w'.tvl = w.tvl) :
      w'.escrow + 0 + w.tvl = w.escrow + 0 + 0 + w'.tvl ∧
        (w.tvl ≤ w.escrow → w'.tvl ≤ w'.escrow) := by omega
  cases h with
  | failed _ => exact hsame rfl rfl
  | @external _ ledger credit minted burned change =>
    have hcredited := change.credited
    change ledger.balance _ + 0 + _ = w.ledger.balance _ + 0 + credit + _ ∧
      (_ ≤ w.ledger.balance _ → _ ≤ ledger.balance _)
    rw [hcredited]
    change _ + 0 + w.tvl = _ + 0 + credit + w.tvl ∧ (w.tvl ≤ _ → w.tvl ≤ _)
    omega
  | @executed _ clock i _ _ o signed hrun =>
    cases execute_executed hrun with
    | setOftConfig ep run =>
      rw [(SetOFTConfig.reconfigured run).eq] at hsame ⊢
      exact hsame rfl rfl
    | setPause run =>
      rw [(SetPause.reconfigured run).eq] at hsame ⊢
      exact hsame rfl rfl
    | setPeerConfig run =>
      obtain ⟨-, peer, -, heq⟩ := SetPeerConfig.apply_eq_ok run
      rw [heq] at hsame ⊢
      exact hsame rfl rfl
    | @withdrawFee accs feeLd run =>
      obtain ⟨htvl, hle, hbalance⟩ := WithdrawFee.books run
      change _ + (if accs.tokenDest = w.oftStore.tokenEscrow then 0 else feeLd.toNat) + _ =
        _ + 0 + 0 + _ ∧ _
      omega
    | @send accs params peer out sent =>
      obtain ⟨hescrow, htvl⟩ := sent.books hwf htype (signed _ rfl)
      change _ + 0 + _ = _ + out.oftFeeLd.toNat + 0 + _ ∧ _
      omega
    | @lzReceive metas params a peer out parsed received =>
      obtain ⟨hescrow, htvl⟩ := received.books hwf htype
      change _ + 0 + _ = _ + 0 + 0 + _ ∧ _
      omega

theorem Send.Sent.burns (hwf : WellFormed rt sd w) (htype : w.oftStore.oftType = .native)
    {accs : SendAccounts} {params : SendParams} {peer : PeerConfig} {out : SendOutcome}
    (hsigned : rt.signable accs.signer = true)
    (h : Send.Sent rt clock accs params peer w w' out) :
    w'.supply + out.oftReceipt.amountReceivedLd.toNat = w.supply := by
  have hnative : w.oftStore.oftType ≠ .adapter := OFTType.ne_adapter htype
  have hsum := h.split.credited
  rw [OFTStore.credited_native hnative] at hsum
  exact (Send.collect_native hnative (hwf.source_ne_escrow h.sourceOwner hsigned) hsum
    h.collected).2.2.1

theorem LzReceive.Received.mints (htype : w.oftStore.oftType = .native)
    {a : LzReceiveAccounts} {params : LzReceiveParams} {peer : PeerConfig}
    {out : LzReceiveOutcome} (h : LzReceive.Received rt clock a params peer w w' out) :
    w'.supply = w.supply + out.amountLd.toNat := by
  have hnative : w.oftStore.oftType ≠ .adapter := OFTType.ne_adapter htype
  obtain ⟨opened, received, hopened, hrelease, -, -⟩ := h.released
  have hminted := (release_native (w := { w with ledger := opened }) hnative hrelease).2.1.supply
  have hmint := (TokenLedger.initIfNeeded_spec hopened).2.1
  change _ = opened.mint.supply.toNat + _ at hminted
  rwa [hmint] at hminted

theorem Step.native_tvl {e : Event} (htype : w.oftStore.oftType = .native) (h : Step rt w e w') :
    w'.oftStore.tvlLd = w.oftStore.tvlLd := by
  have hnative : w.oftStore.oftType ≠ .adapter := OFTType.ne_adapter htype
  cases h with
  | failed _ => rfl
  | external _ => rfl
  | executed _ hrun =>
    cases execute_executed hrun with
    | setOftConfig ep run => rw [(SetOFTConfig.reconfigured run).eq]
    | setPause run => rw [(SetPause.reconfigured run).eq]
    | setPeerConfig run =>
      obtain ⟨-, peer, -, heq⟩ := SetPeerConfig.apply_eq_ok run
      rw [heq, World.setPeer_oftStore]
    | withdrawFee run => rw [(WithdrawFee.apply_eq_ok run).2.2.1]
    | send sent =>
      have hcollected := sent.collected
      rw [Send.collect, if_neg hnative] at hcollected
      simp only [bind_eq_ok, pure_eq_ok, Prod.mk.injEq] at hcollected
      obtain ⟨_, -, _, -, _, -, htvl, -⟩ := hcollected
      exact htvl.symm
    | lzReceive _ received =>
      obtain ⟨opened, amount, -, hrelease, -, -⟩ := received.released
      exact (LzReceive.release_native (w := { w with ledger := opened }) hnative hrelease).1

theorem Step.quiet {e : Event} (h : Step rt w e w') (hquiet : e.isTransfer = false) :
    w'.tvl = w.tvl ∧ w'.supply + e.burnedOutside = w.supply + e.mintedOutside := by
  cases h with
  | failed _ => exact ⟨rfl, rfl⟩
  | external change => exact ⟨rfl, change.supply⟩
  | executed _ hrun =>
    cases execute_executed hrun with
    | setOftConfig ep run =>
      rw [(SetOFTConfig.reconfigured run).eq]
      exact ⟨rfl, rfl⟩
    | setPause run =>
      rw [(SetPause.reconfigured run).eq]
      exact ⟨rfl, rfl⟩
    | setPeerConfig run =>
      obtain ⟨-, peer, -, heq⟩ := SetPeerConfig.apply_eq_ok run
      rw [heq]
      exact ⟨rfl, rfl⟩
    | withdrawFee run =>
      have hmint := (TokenLedger.transferChecked_frame (WithdrawFee.apply_eq_ok run).2.2.2).2
      refine ⟨(WithdrawFee.books run).1, ?_⟩
      rw [World.supply, hmint]
      rfl
    | send sent => cases hquiet
    | lzReceive parsed received => cases hquiet

end Steps

section Reachable

variable {rt : Runtime} {sd : U8} {events : List Event} {w : World}

theorem Reaches.native_tvl (h : Reaches rt sd events w) (htype : w.oftStore.oftType = .native) :
    w.tvl = 0 := by
  obtain ⟨w₀, hgen, hrun⟩ := h
  have hstart : w₀.oftStore.oftType = .native → w₀.tvl = 0 := fun _ => hgen.fresh.2.1
  refine hrun.invariant (I := fun w => w.oftStore.oftType = .native → w.tvl = 0) ?_ hstart htype
  intro w e w' hzero hstep htype'
  have hkeep : w.oftStore.oftType = .native := hstep.sameStore.oftType ▸ htype'
  rw [World.tvl, hstep.native_tvl hkeep]
  exact hzero hkeep

/-- The escrow's books over a whole run, and that they cover what is locked. -/
theorem Reaches.books (h : Reaches rt sd events w) (htype : w.oftStore.oftType = .adapter) :
    (w.escrow : ℤ) - w.tvl =
        (events.map Event.feeKept).sum + (events.map Event.deposited).sum -
          (events.map (Event.withdrawn w.oftStore.tokenEscrow)).sum ∧
      w.tvl ≤ w.escrow := by
  obtain ⟨w₀, hgen, hrun⟩ := h
  obtain ⟨hescrow, htvl, -⟩ := hgen.fresh
  have hsame := run_sameStore hrun
  let E := w.oftStore.tokenEscrow
  let I (v : World) : Prop :=
    WellFormed rt sd v ∧ v.oftStore.oftType = .adapter ∧ v.oftStore.tokenEscrow = E
  have hstart : I w₀ := ⟨.of_genesis hgen, hsame.oftType ▸ htype, hsame.tokenEscrow.symm⟩
  have hkeep : ∀ v e v', I v → Step rt v e v' → I v' := by
    intro v e v' hv hstep
    exact ⟨hv.1.step hstep, hstep.sameStore.oftType.trans hv.2.1,
      hstep.sameStore.tokenEscrow.trans hv.2.2⟩
  have hbooks := hrun.ledger (I := I) (fun v : World => (v.escrow : ℤ) - v.tvl)
    (fun e => ((e.feeKept + e.deposited : ℕ) : ℤ) - e.withdrawn E) hkeep (by
      intro v e v' hv hstep
      have hstep' := (hstep.books hv.1 hv.2.1).1
      rw [hv.2.2] at hstep'
      omega) hstart
  have hcovered : I w ∧ w.tvl ≤ w.escrow := by
    refine hrun.invariant (I := fun v => I v ∧ v.tvl ≤ v.escrow) ?_ ⟨hstart, by omega⟩
    intro v e v' hv hstep
    exact ⟨hkeep v e v' hv.1 hstep, (hstep.books hv.1.1 hv.1.2.1).2 hv.2⟩
  refine ⟨?_, hcovered.2⟩
  rw [sum_map_sub, List.sum_map_add, Nat.cast_add] at hbooks
  change _ = _ - ((events.map (Event.withdrawn E)).sum : ℤ)
  omega

private theorem Reaches.lock_fits (h : Reaches rt sd events w)
    (htype : w.oftStore.oftType = .adapter)
    {clock : Clock} {peer : PeerConfig} {accs : SendAccounts}
    {amount minAmount sent received fee : U64} {ledger : TokenLedger}
    (hsigned : rt.signable accs.signer = true)
    (hamounts : w.checkedAmounts clock peer amount minAmount = .ok (sent, received, fee))
    (hmove : w.ledger.transferChecked clock.epoch accs.tokenSource w.oftStore.tokenEscrow
      accs.signer sent w.ledger.mint.decimals = .ok ledger) :
    ∃ tvl, checkedAdd w.oftStore.tvlLd received = some tvl := by
  have hcovered := (h.books htype).2
  have hnet := (Send.checkedAmounts_eq_ok.mp hamounts).2.1.credited
  rw [OFTStore.credited_adapter htype] at hnet
  have hne := h.wellFormed.source_ne_escrow (TokenLedger.transferChecked_owner hmove) hsigned
  have hcredited := (TokenLedger.transferChecked_moved hne hmove).credited
  have hbound := ledger.balance_lt w.oftStore.tokenEscrow
  rw [hcredited, hnet] at hbound
  change w.tvl ≤ w.ledger.balance w.oftStore.tokenEscrow at hcovered
  have hroom : w.oftStore.tvlLd.toNat + received.toNat < 2 ^ 64 := by
    change w.tvl + _ < _
    omega
  obtain ⟨tvl, htvl, -⟩ := exists_checkedAdd hroom
  exact ⟨tvl, htvl⟩

/-- In every reachable state an adapter's escrow exceeds the total locked by exactly the fees kept
and the deposits less the withdrawals. So a withdrawal neither underflows nor touches what is
locked, and whatever a send locks fits. A native store locks nothing. -/
theorem escrow_solvent (h : Reaches rt sd events w) :
    (w.oftStore.oftType = .adapter →
      (w.escrow : ℤ) - w.tvl =
          (events.map Event.feeKept).sum + (events.map Event.deposited).sum -
            (events.map (Event.withdrawn w.oftStore.tokenEscrow)).sum ∧
        w.tvl ≤ w.escrow ∧
        (∀ account, w.escrowAccount = .ok account →
          ∃ surplus, checkedSub account.amount w.oftStore.tvlLd = some surplus) ∧
        (∀ clock accs feeLd w', WithdrawFee.apply rt clock accs feeLd w = .ok w' →
          w'.tvl = w.tvl ∧ w'.tvl ≤ w'.escrow) ∧
        ∀ (clock : Clock) (peer : PeerConfig) (accs : SendAccounts)
          (amount minAmount sent received fee : U64) (ledger : TokenLedger),
          rt.signable accs.signer = true →
          w.checkedAmounts clock peer amount minAmount = .ok (sent, received, fee) →
          w.ledger.transferChecked clock.epoch accs.tokenSource w.oftStore.tokenEscrow accs.signer
            sent w.ledger.mint.decimals = .ok ledger →
          ∃ tvl, checkedAdd w.oftStore.tvlLd received = some tvl) ∧
      (w.oftStore.oftType = .native → w.tvl = 0) := by
  refine ⟨fun htype => ?_, fun htype => h.native_tvl htype⟩
  obtain ⟨hbooks, hcovered⟩ := h.books htype
  refine ⟨hbooks, hcovered, ?_, ?_, ?_⟩
  · intro account haccount
    have hbalance := TokenLedger.balance_of_account (World.escrowAccount_eq_ok.mp haccount).1
    have hle : w.oftStore.tvlLd.toNat ≤ account.amount.toNat := by
      rw [← hbalance]
      exact hcovered
    obtain ⟨surplus, hsurplus, -⟩ := exists_checkedSub hle
    exact ⟨surplus, hsurplus⟩
  · intro clock accs feeLd w' hrun
    obtain ⟨htvl, hle, -⟩ := WithdrawFee.books hrun
    exact ⟨htvl, hle⟩
  · intro clock peer accs amount minAmount sent received fee ledger hsigned hamounts hmove
    exact h.lock_fits htype hsigned hamounts hmove

end Reachable

namespace Reference

def feeRequests : List (Clock × Instruction) := [
  setPeer (clockAt 10) 7 (.peerAddress (Bytes32.fill 77)),
  (clockAt 11, .setOftConfig ⟨admin, []⟩ (.defaultFee 100)),
  send (clockAt 20) 7 (Bytes32.fill 33) 2000000 none,
  (clockAt 30, .withdrawFee ⟨admin, userTokens⟩ 9000)]

def feeRun : World × List Event := replay runtime endpoint adapterStore feeRequests

theorem escrow_solvent_sample :
    (feeRun.1.escrow, feeRun.1.tvl) = (1986000, 1976000) ∧
      (feeRun.1.escrow : ℤ) - feeRun.1.tvl =
        (feeRun.2.map Event.feeKept).sum + (feeRun.2.map Event.deposited).sum -
          (feeRun.2.map (Event.withdrawn escrow)).sum := by
  have hreach : Reaches runtime 6 feeRun.2 feeRun.1 :=
    adapter.replay_reaches adapter_init feeRequests (by decide)
  exact ⟨by decide, ((escrow_solvent hreach).1 rfl).1⟩

end Reference

end FdfiToken
