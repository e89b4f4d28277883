import FdfiToken.Oft.Solvency

/-!
# How a send ends

When the tokens of a send can be taken, and the errors a send fails with: which check raises which,
and what holds by then.
-/

namespace FdfiToken

open Word Fallible Runs

/-- The store can take `sent` from the signer's `source`, `received` of it to be locked or burned,
and the token program accepts that. -/
def World.CanCollect (w : World) (epoch : U64) (source signer : Pubkey) (sent received fee : ℕ) :
    Prop :=
  match w.oftStore.oftType with
  | .adapter =>
    w.ledger.accepts (.transferChecked source w.oftStore.tokenEscrow signer sent) = true ∧
      sent ≤ w.ledger.balance source ∧
      w.escrow + (w.ledger.mint.schedule epoch).net sent < 2 ^ 64 ∧
      w.ledger.withheld w.oftStore.tokenEscrow + (w.ledger.mint.schedule epoch).fee sent < 2 ^ 64
  | .native =>
    w.ledger.accepts (.burn source signer received) = true ∧
      sent ≤ w.ledger.balance source ∧ received ≤ w.supply ∧
      (0 < fee →
        w.ledger.accepts (.transferChecked source w.oftStore.tokenEscrow signer fee) = true ∧
        w.escrow + (w.ledger.mint.schedule epoch).net fee < 2 ^ 64 ∧
        w.ledger.withheld w.oftStore.tokenEscrow + (w.ledger.mint.schedule epoch).fee fee < 2 ^ 64)

theorem TokenLedger.Frame.withheld {l l' : TokenLedger} {touched : List Pubkey}
    (h : l.Frame l' touched) {k : Pubkey} (hk : k ∉ touched) : l'.withheld k = l.withheld k := by
  rw [TokenLedger.withheld, h.accounts k hk, TokenLedger.withheld]

theorem TokenLedger.Burned.schedule {l l' : TokenLedger} {source : Pubkey} {amount : ℕ}
    (h : l.Burned l' source amount) (epoch : U64) :
    l'.mint.schedule epoch = l.mint.schedule epoch := by
  rw [Mint.schedule, h.config, Mint.schedule]

theorem exists_consumeLimiter {clock : Clock} {limiter : Option RateLimiter} {amount : U64} :
    (∃ limiter', consumeLimiter clock limiter amount = .ok limiter') ↔
      ∀ l, limiter = some l → amount.toNat ≤ l.available clock.unixTimestamp := by
  cases limiter with
  | none =>
    constructor
    · rintro - l ⟨⟩
    · intro _
      exact ⟨none, rfl⟩
  | some l =>
    simp only [consumeLimiter_eq_ok, reduceCtorEq, false_and, false_or, Option.some.injEq,
      exists_eq_left', forall_eq', RateLimiter.tryConsume_ok_iff]
    constructor
    · rintro ⟨limiter', hle, -⟩
      exact hle
    · intro hle
      exact ⟨_, hle, rfl⟩

private theorem consumeLimiter_error {clock : Clock} {limiter : Option RateLimiter} {amount : U64}
    {e : ProgramError} (h : consumeLimiter clock limiter amount = .error e) :
    e = .oft .rateLimitExceeded := by
  cases limiter with
  | none => cases h
  | some l =>
    simp only [consumeLimiter, bind_eq_error, pure_ne_error, and_false, exists_false,
      or_false] at h
    cases hsub : checkedSub (l.refill clock 0).tokens amount with
    | none =>
      simp only [RateLimiter.tryConsume, hsub, Except.error.injEq] at h
      exact h.symm
    | some left => simp only [RateLimiter.tryConsume, hsub, reduceCtorEq] at h

namespace TokenLedger

private theorem transferChecked_error {l : TokenLedger} {epoch amount : U64}
    {source dest authority : Pubkey} {decimals : U8} {e : ProgramError}
    (h : l.transferChecked epoch source dest authority amount decimals = .error e) :
    e = .tokenProgram := by
  simp only [transferChecked, account, bind_eq_error, orError_eq_error, require_eq_error] at h
  by_cases hself : source = dest
  · simp only [if_pos hself, pure_ne_error, and_false, exists_false, or_false] at h
    grind
  · simp only [if_neg hself, bind_eq_error, orError_eq_error, pure_ne_error, and_false,
      exists_false, or_false] at h
    grind

private theorem burn_error {l : TokenLedger} {source authority : Pubkey} {amount : U64}
    {e : ProgramError} (h : l.burn source authority amount = .error e) : e = .tokenProgram := by
  simp only [burn, account, bind_eq_error, orError_eq_error, require_eq_error, pure_ne_error,
    and_false, exists_false, or_false] at h
  grind

end TokenLedger

private theorem OFTStore.exists_ld2sd {s : OFTStore} (hpos : 0 < s.rate) (amount : U64) :
    ∃ amountSd, s.ld2sd amount = .ok amountSd := by
  have hle := Nat.div_le_self amount.toNat s.rate
  obtain ⟨amountSd, -, hvalue⟩ := exists_fit (w := 64) (hle.trans_lt amount.isLt)
  exact ⟨amountSd, ld2sd_eq_ok.mpr ⟨hpos, hvalue⟩⟩

namespace Send

section Collect

variable {rt : Runtime} {sd : U8} {events : List Event} {w : World} {clock : Clock}
  {accs : SendAccounts} {sent received fee : U64}

/-- Locking depends on the sender's balance and the room in the escrow. -/
theorem exists_lock_iff (hwf : WellFormed rt sd w) (htype : w.oftStore.oftType = .adapter)
    (hcovered : w.tvl ≤ w.escrow) (hne : accs.tokenSource ≠ w.oftStore.tokenEscrow)
    (howner : w.ledger.ownerOf accs.tokenSource = some accs.signer)
    (hcredited : w.oftStore.credited w.ledger.mint clock.epoch sent.toNat =
      received.toNat + fee.toNat) :
    (∃ r, collect clock accs w sent received fee = .ok r) ↔
      w.CanCollect clock.epoch accs.tokenSource accs.signer sent.toNat received.toNat
        fee.toNat := by
  have htransfer : (∃ l, w.ledger.transferChecked clock.epoch accs.tokenSource
      w.oftStore.tokenEscrow accs.signer sent w.ledger.mint.decimals = .ok l) ↔ _ :=
    TokenLedger.exists_transferChecked_iff hne
  rw [OFTStore.credited_adapter htype] at hcredited
  simp only [World.CanCollect, htype]
  constructor
  · intro h
    obtain ⟨r, h⟩ := h
    simp only [collect, htype, if_true, bind_eq_ok] at h
    obtain ⟨_, -, l, hl, -⟩ := h
    have hcan := htransfer.mp ⟨l, hl⟩
    exact ⟨hcan.accepted, hcan.covered, hcan.room, hcan.withheldRoom⟩
  · intro h
    obtain ⟨haccepted, hbalance, hroom, hwithheldRoom⟩ := h
    have hfits : w.oftStore.tvlLd.toNat + received.toNat < 2 ^ 64 := by
      change w.tvl + _ < _
      omega
    obtain ⟨tvl, htvl, -⟩ := exists_checkedAdd hfits
    obtain ⟨ledger, hledger⟩ := htransfer.mpr
      ⟨haccepted, howner, by simp [hwf.escrowOwner], hbalance, hroom, hwithheldRoom⟩
    refine ⟨(tvl, ledger), ?_⟩
    simp only [collect, htype, if_true, bind_eq_ok, orError_eq_ok, pure_eq_ok]
    exact ⟨tvl, htvl, ledger, hledger, rfl⟩

private theorem exists_fee_iff (hwf : WellFormed rt sd w)
    (hne : accs.tokenSource ≠ w.oftStore.tokenEscrow)
    (howner : w.ledger.ownerOf accs.tokenSource = some accs.signer) {burned : U64}
    {l : TokenLedger} (h : w.ledger.burn accs.tokenSource accs.signer burned = .ok l) :
    (∃ l', l.transferChecked clock.epoch accs.tokenSource w.oftStore.tokenEscrow accs.signer fee
        w.ledger.mint.decimals = .ok l') ↔
      burned.toNat + fee.toNat ≤ w.ledger.balance accs.tokenSource ∧
        w.ledger.accepts (.transferChecked accs.tokenSource w.oftStore.tokenEscrow accs.signer
          fee.toNat) = true ∧
        w.escrow + (w.ledger.mint.schedule clock.epoch).net fee.toNat < 2 ^ 64 ∧
        w.ledger.withheld w.oftStore.tokenEscrow +
          (w.ledger.mint.schedule clock.epoch).fee fee.toNat < 2 ^ 64 := by
  have hburn := (TokenLedger.burn_burned h).1
  have haccepts := TokenLedger.burn_accepts h
  have hescrow : w.oftStore.tokenEscrow ∉ [accs.tokenSource] := by simpa using hne.symm
  have hdebited := hburn.debited
  rw [← hburn.frame.decimals, TokenLedger.exists_transferChecked_iff hne]
  constructor
  · intro hcan
    have haccepted := hcan.accepted
    have hcovered := hcan.covered
    have hroom := hcan.room
    have hwithheldRoom := hcan.withheldRoom
    rw [haccepts] at haccepted
    rw [hburn.schedule, hburn.frame.balance hescrow] at hroom
    rw [hburn.schedule, hburn.frame.withheld hescrow] at hwithheldRoom
    exact ⟨by omega, haccepted, hroom, hwithheldRoom⟩
  · intro hcan
    obtain ⟨hbalance, haccepted, hroom, hwithheldRoom⟩ := hcan
    refine ⟨by rwa [haccepts], hburn.frame.ownerOf _ _ howner, ?_, by omega, ?_, ?_⟩
    · simp [hburn.frame.ownerOf _ _ hwf.escrowOwner]
    · rw [hburn.schedule, hburn.frame.balance hescrow]
      exact hroom
    · rw [hburn.schedule, hburn.frame.withheld hescrow]
      exact hwithheldRoom

theorem exists_burn_iff (hwf : WellFormed rt sd w) (htype : w.oftStore.oftType = .native)
    (hne : accs.tokenSource ≠ w.oftStore.tokenEscrow)
    (howner : w.ledger.ownerOf accs.tokenSource = some accs.signer)
    (hsum : sent.toNat = received.toNat + fee.toNat) :
    (∃ r, collect clock accs w sent received fee = .ok r) ↔
      w.CanCollect clock.epoch accs.tokenSource accs.signer sent.toNat received.toNat
        fee.toNat := by
  have hnative : w.oftStore.oftType ≠ .adapter := OFTType.ne_adapter htype
  obtain ⟨burned, hsub, hburned⟩ := exists_checkedSub (show fee.toNat ≤ sent.toNat by omega)
  have hreceived : burned.toNat = received.toNat := by omega
  have hburn : (∃ l, w.ledger.burn accs.tokenSource accs.signer burned = .ok l) ↔ _ :=
    TokenLedger.exists_burn_iff
  simp only [World.CanCollect, htype]
  rw [collect, if_neg hnative]
  constructor
  · intro h
    obtain ⟨r, h⟩ := h
    simp only [hsub, bind_eq_ok, orError_eq_ok, Option.some.injEq, exists_eq_left'] at h
    obtain ⟨l, hl, l', hl', -⟩ := h
    have hcan := hburn.mp ⟨l, hl⟩
    have haccepted := hcan.accepted
    have hcovered := hcan.covered
    have hsupplied := hcan.supplied
    rw [hreceived] at haccepted
    change _ ≤ w.supply at hsupplied
    by_cases hpos : 0 < fee.toNat
    · rw [if_pos hpos] at hl'
      have hfee := (exists_fee_iff hwf hne howner hl).mp ⟨l', hl'⟩
      exact ⟨haccepted, by omega, by omega, fun _ => hfee.2⟩
    · exact ⟨haccepted, by omega, by omega, fun h => absurd h hpos⟩
  · intro h
    obtain ⟨haccepted, hbalance, hsupply, hroom⟩ := h
    have hsupplied : burned.toNat ≤ w.supply := by omega
    obtain ⟨l, hl⟩ := hburn.mpr ⟨by rwa [hreceived], howner, by omega, hsupplied⟩
    simp only [hsub, bind_eq_ok, orError_eq_ok, Option.some.injEq, exists_eq_left', pure_eq_ok]
    by_cases hpos : 0 < fee.toNat
    · obtain ⟨l', hl'⟩ := (exists_fee_iff hwf hne howner hl).mpr ⟨by omega, hroom hpos⟩
      exact ⟨_, l, hl, l', (if_pos hpos).trans hl', rfl⟩
    · exact ⟨_, l, hl, l, (if_neg hpos).trans rfl, rfl⟩

end Collect

section Errors

variable {rt : Runtime} {ep : Endpoint} {clock : Clock} {accs : SendAccounts} {params : SendParams}
  {peer : PeerConfig} {w : World} {sent received fee : U64} {e : ProgramError}

theorem tryAccounts_error (h : tryAccounts rt accs params w = .error e) : e = .constraint := by
  simp only [tryAccounts, World.checkStore, World.peerAccount, World.escrowAccount,
    World.checkMint, bind_eq_error, orError_eq_error, require_eq_error, pure_ne_error, and_false,
    exists_false, or_false] at h
  grind

theorem tryAccounts_peer (h : tryAccounts rt accs params w = .ok peer) :
    w.peers params.dstEid = some peer := by
  simp only [tryAccounts, bind_eq_ok, World.peerAccount_eq_ok, pure_eq_ok] at h
  obtain ⟨_, -, p, ⟨hpeer, -⟩, _, -, _, -, _, -, _, -, rfl⟩ := h
  exact hpeer

theorem collect_overflow (htype : w.oftStore.oftType = .adapter)
    (h : 2 ^ 64 ≤ w.tvl + received.toNat) :
    collect clock accs w sent received fee = .error .panic := by
  rw [collect, if_pos htype, checkedAdd_eq_none.mpr h]
  rfl

/-- Apart from the token program only the count of what is locked can fail. -/
theorem collect_error {bps amount : ℕ}
    (hsplit : FeeSplit w.oftStore w.ledger.mint clock.epoch bps amount sent.toNat received.toNat
      fee.toNat)
    (h : collect clock accs w sent received fee = .error e) :
    e = .tokenProgram ∨
      e = .panic ∧ w.oftStore.oftType = .adapter ∧ 2 ^ 64 ≤ w.tvl + received.toNat := by
  have hcredited := hsplit.credited
  by_cases htype : w.oftStore.oftType = .adapter
  · simp only [collect, if_pos htype, bind_eq_error, orError_eq_error, pure_ne_error, and_false,
      exists_false, or_false] at h
    rcases h with ⟨hnone, rfl⟩ | ⟨tvl, -, h⟩
    · exact .inr ⟨rfl, htype, checkedAdd_eq_none.mp hnone⟩
    · exact .inl (TokenLedger.transferChecked_error h)
  · rw [OFTStore.credited_native htype] at hcredited
    obtain ⟨burned, hburned, -⟩ := exists_checkedSub (show fee.toNat ≤ sent.toNat by omega)
    simp only [collect, if_neg htype, hburned, orError, ok_bind, bind_eq_error, pure_ne_error,
      and_false, exists_false, or_false] at h
    rcases h with h | ⟨ledger, -, h⟩
    · exact .inl (TokenLedger.burn_error h)
    · split at h
      · exact .inl (TokenLedger.transferChecked_error h)
      · exact absurd h pure_ne_error

theorem handler_limited
    (hamounts : w.checkedAmounts clock peer params.amountLd params.minAmountLd =
      .ok (sent, received, fee))
    (hlimit : consumeLimiter clock peer.outboundRateLimiter received = .error e) :
    handler rt ep clock accs params peer w = .error (.oft .rateLimitExceeded) := by
  obtain rfl := consumeLimiter_error hlimit
  simp only [handler, hamounts, hlimit, ok_bind]
  rfl

/-- How a send fails past the amounts and the limiter: on the tokens, on an account of the
endpoint's call, on the options or, with all of these in order, in the endpoint. -/
inductive Refused (rt : Runtime) (clock : Clock) (accs : SendAccounts) (params : SendParams)
    (peer : PeerConfig) (w : World) (sent received fee : U64) : ProgramError → Prop
  | tokens {e : ProgramError} (failed : collect clock accs w sent received fee = .error e) :
      Refused rt clock accs params peer w sent received fee e
  | missing (taken : ∃ r, collect clock accs w sent received fee = .ok r)
      (short : accs.remainingAccounts.length < 2) :
      Refused rt clock accs params peer w sent received fee .panic
  | sender (taken : ∃ r, collect clock accs w sent received fee = .ok r)
      (other : accs.remainingAccounts[1]? ≠ some w.storeKey) :
      Refused rt clock accs params peer w sent received fee (.oft .invalidSender)
  | options (taken : ∃ r, collect clock accs w sent received fee = .ok r)
      (apart : ∀ options, peer.enforcedOptions.combineOptions rt params.composeMsg
        params.options ≠ .ok options) :
      Refused rt clock accs params peer w sent received fee .options
  | endpoint (taken : ∃ r, collect clock accs w sent received fee = .ok r)
      (sender : accs.remainingAccounts[1]? = some w.storeKey)
      (combined : ∃ options, peer.enforcedOptions.combineOptions rt params.composeMsg
        params.options = .ok options) :
      Refused rt clock accs params peer w sent received fee .endpoint

theorem handler_refused {outbound : Option RateLimiter}
    (hamounts : w.checkedAmounts clock peer params.amountLd params.minAmountLd =
      .ok (sent, received, fee))
    (hlimit : consumeLimiter clock peer.outboundRateLimiter received = .ok outbound)
    (h : handler rt ep clock accs params peer w = .error e) :
    Refused rt clock accs params peer w sent received fee e := by
  obtain ⟨-, hsplit, -⟩ := checkedAmounts_eq_ok.mp hamounts
  obtain ⟨amountSd, hsd⟩ := OFTStore.exists_ld2sd hsplit.rate_pos received
  simp only [handler, hamounts, hlimit, hsd, ok_bind, bind_eq_error, orError_eq_error,
    require_eq_error, pure_ne_error, and_false, exists_false, or_false] at h
  rcases h with h | ⟨r, htaken, ⟨hnone, rfl⟩ | ⟨sender, hsender, ⟨hother, rfl⟩ | ⟨_, hkey,
    hoptions | ⟨options, hoptions, -, rfl⟩⟩⟩⟩
  · exact .tokens h
  · rw [List.getElem?_eq_none_iff] at hnone
    exact .missing ⟨r, htaken⟩ (by omega)
  · rw [orError_eq_ok] at hsender
    refine .sender ⟨r, htaken⟩ ?_
    rw [hsender, ne_eq, Option.some.injEq]
    exact fun heq => hother heq.symm
  · have hcombined (options : Bytes) : peer.enforcedOptions.combineOptions rt params.composeMsg
        params.options ≠ .ok options := by
      intro hok
      cases hoptions.symm.trans hok
    rw [EnforcedOptions.combineOptions, orError_eq_error] at hoptions
    obtain ⟨-, rfl⟩ := hoptions
    exact .options ⟨r, htaken⟩ hcombined
  · rw [require_eq_ok] at hkey
    rw [orError_eq_ok, ← hkey] at hsender
    exact .endpoint ⟨r, htaken⟩ hsender ⟨options, hoptions⟩

end Errors

section Handler

variable {rt : Runtime} {ep : Endpoint} {clock : Clock} {accs : SendAccounts} {params : SendParams}
  {peer : PeerConfig} {w : World}

theorem exists_handler_iff :
    (∃ r, handler rt ep clock accs params peer w = .ok r) ↔
      ∃ sent received fee,
        w.checkedAmounts clock peer params.amountLd params.minAmountLd =
          .ok (sent, received, fee) ∧
        (∃ outbound, consumeLimiter clock peer.outboundRateLimiter received = .ok outbound) ∧
        (∃ r, collect clock accs w sent received fee = .ok r) ∧
        accs.remainingAccounts[1]? = some w.storeKey ∧
        ∃ options amountSd,
          peer.enforcedOptions.combineOptions rt params.composeMsg params.options = .ok options ∧
          w.oftStore.ld2sd received = .ok amountSd ∧
          (ep.send ⟨params.dstEid, peer.peerAddress, messageOf accs params amountSd, options,
            params.nativeFee, params.lzTokenFee⟩ accs.remainingAccounts).isSome := by
  simp only [handler, bind_eq_ok, Prod.exists, orError_eq_ok, require_eq_ok, exists_const,
    pure_eq_ok, Option.isSome_iff_exists]
  constructor
  · intro h
    obtain ⟨_, _, sent, received, fee, hamounts, outbound, hout, tvl, ledger, hcollect, sender,
      hsender, rfl, amountSd, hsd, options, hoptions, receipt, hreceipt, -⟩ := h
    exact ⟨sent, received, fee, hamounts, ⟨outbound, hout⟩, ⟨tvl, ledger, hcollect⟩, hsender,
      options, amountSd, hoptions, hsd, receipt, hreceipt⟩
  · intro h
    obtain ⟨sent, received, fee, hamounts, ⟨outbound, hout⟩, ⟨tvl, ledger, hcollect⟩, hsender,
      options, amountSd, hoptions, hsd, receipt, hreceipt⟩ := h
    exact ⟨_, _, sent, received, fee, hamounts, outbound, hout, tvl, ledger, hcollect, _, hsender,
      rfl, amountSd, hsd, options, hoptions, receipt, hreceipt, rfl⟩

theorem tryAccounts_iff {sd : U8} (hwf : WellFormed rt sd w) :
    tryAccounts rt accs params w = .ok peer ↔
      w.peers params.dstEid = some peer ∧
        w.ledger.ownerOf accs.tokenSource = some accs.signer := by
  obtain ⟨escrow, haccount, howner⟩ := Option.map_eq_some_iff.mp hwf.escrowOwner
  have hescrow := World.escrowAccount_eq_ok.mpr ⟨haccount, howner⟩
  simp only [tryAccounts, hwf.checkStore, hescrow, hwf.checkMint, ok_bind, bind_eq_ok,
    hwf.peerAccount_eq_ok, orError_eq_ok, require_eq_ok, exists_const, pure_eq_ok]
  constructor
  · intro h
    obtain ⟨p, hpeer, source, hsource, hsigner, rfl⟩ := h
    exact ⟨hpeer, by rw [TokenLedger.ownerOf_of_account hsource, hsigner]⟩
  · intro h
    obtain ⟨hpeer, hsigner⟩ := h
    obtain ⟨source, hsource, hsigner⟩ := Option.map_eq_some_iff.mp hsigner
    exact ⟨peer, hpeer, source, hsource, hsigner, rfl⟩

end Handler

end Send

section Reachable

variable {rt : Runtime} {sd : U8} {events : List Event} {w : World}

theorem Send.exists_collect_iff (h : Reaches rt sd events w) {clock : Clock} {accs : SendAccounts}
    {bps amount : ℕ} {sent received fee : U64} (hsigned : rt.signable accs.signer = true)
    (howner : w.ledger.ownerOf accs.tokenSource = some accs.signer)
    (hsplit : FeeSplit w.oftStore w.ledger.mint clock.epoch bps amount sent.toNat received.toNat
      fee.toNat) :
    (∃ r, collect clock accs w sent received fee = .ok r) ↔
      w.CanCollect clock.epoch accs.tokenSource accs.signer sent.toNat received.toNat
        fee.toNat := by
  have hne := h.wellFormed.source_ne_escrow howner hsigned
  have hcredited := hsplit.credited
  cases htype : w.oftStore.oftType with
  | adapter =>
    exact exists_lock_iff h.wellFormed htype (h.books htype).2 hne howner hcredited
  | native =>
    rw [OFTStore.credited_native (OFTType.ne_adapter htype)] at hcredited
    exact exists_burn_iff h.wellFormed htype hne howner hcredited

end Reachable

end FdfiToken
