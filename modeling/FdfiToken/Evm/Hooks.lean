import FdfiToken.Evm.Mesh

/-!
# What the hooks do to a token

The overrides forward to the base contracts, which lock and release the canonical token or burn
and mint a satellite's own. An account that neither calls nor signs only receives.
-/

namespace FdfiToken.Evm

open Word Fallible Shifts

section Account

variable {oz : OpenZeppelin} {s s' : FDFIToken oz} {tx : TokenTx} {a : Address}

theorem FDFIToken.permit_signed {p : Permit} {signature : Signature}
    (h : s.exec tx = .ok s') (hcall : tx.call = .permit p signature) :
    oz.recoverPermit p (s.nonces p.owner) signature = some p.owner := by
  obtain ⟨msg, call⟩ := tx
  cases hcall
  simp only [exec, permit, bind_eq_ok, require_eq_ok, orError_eq_ok] at h
  obtain ⟨-, -, signer, hsigner, -, rfl, -⟩ := h
  exact hsigner

def TokenTx.paidTo (a : Address) (tx : TokenTx) : ℕ :=
  match tx.movement with
  | some t => if t.dst = a then t.value.toNat else 0
  | none => 0

/-- An account that does not call and allows nobody to spend only receives. -/
theorem FDFIToken.exec_receives (hs : s.Sound) (ha : a ≠ 0) (hsender : tx.msg.sender ≠ a)
    (hallow : ∀ spender, s.erc20.allowances a spender = 0) (h : s.exec tx = .ok s') :
    s'.erc20.holdings a = s.erc20.holdings a + tx.paidTo a := by
  unfold TokenTx.paidTo
  cases hmove : tx.movement with
  | none =>
    obtain ⟨⟨f, hledger, -⟩, -, -⟩ := exec_quiet h hmove
    rw [hledger]
    rfl
  | some t =>
    obtain ⟨hends, f, -, hmoved⟩ := exec_moved h hmove
    have hbooks : s'.erc20.holdings a + ERC20.side t.src t.value a =
        s.erc20.holdings a + ERC20.side t.dst t.value a :=
      (hmoved.ledger_of hs.backed).holdings.apply a
    have hout : ERC20.side t.src t.value a = 0 := by
      by_cases hsrc : t.src = a
      · rcases hends.source with hzero | hcaller | hspent
        · exact absurd (hsrc.symm.trans hzero) ha
        · exact absurd (hcaller.symm.trans hsrc) hsender
        · rw [hsrc, hallow] at hspent
          rw [hsrc, ERC20.side_self _ ha]
          exact Nat.le_zero.mp hspent
      · exact ERC20.side_of_ne _ (Ne.symm hsrc)
    have hin : ERC20.side t.dst t.value a = if t.dst = a then t.value.toNat else 0 := by
      by_cases hdst : t.dst = a
      · rw [hdst, ERC20.side_self _ ha, if_pos rfl]
      · rw [ERC20.side_of_ne _ (Ne.symm hdst), if_neg hdst]
    rw [hout, hin, Nat.add_zero] at hbooks
    exact hbooks

theorem FDFIToken.exec_allows_nobody (hgrant : tx.grantor ≠ some a)
    (hallow : ∀ spender, s.erc20.allowances a spender = 0) (h : s.exec tx = .ok s')
    (spender : Address) : s'.erc20.allowances a spender = 0 := by
  by_contra hne
  have hraised : (s.erc20.allowances a spender).toNat <
      (s'.erc20.allowances a spender).toNat := by
    rw [hallow]
    exact Nat.pos_of_ne_zero fun hzero => hne (BitVec.eq_of_toNat_eq hzero)
  exact hgrant (exec_allowances h hraised)

end Account

section Hooks

variable {oz : OpenZeppelin} {adapter : { a : Address // a ≠ 0 }} {msg : Msg}

theorem OFTAdapter.debit_eq_ok {src : Address} {amountLD minAmountLD : U256} {dstEid : U32}
    {s : FDFIToken oz} {out : Debited (FDFIToken oz)}
    (h : (base oz adapter).debit msg src amountLD minAmountLD dstEid s = .ok out) :
    out.amountReceivedLD = OFTCore.removeDust amountLD ∧
      s.exec ⟨callAs adapter msg,
        .transferFrom src adapter.1 out.amountReceivedLD⟩ = .ok out.state := by
  simp only [base, bind_eq_ok, OFTCore.debitView_eq_ok, pure_eq_ok] at h
  obtain ⟨-, ⟨-, rfl⟩, s₁, hpull, rfl⟩ := h
  exact ⟨rfl, hpull⟩

theorem OFTAdapter.credit_eq_ok {dst : Address} {amountLD : U256} {srcEid : U32}
    {s : FDFIToken oz} {out : Credited (FDFIToken oz)}
    (h : (base oz adapter).credit msg dst amountLD srcEid s = .ok out) :
    s.exec ⟨callAs adapter msg, .transfer dst amountLD⟩ = .ok out.state := by
  simp only [base, bind_eq_ok, pure_eq_ok] at h
  obtain ⟨s₁, hpay, rfl⟩ := h
  exact hpay

theorem OFTAdapter.credit_eq_error {dst : Address} {amountLD : U256} {srcEid : U32}
    {s : FDFIToken oz} {e : Revert} (hcovered : amountLD.toNat ≤ s.erc20.holdings adapter.1)
    (h : (base oz adapter).credit msg dst amountLD srcEid s = .error e) :
    dst = 0 ∨ s.transfersEnabled = false ∨
      oz.transferVotingUnits (callAs adapter msg) adapter.1 dst amountLD s.votes = .error e := by
  by_cases hdst : dst = 0
  · exact .inl hdst
  right
  by_cases hgate : s.transfersEnabled = true
  · right
    obtain ⟨l, hl⟩ := ERC20.exists_update dst adapter.2 hcovered
    have hcall : (base oz adapter).credit msg dst amountLD srcEid s =
        oz.transferVotingUnits (callAs adapter msg) adapter.1 dst amountLD s.votes >>=
          fun votes => pure ⟨{ s with erc20 := l, votes }, amountLD⟩ := by
      have hself : ¬ adapter.1 = 0#160 := adapter.2
      have hdst : ¬ dst = 0#160 := hdst
      simp [base, ERC20.transfer, ERC20._transfer, ERC20.Host.update, FDFIToken.update,
        FDFIToken.votesUpdate, callAs, require, hself, hdst, hgate, hl]
    rw [hcall, bind_eq_error] at h
    rcases h with h | h
    · exact h
    · obtain ⟨votes, -, hpure⟩ := h
      exact absurd hpure pure_ne_error
  · exact .inl (Bool.not_eq_true _ ▸ hgate)

namespace OFTToken

variable {s s' : OFTToken}

theorem update_eq_ok {src dst : Address} {value : U256} (hs : s.erc20.Backed)
    (h : s.update msg src dst value = .ok s') :
    ERC20.Updated ⟨src, dst, value⟩ s.erc20 s'.erc20 := by
  simp only [update, bind_eq_ok, pure_eq_ok] at h
  obtain ⟨erc20, hledger, rfl⟩ := h
  exact ERC20.update_eq_ok hs hledger

theorem debit_eq_ok {src : Address} {amountLD minAmountLD : U256} {dstEid : U32}
    {out : Debited OFTToken} (hs : s.erc20.Backed)
    (h : base.debit msg src amountLD minAmountLD dstEid s = .ok out) :
    out.amountReceivedLD = OFTCore.removeDust amountLD ∧ out.state.erc20.Backed ∧
      Shift out.amountReceivedLD.toNat 0 s.erc20.totalSupply.toNat
        out.state.erc20.totalSupply.toNat := by
  simp only [base, bind_eq_ok, OFTCore.debitView_eq_ok, pure_eq_ok, ERC20.burn_eq_ok] at h
  obtain ⟨-, ⟨-, rfl⟩, s₁, ⟨hsrc, hburn⟩, rfl⟩ := h
  have hupdated := update_eq_ok hs hburn
  have hsupply := hupdated.totalSupply
  rw [ERC20.zeroSide, if_pos rfl, ERC20.zeroSide, if_neg hsrc] at hsupply
  exact ⟨rfl, hupdated.backed hs, hsupply⟩

theorem credit_eq_ok {dst : Address} {amountLD : U256} {srcEid : U32}
    {out : Credited OFTToken} (hs : s.erc20.Backed)
    (h : base.credit msg dst amountLD srcEid s = .ok out) :
    out.state.erc20.Backed ∧ Shift 0 amountLD.toNat s.erc20.totalSupply.toNat
      out.state.erc20.totalSupply.toNat := by
  simp only [base, bind_eq_ok, pure_eq_ok, ERC20.mint_eq_ok] at h
  obtain ⟨s₁, ⟨hdst, hmint⟩, rfl⟩ := h
  have hupdated := update_eq_ok hs hmint
  have hsupply := hupdated.totalSupply
  rw [ERC20.zeroSide, if_neg hdst, ERC20.zeroSide, if_pos rfl] at hsupply
  exact ⟨hupdated.backed hs, hsupply⟩

theorem exec_supply {recover : Permit → U256 → Signature → Option Address} {call : HolderCall}
    (hs : s.erc20.Backed) (h : s.exec recover msg call = .ok s') :
    s'.erc20.Backed ∧ s'.erc20.totalSupply = s.erc20.totalSupply := by
  have hmoved (s₁ : OFTToken) {src dst : Address} {value : U256}
      (hback : s₁.erc20.Backed) (hsrc : src ≠ 0) (hdst : dst ≠ 0)
      (hupdate : s₁.update msg src dst value = .ok s') :
      s'.erc20.Backed ∧ s'.erc20.totalSupply = s₁.erc20.totalSupply := by
    have hupdated := update_eq_ok hback hupdate
    have hsupply := hupdated.totalSupply
    rw [ERC20.zeroSide, if_neg hdst, ERC20.zeroSide, if_neg hsrc] at hsupply
    exact ⟨hupdated.backed hback, BitVec.eq_of_toNat_eq hsupply⟩
  cases call with
  | transfer dst value =>
    simp only [exec, ERC20.transfer, ERC20.transfer_eq_ok] at h
    exact hmoved s hs h.1 h.2.1 h.2.2
  | transferFrom src dst value =>
    obtain ⟨hsrc, hdst, -, left, -, hupdate⟩ := ERC20.transferFrom_eq_ok h
    exact hmoved { s with erc20 := s.erc20.setAllowance src msg.sender left } hs hsrc hdst hupdate
  | approve spender value =>
    obtain ⟨-, -, rfl⟩ := ERC20.approve_eq_ok.mp h
    exact ⟨hs, rfl⟩
  | permit p signature =>
    simp only [exec, permit, bind_eq_ok] at h
    obtain ⟨-, -, -, -, -, -, happrove⟩ := h
    obtain ⟨-, -, rfl⟩ := ERC20.approve_eq_ok.mp happrove
    exact ⟨hs, rfl⟩

end OFTToken

variable {σ : Type} {lib : RateLimiter} {core : OFTBase σ}

theorem FDFIOFTAdapter.debit_forwards {src : Address} {amountLD minAmountLD : U256}
    {dstEid : U32} {a : FDFIOFTAdapter σ} {out : Debited (FDFIOFTAdapter σ)}
    {event : RateConsumed}
    (h : a._debit lib core msg src amountLD minAmountLD dstEid = .ok (out, event)) :
    core.debit msg src amountLD minAmountLD dstEid a.base =
      .ok (out.map FDFIOFTAdapter.base) := by
  simp only [_debit, bind_eq_ok, pure_eq_ok, Prod.mk.injEq] at h
  obtain ⟨-, -, -, -, o, hcore, rfl, -⟩ := h
  exact hcore

theorem FDFIOFTAdapter.credit_forwards {dst : Address} {amountLD : U256} {srcEid : U32}
    {a : FDFIOFTAdapter σ} {out : Credited (FDFIOFTAdapter σ)} {event : RateConsumed}
    (h : a._credit lib core msg dst amountLD srcEid = .ok (out, event)) :
    core.credit msg dst amountLD srcEid a.base = .ok (out.map FDFIOFTAdapter.base) := by
  simp only [_credit, bind_eq_ok, pure_eq_ok, Prod.mk.injEq] at h
  obtain ⟨-, -, o, hcore, rfl, -⟩ := h
  exact hcore

/-- A release fails because the base fails, or because the capacity event cannot be computed. -/
theorem FDFIOFTAdapter.credit_eq_error {dst : Address} {amountLD : U256} {srcEid : U32}
    {a : FDFIOFTAdapter σ} {e : Revert}
    (h : a._credit lib core msg dst amountLD srcEid = .error e) :
    lib.capacity msg (a.rateLimits.inflow srcEid amountLD srcEid) = .error e ∨
      core.credit msg dst amountLD srcEid a.base = .error e := by
  simp only [_credit, bind_eq_error, pure_ne_error, and_false, exists_false, or_false] at h
  rcases h with h | h
  · exact .inl h
  · obtain ⟨-, -, hcore⟩ := h
    exact .inr hcore

theorem FDFIOFTUpgradeable.debit_forwards {src : Address} {amountLD minAmountLD : U256}
    {dstEid : U32} {c : FDFIOFTUpgradeable σ} {out : Debited (FDFIOFTUpgradeable σ)}
    (h : c._debit lib core msg src amountLD minAmountLD dstEid = .ok out) :
    core.debit msg src amountLD minAmountLD dstEid c.base =
      .ok (out.map FDFIOFTUpgradeable.base) := by
  simp only [_debit, bind_eq_ok, pure_eq_ok] at h
  obtain ⟨-, -, o, hcore, rfl⟩ := h
  exact hcore

theorem FDFIOFTUpgradeable.credit_forwards {dst : Address} {amountLD : U256} {srcEid : U32}
    {c : FDFIOFTUpgradeable σ} {out : Credited (FDFIOFTUpgradeable σ)}
    (h : c._credit core msg dst amountLD srcEid = .ok out) :
    core.credit msg dst amountLD srcEid c.base = .ok (out.map FDFIOFTUpgradeable.base) := by
  simp only [_credit, bind_eq_ok, pure_eq_ok] at h
  obtain ⟨o, hcore, rfl⟩ := h
  exact hcore

theorem FDFIOFTAdapter.construct_base {oz : OpenZeppelin} {adapter : { a : Address // a ≠ 0 }}
    {owner_ : Address} {configs : List RateLimitConfig} {s : FDFIToken oz}
    {a : FDFIOFTAdapter (FDFIToken oz)}
    (h : construct lib (OFTAdapter.base oz adapter) msg owner_ configs s = .ok a) :
    a.base = s := by
  simp only [construct, OFTAdapter.base, bind_eq_ok, pure_eq_ok] at h
  obtain ⟨-, ⟨-, -, rfl⟩, -, -, -, -, rfl⟩ := h
  rfl

theorem FDFIOFTUpgradeable.init_base {owner_ : Address} {configs : List RateLimitConfig}
    {s : OFTToken} {c : FDFIOFTUpgradeable OFTToken}
    (h : (deployed s).init lib OFTToken.base msg configs owner_ = .ok c) : c.base = s := by
  simp only [init, OFTToken.base, bind_eq_ok, pure_eq_ok] at h
  obtain ⟨-, -, -, ⟨-, -, rfl⟩, -, -, rfl⟩ := h
  rfl

end Hooks

end FdfiToken.Evm
