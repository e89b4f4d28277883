import FdfiToken.Evm.Token

/-!
# Supply and gating of the token

Over every run of calls by anybody, the total supply is the sum of the balances and stays under
the cap, only the owner opens the transfer gate and nobody closes it, and until then a balance
is what was minted to it less what was burned from it.
-/

namespace FdfiToken.Evm

open Word Fallible Shifts Runs

/-- The `Transfer` event a call emits when it succeeds. -/
def TokenTx.movement (tx : TokenTx) : Option Transfer :=
  match tx.call with
  | .mintTo dst amount => some ⟨0, dst, amount⟩
  | .transfer dst value => some ⟨tx.msg.sender, dst, value⟩
  | .transferFrom src dst value => some ⟨src, dst, value⟩
  | .burn value => some ⟨tx.msg.sender, 0, value⟩
  | .burnFrom account value => some ⟨account, 0, value⟩
  | _ => none

def TokenTx.grantor (tx : TokenTx) : Option Address :=
  match tx.call with
  | .approve _ _ => some tx.msg.sender
  | .permit p _ => some p.owner
  | _ => none

def TokenCall.gate : TokenCall → Option Bool
  | .init _ => some false
  | .enableTransfers => some true
  | _ => none

namespace FDFIToken

variable {oz : OpenZeppelin} {s s' : FDFIToken oz} {tx : TokenTx} {t : Transfer}

def withAllowances (f : Address → Address → U256) (s : FDFIToken oz) : FDFIToken oz :=
  { s with erc20 := { s.erc20 with allowances := f } }

theorem Moved.ledger_of {src dst : Address} {value : U256} {f : Address → Address → U256}
    (h : Moved src dst value (s.withAllowances f) s') (hs : s.erc20.Backed) :
    ERC20.Updated ⟨src, dst, value⟩ s.erc20 s'.erc20 := by
  have hupdated := ERC20.update_eq_ok (l := (s.withAllowances f).erc20) hs h.ledger
  exact ⟨hupdated.holdings, hupdated.totalSupply, hupdated.logs, hupdated.covered⟩

theorem mintTo_eq_ok {msg : Msg} {dst : Address} {amount : U256}
    (h : s.mintTo msg dst amount = .ok s') :
    s.ownable.owner = msg.sender ∧ dst ≠ 0 ∧
      s.erc20.totalSupply.toNat + amount.toNat ≤ maxSupply.toNat ∧ Moved 0 dst amount s s' := by
  simp only [mintTo, Ownable.checkOwner, bind_eq_ok, require_eq_ok, orError_eq_ok,
    checkedAdd_eq_some, ERC20.mint_eq_ok] at h
  obtain ⟨-, howner, supply, hsupply, -, hcap, hdst, hupdate⟩ := h
  exact ⟨howner, hdst, hsupply ▸ hcap, update_eq_ok hupdate⟩

theorem enableTransfers_eq_ok {msg : Msg} (h : s.enableTransfers msg = .ok s') :
    s.ownable.owner = msg.sender ∧ s' = { s with transfersEnabled := true } := by
  simp only [enableTransfers, Ownable.checkOwner, bind_eq_ok, require_eq_ok, pure_eq_ok] at h
  obtain ⟨-, howner, -, -, rfl⟩ := h
  exact ⟨howner, rfl⟩

structure Ends (s : FDFIToken oz) (tx : TokenTx) (t : Transfer) : Prop where
  mint : t.src = 0 → tx.call = .mintTo t.dst t.value
  burn : t.dst = 0 → tx.call = .burn t.value ∧ t.src = tx.msg.sender ∨
    tx.call = .burnFrom t.src t.value
  source : t.src = 0 ∨ t.src = tx.msg.sender ∨
    t.value.toNat ≤ (s.erc20.allowances t.src tx.msg.sender).toNat

/-- A call that moves value goes through `_update`, after spending an allowance at most. -/
theorem exec_moved (h : s.exec tx = .ok s') (hmove : tx.movement = some t) :
    Ends s tx t ∧ ∃ f : Address → Address → U256,
      (∀ a b, (f a b).toNat ≤ (s.erc20.allowances a b).toNat) ∧
        Moved t.src t.dst t.value (s.withAllowances f) s' := by
  obtain ⟨msg, call⟩ := tx
  cases call with
  | mintTo dst amount =>
    cases hmove
    obtain ⟨-, hdst, -, hmoved⟩ := mintTo_eq_ok h
    exact ⟨⟨fun _ => rfl, fun hzero => absurd hzero hdst, .inl rfl⟩, s.erc20.allowances,
      fun _ _ => le_rfl, hmoved⟩
  | transfer dst value =>
    cases hmove
    simp only [exec, ERC20.transfer, ERC20.transfer_eq_ok] at h
    exact ⟨⟨fun hzero => absurd hzero h.1, fun hzero => absurd hzero h.2.1, .inr (.inl rfl)⟩,
      s.erc20.allowances, fun _ _ => le_rfl, update_eq_ok h.2.2⟩
  | transferFrom src dst value =>
    cases hmove
    obtain ⟨hsrc, hdst, hspent, left, hleft, hupdate⟩ := ERC20.transferFrom_eq_ok h
    exact ⟨⟨fun hzero => absurd hzero hsrc, fun hzero => absurd hzero hdst,
      .inr (.inr hspent)⟩, _, ERC20.setAllowance_le _ hleft, update_eq_ok hupdate⟩
  | burn value =>
    cases hmove
    simp only [exec, ERC20.burn, ERC20.burn_eq_ok] at h
    exact ⟨⟨fun hzero => absurd hzero h.1, fun _ => .inl ⟨rfl, rfl⟩, .inr (.inl rfl)⟩,
      s.erc20.allowances, fun _ _ => le_rfl, update_eq_ok h.2⟩
  | burnFrom account value =>
    cases hmove
    obtain ⟨haccount, hspent, left, hleft, hupdate⟩ := ERC20.burnFrom_eq_ok h
    exact ⟨⟨fun hzero => absurd hzero haccount, fun _ => .inr rfl, .inr (.inr hspent)⟩, _,
      ERC20.setAllowance_le _ hleft, update_eq_ok hupdate⟩
  | _ => cases hmove

/-- Before `initialize` there is no owner and the gate is closed. -/
def Pristine (s : FDFIToken oz) : Prop :=
  s.initialized = false → s.ownable = .unset ∧ s.transfersEnabled = false

structure Quiet (tx : TokenTx) (s s' : FDFIToken oz) : Prop where
  ledger : ∃ f : Address → Address → U256, s'.erc20 = (s.withAllowances f).erc20 ∧
    ∀ a, tx.grantor ≠ some a → f a = s.erc20.allowances a
  gate : s'.transfersEnabled = tx.call.gate.getD s.transfersEnabled
  pristine : s.Pristine → s'.Pristine

private theorem Pristine.initialized_of_owner {msg : Msg} (h : s.Pristine)
    (howner : s.ownable.owner = msg.sender ∨ s.ownable.pendingOwner = msg.sender) :
    s.initialized = true := by
  by_contra hinit
  obtain ⟨hunset, -⟩ := h (Bool.eq_false_iff.mpr hinit)
  rw [hunset] at howner
  rcases howner with heq | heq
  · exact msg.sender_ne heq.symm
  · exact msg.sender_ne heq.symm

private theorem same_quiet (tx : TokenTx) (h : s'.erc20 = s.erc20) :
    ∃ f : Address → Address → U256, s'.erc20 = (s.withAllowances f).erc20 ∧
      ∀ a, tx.grantor ≠ some a → f a = s.erc20.allowances a :=
  ⟨s.erc20.allowances, h, fun _ _ => rfl⟩

private theorem approve_quiet {owner spender : Address} {value : U256} {s₁ : FDFIToken oz}
    (tx : TokenTx) (h : ERC20._approve owner spender value s₁ = .ok s') (hs : s₁.erc20 = s.erc20)
    (hgrant : tx.grantor = some owner) :
    ∃ f : Address → Address → U256, s'.erc20 = (s.withAllowances f).erc20 ∧
      ∀ a, tx.grantor ≠ some a → f a = s.erc20.allowances a := by
  obtain ⟨-, -, rfl⟩ := ERC20.approve_eq_ok.mp h
  refine ⟨_, congrArg (ERC20.setAllowance owner spender value) hs, fun a ha => ?_⟩
  refine Function.update_of_ne (fun heq => ha ?_) _ _
  rw [hgrant, heq]

theorem exec_quiet (h : s.exec tx = .ok s') (hmove : tx.movement = none) : Quiet tx s s' := by
  obtain ⟨msg, call⟩ := tx
  cases call with
  | init owner_ =>
    simp only [exec, init, bind_eq_ok, pure_eq_ok] at h
    obtain ⟨-, -, -, -, rfl⟩ := h
    exact ⟨same_quiet _ rfl, rfl, fun _ hinit => by cases hinit⟩
  | enableTransfers =>
    obtain ⟨howner, rfl⟩ := enableTransfers_eq_ok h
    refine ⟨same_quiet _ rfl, rfl, fun hs hinit => ?_⟩
    exact absurd (hs.initialized_of_owner (.inl howner)) (Bool.eq_false_iff.mp hinit)
  | approve spender value =>
    have hledger := approve_quiet ⟨msg, .approve spender value⟩ h rfl rfl
    obtain ⟨-, -, rfl⟩ := ERC20.approve_eq_ok.mp h
    exact ⟨hledger, rfl, fun hs => hs⟩
  | permit p signature =>
    simp only [exec, permit, bind_eq_ok] at h
    obtain ⟨-, -, -, -, -, -, happrove⟩ := h
    have hledger := approve_quiet ⟨msg, .permit p signature⟩ happrove rfl rfl
    obtain ⟨-, -, rfl⟩ := ERC20.approve_eq_ok.mp happrove
    exact ⟨hledger, rfl, fun hs => hs⟩
  | delegate delegatee =>
    simp only [exec, _delegate, bind_eq_ok, pure_eq_ok] at h
    obtain ⟨-, -, rfl⟩ := h
    exact ⟨same_quiet _ rfl, rfl, fun hs => hs⟩
  | delegateBySig delegation signature =>
    simp only [exec, delegateBySig, _delegate, bind_eq_ok, pure_eq_ok] at h
    obtain ⟨-, -, -, -, -, -, -, -, rfl⟩ := h
    exact ⟨same_quiet _ rfl, rfl, fun hs => hs⟩
  | transferOwnership newOwner =>
    simp only [exec, withOwnable, Ownable.transferOwnership, Ownable.checkOwner, bind_eq_ok,
      require_eq_ok, pure_eq_ok] at h
    obtain ⟨-, ⟨-, howner, rfl⟩, rfl⟩ := h
    refine ⟨same_quiet _ rfl, rfl, fun hs hinit => ?_⟩
    exact absurd (hs.initialized_of_owner (.inl howner)) (Bool.eq_false_iff.mp hinit)
  | acceptOwnership =>
    simp only [exec, withOwnable, Ownable.acceptOwnership, bind_eq_ok, require_eq_ok,
      pure_eq_ok] at h
    obtain ⟨-, ⟨-, hpending, rfl⟩, rfl⟩ := h
    refine ⟨same_quiet _ rfl, rfl, fun hs hinit => ?_⟩
    exact absurd (hs.initialized_of_owner (.inr hpending)) (Bool.eq_false_iff.mp hinit)
  | renounceOwnership =>
    simp only [exec, withOwnable, Ownable.renounceOwnership, Ownable.checkOwner, bind_eq_ok,
      require_eq_ok, pure_eq_ok] at h
    obtain ⟨-, ⟨-, howner, rfl⟩, rfl⟩ := h
    refine ⟨same_quiet _ rfl, rfl, fun hs hinit => ?_⟩
    exact absurd (hs.initialized_of_owner (.inl howner)) (Bool.eq_false_iff.mp hinit)
  | _ => cases hmove

/-- The calls that move no value, one by one. -/
inductive Unmoved (msg : Msg) (s : FDFIToken oz) : TokenCall → FDFIToken oz → Prop
  | init {owner_ : Address} {ownable : Ownable} (fresh : s.initialized = false)
      (owned : Ownable.init owner_ = .ok ownable) :
      Unmoved msg s (.init owner_)
        { s with initialized := true, ownable, transfersEnabled := false }
  | enableTransfers (owner : s.ownable.owner = msg.sender) (closed : s.transfersEnabled = false) :
      Unmoved msg s .enableTransfers { s with transfersEnabled := true }
  | approve {spender : Address} {value : U256} (spender_ne : spender ≠ 0) :
      Unmoved msg s (.approve spender value)
        { s with erc20 := s.erc20.setAllowance msg.sender spender value }
  | permit {p : Permit} {signature : Signature} (live : msg.timestamp.toNat ≤ p.deadline.toNat)
      (signed : oz.recoverPermit p (s.nonces p.owner) signature = some p.owner)
      (owner_ne : p.owner ≠ 0) (spender_ne : p.spender ≠ 0) :
      Unmoved msg s (.permit p signature)
        { s.useNonce p.owner with erc20 := s.erc20.setAllowance p.owner p.spender p.value }
  | delegate {delegatee : Address} {votes : oz.Votes}
      (named : oz.delegate msg msg.sender delegatee (s.erc20.balances msg.sender) s.votes =
        .ok votes) :
      Unmoved msg s (.delegate delegatee) { s with votes }
  | delegateBySig {d : Delegation} {signature : Signature} {signer : Address} {votes : oz.Votes}
      (live : msg.timestamp.toNat ≤ d.expiry.toNat)
      (signed : oz.recoverDelegation d signature = some signer)
      (nonce : d.nonce = s.nonces signer)
      (named : oz.delegate msg signer d.delegatee (s.erc20.balances signer) s.votes = .ok votes) :
      Unmoved msg s (.delegateBySig d signature) { s.useNonce signer with votes }
  | transferOwnership {newOwner : Address} {ownable : Ownable}
      (passed : Ownable.transferOwnership msg newOwner s.ownable = .ok ownable) :
      Unmoved msg s (.transferOwnership newOwner) { s with ownable }
  | acceptOwnership {ownable : Ownable}
      (passed : Ownable.acceptOwnership msg s.ownable = .ok ownable) :
      Unmoved msg s .acceptOwnership { s with ownable }
  | renounceOwnership {ownable : Ownable}
      (passed : Ownable.renounceOwnership msg s.ownable = .ok ownable) :
      Unmoved msg s .renounceOwnership { s with ownable }

theorem exec_unmoved {msg : Msg} {call : TokenCall} (h : s.exec ⟨msg, call⟩ = .ok s')
    (hmove : TokenTx.movement ⟨msg, call⟩ = none) : Unmoved msg s call s' := by
  cases call with
  | init owner_ =>
    simp only [exec, init, bind_eq_ok, require_eq_ok, pure_eq_ok] at h
    obtain ⟨-, hfresh, ownable, howned, rfl⟩ := h
    exact .init hfresh howned
  | enableTransfers =>
    simp only [exec, enableTransfers, Ownable.checkOwner, bind_eq_ok, require_eq_ok,
      pure_eq_ok] at h
    obtain ⟨-, howner, -, hclosed, rfl⟩ := h
    exact .enableTransfers howner hclosed
  | approve spender value =>
    obtain ⟨-, hspender, rfl⟩ := ERC20.approve_eq_ok.mp h
    exact .approve hspender
  | permit p signature =>
    simp only [exec, permit, bind_eq_ok, orError_eq_ok, require_eq_ok, ERC20.approve_eq_ok] at h
    obtain ⟨-, hlive, signer, hsigned, -, rfl, howner, hspender, rfl⟩ := h
    exact .permit hlive hsigned howner hspender
  | delegate delegatee =>
    simp only [exec, _delegate, bind_eq_ok, pure_eq_ok] at h
    obtain ⟨votes, hnamed, rfl⟩ := h
    exact .delegate hnamed
  | delegateBySig d signature =>
    simp only [exec, delegateBySig, _delegate, bind_eq_ok, orError_eq_ok, require_eq_ok,
      pure_eq_ok] at h
    obtain ⟨-, hlive, signer, hsigned, -, hnonce, votes, hnamed, rfl⟩ := h
    exact .delegateBySig hlive hsigned hnonce hnamed
  | transferOwnership newOwner =>
    simp only [exec, withOwnable, bind_eq_ok, pure_eq_ok] at h
    obtain ⟨ownable, hpassed, rfl⟩ := h
    exact .transferOwnership hpassed
  | acceptOwnership =>
    simp only [exec, withOwnable, bind_eq_ok, pure_eq_ok] at h
    obtain ⟨ownable, hpassed, rfl⟩ := h
    exact .acceptOwnership hpassed
  | renounceOwnership =>
    simp only [exec, withOwnable, bind_eq_ok, pure_eq_ok] at h
    obtain ⟨ownable, hpassed, rfl⟩ := h
    exact .renounceOwnership hpassed
  | _ => cases hmove

structure Sound (s : FDFIToken oz) : Prop where
  backed : s.erc20.Backed
  capped : s.erc20.totalSupply.toNat ≤ maxSupply.toNat
  pristine : s.Pristine

theorem sound_deployed (oz : OpenZeppelin) : (deployed oz).Sound where
  backed := ERC20.backed_empty
  capped := Nat.zero_le _
  pristine _ := ⟨rfl, rfl⟩

theorem Sound.step (hs : s.Sound) (h : Step s tx s') : s'.Sound := by
  cases hmove : tx.movement with
  | none =>
    obtain ⟨⟨f, hledger, -⟩, -, hpristine⟩ := exec_quiet h hmove
    refine ⟨?_, ?_, hpristine hs.pristine⟩
    · rw [hledger]
      exact hs.backed
    · rw [hledger]
      exact hs.capped
  | some t =>
    obtain ⟨hends, f, -, hmoved⟩ := exec_moved h hmove
    have hupdated := hmoved.ledger_of hs.backed
    refine ⟨hupdated.backed hs.backed, ?_, fun hinit => ?_⟩
    · have hsupply := hupdated.totalSupply
      unfold Shift ERC20.zeroSide at hsupply
      by_cases hzero : t.src = 0
      · obtain ⟨msg, call⟩ := tx
        cases hends.mint hzero
        have hcap := (mintTo_eq_ok h).2.2.1
        simp only [hzero, if_true] at hsupply
        omega
      · have hcap := hs.capped
        simp only [hzero, if_false] at hsupply
        omega
    · rw [hmoved.initialized] at hinit
      obtain ⟨hunset, hclosed⟩ := hs.pristine hinit
      exact ⟨hmoved.ownable.trans hunset, hmoved.transfersEnabled.trans hclosed⟩

theorem exec_gate (h : s.exec tx = .ok s') :
    s'.transfersEnabled = tx.call.gate.getD s.transfersEnabled := by
  cases hmove : tx.movement with
  | none => exact (exec_quiet h hmove).gate
  | some t =>
    obtain ⟨-, f, -, hmoved⟩ := exec_moved h hmove
    rw [hmoved.transfersEnabled]
    obtain ⟨msg, call⟩ := tx
    cases call with
    | init owner_ => cases hmove
    | enableTransfers => cases hmove
    | _ => rfl

theorem Sound.stays_enabled (hs : s.Sound) (h : Step s tx s')
    (henabled : s.transfersEnabled = true) :
    s'.transfersEnabled = true := by
  have hgate := exec_gate h
  obtain ⟨msg, call⟩ := tx
  cases call with
  | init owner_ =>
    simp only [Step, exec, init, bind_eq_ok, require_eq_ok] at h
    obtain ⟨-, hinit, -⟩ := h
    have hclosed := (hs.pristine hinit).2
    rw [hclosed] at henabled
    cases henabled
  | enableTransfers => exact hgate
  | _ => exact hgate.trans henabled

private theorem enabler_owner (h : Step s tx s') (hclosed : s.transfersEnabled = false)
    (henabled : s'.transfersEnabled = true) :
    tx.call = .enableTransfers ∧ tx.msg.sender = s.ownable.owner := by
  have hgate := exec_gate h
  rw [hclosed, henabled] at hgate
  obtain ⟨msg, call⟩ := tx
  cases call with
  | enableTransfers => exact ⟨rfl, (enableTransfers_eq_ok h).1.symm⟩
  | _ => cases hgate

end FDFIToken

def TokenTx.minted (a : Address) (tx : TokenTx) : ℕ :=
  match tx.call with
  | .mintTo dst amount => if dst = a then amount.toNat else 0
  | _ => 0

def TokenTx.burned (a : Address) (tx : TokenTx) : ℕ :=
  match tx.call with
  | .burn value => if tx.msg.sender = a then value.toNat else 0
  | .burnFrom account value => if account = a then value.toNat else 0
  | _ => 0

private theorem ERC20.side_apply {account : Address} (value : U256) (h : account ≠ 0)
    (a : Address) :
    side account value a = if account = a then value.toNat else 0 := by
  by_cases ha : account = a
  · subst ha
    rw [side_self value h, if_pos rfl]
  · rw [side_of_ne value (Ne.symm ha), if_neg ha]

namespace FDFIToken

variable {oz : OpenZeppelin} {s s' : FDFIToken oz} {tx : TokenTx}

/-- While the gate is closed an account's balance moves by mints and burns alone. -/
theorem exec_books (hs : s.erc20.Backed) (h : s.exec tx = .ok s')
    (hclosed : s.transfersEnabled = false) (a : Address) :
    s'.erc20.holdings a + tx.burned a = s.erc20.holdings a + tx.minted a := by
  cases hmove : tx.movement with
  | none =>
    obtain ⟨⟨f, hledger, -⟩, -, -⟩ := exec_quiet h hmove
    rw [hledger]
    obtain ⟨msg, call⟩ := tx
    cases call <;> first | rfl | cases hmove
  | some t =>
    obtain ⟨hends, f, -, hmoved⟩ := exec_moved h hmove
    have hbooks : s'.erc20.holdings a + ERC20.side t.src t.value a =
        s.erc20.holdings a + ERC20.side t.dst t.value a := (hmoved.ledger_of hs).holdings.apply a
    have hgate (hsrc : t.src ≠ 0) (hdst : t.dst ≠ 0) : False := by
      have henabled : s.transfersEnabled = true := hmoved.gate hsrc hdst
      rw [hclosed] at henabled
      cases henabled
    obtain ⟨msg, call⟩ := tx
    by_cases hsrc : t.src = 0
    · have hcall := hends.mint hsrc
      have hdst : t.dst ≠ 0 := by
        intro hzero
        rcases hends.burn hzero with ⟨hburn, -⟩ | hburn
        · cases hcall.symm.trans hburn
        · cases hcall.symm.trans hburn
      cases hcall
      rw [hsrc, ERC20.side_zero, ERC20.side_apply _ hdst] at hbooks
      exact hbooks
    · have hdst : t.dst = 0 := by
        by_contra hne
        exact hgate hsrc hne
      rw [hdst, ERC20.side_zero, ERC20.side_apply _ hsrc] at hbooks
      rcases hends.burn hdst with ⟨hcall, hsender⟩ | hcall
      · cases hcall
        rw [hsender] at hbooks
        exact hbooks
      · cases hcall
        exact hbooks

private theorem exec_logs (hs : s.erc20.Backed) (h : s.exec tx = .ok s')
    (hclosed : s.transfersEnabled = false) {t : Transfer} (ht : t ∈ s'.erc20.logs) :
    t ∈ s.erc20.logs ∨ t.src = 0 ∨ t.dst = 0 := by
  cases hmove : tx.movement with
  | none =>
    obtain ⟨⟨f, hledger, -⟩, -, -⟩ := exec_quiet h hmove
    rw [hledger] at ht
    exact .inl ht
  | some t' =>
    obtain ⟨-, f, -, hmoved⟩ := exec_moved h hmove
    rw [(hmoved.ledger_of hs).logs, List.mem_append, List.mem_singleton] at ht
    rcases ht with hold | rfl
    · exact .inl hold
    · right
      by_contra hnone
      rw [not_or] at hnone
      have henabled : s.transfersEnabled = true := hmoved.gate hnone.1 hnone.2
      rw [hclosed] at henabled
      cases henabled

/-- Minting is the owner's, and burning from another account takes an allowance. -/
theorem exec_authorised (h : s.exec tx = .ok s') :
    (∀ dst amount, tx.call = .mintTo dst amount → tx.msg.sender = s.ownable.owner) ∧
      ∀ account value, tx.call = .burnFrom account value →
        value.toNat ≤ (s.erc20.allowances account tx.msg.sender).toNat := by
  obtain ⟨msg, call⟩ := tx
  constructor
  · intro dst amount hcall
    cases hcall
    exact (mintTo_eq_ok h).1.symm
  · intro account value hcall
    cases hcall
    exact (ERC20.burnFrom_eq_ok h).2.1

theorem exec_allowances (h : s.exec tx = .ok s') {owner spender : Address}
    (hraised : (s.erc20.allowances owner spender).toNat <
      (s'.erc20.allowances owner spender).toNat) : tx.grantor = some owner := by
  by_contra hgrant
  cases hmove : tx.movement with
  | none =>
    obtain ⟨⟨f, hledger, hf⟩, -, -⟩ := exec_quiet h hmove
    rw [hledger] at hraised
    change _ < (f owner spender).toNat at hraised
    rw [hf owner hgrant] at hraised
    exact lt_irrefl _ hraised
  | some t =>
    obtain ⟨-, f, hle, hmoved⟩ := exec_moved h hmove
    rw [ERC20.update_allowances hmoved.ledger] at hraised
    exact absurd (hle owner spender) (Nat.not_le.mpr hraised)

private theorem run_sound {txs : List TokenTx} (h : Run Step (deployed oz) txs s) : s.Sound :=
  h.invariant (I := Sound) (fun _ _ _ hs hstep => hs.step hstep) (sound_deployed oz)

def GatedStep (s : FDFIToken oz) (tx : TokenTx) (s' : FDFIToken oz) : Prop :=
  s.transfersEnabled = false ∧ Step s tx s'

/-- A run that ends with the gate closed was taken with the gate closed. -/
theorem run_gated {txs : List TokenTx} (h : Run Step (deployed oz) txs s)
    (hclosed : s.transfersEnabled = false) : Run GatedStep (deployed oz) txs s := by
  have hback : ∀ (s : FDFIToken oz) tx s', s.Sound → Step s tx s' →
      s'.transfersEnabled = false → s.transfersEnabled = false := by
    intro s tx s' hs hstep hafter
    by_contra hopen
    have hstays := hs.stays_enabled hstep (Bool.eq_true_of_not_eq_false hopen)
    rw [hafter] at hstays
    cases hstays
  exact (h.held_throughout (I := Sound) (fun _ _ _ hs hstep => hs.step hstep) hback
    (sound_deployed oz) hclosed).1

private theorem gated_books {txs : List TokenTx} (h : Run GatedStep (deployed oz) txs s)
    (a : Address) :
    s.erc20.holdings a + (txs.map (TokenTx.burned a)).sum =
      (txs.map (TokenTx.minted a)).sum := by
  have hledger := h.ledger (I := Sound) (fun s => (s.erc20.holdings a : ℤ))
    (fun tx => (tx.minted a : ℤ) - tx.burned a) (fun _ _ _ hs hstep => hs.step hstep.2)
    (fun _ _ _ hs hstep => by
      have hbooks := exec_books hs.backed hstep.2 hstep.1 a
      omega) (sound_deployed oz)
  have hstart : (deployed oz).erc20.holdings a = 0 := rfl
  rw [sum_map_sub, hstart] at hledger
  omega

private theorem gated_logs {txs : List TokenTx} (h : Run GatedStep (deployed oz) txs s) :
    ∀ t ∈ s.erc20.logs, t.src = 0 ∨ t.dst = 0 := by
  have hkeep := h.invariant (I := fun s => s.Sound ∧ ∀ t ∈ s.erc20.logs, t.src = 0 ∨ t.dst = 0)
    (fun _ _ _ hs hstep => ⟨hs.1.step hstep.2, fun t ht =>
      (exec_logs hs.1.backed hstep.2 hstep.1 ht).elim (hs.2 t) (fun hends => hends)⟩)
    ⟨sound_deployed oz, fun t ht => by cases ht⟩
  exact hkeep.2

/-- Whatever anybody calls in any order: the supply is the sum of the balances and at most the
cap; once enabled transfers stay enabled, and the owner of the moment enables them; and while
they are not, each balance is what the owner minted to the account less what the account or an
approved spender burned from it, and every `Transfer` so far was a mint or a burn. -/
theorem supply_and_gating {txs : List TokenTx} (h : Run Step (deployed oz) txs s) :
    s.erc20.totalSupply.toNat = ∑ a, (s.erc20.balances a).toNat ∧
      s.erc20.totalSupply.toNat ≤ maxSupply.toNat ∧
      (∀ txs' s', Run Step s txs' s' → s.transfersEnabled = true → s'.transfersEnabled = true) ∧
      (∀ tx s', Step s tx s' →
        (s.transfersEnabled = false → s'.transfersEnabled = true →
          tx.call = .enableTransfers ∧ tx.msg.sender = s.ownable.owner) ∧
        (∀ dst amount, tx.call = .mintTo dst amount → tx.msg.sender = s.ownable.owner) ∧
        (∀ account value, tx.call = .burnFrom account value →
          value.toNat ≤ (s.erc20.allowances account tx.msg.sender).toNat) ∧
        ∀ owner spender, (s.erc20.allowances owner spender).toNat <
          (s'.erc20.allowances owner spender).toNat → tx.grantor = some owner) ∧
      (s.transfersEnabled = false →
        (∀ a, (s.erc20.balances a).toNat + (txs.map (TokenTx.burned a)).sum =
          (txs.map (TokenTx.minted a)).sum) ∧
        ∀ t ∈ s.erc20.logs, t.src = 0 ∨ t.dst = 0) := by
  have hsound := run_sound h
  refine ⟨hsound.backed, hsound.capped, ?_, ?_, ?_⟩
  · intro txs' s' hrun henabled
    have hkeep := hrun.invariant (I := fun s => s.Sound ∧ s.transfersEnabled = true)
      (fun _ _ _ hs hstep => ⟨hs.1.step hstep, hs.1.stays_enabled hstep hs.2⟩)
      ⟨hsound, henabled⟩
    exact hkeep.2
  · intro tx s' hstep
    obtain ⟨hminter, hspender⟩ := exec_authorised hstep
    exact ⟨enabler_owner hstep, hminter, hspender, fun _ _ => exec_allowances hstep⟩
  · intro hclosed
    have hgated := run_gated h hclosed
    exact ⟨gated_books hgated, gated_logs hgated⟩

end FDFIToken

namespace Reference

def msgOf (sender : Address) : Msg :=
  if h : sender = 0 then ⟨1, 1, 1, by decide⟩ else ⟨sender, 1, 1, h⟩

def distribution : List TokenTx := [
  ⟨msgOf 1, .init 1⟩,
  ⟨msgOf 1, .mintTo 5 100⟩,
  ⟨msgOf 5, .burn 40⟩,
  ⟨msgOf 5, .approve 7 20⟩,
  ⟨msgOf 7, .burnFrom 5 10⟩,
  ⟨msgOf 1, .mintTo 6 7⟩]

def distributed : Result (FDFIToken .reference) :=
  distribution.foldlM (fun s tx => s.exec tx) (.deployed .reference)

private theorem distributed_ok : distributed.isOk = true := by decide

theorem supply_and_gating_sample :
    (value _ distributed_ok).transfersEnabled = false ∧
      ((value _ distributed_ok).erc20.balances 5).toNat = 50 ∧
      (distribution.map (TokenTx.minted 5)).sum = 100 ∧
      ((value _ distributed_ok).erc20.balances 5).toNat +
          (distribution.map (TokenTx.burned 5)).sum =
        (distribution.map (TokenTx.minted 5)).sum := by
  have hrun := Run.of_foldlM distribution (eq_ok_value distributed distributed_ok)
  refine ⟨by decide, by decide, by decide, ?_⟩
  exact ((FDFIToken.supply_and_gating hrun).2.2.2.2 (by decide)).1 5

end Reference

end FdfiToken.Evm
