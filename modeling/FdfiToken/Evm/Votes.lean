import FdfiToken.Evm.Supply
import FdfiToken.Lib.Weights

/-!
# Voting power

The token's `_update` passes every movement of value on to the vote checkpoints, so what a
delegate can vote with is the sum of the balances delegated to it, after any run of calls.
-/

namespace FdfiToken.Evm

open Word Fallible Shifts Runs Weights

/-- What the checkpoints are documented to do: an account's units count for its delegate, move
with its balance, and all go over when it names another. The delegate `0` stands for nobody. -/
structure OpenZeppelin.Tallies (oz : OpenZeppelin) where
  delegates : oz.Votes → Address → Address
  votes : oz.Votes → Address → U256
  delegates_noVotes : ∀ a, delegates oz.noVotes a = 0
  votes_noVotes : ∀ d, votes oz.noVotes d = 0
  transferred : ∀ {msg src dst amount v v'},
    oz.transferVotingUnits msg src dst amount v = .ok v' →
      delegates v' = delegates v ∧ ∀ d, d ≠ 0 →
        Shift (if delegates v src = d then amount else 0)
          (if delegates v dst = d then amount else 0) (votes v d) (votes v' d)
  delegated : ∀ {msg account delegatee units v v'},
    oz.delegate msg account delegatee units v = .ok v' →
      delegates v' = Function.update (delegates v) account delegatee ∧ ∀ d, d ≠ 0 →
        Shift (if delegates v account = d then units else 0) (if delegatee = d then units else 0)
          (votes v d) (votes v' d)
  signer_ne : ∀ d signature, oz.recoverDelegation d signature ≠ some 0

def TokenTx.delegation (oz : OpenZeppelin) (tx : TokenTx) : Option (Address × Address) :=
  match tx.call with
  | .delegate delegatee => some (tx.msg.sender, delegatee)
  | .delegateBySig d signature =>
    (oz.recoverDelegation d signature).map fun signer => (signer, d.delegatee)
  | _ => none

/-- The delegate `a` names by a call. -/
def TokenTx.named (oz : OpenZeppelin) (a : Address) (tx : TokenTx) : Option Address :=
  (tx.delegation oz).bind fun named => if named.1 = a then some named.2 else none

namespace FDFIToken

variable {oz : OpenZeppelin} {s s' : FDFIToken oz} {tx : TokenTx} {t : Transfer}

private theorem update_votes {msg : Msg} {src dst : Address} {value : U256}
    (h : s.update msg src dst value = .ok s') :
    oz.transferVotingUnits msg src dst value s.votes = .ok s'.votes := by
  have hbase : s.votesUpdate msg src dst value = .ok s' →
      oz.transferVotingUnits msg src dst value s.votes = .ok s'.votes := by
    intro h
    simp only [votesUpdate, bind_eq_ok] at h
    obtain ⟨erc20, -, h⟩ := h
    split at h
    · simp only [bind_eq_ok, pure_eq_ok] at h
      obtain ⟨-, -, votes, hvotes, rfl⟩ := h
      exact hvotes
    · simp only [bind_eq_ok, pure_eq_ok] at h
      obtain ⟨votes, hvotes, rfl⟩ := h
      exact hvotes
  simp only [update] at h
  split at h
  · simp only [bind_eq_ok] at h
    obtain ⟨-, -, h⟩ := h
    exact hbase h
  · exact hbase h

/-- Whatever moves value moves as many votes. -/
theorem exec_moves_votes (h : s.exec tx = .ok s') (hmove : tx.movement = some t) :
    oz.transferVotingUnits tx.msg t.src t.dst t.value s.votes = .ok s'.votes := by
  obtain ⟨msg, call⟩ := tx
  cases call with
  | mintTo dst amount =>
    cases hmove
    simp only [exec, mintTo, bind_eq_ok, ERC20.mint_eq_ok] at h
    obtain ⟨-, -, -, -, -, -, -, hupdate⟩ := h
    exact update_votes hupdate
  | transfer dst value =>
    cases hmove
    simp only [exec, ERC20.transfer, ERC20.transfer_eq_ok] at h
    exact update_votes h.2.2
  | transferFrom src dst value =>
    cases hmove
    obtain ⟨-, -, -, left, -, hupdate⟩ := ERC20.transferFrom_eq_ok h
    have hvotes := update_votes hupdate
    exact hvotes
  | burn value =>
    cases hmove
    simp only [exec, ERC20.burn, ERC20.burn_eq_ok] at h
    exact update_votes h.2
  | burnFrom account value =>
    cases hmove
    obtain ⟨-, -, left, -, hupdate⟩ := ERC20.burnFrom_eq_ok h
    have hvotes := update_votes hupdate
    exact hvotes
  | _ => cases hmove

private theorem exec_delegates (h : s.exec tx = .ok s') (hmove : tx.movement = none) :
    match tx.delegation oz with
    | some (account, delegatee) =>
      oz.delegate tx.msg account delegatee (s.erc20.balances account) s.votes = .ok s'.votes
    | none => s'.votes = s.votes := by
  obtain ⟨msg, call⟩ := tx
  cases exec_unmoved h hmove with
  | delegate named => exact named
  | delegateBySig live signed nonce named =>
    simp only [TokenTx.delegation, signed, Option.map_some]
    exact named
  | _ => rfl

/-- Every delegate's votes are the balances delegated to it, and nobody acts for nobody. -/
structure Counted (tallies : oz.Tallies) (s : FDFIToken oz) : Prop where
  zero : tallies.delegates s.votes 0 = 0
  votes : ∀ d, d ≠ 0 →
    (tallies.votes s.votes d).toNat = tally (tallies.delegates s.votes) s.erc20.holdings d

private theorem Sound.tally_lt (hs : s.Sound) (delegates : Address → Address) (d : Address) :
    tally delegates s.erc20.holdings d < 2 ^ 256 := by
  have hle := tally_le delegates s.erc20.holdings d
  have hcap := hs.capped
  have hbacked : s.erc20.totalSupply.toNat = ∑ a, s.erc20.holdings a := hs.backed
  rw [toNat_maxSupply] at hcap
  omega

private theorem tally_side {delegates : Address → Address} (hzero : delegates 0 = 0) {d : Address}
    (hd : d ≠ 0) (account : Address) (value : U256) :
    tally delegates (ERC20.side account value) d =
      (if delegates account = d then value else 0).toNat := by
  by_cases haccount : account = 0
  · have hne : delegates 0 ≠ d := by
      rw [hzero]
      exact hd.symm
    rw [haccount, ERC20.side_zero, tally_zero, if_neg hne]
    rfl
  · rw [ERC20.side, if_neg haccount, tally_single]
    split <;> rfl

section Counting

variable {tallies : oz.Tallies}

theorem Counted.moved (hc : Counted tallies s) (hs : s.Sound) (hs' : s'.Sound)
    (h : s.exec tx = .ok s') (hmove : tx.movement = some t) : Counted tallies s' := by
  obtain ⟨-, f, -, hmoved⟩ := exec_moved h hmove
  have hholdings := (hmoved.ledger_of hs.backed).holdings
  obtain ⟨hdelegates, hvotes⟩ := tallies.transferred (exec_moves_votes h hmove)
  constructor
  · rw [hdelegates, hc.zero]
  · intro d hd
    have hshift := tally_shift (tallies.delegates s.votes) d hholdings
    rw [tally_side hc.zero hd, tally_side hc.zero hd] at hshift
    rw [hdelegates]
    exact toNat_shift (hc.votes d hd) (hvotes d hd) hshift (hs'.tally_lt _ d)

private theorem delegation_ne (tallies : oz.Tallies) {account delegatee : Address}
    (h : tx.delegation oz = some (account, delegatee)) : account ≠ 0 := by
  obtain ⟨msg, call⟩ := tx
  cases call with
  | delegate _ =>
    cases h
    exact msg.sender_ne
  | delegateBySig d signature =>
    simp only [TokenTx.delegation, Option.map_eq_some_iff, Prod.mk.injEq] at h
    obtain ⟨signer, hsigner, rfl, -⟩ := h
    intro hzero
    exact tallies.signer_ne d signature (hzero ▸ hsigner)
  | _ => cases h

private theorem Counted.delegated (hc : Counted tallies s) (hs' : s'.Sound) (h : s.exec tx = .ok s')
    (hmove : tx.movement = none) : Counted tallies s' := by
  obtain ⟨⟨f, hledger, -⟩, -, -⟩ := exec_quiet h hmove
  have hholdings : s'.erc20.holdings = s.erc20.holdings := by
    rw [hledger]
    rfl
  have hvotes := exec_delegates h hmove
  cases hdelegation : tx.delegation oz with
  | none =>
    rw [hdelegation] at hvotes
    constructor
    · rw [hvotes, hc.zero]
    · intro d hd
      rw [hvotes, hholdings, hc.votes d hd]
  | some named =>
    obtain ⟨account, delegatee⟩ := named
    rw [hdelegation] at hvotes
    obtain ⟨hdelegates, hshifted⟩ := tallies.delegated hvotes
    constructor
    · rw [hdelegates, Function.update_of_ne (delegation_ne tallies hdelegation).symm, hc.zero]
    · intro d hd
      have hshift := tally_update (tallies.delegates s.votes) d s.erc20.holdings account delegatee
      have hlt := hs'.tally_lt (tallies.delegates s'.votes) d
      rw [hdelegates, hholdings] at hlt ⊢
      refine toNat_shift (hc.votes d hd) (hshifted d hd) ?_ hlt
      rw [apply_ite BitVec.toNat, apply_ite BitVec.toNat]
      exact hshift

theorem Counted.step (hc : Counted tallies s) (hs : s.Sound) (h : Step s tx s') :
    Counted tallies s' := by
  have hs' := hs.step h
  cases hmove : tx.movement with
  | none => exact hc.delegated hs' h hmove
  | some t => exact hc.moved hs hs' h hmove

private theorem counted_deployed (tallies : oz.Tallies) : Counted tallies (deployed oz) where
  zero := tallies.delegates_noVotes 0
  votes d _ := by
    have hvotes : tallies.votes (deployed oz).votes d = 0 := tallies.votes_noVotes d
    have hholdings : (deployed oz).erc20.holdings = 0 := rfl
    rw [hvotes, hholdings, tally_zero]
    rfl

private theorem exec_named (tallies : oz.Tallies) (h : s.exec tx = .ok s') (a : Address) :
    tallies.delegates s'.votes a = (tx.named oz a).getD (tallies.delegates s.votes a) := by
  cases hmove : tx.movement with
  | some t =>
    have hunnamed : tx.delegation oz = none := by
      obtain ⟨msg, call⟩ := tx
      cases call with
      | delegate _ => cases hmove
      | delegateBySig _ _ => cases hmove
      | _ => rfl
    rw [(tallies.transferred (exec_moves_votes h hmove)).1, TokenTx.named, hunnamed]
    rfl
  | none =>
    have hvotes := exec_delegates h hmove
    cases hdelegation : tx.delegation oz with
    | none =>
      rw [hdelegation] at hvotes
      rw [hvotes, TokenTx.named, hdelegation]
      rfl
    | some named =>
      obtain ⟨account, delegatee⟩ := named
      rw [hdelegation] at hvotes
      rw [(tallies.delegated hvotes).1, TokenTx.named, hdelegation, Option.bind_some]
      by_cases ha : account = a
      · subst ha
        simp
      · simp [ha, Ne.symm ha]

/-- Whatever anybody calls in any order: a delegate's votes are the balances of those whose last
delegation, by call or by signature, named it; so all votes together never exceed the supply. -/
theorem votes_delegated (tallies : oz.Tallies) {txs : List TokenTx}
    (h : Run Step (deployed oz) txs s) :
    (∀ a, tallies.delegates s.votes a =
        ((txs.filterMap (TokenTx.named oz a)).getLast?).getD 0) ∧
      (∀ d, d ≠ 0 → (tallies.votes s.votes d).toNat =
        ∑ a, if tallies.delegates s.votes a = d then (s.erc20.balances a).toNat else 0) ∧
      ∀ ds : Finset Address, 0 ∉ ds →
        ∑ d ∈ ds, (tallies.votes s.votes d).toNat ≤ s.erc20.totalSupply.toNat := by
  obtain ⟨hcounted, hsound⟩ : Counted tallies s ∧ s.Sound :=
    h.invariant (I := fun s => Counted tallies s ∧ s.Sound)
      (fun _ _ _ hs hstep => ⟨hs.1.step hs.2 hstep, hs.2.step hstep⟩)
      ⟨counted_deployed tallies, sound_deployed oz⟩
  refine ⟨?_, hcounted.votes, ?_⟩
  · intro a
    have hlast := h.last_written (μ := fun s => tallies.delegates s.votes a)
      fun _ _ _ hstep => exec_named tallies hstep a
    rwa [show tallies.delegates (deployed oz).votes a = 0 from tallies.delegates_noVotes a] at hlast
  · intro ds hds
    have hsum : ∑ d ∈ ds, (tallies.votes s.votes d).toNat =
        ∑ d ∈ ds, tally (tallies.delegates s.votes) s.erc20.holdings d :=
      Finset.sum_congr rfl fun d hd => hcounted.votes d fun hzero => hds (hzero ▸ hd)
    rw [hsum, show s.erc20.totalSupply.toNat = ∑ a, s.erc20.holdings a from hsound.backed]
    exact sum_tally_le _ _ ds

end Counting

end FDFIToken

namespace VoteCounts

theorem taken (src : Address) (amount : U256) (v : VoteCounts) {d : Address} (hd : d ≠ 0) :
    Shift (if src = d then amount else 0) 0 (v.votes d)
      ((if src = 0 then v
        else { v with votes := Function.update v.votes src (v.votes src - amount) }).votes d) := by
  by_cases hzero : src = 0
  · have hne : src ≠ d := fun heq => hd (heq ▸ hzero)
    rw [if_pos hzero, if_neg hne]
    exact Shift.refl _
  · rw [if_neg hzero]
    by_cases hsrc : src = d
    · subst hsrc
      simp [Shift]
    · simp [Shift, hsrc, Ne.symm hsrc]

private theorem given (dst : Address) (amount : U256) (v : VoteCounts) {d : Address} (hd : d ≠ 0) :
    Shift 0 (if dst = d then amount else 0) (v.votes d)
      ((if dst = 0 then v
        else { v with votes := Function.update v.votes dst (v.votes dst + amount) }).votes d) := by
  by_cases hzero : dst = 0
  · have hne : dst ≠ d := fun heq => hd (heq ▸ hzero)
    rw [if_pos hzero, if_neg hne]
    exact Shift.refl _
  · rw [if_neg hzero]
    by_cases hdst : dst = d
    · subst hdst
      simp [Shift]
    · simp [Shift, hdst, Ne.symm hdst]

private theorem moveDelegateVotes_spec (src dst : Address) (amount : U256) (v : VoteCounts) :
    (v.moveDelegateVotes src dst amount).delegates = v.delegates ∧ ∀ d, d ≠ 0 →
      Shift (if src = d then amount else 0) (if dst = d then amount else 0) (v.votes d)
        ((v.moveDelegateVotes src dst amount).votes d) := by
  unfold moveDelegateVotes
  split
  · rename_i hstill
    refine ⟨rfl, fun d _ => ?_⟩
    rcases hstill with rfl | rfl
    · rfl
    · simp [Shift]
  · refine ⟨by split <;> split <;> rfl, fun d hd => ?_⟩
    have hboth := (v.taken src amount hd).trans (given dst amount _ hd)
    rw [add_zero, zero_add] at hboth
    exact hboth

end VoteCounts

def OpenZeppelin.counts : OpenZeppelin.reference.Tallies where
  delegates v := v.delegates
  votes v := v.votes
  delegates_noVotes _ := rfl
  votes_noVotes _ := rfl
  transferred h := by
    cases h
    exact VoteCounts.moveDelegateVotes_spec _ _ _ _
  delegated h := by
    cases h
    exact VoteCounts.moveDelegateVotes_spec _ _ _ _
  signer_ne _ _ h := by cases h

namespace Reference

def votingCalls : List TokenTx := [
  ⟨msgOf 1, .init 1⟩,
  ⟨msgOf 1, .mintTo 5 100⟩,
  ⟨msgOf 5, .delegate 8⟩,
  ⟨msgOf 1, .mintTo 6 7⟩,
  ⟨msgOf 6, .delegate 8⟩,
  ⟨msgOf 1, .enableTransfers⟩,
  ⟨msgOf 5, .transfer 6 30⟩,
  ⟨msgOf 6, .burn 10⟩]

def votingToken : Result (FDFIToken .reference) :=
  votingCalls.foldlM (fun s tx => s.exec tx) (.deployed .reference)

private theorem votingToken_ok : votingToken.isOk = true := by decide

theorem votes_delegated_sample :
    OpenZeppelin.counts.delegates (value _ votingToken_ok).votes 6 = 8 ∧
      (value _ votingToken_ok).votes.votes 8 = 97 ∧
      ∑ d ∈ {8}, ((value _ votingToken_ok).votes.votes d).toNat ≤
        (value _ votingToken_ok).erc20.totalSupply.toNat := by
  have hrun := Run.of_foldlM votingCalls (eq_ok_value votingToken votingToken_ok)
  obtain ⟨hdelegates, -, hbound⟩ := FDFIToken.votes_delegated OpenZeppelin.counts hrun
  exact ⟨(hdelegates 6).trans (by decide), by decide, hbound {8} (by decide)⟩

end Reference

end FdfiToken.Evm
