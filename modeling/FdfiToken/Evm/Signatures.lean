import FdfiToken.Evm.Supply
import FdfiToken.Lib.Ticket

/-!
# Signatures

Permits and delegations by signature share one nonce for each account. The nonce counts the
signatures of the account that were used, and each is checked against the nonce next in order.
-/

namespace FdfiToken.Evm

open Word Fallible Runs

def TokenCall.signer (oz : OpenZeppelin) : TokenCall → Option Address
  | .permit p _ => some p.owner
  | .delegateBySig d signature => oz.recoverDelegation d signature
  | _ => none

/-- The call brings `a`'s signature for the nonce `n`. -/
def TokenCall.SignedFor (oz : OpenZeppelin) (a : Address) (n : U256) : TokenCall → Prop
  | .permit p signature => p.owner = a ∧ oz.recoverPermit p n signature = some a
  | .delegateBySig d signature => oz.recoverDelegation d signature = some a ∧ d.nonce = n
  | _ => False

instance (oz : OpenZeppelin) (a : Address) (n : U256) (call : TokenCall) :
    Decidable (call.SignedFor oz a n) :=
  match call with
  | .permit _ _ => inferInstanceAs (Decidable (_ ∧ _))
  | .delegateBySig _ _ => inferInstanceAs (Decidable (_ ∧ _))
  | .init _ | .mintTo _ _ | .enableTransfers | .transfer _ _ | .transferFrom _ _ _
  | .approve _ _ | .burn _ | .burnFrom _ _ | .delegate _ | .transferOwnership _
  | .acceptOwnership | .renounceOwnership => inferInstanceAs (Decidable False)

namespace FDFIToken

variable {oz : OpenZeppelin} {s s' : FDFIToken oz} {tx : TokenTx}

private theorem useNonce_nonces (owner a : Address) (s : FDFIToken oz) :
    (s.useNonce owner).nonces a = if owner = a then s.nonces a + 1 else s.nonces a := by
  by_cases ha : owner = a
  · subst ha
    simp [useNonce]
  · simp [useNonce, ha, Ne.symm ha]

private theorem movement_unsigned {t : Transfer} (hmove : tx.movement = some t) :
    tx.call.signer oz = none := by
  obtain ⟨msg, call⟩ := tx
  cases call with
  | permit p signature => cases hmove
  | delegateBySig d signature => cases hmove
  | _ => rfl

private theorem exec_nonces (h : s.exec tx = .ok s') (a : Address) :
    s'.nonces a = if tx.call.signer oz = some a then s.nonces a + 1 else s.nonces a := by
  cases hmove : tx.movement with
  | some t =>
    obtain ⟨-, f, -, hmoved⟩ := exec_moved h hmove
    rw [movement_unsigned hmove, hmoved.nonces]
    rfl
  | none =>
    obtain ⟨msg, call⟩ := tx
    cases exec_unmoved h hmove with
    | @permit p signature live signed owner_ne spender_ne =>
      change (s.useNonce p.owner).nonces a = _
      simpa [TokenCall.signer] using useNonce_nonces p.owner a s
    | @delegateBySig d signature signer votes live signed nonce named =>
      simpa [TokenCall.signer, signed] using useNonce_nonces signer a s
    | _ => rfl

/-- Whose signature a call brings signed for the nonce of the moment. -/
theorem exec_signed (h : s.exec tx = .ok s') {a : Address}
    (hsigner : tx.call.signer oz = some a) : tx.call.SignedFor oz a (s.nonces a) := by
  cases hmove : tx.movement with
  | some t => cases (movement_unsigned hmove).symm.trans hsigner
  | none =>
    obtain ⟨msg, call⟩ := tx
    cases exec_unmoved h hmove with
    | permit live signed owner_ne spender_ne =>
      cases hsigner
      exact ⟨rfl, signed⟩
    | delegateBySig live signed nonce named =>
      cases hsigner.symm.trans signed
      exact ⟨signed, nonce⟩
    | _ => cases hsigner

private theorem advances_nonces (a : Address) :
    Advances (@Step oz) (fun s => s.nonces a) fun tx => tx.call.signer oz = some a :=
  fun _ _ _ hstep => exec_nonces hstep a

end FDFIToken

namespace Reference

def signing : OpenZeppelin :=
  { OpenZeppelin.reference with
    recoverPermit p n signature := if signature.r = n then some p.owner else none
    recoverDelegation _ signature := some (BitVec.setWidth 160 signature.s) }

def signedPermit : TokenCall := .permit ⟨5, 7, 20, 100⟩ ⟨0, 0, 5⟩

def signedDelegation : TokenCall := .delegateBySig ⟨8, 1, 100⟩ ⟨0, 1, 5⟩

def signedCalls : List TokenTx := [
  ⟨msgOf 1, .init 1⟩,
  ⟨msgOf 1, .mintTo 5 100⟩,
  ⟨msgOf 7, signedPermit⟩,
  ⟨msgOf 6, signedDelegation⟩,
  ⟨msgOf 7, .burnFrom 5 20⟩]

def signedToken : Result (FDFIToken signing) :=
  signedCalls.foldlM (fun s tx => s.exec tx) (.deployed signing)

private theorem signedToken_ok : signedToken.isOk = true := by decide

end Reference

end FdfiToken.Evm
