import FdfiToken.Oft.Reference
import FdfiToken.Oft.WireFormat

/-!
# The account list of a delivery

`lz_receive_types` tells the executor which accounts `lz_receive` takes. The list passes every
account constraint, and the compose accounts in it belong to the call `lz_receive` makes.
-/

namespace FdfiToken

open Word Fallible BigEndian Runs

def withPayer (payer : Pubkey) : List LzAccount → List LzAccount
  | _ :: metas => ⟨payer, true, true⟩ :: metas
  | [] => []

theorem exists_postFeeAmountLd (m : Mint) (epoch amount : U64) :
    ∃ post, getPostFeeAmountLd m epoch amount = .ok post := by
  have hnet := (m.schedule epoch).net_le_self amount.toNat
  have hamount := amount.isLt
  obtain ⟨post, -, hpost⟩ := exists_fit (w := 64) (n := (m.schedule epoch).net amount.toNat)
    (by omega)
  exact ⟨post, Mint.getPostFeeAmountLd_eq_ok.mpr hpost⟩

namespace LzReceiveTypes

section Layout

variable {rt : Runtime} {clock : Clock} {params : LzReceiveParams} {w : World}

/-- The accounts a list from `lz_receive_types` names, by their place in `LzReceive`. -/
def named (rt : Runtime) (w : World) (params : LzReceiveParams) (payer toAddress : Pubkey)
    (call : Option SendComposeParams) : LzReceiveAccounts where
  payer := payer
  peer := w.peerKey rt params.srcEid
  oftStore := w.storeKey
  tokenEscrow := w.oftStore.tokenEscrow
  toAddress := toAddress
  tokenDest := rt.associatedTokenAddress toAddress w.oftStore.tokenMint w.ledger.tokenProgram
  tokenMint := w.ledger.mintKey
  mintAuthority :=
    if w.ledger.mint.mintAuthority.getD rt.programId = rt.programId then none
    else some (w.ledger.mint.mintAuthority.getD rt.programId)
  tokenProgram := w.ledger.tokenProgram
  associatedTokenProgram := rt.associatedTokenId
  systemProgram := rt.systemProgramId
  eventAuthority := (rt.findProgramAddress [rt.eventSeed]).1
  program := rt.programId
  remainingAccounts :=
    (rt.accountsForClear w.oftStore.endpointProgram w.storeKey params.srcEid params.sender
        params.nonce).map (·.pubkey) ++
      ((call.map (rt.accountsForSendCompose w.oftStore.endpointProgram w.storeKey)).getD []).map
        (·.pubkey)

/-- Read position by position, the list names these accounts with the flags asked for. -/
theorem parse_apply {metas : List LzAccount} (h : apply rt clock params w = .ok metas)
    (payer : Pubkey) :
    ∃ toAddress call, MsgCodec.sendTo params.message = .ok toAddress ∧
      composeCall clock params toAddress w = .ok call ∧
      LzReceive.parse rt (withPayer payer metas) =
        .ok (named rt w params payer toAddress call) := by
  simp only [apply, bind_eq_ok, pure_eq_ok] at h
  obtain ⟨_, -, _, -, toAddress, hto, call, hcall, rfl⟩ := h
  refine ⟨toAddress, call, hto, hcall, ?_⟩
  simp only [List.cons_append, List.nil_append, withPayer, LzReceive.parse, require, if_true,
    ok_bind, List.map_append, named]
  rfl

theorem validate_named {sd : U8} (hwf : WellFormed rt sd w) {peer : PeerConfig}
    (hpeer : w.peers params.srcEid = some peer) (hsender : peer.peerAddress = params.sender)
    {toAddress : Pubkey} (hto : MsgCodec.sendTo params.message = .ok toAddress) (payer : Pubkey)
    (call : Option SendComposeParams) :
    LzReceive.validate rt w params (named rt w params payer toAddress call) = .ok peer := by
  have haccount := hwf.peerAccount_eq_ok.mpr hpeer
  obtain ⟨escrow, hescrow⟩ : ∃ escrow, w.escrowAccount = .ok escrow := by
    have howner := hwf.escrowOwner
    rw [TokenLedger.ownerOf, Option.map_eq_some_iff] at howner
    obtain ⟨escrow, haccount, howner⟩ := howner
    exact ⟨escrow, World.escrowAccount_eq_ok.mpr ⟨haccount, howner⟩⟩
  have hauthority : LzReceive.checkMintAuthority w
      (named rt w params payer toAddress call).mintAuthority = .ok () := by
    unfold named
    cases hmint : w.ledger.mint.mintAuthority with
    | none => simp [LzReceive.checkMintAuthority, pure, Except.pure]
    | some authority =>
      by_cases hprogram : authority = rt.programId
      · simp [LzReceive.checkMintAuthority, hprogram, pure, Except.pure]
      · simp [LzReceive.checkMintAuthority, hprogram, hmint]
  simp only [LzReceive.validate, hwf.checkStore, haccount, hescrow, hwf.checkMint, hauthority, hto,
    hsender, ok_bind, bind_eq_ok, require_eq_ok, exists_const, pure_eq_ok, true_and, and_true]
  have hdest : (named rt w params payer toAddress call).tokenDest =
      rt.associatedTokenAddress toAddress w.ledger.mintKey w.ledger.tokenProgram := by
    rw [hwf.mintKey]
    rfl
  exact ⟨rfl, rfl, rfl, rfl, hwf.mintKey, rfl, hwf.tokenInterface, hdest, rfl, rfl, rfl, rfl⟩

private theorem composeCall_eq {clock' : Clock} {a : LzReceiveAccounts} {peer : PeerConfig}
    {w' : World} {out : LzReceiveOutcome} (h : LzReceive.Received rt clock' a params peer w w' out)
    (hepoch : clock'.epoch = clock.epoch) :
    composeCall clock params a.toAddress w = .ok out.composeCall := by
  obtain ⟨amountSd, hsd, hld⟩ := h.amount
  obtain ⟨opened, received, hopened, hrelease, hcall, -⟩ := h.released
  have hmint := (TokenLedger.initIfNeeded_spec hopened).2.1
  have hreceived : (if w.oftStore.oftType = .native then pure out.amountLd
      else getPostFeeAmountLd w.ledger.mint clock.epoch out.amountLd) = .ok received := by
    cases htype : w.oftStore.oftType with
    | native =>
      have hnative : w.oftStore.oftType ≠ .adapter := OFTType.ne_adapter htype
      have heq := (LzReceive.release_native (w := { w with ledger := opened }) hnative
        hrelease).2.2
      rw [if_pos rfl, heq]
      rfl
    | adapter =>
      simp only [LzReceive.release, htype, if_true, bind_eq_ok, pure_eq_ok, Prod.mk.injEq,
        hmint, hepoch] at hrelease
      obtain ⟨_, -, _, -, post, hpost, -, -, rfl⟩ := hrelease
      exact hpost
  rw [hcall, composeCall, LzReceive.composeCallOf]
  cases MsgCodec.composeMsg params.message with
  | none => rfl
  | some message =>
    simp only [hsd, hld, hreceived, ok_bind, Option.map_some]
    rfl

/-- A list is returned unless a composed message carries an amount that cannot be converted. -/
theorem exists_apply_iff {sd : U8} (hwf : WellFormed rt sd w)
    (hlength : MsgCodec.composeMsgOffset ≤ params.message.length) :
    (∃ metas, apply rt clock params w = .ok metas) ↔
      ((MsgCodec.composeMsg params.message).isSome →
        ∃ amountSd amountLd, MsgCodec.amountSd params.message = .ok amountSd ∧
          w.oftStore.sd2ld amountSd = .ok amountLd) := by
  obtain ⟨⟨toAddress, hto⟩, amountSd, hsd⟩ := MsgCodec.exists_fields hlength
  have hlist : (∃ metas, apply rt clock params w = .ok metas) ↔
      ∃ call, composeCall clock params toAddress w = .ok call := by
    simp only [apply, hwf.checkStore, hwf.checkMint, hto, ok_bind, bind_eq_ok, pure_eq_ok]
    constructor
    · intro h
      obtain ⟨_, call, hcall, -⟩ := h
      exact ⟨call, hcall⟩
    · intro h
      obtain ⟨call, hcall⟩ := h
      exact ⟨_, call, hcall, rfl⟩
  rw [hlist, composeCall]
  cases MsgCodec.composeMsg params.message with
  | none => exact ⟨fun _ h => (by cases h), fun _ => ⟨none, rfl⟩⟩
  | some message =>
    simp only [bind_eq_ok, pure_eq_ok, Option.isSome_some, forall_true_left]
    constructor
    · intro h
      obtain ⟨_, sd, hamount, ld, hld, -⟩ := h
      exact ⟨sd, ld, hamount, hld⟩
    · intro h
      obtain ⟨sd, ld, hamount, hld⟩ := h
      obtain ⟨post, hpost⟩ := exists_postFeeAmountLd w.ledger.mint clock.epoch ld
      refine ⟨_, sd, hamount, ld, hld, if w.oftStore.oftType = .native then ld else post, ?_, rfl⟩
      split
      · rfl
      · exact hpost

end Layout

/-- The list `metas` serves `lz_receive`: every account constraint holds, the recipient's account
is created or taken over, the remaining accounts split into those for `clear` and those for
`call`, and a receive in the same epoch asks the endpoint to clear the message and to forward
`call`, with just these accounts. -/
structure Serves (rt : Runtime) (epoch : U64) (params : LzReceiveParams) (w : World)
    (peer : PeerConfig) (metas : List LzAccount) (a : LzReceiveAccounts)
    (call : Option SendComposeParams) : Prop where
  accounts : LzReceive.tryAccounts rt w params metas = .ok (a, peer)
  tokenDest : (∃ ledger, w.ledger.initIfNeeded a.tokenDest a.toAddress = .ok ledger) ↔
    (w.ledger.ownerOf a.tokenDest = none →
        w.ledger.accepts (.create a.tokenDest a.toAddress) = true) ∧
      ∀ owner, w.ledger.ownerOf a.tokenDest = some owner → owner = a.toAddress
  clear : a.remainingAccounts.take rt.clearMinAccountsLen =
    (rt.accountsForClear w.oftStore.endpointProgram w.storeKey params.srcEid params.sender
      params.nonce).map (·.pubkey)
  compose : a.remainingAccounts.drop rt.clearMinAccountsLen =
    ((call.map (rt.accountsForSendCompose w.oftStore.endpointProgram w.storeKey)).getD []).map
      (·.pubkey)
  received : ∀ ep clock w' out, clock.epoch = epoch →
    LzReceive.apply rt ep clock metas params w = .ok (w', out) →
      out.composeCall = call ∧
        LzReceive.Asks rt clock metas params w (w', out)
          ⟨w.storeKey, params.srcEid, params.sender, params.nonce, params.guid, params.message⟩
          (a.remainingAccounts.take rt.clearMinAccountsLen) call
          (a.remainingAccounts.drop rt.clearMinAccountsLen)

end LzReceiveTypes

section Reachable

variable {rt : Runtime} {sd : U8} {events : List Event} {w : World}

/-- `lz_receive_types` returns a list unless a composed amount cannot be converted, and the list
serves `lz_receive` whoever pays. -/
theorem receive_types_agree (h : Reaches rt sd events w) {params : LzReceiveParams}
    {peer : PeerConfig} (hlength : 40 ≤ params.message.length)
    (hpeer : w.peers params.srcEid = some peer) (hsender : peer.peerAddress = params.sender)
    (hclear : (rt.accountsForClear w.oftStore.endpointProgram w.storeKey params.srcEid
      params.sender params.nonce).length = rt.clearMinAccountsLen) (clock : Clock) :
    ((∃ metas, LzReceiveTypes.apply rt clock params w = .ok metas) ↔
      ((MsgCodec.composeMsg params.message).isSome →
        ∃ amountSd amountLd, MsgCodec.amountSd params.message = .ok amountSd ∧
          w.oftStore.sd2ld amountSd = .ok amountLd)) ∧
    ∀ metas, LzReceiveTypes.apply rt clock params w = .ok metas → ∀ payer,
      ∃ a call, a.payer = payer ∧
        LzReceiveTypes.Serves rt clock.epoch params w peer (withPayer payer metas) a call := by
  have hwf := h.wellFormed
  refine ⟨LzReceiveTypes.exists_apply_iff hwf hlength, ?_⟩
  intro metas hmetas payer
  obtain ⟨toAddress, call, hto, hcall, hparse⟩ := LzReceiveTypes.parse_apply hmetas payer
  have hvalid := LzReceiveTypes.validate_named hwf hpeer hsender hto payer call
  refine ⟨_, call, rfl, LzReceive.tryAccounts_eq_ok.mpr ⟨hparse, hvalid⟩,
    TokenLedger.exists_initIfNeeded_iff, ?_, ?_, ?_⟩
  · rw [← hclear]
    exact List.take_left' (by rw [List.length_map])
  · rw [← hclear]
    exact List.drop_left' (by rw [List.length_map])
  · intro ep clock' w' out hepoch hrun
    obtain ⟨a, p, hparse', hreceived⟩ := LzReceive.apply_received hrun
    have hsame : a = LzReceiveTypes.named rt w params payer toAddress call := by
      rw [hparse, Except.ok.injEq] at hparse'
      exact hparse'.symm
    have hagree := LzReceiveTypes.composeCall_eq hreceived hepoch
    subst hsame
    change LzReceiveTypes.composeCall clock params toAddress w = _ at hagree
    rw [hcall, Except.ok.injEq] at hagree
    have hasks := LzReceive.apply_asks hrun
    rw [hreceived.cleared, hreceived.clearAccounts, hreceived.composeAccounts, ← hagree] at hasks
    exact ⟨hagree.symm, hasks⟩

end Reachable

namespace Reference

def lockedRun : World × List Event :=
  replay runtime endpoint adapterStore [
    setPeer (clockAt 10) 7 (.peerAddress (Bytes32.fill 77)),
    send (clockAt 20) 7 (Bytes32.fill 33) 2000000 none]

def composedArrival : LzReceiveParams :=
  ⟨7, Bytes32.fill 77, 1, Bytes32.fill 9,
    MsgCodec.encode (Bytes32.fill 34) 500 (Bytes32.fill 35) (some [1, 2, 3]), []⟩

def composedList : Result (List LzAccount) :=
  LzReceiveTypes.apply runtime (clockAt 30) composedArrival lockedRun.1

theorem composedList_ok : composedList.isOk = true := by decide

def composedListReceive : Result (World × LzReceiveOutcome) :=
  LzReceive.apply runtime endpoint (clockAt 31) (withPayer user (value _ composedList_ok))
    composedArrival lockedRun.1

theorem composedListReceive_ok : composedListReceive.isOk = true := by decide

theorem receive_types_agree_sample :
    ∃ peer a call, LzReceiveTypes.Serves runtime 0 composedArrival lockedRun.1 peer
        (withPayer user (value _ composedList_ok)) a call ∧
      (value _ composedListReceive_ok).2.composeCall = call ∧ call.isSome = true := by
  have hreach : Reaches runtime 6 lockedRun.2 lockedRun.1 :=
    adapter.replay_reaches adapter_init _ (by decide)
  have hpeer : lockedRun.1.peers 7 = some ((lockedRun.1.peers 7).getD PeerConfig.default) := rfl
  obtain ⟨a, call, -, hserves⟩ := (receive_types_agree hreach
    (show 40 ≤ composedArrival.message.length by decide) hpeer (by decide) rfl (clockAt 30)).2 _
    (eq_ok_value composedList composedList_ok) user
  have hcall := (hserves.received endpoint (clockAt 31) _ _ rfl
    (eq_ok_value composedListReceive composedListReceive_ok)).1
  have hsome : (value _ composedListReceive_ok).2.composeCall.isSome = true := by decide
  exact ⟨_, a, call, hserves, hcall, hcall ▸ hsome⟩

end Reference

end FdfiToken
