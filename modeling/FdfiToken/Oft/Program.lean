import FdfiToken.Lib.Run
import FdfiToken.Oft.Admin
import FdfiToken.Oft.Send
import FdfiToken.Oft.Receive

/-!
# Runs of the program

A store runs through instructions, failed ones included, interleaved with whatever else
happens to the token accounts of its mint. Signatures are only asked of addresses someone
can sign for, and nothing outside the program takes tokens out of the escrow.
-/

namespace FdfiToken

open Word Fallible Runs

/-- An instruction with its own accounts. -/
inductive Instruction where
  | setOftConfig (accs : AdminAccounts) (params : SetOFTConfigParams)
  | setPeerConfig (admin : Pubkey) (params : SetPeerConfigParams)
  | setPause (signer : Pubkey) (paused : Bool)
  | withdrawFee (accs : WithdrawFeeAccounts) (feeLd : U64)
  | send (accs : SendAccounts) (params : SendParams)
  | lzReceive (metas : List LzAccount) (params : LzReceiveParams)

inductive Outcome where
  | done
  | sent (out : SendOutcome)
  | received (out : LzReceiveOutcome)

/-- Who signs; the payer of an `lz_receive` authorises nothing. -/
def Instruction.signer : Instruction → Option Pubkey
  | .setOftConfig accs _ => some accs.admin
  | .setPeerConfig admin _ => some admin
  | .setPause signer _ => some signer
  | .withdrawFee accs _ => some accs.admin
  | .send accs _ => some accs.signer
  | .lzReceive _ _ => none

def execute (rt : Runtime) (ep : Endpoint) (clock : Clock) (i : Instruction) (w : World) :
    Result (World × Outcome) :=
  match i with
  | .setOftConfig accs params => do
    let w ← SetOFTConfig.apply rt ep accs params w
    return (w, .done)
  | .setPeerConfig admin params => do
    let w ← SetPeerConfig.apply rt clock admin params w
    return (w, .done)
  | .setPause signer paused => do
    let w ← SetPause.apply rt signer paused w
    return (w, .done)
  | .withdrawFee accs feeLd => do
    let w ← WithdrawFee.apply rt clock accs feeLd w
    return (w, .done)
  | .send accs params => do
    let (w, out) ← Send.apply rt ep clock accs params w
    return (w, .sent out)
  | .lzReceive metas params => do
    let (w, out) ← LzReceive.apply rt ep clock metas params w
    return (w, .received out)

/-- What others do to the mint and its accounts: the escrow keeps its owner and only gains,
by `credit`; `minted` and `burned` are the tokens others create and destroy. -/
structure TokenLedger.External (l l' : TokenLedger) (escrow : Pubkey) (credit minted burned : ℕ) :
    Prop where
  mintKey : l'.mintKey = l.mintKey
  tokenProgram : l'.tokenProgram = l.tokenProgram
  decimals : l'.mint.decimals = l.mint.decimals
  ownerOf : l'.ownerOf escrow = l.ownerOf escrow
  credited : l'.balance escrow = l.balance escrow + credit
  supply : l'.mint.supply.toNat + burned = l.mint.supply.toNat + minted

/-- What a step is seen to do. -/
inductive Event where
  | executed (clock : Clock) (i : Instruction) (o : Outcome)
  | failed (clock : Clock) (i : Instruction) (e : ProgramError)
  | external (credit minted burned : ℕ)

/-- One step of a store. A failed instruction changes nothing. -/
inductive Step (rt : Runtime) : World → Event → World → Prop
  | executed {ep : Endpoint} {clock : Clock} {i : Instruction} {w w' : World} {o : Outcome}
      (signed : ∀ k, i.signer = some k → rt.signable k = true)
      (run : execute rt ep clock i w = .ok (w', o)) : Step rt w (.executed clock i o) w'
  | failed {ep : Endpoint} {clock : Clock} {i : Instruction} {w : World} {e : ProgramError}
      (run : execute rt ep clock i w = .error e) : Step rt w (.failed clock i e) w
  | external {w : World} {ledger : TokenLedger} {credit minted burned : ℕ}
      (change : w.ledger.External ledger w.oftStore.tokenEscrow credit minted burned) :
      Step rt w (.external credit minted burned) { w with ledger := ledger }

def submit (rt : Runtime) (ep : Endpoint) (w : World) (request : Clock × Instruction) :
    World × Event :=
  match execute rt ep request.1 request.2 w with
  | .ok (w', o) => (w', .executed request.1 request.2 o)
  | .error e => (w, .failed request.1 request.2 e)

def replay (rt : Runtime) (ep : Endpoint) : World → List (Clock × Instruction) → World × List Event
  | w, [] => (w, [])
  | w, request :: requests =>
    let (w', e) := submit rt ep w request
    let (w'', events) := replay rt ep w' requests
    (w'', e :: events)

def Instruction.signed (rt : Runtime) (i : Instruction) : Bool := i.signer.all rt.signable

theorem submit_step {rt : Runtime} {ep : Endpoint} {w : World} {request : Clock × Instruction}
    (hsigned : request.2.signed rt = true) :
    Step rt w (submit rt ep w request).2 (submit rt ep w request).1 := by
  cases hrun : execute rt ep request.1 request.2 w with
  | error e =>
    simp only [submit, hrun]
    exact .failed hrun
  | ok result =>
    simp only [submit, hrun]
    refine .executed (fun k hk => ?_) hrun
    rwa [Instruction.signed, hk, Option.all_some] at hsigned

theorem replay_run {rt : Runtime} {ep : Endpoint} (requests : List (Clock × Instruction))
    (w : World) (hsigned : ∀ r ∈ requests, r.2.signed rt = true) :
    Run (Step rt) w (replay rt ep w requests).2 (replay rt ep w requests).1 := by
  induction requests generalizing w with
  | nil => exact .nil w
  | cons request requests ih =>
    exact .cons (submit_step (hsigned request List.mem_cons_self))
      (ih _ fun r hr => hsigned r (List.mem_cons_of_mem _ hr))

/-- A store that `init_oft` has just created with the given shared decimals. -/
def Genesis (rt : Runtime) (sharedDecimals : U8) (w : World) : Prop :=
  ∃ ep accs params ledger, params.sharedDecimals = sharedDecimals ∧
    InitOFT.apply rt ep accs params ledger = .ok w

/-- `events` lead from the store's creation to `w`. -/
def Reaches (rt : Runtime) (sharedDecimals : U8) (events : List Event) (w : World) : Prop :=
  ∃ w₀, Genesis rt sharedDecimals w₀ ∧ Run (Step rt) w₀ events w

/-- The parts of a store no step changes. -/
structure SameStore (w w' : World) : Prop where
  storeKey : w'.storeKey = w.storeKey
  oftType : w'.oftStore.oftType = w.oftStore.oftType
  ld2sdRate : w'.oftStore.ld2sdRate = w.oftStore.ld2sdRate
  tokenMint : w'.oftStore.tokenMint = w.oftStore.tokenMint
  tokenEscrow : w'.oftStore.tokenEscrow = w.oftStore.tokenEscrow
  endpointProgram : w'.oftStore.endpointProgram = w.oftStore.endpointProgram
  bump : w'.oftStore.bump = w.oftStore.bump
  lzReceiveTypesAccounts : w'.lzReceiveTypesAccounts = w.lzReceiveTypesAccounts
  mintKey : w'.ledger.mintKey = w.ledger.mintKey
  tokenProgram : w'.ledger.tokenProgram = w.ledger.tokenProgram
  decimals : w'.ledger.mint.decimals = w.ledger.mint.decimals
  escrowOwner : ∀ o, w.ledger.ownerOf w.oftStore.tokenEscrow = some o →
    w'.ledger.ownerOf w.oftStore.tokenEscrow = some o

theorem SameStore.refl (w : World) : SameStore w w :=
  ⟨rfl, rfl, rfl, rfl, rfl, rfl, rfl, rfl, rfl, rfl, rfl, fun _ h => h⟩

theorem SameStore.trans {w w' w'' : World} (h : SameStore w w') (h' : SameStore w' w'') :
    SameStore w w'' where
  storeKey := h'.storeKey.trans h.storeKey
  oftType := h'.oftType.trans h.oftType
  ld2sdRate := h'.ld2sdRate.trans h.ld2sdRate
  tokenMint := h'.tokenMint.trans h.tokenMint
  tokenEscrow := h'.tokenEscrow.trans h.tokenEscrow
  endpointProgram := h'.endpointProgram.trans h.endpointProgram
  bump := h'.bump.trans h.bump
  lzReceiveTypesAccounts := h'.lzReceiveTypesAccounts.trans h.lzReceiveTypesAccounts
  mintKey := h'.mintKey.trans h.mintKey
  tokenProgram := h'.tokenProgram.trans h.tokenProgram
  decimals := h'.decimals.trans h.decimals
  escrowOwner o ho := by
    have hkeep := h'.escrowOwner o
    rw [h.tokenEscrow] at hkeep
    exact hkeep (h.escrowOwner o ho)

private theorem SameStore.of_frame {w w' : World} {touched : List Pubkey}
    (hkey : w'.storeKey = w.storeKey)
    (hstore : w'.oftStore = { w.oftStore with tvlLd := w'.oftStore.tvlLd })
    (hlz : w'.lzReceiveTypesAccounts = w.lzReceiveTypesAccounts)
    (hframe : w.ledger.Frame w'.ledger touched) : SameStore w w' := by
  refine ⟨hkey, ?_, ?_, ?_, ?_, ?_, ?_, hlz, hframe.mintKey, hframe.tokenProgram,
    hframe.decimals, hframe.ownerOf _⟩ <;> rw [hstore]

private theorem SameStore.of_reconfigured {w w' : World} (h : Reconfigured w w') : SameStore w w' :=
    by
  rw [h.eq]
  exact ⟨rfl, rfl, rfl, rfl, rfl, rfl, rfl, rfl, rfl, rfl, rfl, fun _ h => h⟩

theorem Send.Sent.sameStore {rt : Runtime} {clock : Clock} {accs : SendAccounts}
    {params : SendParams} {peer : PeerConfig} {w w' : World} {out : SendOutcome}
    (h : Send.Sent rt clock accs params peer w w' out) : SameStore w w' := by
  obtain ⟨touched, hframe⟩ := collect_frame h.collected
  obtain ⟨outbound, -, heq⟩ := h.limited
  refine SameStore.of_frame ?_ ?_ ?_ hframe <;> rw [heq] <;> rfl

theorem LzReceive.Received.sameStore {rt : Runtime} {clock : Clock} {a : LzReceiveAccounts}
    {params : LzReceiveParams} {peer : PeerConfig} {w w' : World} {out : LzReceiveOutcome}
    (h : LzReceive.Received rt clock a params peer w w' out) : SameStore w w' := by
  obtain ⟨opened, received, hopened, hrelease, -, -⟩ := h.released
  obtain ⟨touched, hframe⟩ := release_frame hrelease
  obtain ⟨inbound, -, heq⟩ := h.limited
  refine SameStore.of_frame ?_ ?_ ?_
    ((TokenLedger.initIfNeeded_spec hopened).1.trans hframe) <;> rw [heq] <;> rfl

/-- What a successful instruction did, instruction by instruction. -/
inductive Executed (rt : Runtime) (clock : Clock) (w w' : World) :
    Instruction → Outcome → Prop
  | setOftConfig {accs : AdminAccounts} {params : SetOFTConfigParams} (ep : Endpoint)
      (run : SetOFTConfig.apply rt ep accs params w = .ok w') :
      Executed rt clock w w' (.setOftConfig accs params) .done
  | setPeerConfig {admin : Pubkey} {params : SetPeerConfigParams}
      (run : SetPeerConfig.apply rt clock admin params w = .ok w') :
      Executed rt clock w w' (.setPeerConfig admin params) .done
  | setPause {signer : Pubkey} {paused : Bool} (run : SetPause.apply rt signer paused w = .ok w') :
      Executed rt clock w w' (.setPause signer paused) .done
  | withdrawFee {accs : WithdrawFeeAccounts} {feeLd : U64}
      (run : WithdrawFee.apply rt clock accs feeLd w = .ok w') :
      Executed rt clock w w' (.withdrawFee accs feeLd) .done
  | send {accs : SendAccounts} {params : SendParams} {peer : PeerConfig} {out : SendOutcome}
      (sent : Send.Sent rt clock accs params peer w w' out) :
      Executed rt clock w w' (.send accs params) (.sent out)
  | lzReceive {metas : List LzAccount} {params : LzReceiveParams} {a : LzReceiveAccounts}
      {peer : PeerConfig} {out : LzReceiveOutcome} (parsed : LzReceive.parse rt metas = .ok a)
      (received : LzReceive.Received rt clock a params peer w w' out) :
      Executed rt clock w w' (.lzReceive metas params) (.received out)

theorem execute_executed {rt : Runtime} {ep : Endpoint} {clock : Clock} {i : Instruction}
    {w w' : World} {o : Outcome} (h : execute rt ep clock i w = .ok (w', o)) :
    Executed rt clock w w' i o := by
  cases i with
  | setOftConfig accs params =>
    simp only [execute, bind_eq_ok, pure_eq_ok, Prod.mk.injEq] at h
    obtain ⟨_, hrun, rfl, rfl⟩ := h
    exact .setOftConfig ep hrun
  | setPeerConfig admin params =>
    simp only [execute, bind_eq_ok, pure_eq_ok, Prod.mk.injEq] at h
    obtain ⟨_, hrun, rfl, rfl⟩ := h
    exact .setPeerConfig hrun
  | setPause signer paused =>
    simp only [execute, bind_eq_ok, pure_eq_ok, Prod.mk.injEq] at h
    obtain ⟨_, hrun, rfl, rfl⟩ := h
    exact .setPause hrun
  | withdrawFee accs feeLd =>
    simp only [execute, bind_eq_ok, pure_eq_ok, Prod.mk.injEq] at h
    obtain ⟨_, hrun, rfl, rfl⟩ := h
    exact .withdrawFee hrun
  | send accs params =>
    simp only [execute, bind_eq_ok, pure_eq_ok, Prod.mk.injEq, Prod.exists] at h
    obtain ⟨_, _, hrun, rfl, rfl⟩ := h
    obtain ⟨peer, hsent⟩ := Send.apply_sent hrun
    exact .send hsent
  | lzReceive metas params =>
    simp only [execute, bind_eq_ok, pure_eq_ok, Prod.mk.injEq, Prod.exists] at h
    obtain ⟨_, _, hrun, rfl, rfl⟩ := h
    obtain ⟨a, peer, hparse, hreceived⟩ := LzReceive.apply_received hrun
    exact .lzReceive hparse hreceived

theorem Step.sent {rt : Runtime} {w w' : World} {clock : Clock} {accs : SendAccounts}
    {params : SendParams} {out : SendOutcome}
    (h : Step rt w (.executed clock (.send accs params) (.sent out)) w') :
    rt.signable accs.signer = true ∧ ∃ peer, Send.Sent rt clock accs params peer w w' out := by
  cases h with
  | executed signed hrun =>
    cases execute_executed hrun with
    | send sent => exact ⟨signed _ rfl, _, sent⟩

theorem Step.received {rt : Runtime} {w w' : World} {clock : Clock} {metas : List LzAccount}
    {params : LzReceiveParams} {out : LzReceiveOutcome}
    (h : Step rt w (.executed clock (.lzReceive metas params) (.received out)) w') :
    ∃ a peer, LzReceive.Received rt clock a params peer w w' out := by
  cases h with
  | executed _ hrun =>
    cases execute_executed hrun with
    | lzReceive parsed received => exact ⟨_, _, received⟩

theorem Executed.sameStore {rt : Runtime} {clock : Clock} {w w' : World} {i : Instruction}
    {o : Outcome} (h : Executed rt clock w w' i o) : SameStore w w' := by
  cases h with
  | setOftConfig ep run => exact .of_reconfigured (SetOFTConfig.reconfigured run)
  | setPeerConfig run =>
    obtain ⟨-, peer, -, rfl⟩ := SetPeerConfig.apply_eq_ok run
    exact ⟨rfl, rfl, rfl, rfl, rfl, rfl, rfl, rfl, rfl, rfl, rfl, fun _ h => h⟩
  | setPause run => exact .of_reconfigured (SetPause.reconfigured run)
  | withdrawFee run =>
    obtain ⟨-, -, heq, hmove⟩ := WithdrawFee.apply_eq_ok run
    refine SameStore.of_frame ?_ ?_ ?_ (TokenLedger.transferChecked_frame hmove).1 <;> rw [heq]
  | send sent => exact sent.sameStore
  | lzReceive _ received => exact received.sameStore

theorem Step.sameStore {rt : Runtime} {w w' : World} {e : Event} (h : Step rt w e w') :
    SameStore w w' := by
  cases h with
  | executed _ run => exact (execute_executed run).sameStore
  | failed _ => exact SameStore.refl w
  | external change =>
    exact ⟨rfl, rfl, rfl, rfl, rfl, rfl, rfl, rfl, change.mintKey, change.tokenProgram,
      change.decimals, fun _ ho => change.ownerOf.trans ho⟩

theorem run_sameStore {rt : Runtime} {w w' : World} {events : List Event}
    (h : Run (Step rt) w events w') : SameStore w w' := by
  induction h with
  | nil w => exact .refl w
  | cons head _ ih => exact head.sameStore.trans ih

/-- `init_oft` creates the escrow empty, counts nothing as locked and knows no peer. -/
theorem Genesis.fresh {rt : Runtime} {sd : U8} {w : World} (h : Genesis rt sd w) :
    w.escrow = 0 ∧ w.tvl = 0 ∧ ∀ eid, w.peers eid = none := by
  obtain ⟨ep, accs, params, ledger, -, hinit⟩ := h
  simp only [InitOFT.apply, bind_eq_ok, pure_eq_ok] at hinit
  obtain ⟨_, -, _, -, _, -, _, -, _, -, _, -, _, -, rfl⟩ := hinit
  exact ⟨by simp [World.escrow, TokenLedger.balance], rfl, fun _ => rfl⟩

/-- What `init_oft` establishes and every step keeps. -/
structure WellFormed (rt : Runtime) (sharedDecimals : U8) (w : World) : Prop where
  derived : rt.findProgramAddress (storeSeeds w.oftStore.tokenEscrow) =
    (w.storeKey, w.oftStore.bump)
  escrowSignable : rt.signable w.oftStore.tokenEscrow = true
  escrowOwner : w.ledger.ownerOf w.oftStore.tokenEscrow = some w.storeKey
  mintKey : w.ledger.mintKey = w.oftStore.tokenMint
  tokenInterface : w.ledger.tokenProgram ∈ rt.tokenInterface
  decimals : sharedDecimals.toNat ≤ w.ledger.mint.decimals.toNat
  rate : w.oftStore.rate = 10 ^ (w.ledger.mint.decimals.toNat - sharedDecimals.toNat)
  defaultFee : w.oftStore.defaultFeeBps.toNat < 10000
  peerFee : ∀ eid peer, w.peers eid = some peer → ∀ bps, peer.feeBps = some bps →
    bps.toNat < 10000
  peerBump : ∀ eid peer, w.peers eid = some peer →
    peer.bump = (rt.findProgramAddress (peerSeeds w.storeKey eid)).2

namespace WellFormed

variable {rt : Runtime} {sd : U8} {w w' : World}

theorem rate_pos (h : WellFormed rt sd w) : 0 < w.oftStore.rate := by
  rw [h.rate]
  exact Nat.pow_pos (by decide)

private theorem store_not_signable (h : WellFormed rt sd w) : rt.signable w.storeKey = false := by
  have hpda := rt.find_not_signable (storeSeeds w.oftStore.tokenEscrow)
  rwa [h.derived] at hpda

theorem checkStore (h : WellFormed rt sd w) : w.checkStore rt = .ok () := by
  have hcreate := rt.create_find (storeSeeds w.oftStore.tokenEscrow)
  rw [h.derived] at hcreate
  exact World.checkStore_eq_ok.mpr hcreate

theorem checkMint (h : WellFormed rt sd w) : w.checkMint = .ok () :=
  World.checkMint_eq_ok.mpr h.mintKey

theorem peerAccount_eq_ok (h : WellFormed rt sd w) {eid : U32} {peer : PeerConfig} :
    w.peerAccount rt eid = .ok peer ↔ w.peers eid = some peer := by
  rw [World.peerAccount_eq_ok]
  constructor
  · intro hpeer
    exact hpeer.1
  · intro hpeer
    have hcreate := rt.create_find (peerSeeds w.storeKey eid)
    rw [← h.peerBump eid peer hpeer] at hcreate
    exact ⟨hpeer, hcreate⟩

/-- The sender's account is not the escrow: its owner signed. -/
theorem source_ne_escrow (h : WellFormed rt sd w) {source signer : Pubkey}
    (howner : w.ledger.ownerOf source = some signer) (hsigned : rt.signable signer = true) :
    source ≠ w.oftStore.tokenEscrow := by
  rintro rfl
  rw [h.escrowOwner, Option.some.injEq] at howner
  rw [← howner, h.store_not_signable] at hsigned
  cases hsigned

/-- No associated token account is the escrow: the escrow's address once signed. -/
theorem escrow_ne_associated (h : WellFormed rt sd w) (wallet mint tokenProgram : Pubkey) :
    w.oftStore.tokenEscrow ≠ rt.associatedTokenAddress wallet mint tokenProgram := by
  intro heq
  have hsign := h.escrowSignable
  rw [heq, rt.associated_not_signable] at hsign
  cases hsign

theorem of_genesis (h : Genesis rt sd w) : WellFormed rt sd w := by
  obtain ⟨ep, accs, params, ledger, rfl, hinit⟩ := h
  simp only [InitOFT.apply, bind_eq_ok, require_eq_ok, orError_eq_ok, checkedSub_eq_some,
    checkedPow_eq_some, cpi_eq_ok, exists_const, pure_eq_ok] at hinit
  obtain ⟨htoken, hsign, -, hle, exponent, hexp, rate, hrate, -, rfl⟩ := hinit
  have hfee : (0 : U16).toNat < 10000 := by decide
  refine ⟨rfl, hsign, by simp [TokenLedger.ownerOf], rfl, htoken, hle, ?_, hfee,
    fun _ _ h => (by cases h), fun _ _ h => (by cases h)⟩
  change rate.toNat = 10 ^ (ledger.mint.decimals.toNat - params.sharedDecimals.toNat)
  rw [hrate, ← hexp, Nat.add_sub_cancel]
  rfl

private theorem of_sameStore (h : WellFormed rt sd w) (hsame : SameStore w w')
    (hfee : w'.oftStore.defaultFeeBps.toNat < 10000)
    (hpeers : ∀ eid peer, w'.peers eid = some peer →
      (∀ bps, peer.feeBps = some bps → bps.toNat < 10000) ∧
        peer.bump = (rt.findProgramAddress (peerSeeds w.storeKey eid)).2) :
    WellFormed rt sd w' where
  derived := by rw [hsame.tokenEscrow, hsame.storeKey, hsame.bump, h.derived]
  escrowSignable := by rw [hsame.tokenEscrow, h.escrowSignable]
  escrowOwner := by
    rw [hsame.tokenEscrow, hsame.storeKey]
    exact hsame.escrowOwner _ h.escrowOwner
  mintKey := by rw [hsame.mintKey, hsame.tokenMint, h.mintKey]
  tokenInterface := by rw [hsame.tokenProgram]; exact h.tokenInterface
  decimals := by rw [hsame.decimals]; exact h.decimals
  rate := by
    rw [OFTStore.rate, hsame.ld2sdRate, hsame.decimals]
    exact h.rate
  defaultFee := hfee
  peerFee eid peer hp := (hpeers eid peer hp).1
  peerBump eid peer hp := by rw [hsame.storeKey]; exact (hpeers eid peer hp).2

private theorem peers_update {eid : U32} {peer : PeerConfig} (h : WellFormed rt sd w)
    (hfee : ∀ bps, peer.feeBps = some bps → bps.toNat < 10000)
    (hbump : peer.bump = (rt.findProgramAddress (peerSeeds w.storeKey eid)).2) :
    ∀ eid' peer', Function.update w.peers eid (some peer) eid' = some peer' →
      (∀ bps, peer'.feeBps = some bps → bps.toNat < 10000) ∧
        peer'.bump = (rt.findProgramAddress (peerSeeds w.storeKey eid')).2 := by
  intro eid' peer' hp
  by_cases heid : eid' = eid
  · subst heid
    rw [Function.update_self, Option.some.injEq] at hp
    subst hp
    exact ⟨hfee, hbump⟩
  · rw [Function.update_of_ne heid] at hp
    exact ⟨h.peerFee eid' peer' hp, h.peerBump eid' peer' hp⟩

theorem step {e : Event} (h : WellFormed rt sd w) (hstep : Step rt w e w') :
    WellFormed rt sd w' := by
  have hsame := hstep.sameStore
  have hpeers : ∀ eid peer, w.peers eid = some peer →
      (∀ bps, peer.feeBps = some bps → bps.toNat < 10000) ∧
        peer.bump = (rt.findProgramAddress (peerSeeds w.storeKey eid)).2 :=
    fun eid peer hp => ⟨h.peerFee eid peer hp, h.peerBump eid peer hp⟩
  have hreconfigured (hre : Reconfigured w w') : WellFormed rt sd w' := by
    refine h.of_sameStore hsame ?_ ?_
    · rcases hre.defaultFee with heq | hlt
      · rw [heq]
        exact h.defaultFee
      · exact hlt
    · rw [hre.eq]
      exact hpeers
  cases hstep with
  | failed _ => exact h
  | external change => exact h.of_sameStore hsame h.defaultFee hpeers
  | executed _ hrun =>
    cases execute_executed hrun with
    | setOftConfig ep run => exact hreconfigured (SetOFTConfig.reconfigured run)
    | setPause run => exact hreconfigured (SetPause.reconfigured run)
    | setPeerConfig run =>
      obtain ⟨-, peer, hconf, rfl⟩ := SetPeerConfig.apply_eq_ok run
      refine h.of_sameStore hsame h.defaultFee (h.peers_update ?_ rfl)
      change ∀ bps, peer.feeBps = some bps → bps.toNat < 10000
      refine PeerConfig.configure_fee hconf ?_
      intro bps hbps
      cases hold : w.peers _ with
      | none =>
        rw [hold] at hbps
        cases hbps
      | some old =>
        rw [hold] at hbps
        exact h.peerFee _ old hold bps hbps
    | withdrawFee run =>
      obtain ⟨-, -, heq, -⟩ := WithdrawFee.apply_eq_ok run
      refine h.of_sameStore hsame ?_ ?_
      · rw [heq]
        exact h.defaultFee
      · rw [heq]
        exact hpeers
    | send sent =>
      obtain ⟨outbound, -, heq⟩ := sent.limited
      have hold := hpeers _ _ sent.peer_eq
      refine h.of_sameStore hsame ?_ ?_
      · rw [heq]
        exact h.defaultFee
      · rw [heq]
        exact h.peers_update hold.1 hold.2
    | lzReceive _ received =>
      obtain ⟨inbound, -, heq⟩ := received.limited
      have hold := hpeers _ _ received.peer_eq
      refine h.of_sameStore hsame ?_ ?_
      · rw [heq]
        exact h.defaultFee
      · rw [heq]
        exact h.peers_update hold.1 hold.2

end WellFormed

theorem Reaches.wellFormed {rt : Runtime} {sd : U8} {events : List Event} {w : World}
    (h : Reaches rt sd events w) : WellFormed rt sd w := by
  obtain ⟨w₀, hgen, hrun⟩ := h
  exact hrun.invariant (fun _ _ _ hwf hstep => hwf.step hstep) (WellFormed.of_genesis hgen)

end FdfiToken
