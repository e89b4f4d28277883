import FdfiToken.Evm.Backing
import FdfiToken.Lib.Schedule

/-!
# Interleaved lanes

The debits and credits of a contract, on all lanes and in any order that goes through. A lane's
entry decides what the lane is shown, and the token only adds up, so the order between lanes does
not matter.
-/

namespace FdfiToken.Evm

open Word Fallible Shifts Runs Schedules

inductive Answer where
  | debited (amountSentLD amountReceivedLD : U256) (event : Option RateConsumed)
  | credited (amountReceivedLD : U256) (event : Option RateConsumed)

def BridgeCall.lane {σ : Type} : BridgeCall σ → Option U32
  | .debit _ _ _ dstEid => some dstEid
  | .credit _ _ srcEid => some srcEid
  | _ => none

def requestLane {σ : Type} (r : Msg × BridgeCall σ) : Option U32 := r.2.lane

def RateLimits.entry (rls : RateLimits) (lane : Option U32) : Option RateLimit := lane.map rls

inductive FDFIOFTAdapter.Transferred {σ : Type} (lib : RateLimiter) (core : OFTBase σ) :
    FDFIOFTAdapter σ → (Msg × BridgeCall σ) × Answer → FDFIOFTAdapter σ → Prop
  | debit {msg : Msg} {src : Address} {amountLD minAmountLD : U256} {dstEid : U32}
      {a : FDFIOFTAdapter σ} {out : Debited (FDFIOFTAdapter σ)} {event : RateConsumed}
      (run : a._debit lib core msg src amountLD minAmountLD dstEid = .ok (out, event)) :
      Transferred lib core a ((msg, .debit src amountLD minAmountLD dstEid),
        .debited out.amountSentLD out.amountReceivedLD (some event)) out.state
  | credit {msg : Msg} {dst : Address} {amountLD : U256} {srcEid : U32} {a : FDFIOFTAdapter σ}
      {out : Credited (FDFIOFTAdapter σ)} {event : RateConsumed}
      (run : a._credit lib core msg dst amountLD srcEid = .ok (out, event)) :
      Transferred lib core a ((msg, .credit dst amountLD srcEid),
        .credited out.amountReceivedLD (some event)) out.state

inductive FDFIOFTUpgradeable.Transferred {σ : Type} (lib : RateLimiter) (core : OFTBase σ) :
    FDFIOFTUpgradeable σ → (Msg × BridgeCall σ) × Answer → FDFIOFTUpgradeable σ → Prop
  | debit {msg : Msg} {src : Address} {amountLD minAmountLD : U256} {dstEid : U32}
      {c : FDFIOFTUpgradeable σ} {out : Debited (FDFIOFTUpgradeable σ)}
      (run : c._debit lib core msg src amountLD minAmountLD dstEid = .ok out) :
      Transferred lib core c ((msg, .debit src amountLD minAmountLD dstEid),
        .debited out.amountSentLD out.amountReceivedLD none) out.state
  | credit {msg : Msg} {dst : Address} {amountLD : U256} {srcEid : U32}
      {c : FDFIOFTUpgradeable σ} {out : Credited (FDFIOFTUpgradeable σ)}
      (run : c._credit core msg dst amountLD srcEid = .ok out) :
      Transferred lib core c ((msg, .credit dst amountLD srcEid),
        .credited out.amountReceivedLD none) out.state

def ERC20.counts (l : ERC20) : (Address → ℕ) × ℕ := (l.holdings, l.totalSupply.toNat)

def Transfer.out (t : Transfer) : (Address → ℕ) × ℕ :=
  (ERC20.side t.src t.value, ERC20.zeroSide t.dst t.value)

def Transfer.into (t : Transfer) : (Address → ℕ) × ℕ :=
  (ERC20.side t.dst t.value, ERC20.zeroSide t.src t.value)

theorem ERC20.Updated.counts {t : Transfer} {l l' : ERC20} (h : ERC20.Updated t l l') :
    Shift t.out t.into l.counts l'.counts :=
  Prod.ext h.holdings h.totalSupply

/-- A base whose amounts and movements are decided by the call alone. -/
structure OFTBase.Ledgered {σ : Type} (core : OFTBase σ) (I : σ → Prop) (erc20 : σ → ERC20)
    (moves : BridgeCall σ → Transfer) : Prop where
  debit {msg : Msg} {src : Address} {amountLD minAmountLD : U256} {dstEid : U32} {s : σ}
    {out : Debited σ} : I s → core.debit msg src amountLD minAmountLD dstEid s = .ok out →
      I out.state ∧ out.amountSentLD = OFTCore.removeDust amountLD ∧
        out.amountReceivedLD = OFTCore.removeDust amountLD ∧
        ERC20.Updated (moves (.debit src amountLD minAmountLD dstEid)) (erc20 s) (erc20 out.state)
  credit {msg : Msg} {dst : Address} {amountLD : U256} {srcEid : U32} {s : σ}
    {out : Credited σ} : I s → core.credit msg dst amountLD srcEid s = .ok out →
      I out.state ∧ out.amountReceivedLD = amountLD ∧
        ERC20.Updated (moves (.credit dst amountLD srcEid)) (erc20 s) (erc20 out.state)

def OFTAdapter.moves {oz : OpenZeppelin} (self : { a : Address // a ≠ 0 }) :
    BridgeCall (FDFIToken oz) → Transfer
  | .debit src amountLD _ _ => ⟨src, self.1, OFTCore.removeDust amountLD⟩
  | .credit dst amountLD _ => ⟨self.1, dst, amountLD⟩
  | _ => ⟨0, 0, 0⟩

private theorem OFTAdapter.ledgered (oz : OpenZeppelin) (self : { a : Address // a ≠ 0 }) :
    (base oz self).Ledgered FDFIToken.Sound (fun s => s.erc20) (moves self) where
  debit {msg src amountLD minAmountLD dstEid s out} hs h := by
    simp only [base, bind_eq_ok, OFTCore.debitView_eq_ok, pure_eq_ok] at h
    obtain ⟨-, ⟨-, rfl⟩, s₁, hpull, rfl⟩ := h
    have hexec : s.exec ⟨callAs self msg, .transferFrom src self.1 (OFTCore.removeDust amountLD)⟩ =
        .ok s₁ := hpull
    obtain ⟨-, f, -, hmoved⟩ := FDFIToken.exec_moved hexec rfl
    exact ⟨hs.step hexec, rfl, rfl, hmoved.ledger_of hs.backed⟩
  credit {msg dst amountLD srcEid s out} hs h := by
    simp only [base, bind_eq_ok, pure_eq_ok] at h
    obtain ⟨s₁, hpay, rfl⟩ := h
    have hexec : s.exec ⟨callAs self msg, .transfer dst amountLD⟩ = .ok s₁ := hpay
    obtain ⟨-, f, -, hmoved⟩ := FDFIToken.exec_moved hexec rfl
    exact ⟨hs.step hexec, rfl, hmoved.ledger_of hs.backed⟩

def OFTToken.moves : BridgeCall OFTToken → Transfer
  | .debit src amountLD _ _ => ⟨src, 0, OFTCore.removeDust amountLD⟩
  | .credit dst amountLD _ => ⟨0, if dst = 0 then dead else dst, amountLD⟩
  | _ => ⟨0, 0, 0⟩

private theorem OFTToken.ledgered :
    base.Ledgered (fun s => s.erc20.Backed) (fun s => s.erc20) moves where
  debit {msg src amountLD minAmountLD dstEid s out} hs h := by
    simp only [base, bind_eq_ok, OFTCore.debitView_eq_ok, pure_eq_ok, ERC20.burn_eq_ok] at h
    obtain ⟨-, ⟨-, rfl⟩, s₁, ⟨-, hburn⟩, rfl⟩ := h
    have hupdated := update_eq_ok hs hburn
    exact ⟨hupdated.backed hs, rfl, rfl, hupdated⟩
  credit {msg dst amountLD srcEid s out} hs h := by
    simp only [base, bind_eq_ok, pure_eq_ok, ERC20.mint_eq_ok] at h
    obtain ⟨s₁, ⟨-, hmint⟩, rfl⟩ := h
    have hupdated := update_eq_ok hs hmint
    exact ⟨hupdated.backed hs, rfl, hupdated⟩

private theorem RateLimiter.outflow_entry {lib : RateLimiter} {msg : Msg} {dstEid : U32}
    {amount : U256} {rls rls' qls qls' : RateLimits} (hentry : rls dstEid = qls dstEid)
    (h : lib.outflow msg dstEid amount rls = .ok rls')
    (h' : lib.outflow msg dstEid amount qls = .ok qls') : rls' dstEid = qls' dstEid := by
  simp only [outflow, bind_eq_ok, pure_eq_ok] at h h'
  obtain ⟨pair, hpair, -, -, inFlight, hin, rfl⟩ := h
  obtain ⟨pair', hpair', -, -, inFlight', hin', rfl⟩ := h'
  rw [← hentry, hpair, Except.ok.injEq] at hpair'
  subst hpair'
  rw [hin, Except.ok.injEq] at hin'
  rw [Function.update_self, Function.update_self, hentry, hin']

section Contracts

variable {σ : Type} {lib : RateLimiter} {core : OFTBase σ} {I : σ → Prop} {erc20 : σ → ERC20}
  {moves : BridgeCall σ → Transfer}

theorem FDFIOFTAdapter.Transferred.moved (hcore : core.Ledgered I erc20 moves)
    {a a' : FDFIOFTAdapter σ} {l : (Msg × BridgeCall σ) × Answer} (hI : I a.base)
    (h : Transferred lib core a l a') :
    I a'.base ∧ ERC20.Updated (moves l.1.2) (erc20 a.base) (erc20 a'.base) := by
  cases h with
  | debit run =>
    obtain ⟨hkeep, -, -, hupdated⟩ := hcore.debit hI (debit_forwards run)
    exact ⟨hkeep, hupdated⟩
  | credit run =>
    obtain ⟨hkeep, -, hupdated⟩ := hcore.credit hI (credit_forwards run)
    exact ⟨hkeep, hupdated⟩

theorem FDFIOFTUpgradeable.Transferred.moved (hcore : core.Ledgered I erc20 moves)
    {c c' : FDFIOFTUpgradeable σ} {l : (Msg × BridgeCall σ) × Answer} (hI : I c.base)
    (h : Transferred lib core c l c') :
    I c'.base ∧ ERC20.Updated (moves l.1.2) (erc20 c.base) (erc20 c'.base) := by
  cases h with
  | debit run =>
    obtain ⟨hkeep, -, -, hupdated⟩ := hcore.debit hI (debit_forwards run)
    exact ⟨hkeep, hupdated⟩
  | credit run =>
    obtain ⟨hkeep, -, hupdated⟩ := hcore.credit hI (credit_forwards run)
    exact ⟨hkeep, hupdated⟩

private theorem FDFIOFTAdapter.debit_entry {msg : Msg} {src : Address} {amountLD minAmountLD : U256}
    {dstEid : U32} {a b : FDFIOFTAdapter σ} {out out' : Debited (FDFIOFTAdapter σ)}
    {event event' : RateConsumed} (hentry : a.rateLimits dstEid = b.rateLimits dstEid)
    (h : a._debit lib core msg src amountLD minAmountLD dstEid = .ok (out, event))
    (h' : b._debit lib core msg src amountLD minAmountLD dstEid = .ok (out', event')) :
    out.state.rateLimits dstEid = out'.state.rateLimits dstEid ∧ event = event' := by
  simp only [_debit, bind_eq_ok, pure_eq_ok, Prod.mk.injEq] at h h'
  obtain ⟨rls, hout, remaining, hremaining, -, -, rfl, rfl⟩ := h
  obtain ⟨rls', hout', remaining', hremaining', -, -, rfl, rfl⟩ := h'
  have hsame := RateLimiter.outflow_entry hentry hout hout'
  rw [← hsame, hremaining, Except.ok.injEq] at hremaining'
  exact ⟨hsame, by rw [hremaining']⟩

private theorem FDFIOFTAdapter.credit_entry {msg : Msg} {dst : Address} {amountLD : U256}
    {srcEid : U32}
    {a b : FDFIOFTAdapter σ} {out out' : Credited (FDFIOFTAdapter σ)} {event event' : RateConsumed}
    (hentry : a.rateLimits srcEid = b.rateLimits srcEid)
    (h : a._credit lib core msg dst amountLD srcEid = .ok (out, event))
    (h' : b._credit lib core msg dst amountLD srcEid = .ok (out', event')) :
    out.state.rateLimits srcEid = out'.state.rateLimits srcEid ∧ event = event' := by
  simp only [_credit, bind_eq_ok, pure_eq_ok, Prod.mk.injEq] at h h'
  obtain ⟨remaining, hremaining, -, -, rfl, rfl⟩ := h
  obtain ⟨remaining', hremaining', -, -, rfl, rfl⟩ := h'
  have hsame : a.rateLimits.inflow srcEid amountLD srcEid =
      b.rateLimits.inflow srcEid amountLD srcEid := by
    rw [RateLimits.inflow_self, RateLimits.inflow_self, hentry]
  rw [← hsame, hremaining, Except.ok.injEq] at hremaining'
  exact ⟨hsame, by rw [hremaining']⟩

private theorem FDFIOFTAdapter.Transferred.rateLimits_of_ne {a a' : FDFIOFTAdapter σ}
    {l : (Msg × BridgeCall σ) × Answer} {eid : U32} (h : Transferred lib core a l a')
    (hne : some eid ≠ l.1.2.lane) : a'.rateLimits eid = a.rateLimits eid := by
  cases h with
  | @debit msg src amountLD minAmountLD dstEid a out event run =>
    have heid : eid ≠ dstEid := fun heq => hne (congrArg some heq)
    simp only [_debit, bind_eq_ok, pure_eq_ok, Prod.mk.injEq] at run
    obtain ⟨rls, hout, -, -, -, -, rfl, -⟩ := run
    exact RateLimiter.outflow_of_ne hout heid
  | @credit msg dst amountLD srcEid a out event run =>
    have heid : eid ≠ srcEid := fun heq => hne (congrArg some heq)
    simp only [_credit, bind_eq_ok, pure_eq_ok, Prod.mk.injEq] at run
    obtain ⟨-, -, -, -, rfl, -⟩ := run
    exact RateLimits.inflow_of_ne _ _ heid

/-- Transfers of the adapter are decided by the entry of their lane. -/
theorem FDFIOFTAdapter.transferred_keyed (lib : RateLimiter) (hcore : core.Ledgered I erc20 moves) :
    Keyed (fun a => I a.base) (Transferred lib core) requestLane
      (fun a => a.rateLimits.entry) Eq where
  keeps hI h := (h.moved hcore hI).1
  frame {a a' l lane} _ h hne := by
    cases lane with
    | none => rfl
    | some eid => exact congrArg some (h.rateLimits_of_ne hne)
  decided {a a' b b' r e e'} ha hb hreg h h' := by
    cases h with
    | @debit msg src amountLD minAmountLD dstEid a out event run =>
      cases h' with
      | debit run' =>
        have hentry : a.rateLimits dstEid = b.rateLimits dstEid := Option.some.inj hreg
        obtain ⟨-, hsent, hreceived, -⟩ := hcore.debit ha (debit_forwards run)
        obtain ⟨-, hsent', hreceived', -⟩ := hcore.debit hb (debit_forwards run')
        obtain ⟨hleft, rfl⟩ := debit_entry hentry run run'
        have hsame := hsent.trans hsent'.symm
        have hsame' := hreceived.trans hreceived'.symm
        exact ⟨congrArg₂ (Answer.debited · · _) hsame hsame', congrArg some hleft⟩
    | @credit msg dst amountLD srcEid a out event run =>
      cases h' with
      | credit run' =>
        have hentry : a.rateLimits srcEid = b.rateLimits srcEid := Option.some.inj hreg
        obtain ⟨-, hreceived, -⟩ := hcore.credit ha (credit_forwards run)
        obtain ⟨-, hreceived', -⟩ := hcore.credit hb (credit_forwards run')
        obtain ⟨hleft, rfl⟩ := credit_entry hentry run run'
        have hsame := hreceived.trans hreceived'.symm
        exact ⟨congrArg (Answer.credited · _) hsame, congrArg some hleft⟩

private theorem FDFIOFTUpgradeable.debit_entry {msg : Msg} {src : Address}
    {amountLD minAmountLD : U256}
    {dstEid : U32} {c d : FDFIOFTUpgradeable σ} {out out' : Debited (FDFIOFTUpgradeable σ)}
    (hentry : c.rateLimits dstEid = d.rateLimits dstEid)
    (h : c._debit lib core msg src amountLD minAmountLD dstEid = .ok out)
    (h' : d._debit lib core msg src amountLD minAmountLD dstEid = .ok out') :
    out.state.rateLimits dstEid = out'.state.rateLimits dstEid := by
  simp only [_debit, bind_eq_ok, pure_eq_ok] at h h'
  obtain ⟨rls, hout, -, -, rfl⟩ := h
  obtain ⟨rls', hout', -, -, rfl⟩ := h'
  exact RateLimiter.outflow_entry hentry hout hout'

private theorem FDFIOFTUpgradeable.credit_rateLimits {msg : Msg} {dst : Address} {amountLD : U256}
    {srcEid : U32} {c : FDFIOFTUpgradeable σ} {out : Credited (FDFIOFTUpgradeable σ)}
    (h : c._credit core msg dst amountLD srcEid = .ok out) :
    out.state.rateLimits = c.rateLimits := by
  simp only [_credit, bind_eq_ok, pure_eq_ok] at h
  obtain ⟨-, -, rfl⟩ := h
  rfl

private theorem FDFIOFTUpgradeable.Transferred.rateLimits_of_ne {c c' : FDFIOFTUpgradeable σ}
    {l : (Msg × BridgeCall σ) × Answer} {eid : U32} (h : Transferred lib core c l c')
    (hne : some eid ≠ l.1.2.lane) : c'.rateLimits eid = c.rateLimits eid := by
  cases h with
  | @debit msg src amountLD minAmountLD dstEid c out run =>
    have heid : eid ≠ dstEid := fun heq => hne (congrArg some heq)
    simp only [_debit, bind_eq_ok, pure_eq_ok] at run
    obtain ⟨rls, hout, -, -, rfl⟩ := run
    exact RateLimiter.outflow_of_ne hout heid
  | credit run => rw [credit_rateLimits run]

theorem FDFIOFTUpgradeable.transferred_keyed (lib : RateLimiter)
    (hcore : core.Ledgered I erc20 moves) :
    Keyed (fun c => I c.base) (Transferred lib core) requestLane
      (fun c => c.rateLimits.entry) Eq where
  keeps hI h := (h.moved hcore hI).1
  frame {c c' l lane} _ h hne := by
    cases lane with
    | none => rfl
    | some eid => exact congrArg some (h.rateLimits_of_ne hne)
  decided {c c' d d' r e e'} hc hd hreg h h' := by
    cases h with
    | @debit msg src amountLD minAmountLD dstEid c out run =>
      cases h' with
      | debit run' =>
        have hentry : c.rateLimits dstEid = d.rateLimits dstEid := Option.some.inj hreg
        obtain ⟨-, hsent, hreceived, -⟩ := hcore.debit hc (debit_forwards run)
        obtain ⟨-, hsent', hreceived', -⟩ := hcore.debit hd (debit_forwards run')
        have hsame := hsent.trans hsent'.symm
        have hsame' := hreceived.trans hreceived'.symm
        exact ⟨congrArg₂ (Answer.debited · · _) hsame hsame',
          congrArg some (debit_entry hentry run run')⟩
    | @credit msg dst amountLD srcEid c out run =>
      cases h' with
      | credit run' =>
        obtain ⟨-, hreceived, -⟩ := hcore.credit hc (credit_forwards run)
        obtain ⟨-, hreceived', -⟩ := hcore.credit hd (credit_forwards run')
        have hsame := hreceived.trans hreceived'.symm
        rw [credit_rateLimits run, credit_rateLimits run']
        exact ⟨congrArg (Answer.credited · _) hsame, hreg⟩

/-- The two schedules agree: they leave the same limits and the same ledger, and every lane was
given the same answers. -/
structure Agreed {σ : Type} (xs ys : List ((Msg × BridgeCall σ) × Answer)) (rls rls' : RateLimits)
    (l l' : ERC20) : Prop where
  rateLimits : rls' = rls
  balances : l'.balances = l.balances
  totalSupply : l'.totalSupply = l.totalSupply
  answers : ∀ lane, effects requestLane lane ys = effects requestLane lane xs

private theorem ERC20.eq_of_counts {l l' : ERC20} (h : l'.counts = l.counts) :
    l'.balances = l.balances ∧ l'.totalSupply = l.totalSupply := by
  constructor
  · funext a
    exact BitVec.eq_of_toNat_eq (congrFun (congrArg Prod.fst h) a)
  · exact BitVec.eq_of_toNat_eq (congrArg Prod.snd h)

/-- Contracts whose transfers are decided by their lane and move what their call says. -/
theorem Agreed.of_keyed {κ : Type} {step : κ → (Msg × BridgeCall σ) × Answer → κ → Prop}
    (rateLimits : κ → RateLimits) (base : κ → σ)
    (hkeyed : Keyed (fun k => I (base k)) step requestLane (fun k => (rateLimits k).entry) Eq)
    (hmoved : ∀ k l k', I (base k) → step k l k' →
      ERC20.Updated (moves l.1.2) (erc20 (base k)) (erc20 (base k')))
    {k k₁ k₂ : κ} (hI : I (base k)) {xs ys : List ((Msg × BridgeCall σ) × Answer)}
    (hx : Run step k xs k₁) (hy : Run step k ys k₂)
    (hown : ∀ lane, requests requestLane lane xs = requests requestLane lane ys) :
    Agreed xs ys (rateLimits k₁) (rateLimits k₂) (erc20 (base k₁)) (erc20 (base k₂)) := by
  have hagree (lane : Option U32) := hkeyed.agree hx hy hI hI rfl (hown lane)
  have hcounts : (erc20 (base k₂)).counts = (erc20 (base k₁)).counts :=
    counts_agree (fun k => (erc20 (base k)).counts) (fun r : Msg × BridgeCall σ => (moves r.2).out)
      (fun r => (moves r.2).into) (fun _ _ _ hI hstep => hkeyed.keeps hI hstep)
      (fun k l k' hI hstep => (hmoved k l k' hI hstep).counts) hx hy hI
      (perm_of_requests requestLane hown)
  obtain ⟨hbalances, hsupply⟩ := ERC20.eq_of_counts hcounts
  refine ⟨?_, hbalances, hsupply, fun lane => ?_⟩
  · funext eid
    exact Option.some.inj (hagree (some eid)).2.symm
  · exact (List.forall₂_eq_eq_eq ▸ (hagree lane).1).symm

end Contracts

section Mesh

variable {ι : Type} [Fintype ι] [DecidableEq ι] {net : Network ι} {m m' : Mesh net.oz ι}

/-- Two schedules of debits and credits of a contract in a reachable mesh, each call at a time of
its own, in which every lane's calls come in the same order. If both go through, then they leave
the same limits, balances and supply, and every lane was given the same answers. -/
theorem lanes_agree {ls : List (MeshEvent net.oz ι)} (hm : net.Launched m)
    (h : Run net.Step m ls m') :
    (∀ xs ys a₁ a₂,
      Run (FDFIOFTAdapter.Transferred net.lib (OFTAdapter.base net.oz net.adapter)) m'.adapter xs
        a₁ →
      Run (FDFIOFTAdapter.Transferred net.lib (OFTAdapter.base net.oz net.adapter)) m'.adapter ys
        a₂ →
      (∀ lane, requests requestLane lane xs = requests requestLane lane ys) →
      Agreed xs ys a₁.rateLimits a₂.rateLimits a₁.base.erc20 a₂.base.erc20) ∧
    ∀ i xs ys c₁ c₂,
      Run (FDFIOFTUpgradeable.Transferred net.lib OFTToken.base) (m'.satellites i) xs c₁ →
      Run (FDFIOFTUpgradeable.Transferred net.lib OFTToken.base) (m'.satellites i) ys c₂ →
      (∀ lane, requests requestLane lane xs = requests requestLane lane ys) →
      Agreed xs ys c₁.rateLimits c₂.rateLimits c₁.base.erc20 c₂.base.erc20 := by
  have hsound := (hm.surplus_run h).1
  constructor
  · intro xs ys a₁ a₂ hx hy hown
    have hcore := OFTAdapter.ledgered net.oz net.adapter
    exact .of_keyed _ FDFIOFTAdapter.base (FDFIOFTAdapter.transferred_keyed net.lib hcore)
      (fun _ _ _ hI hstep => (hstep.moved hcore hI).2) hsound.token hx hy hown
  · intro i xs ys c₁ c₂ hx hy hown
    have hcore := OFTToken.ledgered
    exact .of_keyed _ FDFIOFTUpgradeable.base
      (FDFIOFTUpgradeable.transferred_keyed net.lib hcore)
      (fun _ _ _ hI hstep => (hstep.moved hcore hI).2) (hsound.satellites i) hx hy hown

end Mesh

namespace Reference

def transfer (a : FDFIOFTAdapter (FDFIToken .reference)) :
    Msg × BridgeCall (FDFIToken .reference) →
      Result (FDFIOFTAdapter (FDFIToken .reference) × Answer)
  | (msg, .debit src amountLD minAmountLD dstEid) => do
    let (out, event) ← a._debit .reference core msg src amountLD minAmountLD dstEid
    return (out.state, .debited out.amountSentLD out.amountReceivedLD (some event))
  | (msg, .credit dst amountLD srcEid) => do
    let (out, event) ← a._credit .reference core msg dst amountLD srcEid
    return (out.state, .credited out.amountReceivedLD (some event))
  | _ => .error .panic

def transferAll (a : FDFIOFTAdapter (FDFIToken .reference)) :
    List (Msg × BridgeCall (FDFIToken .reference)) → Result (FDFIOFTAdapter (FDFIToken .reference) ×
      List ((Msg × BridgeCall (FDFIToken .reference)) × Answer))
  | [] => return (a, [])
  | r :: rs => do
    let (a', answer) ← transfer a r
    let (a'', ls) ← transferAll a' rs
    return (a'', (r, answer) :: ls)

private theorem transfer_transferred {a : FDFIOFTAdapter (FDFIToken .reference)}
    {r : Msg × BridgeCall (FDFIToken .reference)}
    {p : FDFIOFTAdapter (FDFIToken .reference) × Answer} (h : transfer a r = .ok p) :
    FDFIOFTAdapter.Transferred .reference core a (r, p.2) p.1 := by
  obtain ⟨msg, call⟩ := r
  cases call <;> simp only [transfer, bind_eq_ok, pure_eq_ok, Prod.exists, reduceCtorEq] at h
  case debit =>
    obtain ⟨out, event, hrun, rfl⟩ := h
    exact .debit hrun
  case credit =>
    obtain ⟨out, event, hrun, rfl⟩ := h
    exact .credit hrun

private theorem transferAll_run (rs : List (Msg × BridgeCall (FDFIToken .reference)))
    {a : FDFIOFTAdapter (FDFIToken .reference)} {p} (h : transferAll a rs = .ok p) :
    Run (FDFIOFTAdapter.Transferred .reference core) a p.2 p.1 ∧ p.2.map Prod.fst = rs := by
  induction rs generalizing a p with
  | nil =>
    cases h
    exact ⟨.nil _, rfl⟩
  | cons r rs ih =>
    simp only [transferAll, bind_eq_ok, pure_eq_ok, Prod.exists] at h
    obtain ⟨a₁, answer, hfirst, a₂, ls, hrest, rfl⟩ := h
    obtain ⟨tail, hmap⟩ := ih hrest
    exact ⟨.cons (transfer_transferred hfirst) tail, by rw [List.map_cons, hmap]⟩

def outbound : Msg × BridgeCall (FDFIToken .reference) :=
  (msgOf 5, .debit 5 5000000000007 5000000000000 2)
def inbound : Msg × BridgeCall (FDFIToken .reference) := (msgOf 9, .credit 6 2000000000000 2)

def elsewhere : Msg × BridgeCall (FDFIToken .reference) := (msgOf 9, .credit 6 1000000000000 7)

private theorem before_ok :
    (transferAll funded.adapter [elsewhere, outbound, inbound]).isOk = true := by
  decide

private theorem after_ok :
    (transferAll funded.adapter [outbound, inbound, elsewhere]).isOk = true := by
  decide

theorem lanes_agree_sample :
    (value _ after_ok).1.base.erc20.balances = (value _ before_ok).1.base.erc20.balances ∧
      (value _ after_ok).1.base.erc20.balances 6 = 3000000000000 := by
  have hfunded := pair.token_run (Run.of_foldlM _ (eq_ok_value custody custody_ok)) (by decide)
    launched
  obtain ⟨hbefore, hrequests⟩ := transferAll_run _ (eq_ok_value _ before_ok)
  obtain ⟨hafter, hrequests'⟩ := transferAll_run _ (eq_ok_value _ after_ok)
  refine ⟨((lanes_agree pair_launched hfunded).1 _ _ _ _ hbefore hafter fun lane => ?_).balances,
    by decide⟩
  refine (requests_eq_filter requestLane lane hrequests).trans ?_
  refine .trans ?_ (requests_eq_filter requestLane lane hrequests').symm
  have hinbound : requestLane inbound = requestLane outbound := rfl
  have helsewhere : requestLane elsewhere ≠ requestLane outbound := by decide
  by_cases hlane : requestLane outbound = lane
  · subst hlane
    simp [hinbound, helsewhere]
  · simp [List.filter_cons, hinbound, hlane]

end Reference

end FdfiToken.Evm
