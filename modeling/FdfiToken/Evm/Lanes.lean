import FdfiToken.Evm.Contracts
import FdfiToken.Evm.Supply

/-!
# Rate-limited lanes

What the overridden hooks add to the base contracts. An inbound credit frees capacity, so it is
limited only when it credits nothing or fails anyway. A lane nobody configured has no capacity,
so a debit on it is the base's only when it debits nothing or fails anyway.
-/

namespace FdfiToken.Evm

open Word Fallible Runs

section Hooks

variable {σ : Type} {lib : RateLimiter} {core : OFTBase σ} {msg : Msg}

private theorem FDFIOFTAdapter.exec_change {call : BridgeCall σ} {a a' : FDFIOFTAdapter σ}
    (h : a.exec lib core msg call = .ok a') :
    lib.Change msg call.configs a.rateLimits a'.rateLimits := by
  cases call with
  | debit src amountLD minAmountLD dstEid =>
    simp only [exec, _debit, map_eq_ok, bind_eq_ok, pure_eq_ok] at h
    obtain ⟨-, ⟨rls, hout, -, -, -, -, rfl⟩, rfl⟩ := h
    exact .outflow hout
  | credit dst amountLD srcEid =>
    simp only [exec, _credit, map_eq_ok, bind_eq_ok, pure_eq_ok] at h
    obtain ⟨-, ⟨-, -, -, -, rfl⟩, rfl⟩ := h
    exact .inflow srcEid amountLD _
  | outside base =>
    cases h
    exact .same _
  | _ => exact (exec_admin rfl h).1

private theorem FDFIOFTUpgradeable.exec_change {call : BridgeCall σ} {c c' : FDFIOFTUpgradeable σ}
    (h : c.exec lib core msg call = .ok c') :
    lib.Change msg call.configs c.rateLimits c'.rateLimits := by
  cases call with
  | debit src amountLD minAmountLD dstEid =>
    simp only [exec, _debit, map_eq_ok, bind_eq_ok, pure_eq_ok] at h
    obtain ⟨-, ⟨rls, hout, -, -, rfl⟩, rfl⟩ := h
    exact .outflow hout
  | credit dst amountLD srcEid =>
    simp only [exec, _credit, map_eq_ok, bind_eq_ok, pure_eq_ok] at h
    obtain ⟨-, ⟨-, -, rfl⟩, rfl⟩ := h
    exact .same _
  | outside base =>
    cases h
    exact .same _
  | _ => exact (exec_admin rfl h).1

section Optional

variable {eid : U32} {configs : List RateLimitConfig}

private theorem initialRateLimits_unset {rls : RateLimits}
    (h : initialRateLimits lib msg configs = .ok rls) (hnone : ∀ c ∈ configs, c.dstEid ≠ eid) :
    (rls eid).Unset msg.timestamp := by
  have hunset : (RateLimits.unset eid).Unset msg.timestamp := ⟨rfl, rfl, rfl, Nat.zero_le _⟩
  unfold initialRateLimits at h
  split at h
  · cases h
    exact hunset
  · exact hunset.change le_rfl (.configure h) hnone

/-- An entry is unset after a run in which neither the deployment nor a call configures it. -/
theorem Clocked.unset_run {κ : Type} {exec : Msg → BridgeCall σ → κ → Result κ}
    (limits : κ → RateLimits)
    (hchange : ∀ msg call k k', exec msg call k = .ok k' →
      lib.Change msg call.configs (limits k) (limits k'))
    {k : κ} {c : Clocked κ} {initial : List RateLimitConfig} {ls : List (Msg × BridgeCall σ)}
    (hinit : initialRateLimits lib msg initial = .ok (limits k))
    (hrun : Run (Step exec) ⟨msg.timestamp, k⟩ ls c)
    (hnone : ∀ config ∈ initial ++ ls.flatMap fun l => l.2.configs, config.dstEid ≠ eid) :
    (limits c.contract eid).Unset c.now := by
  have hdeployed : (limits k eid).Unset msg.timestamp :=
    initialRateLimits_unset hinit fun config hconfig =>
      hnone config (List.mem_append_left _ hconfig)
  refine hrun.invariant_of (I := fun c => (limits c.contract eid).Unset c.now)
    (P := fun l => ∀ config ∈ l.2.configs, config.dstEid ≠ eid) ?_ ?_ hdeployed
  · intro c l c' hl hunset hstep
    rw [hstep.now]
    exact hunset.change hstep.later (hchange _ _ _ _ hstep.exec) hl
  · intro l hl config hconfig
    exact hnone config (List.mem_append_right _ (List.mem_flatMap.mpr ⟨l, hl, hconfig⟩))

theorem FDFIOFTAdapter.Reaches.unset {c : Clocked (FDFIOFTAdapter σ)}
    (h : Reaches lib core configs c) (hnone : ∀ config ∈ configs, config.dstEid ≠ eid) :
    (c.contract.rateLimits eid).Unset c.now := by
  obtain ⟨msg, owner_, initial, base, a, ls, hinit, hrun, rfl⟩ := h
  simp only [construct, bind_eq_ok, pure_eq_ok] at hinit
  obtain ⟨_, -, _, -, rls, hrls, rfl⟩ := hinit
  exact Clocked.unset_run rateLimits (fun _ _ _ _ => exec_change) hrls hrun hnone

theorem FDFIOFTUpgradeable.Reaches.unset {c : Clocked (FDFIOFTUpgradeable σ)}
    (h : Reaches lib core configs c) (hnone : ∀ config ∈ configs, config.dstEid ≠ eid) :
    (c.contract.rateLimits eid).Unset c.now := by
  obtain ⟨msg, owner_, initial, base, a, ls, hinit, hrun, rfl⟩ := h
  simp only [init, bind_eq_ok, pure_eq_ok] at hinit
  obtain ⟨_, -, _, -, rls, hrls, rfl⟩ := hinit
  exact Clocked.unset_run rateLimits (fun _ _ _ _ => exec_change) hrls hrun hnone

end Optional

/-- An adapter's `_debit` seen on the base's state. -/
def FDFIOFTAdapter.debitOnBase (lib : RateLimiter) (core : OFTBase σ) (msg : Msg) (src : Address)
    (amountLD minAmountLD : U256) (dstEid : U32) (a : FDFIOFTAdapter σ) : Result (Debited σ) :=
  (fun r => r.1.map FDFIOFTAdapter.base) <$>
    a._debit lib core msg src amountLD minAmountLD dstEid

/-- A satellite's `_debit` seen on the base's state. -/
def FDFIOFTUpgradeable.debitOnBase (lib : RateLimiter) (core : OFTBase σ) (msg : Msg)
    (src : Address) (amountLD minAmountLD : U256) (dstEid : U32) (c : FDFIOFTUpgradeable σ) :
    Result (Debited σ) :=
  (fun r => r.map FDFIOFTUpgradeable.base) <$>
    c._debit lib core msg src amountLD minAmountLD dstEid

section Debits

variable {now : U256} {src : Address} {amountLD minAmountLD : U256} {dstEid : U32}

private theorem FDFIOFTAdapter.debitOnBase_unset {a : FDFIOFTAdapter σ}
    (h : (a.rateLimits dstEid).Unset now) (hlater : now.toNat ≤ msg.timestamp.toNat) :
    a.debitOnBase lib core msg src amountLD minAmountLD dstEid =
      if amountLD = 0 then core.debit msg src amountLD minAmountLD dstEid a.base
      else .error .rateLimitExceeded := by
  rw [debitOnBase, _debit, h.outflow hlater]
  split
  · have hnext : (Function.update a.rateLimits dstEid ⟨0, msg.timestamp, 0, 0⟩ dstEid).Unset
        msg.timestamp := by
      rw [Function.update_self]
      exact ⟨rfl, rfl, rfl, le_rfl⟩
    have hcapacity : lib.amountCanBeSent msg _ = .ok (0, 0) := hnext.amountCanBeSent le_rfl
    simp only [ok_bind, RateLimiter.capacity, hcapacity]
    cases core.debit msg src amountLD minAmountLD dstEid a.base <;> rfl
  · rfl

private theorem FDFIOFTUpgradeable.debitOnBase_unset {c : FDFIOFTUpgradeable σ}
    (h : (c.rateLimits dstEid).Unset now) (hlater : now.toNat ≤ msg.timestamp.toNat) :
    c.debitOnBase lib core msg src amountLD minAmountLD dstEid =
      if amountLD = 0 then core.debit msg src amountLD minAmountLD dstEid c.base
      else .error .rateLimitExceeded := by
  rw [debitOnBase, _debit, h.outflow hlater]
  split
  · simp only [ok_bind]
    cases core.debit msg src amountLD minAmountLD dstEid c.base <;> rfl
  · rfl

/-- A guarded computation is the plain one when the guard holds or the plain one fails too. -/
theorem guarded_agrees_iff {α : Type} {p : Prop} [Decidable p] {x : Result α} {e : Revert} :
    (∀ out, (if p then x else .error e) = .ok out ↔ x = .ok out) ↔ p ∨ ∃ e, x = .error e := by
  by_cases hp : p
  · simp [hp]
  · cases x with
    | error e' => simp [hp]
    | ok out => simp [hp]

end Debits

/-- On a lane no configuration was ever given for, whatever happened on the others, the debit
of either contract is its base's exactly when it debits nothing or the base's reverts too. -/
theorem debits_optional_iff {τ : Type} (lib : RateLimiter) (core : OFTBase σ)
    (core' : OFTBase τ) (configs : List RateLimitConfig) (dstEid : U32)
    (hnone : ∀ config ∈ configs, config.dstEid ≠ dstEid) :
    (∀ c, FDFIOFTAdapter.Reaches lib core configs c →
      ∀ msg src amountLD minAmountLD, c.now.toNat ≤ msg.timestamp.toNat →
        ((∀ out, c.contract.debitOnBase lib core msg src amountLD minAmountLD dstEid = .ok out ↔
            core.debit msg src amountLD minAmountLD dstEid c.contract.base = .ok out) ↔
          amountLD = 0 ∨
            ∃ e, core.debit msg src amountLD minAmountLD dstEid c.contract.base = .error e)) ∧
    ∀ c, FDFIOFTUpgradeable.Reaches lib core' configs c →
      ∀ msg src amountLD minAmountLD, c.now.toNat ≤ msg.timestamp.toNat →
        ((∀ out, c.contract.debitOnBase lib core' msg src amountLD minAmountLD dstEid = .ok out ↔
            core'.debit msg src amountLD minAmountLD dstEid c.contract.base = .ok out) ↔
          amountLD = 0 ∨
            ∃ e, core'.debit msg src amountLD minAmountLD dstEid c.contract.base = .error e) := by
  constructor
  · intro c h msg src amountLD minAmountLD hlater
    rw [FDFIOFTAdapter.debitOnBase_unset (h.unset hnone) hlater]
    exact guarded_agrees_iff
  · intro c h msg src amountLD minAmountLD hlater
    rw [FDFIOFTUpgradeable.debitOnBase_unset (h.unset hnone) hlater]
    exact guarded_agrees_iff

section Credits

variable {dst : Address} {amountLD : U256} {srcEid : U32}

/-- What an inbound limit asks of a credit: above the remaining capacity it reverts, and when
it succeeds the capacity it reports is the one it found less the amount. -/
def FDFIOFTAdapter.CreditLimited (lib : RateLimiter) (core : OFTBase σ) (msg : Msg)
    (dst : Address) (amountLD : U256) (srcEid : U32) (a : FDFIOFTAdapter σ) : Prop :=
  ∀ capacity, lib.capacity msg (a.rateLimits srcEid) = .ok capacity →
    (capacity.toNat < amountLD.toNat →
      ∃ e, a._credit lib core msg dst amountLD srcEid = .error e) ∧
    ∀ out event, a._credit lib core msg dst amountLD srcEid = .ok (out, event) →
      event.remainingCapacity.toNat + amountLD.toNat = capacity.toNat

private theorem FDFIOFTAdapter.credit_eq (core : OFTBase σ) (dst : Address) (amountLD : U256)
    {a : FDFIOFTAdapter σ} {capacity : U256}
    (h : lib.capacity msg (a.rateLimits srcEid) = .ok capacity) :
    ∃ remaining : U256, capacity.toNat ≤ remaining.toNat ∧
      (amountLD = 0 → remaining = capacity) ∧
      a._credit lib core msg dst amountLD srcEid =
        (fun out => (⟨{ a with
            rateLimits := a.rateLimits.inflow srcEid amountLD, base := out.state },
          out.amountReceivedLD⟩, ⟨srcEid, amountLD, remaining⟩)) <$>
            core.credit msg dst amountLD srcEid a.base := by
  obtain ⟨remaining, hremaining, hle⟩ := RateLimiter.capacity_inflow amountLD h
  refine ⟨remaining, hle, ?_, ?_⟩
  · intro hzero
    rw [hzero, RateLimits.inflow_zero, h] at hremaining
    cases hremaining
    rfl
  · rw [_credit]
    simp only [hremaining, ok_bind]
    cases core.credit msg dst amountLD srcEid a.base <;> rfl

/-- A credit is limited exactly when it credits nothing, or fails for another reason: the
limiter's own query or the base's transfer. -/
theorem FDFIOFTAdapter.credit_limited_iff {a : FDFIOFTAdapter σ} :
    a.CreditLimited lib core msg dst amountLD srcEid ↔
      amountLD = 0 ∨ (∃ e, lib.capacity msg (a.rateLimits srcEid) = .error e) ∨
        ∃ e, core.credit msg dst amountLD srcEid a.base = .error e := by
  cases hcapacity : lib.capacity msg (a.rateLimits srcEid) with
  | error e => simp [CreditLimited, hcapacity]
  | ok capacity =>
    obtain ⟨remaining, hle, hzero, hcredit⟩ :=
      credit_eq core dst amountLD hcapacity
    cases hbase : core.credit msg dst amountLD srcEid a.base with
    | error e =>
      rw [hbase] at hcredit
      refine ⟨fun _ => .inr (.inr ⟨e, rfl⟩), fun _ c _ => ⟨fun _ => ⟨e, hcredit⟩, ?_⟩⟩
      intro out event hok
      cases hcredit.symm.trans hok
    | ok out =>
      rw [hbase] at hcredit
      constructor
      · intro hlimited
        have hreported := (hlimited capacity hcapacity).2 _ _ hcredit
        left
        apply BitVec.eq_of_toNat_eq
        change remaining.toNat + amountLD.toNat = capacity.toNat at hreported
        change amountLD.toNat = 0
        omega
      · intro h
        have hamount : amountLD = 0 := by
          rcases h with h | ⟨e, h⟩ | ⟨e, h⟩
          · exact h
          · cases h
          · cases h
        intro c hc
        cases hcapacity.symm.trans hc
        refine ⟨fun hlt => ?_, fun out' event hok => ?_⟩
        · rw [hamount] at hlt
          exact absurd hlt (Nat.not_lt_zero _)
        · cases hcredit.symm.trans hok
          rw [hzero hamount, hamount]
          rfl

end Credits

def BridgeCall.creditedFrom (srcEid : U32) : BridgeCall σ → ℕ
  | .credit _ amountLD eid => if eid = srcEid then amountLD.toNat else 0
  | _ => 0

private theorem FDFIOFTAdapter.creditedFrom_eq_zero {srcEid : U32}
    {c c' : Clocked (FDFIOFTAdapter σ)}
    {l : Msg × BridgeCall σ} (h : Clocked.Step (exec lib core) c l c')
    (hlimited : ∀ dst amountLD, l.2 = .credit dst amountLD srcEid →
      c.contract.CreditLimited lib core l.1 dst amountLD srcEid) :
    l.2.creditedFrom srcEid = 0 := by
  obtain ⟨msg, call⟩ := l
  cases call with
  | credit dst amountLD eid =>
    by_cases heid : eid = srcEid
    · subst heid
      have hexec := h.exec
      simp only [exec, _credit, map_eq_ok, bind_eq_ok] at hexec
      obtain ⟨-, ⟨remaining, hremaining, out, hcredit, -⟩, -⟩ := hexec
      rw [RateLimits.inflow_self] at hremaining
      obtain ⟨capacity, hcapacity⟩ := RateLimiter.exists_capacity hremaining
      rcases credit_limited_iff.mp (hlimited dst amountLD rfl) with hzero | ⟨e, he⟩ | ⟨e, he⟩
      · subst hzero
        exact if_pos rfl
      · cases hcapacity.symm.trans he
      · cases hcredit.symm.trans he
    · exact if_neg heid
  | _ => rfl

/-- In whatever state an adapter is, a credit is limited exactly when it credits nothing or
fails for another reason; and in a run whose credits from an endpoint are all limited, their
total is within the endpoint's limit. -/
theorem inbound_limits_iff (lib : RateLimiter) (core : OFTBase σ)
    (c : Clocked (FDFIOFTAdapter σ)) (srcEid : U32) :
    (∀ msg dst amountLD, c.contract.CreditLimited lib core msg dst amountLD srcEid ↔
      amountLD = 0 ∨ (∃ e, lib.capacity msg (c.contract.rateLimits srcEid) = .error e) ∨
        ∃ e, core.credit msg dst amountLD srcEid c.contract.base = .error e) ∧
    ∀ ls c', Run (fun c l c' => Clocked.Step (FDFIOFTAdapter.exec lib core) c l c' ∧
        ∀ dst amountLD, l.2 = .credit dst amountLD srcEid →
          c.contract.CreditLimited lib core l.1 dst amountLD srcEid) c ls c' →
      (ls.map fun l => l.2.creditedFrom srcEid).sum ≤
        (c.contract.rateLimits srcEid).limit.toNat := by
  constructor
  · intro msg dst amountLD
    exact FDFIOFTAdapter.credit_limited_iff
  · intro ls c' hrun
    have hzero := hrun.label_of (I := fun _ => True) (Q := fun l => l.2.creditedFrom srcEid = 0)
      (fun _ _ _ _ _ => trivial)
      (fun _ _ _ _ hstep => FDFIOFTAdapter.creditedFrom_eq_zero hstep.1 hstep.2) trivial
    have hsum : (ls.map fun l => l.2.creditedFrom srcEid).sum = 0 :=
      List.sum_eq_zero (List.forall_mem_map.mpr hzero)
    rw [hsum]
    exact Nat.zero_le _

end Hooks

namespace Reference

def adapter : { a : Address // a ≠ 0 } := ⟨100, by decide⟩

def custody : Result (FDFIToken .reference) :=
  [⟨msgOf 1, .init 1⟩, ⟨msgOf 1, .enableTransfers⟩, ⟨msgOf 1, .mintTo 5 8000000000000⟩,
    ⟨msgOf 5, .approve adapter.1 8000000000000⟩,
    ⟨msgOf 1, .mintTo adapter.1 8000000000000⟩].foldlM
    (fun s (tx : TokenTx) => s.exec tx) (.deployed .reference)

theorem custody_ok : custody.isOk = true := by decide

def core : OFTBase (FDFIToken .reference) := OFTAdapter.base .reference adapter

def launch (configs : List RateLimitConfig) : Result (FDFIOFTAdapter (FDFIToken .reference)) :=
  FDFIOFTAdapter.construct .reference core (msgOf 1) 1 configs (value _ custody_ok)

def hourly : List RateLimitConfig := [⟨7, 1000000000000, 3600⟩]

private theorem limitedLaunch_ok : (launch hourly).isOk = true := by decide

def limitedAdapter : Clocked (FDFIOFTAdapter (FDFIToken .reference)) :=
  ⟨1, value _ limitedLaunch_ok⟩

private theorem limitedAdapter_reaches :
    FDFIOFTAdapter.Reaches .reference core hourly limitedAdapter := by
  refine ⟨msgOf 1, 1, hourly, value _ custody_ok, value _ limitedLaunch_ok, [],
    eq_ok_value (launch hourly) limitedLaunch_ok, .nil _, rfl⟩

def largeCredit : Result (Credited (FDFIOFTAdapter (FDFIToken .reference)) × RateConsumed) :=
  limitedAdapter.contract._credit .reference core (msgOf 9) 6 5000000000000 7

private theorem largeCredit_ok : largeCredit.isOk = true := by decide

/-- Five units are released where one is left, and one is still left. -/
theorem inbound_not_limited :
    FDFIOFTAdapter.Reaches .reference core hourly limitedAdapter ∧
      RateLimiter.reference.capacity (msgOf 9) (limitedAdapter.contract.rateLimits 7) =
        .ok 1000000000000 ∧
      (∃ out event, largeCredit = .ok (out, event) ∧
        out.state.base.erc20.balances 6 = 5000000000000 ∧
        event.remainingCapacity = 1000000000000) ∧
      ¬ limitedAdapter.contract.CreditLimited .reference core (msgOf 9) 6 5000000000000 7 := by
  have hcapacity : RateLimiter.reference.capacity (msgOf 9)
      (limitedAdapter.contract.rateLimits 7) = .ok 1000000000000 := by decide
  refine ⟨limitedAdapter_reaches, hcapacity, ⟨_, _, eq_ok_value largeCredit largeCredit_ok,
    by decide, by decide⟩, fun hlimited => ?_⟩
  obtain ⟨e, he⟩ := (hlimited _ hcapacity).1 (by decide)
  cases (eq_ok_value largeCredit largeCredit_ok).symm.trans he

def emptyCredit : Result (FDFIOFTAdapter (FDFIToken .reference)) :=
  limitedAdapter.contract.exec .reference core (msgOf 9) (.credit 6 0 7)

private theorem emptyCredit_ok : emptyCredit.isOk = true := by decide

theorem inbound_limits_iff_sample :
    limitedAdapter.contract.CreditLimited .reference core (msgOf 9) 6 0 7 ∧
      ([(msgOf 9, BridgeCall.credit 6 0 7)].map fun l : Msg × BridgeCall (FDFIToken .reference) =>
        l.2.creditedFrom 7).sum ≤ (limitedAdapter.contract.rateLimits 7).limit.toNat := by
  have hboth := inbound_limits_iff .reference core limitedAdapter 7
  have hstep : Clocked.Step (FDFIOFTAdapter.exec .reference core) limitedAdapter
      (msgOf 9, .credit 6 0 7) ⟨1, value _ emptyCredit_ok⟩ :=
    ⟨le_rfl, rfl, eq_ok_value emptyCredit emptyCredit_ok⟩
  refine ⟨(hboth.1 (msgOf 9) 6 0).mpr (.inl rfl), hboth.2 _ ⟨1, value _ emptyCredit_ok⟩ ?_⟩
  refine .cons ⟨hstep, ?_⟩ (.nil _)
  intro dst amountLD hcredit
  cases hcredit
  exact (hboth.1 (msgOf 9) 6 0).mpr (.inl rfl)

private theorem openLaunch_ok : (launch []).isOk = true := by decide

def openAdapter : Clocked (FDFIOFTAdapter (FDFIToken .reference)) := ⟨1, value _ openLaunch_ok⟩

private theorem openAdapter_reaches : FDFIOFTAdapter.Reaches .reference core [] openAdapter :=
  ⟨msgOf 1, 1, [], value _ custody_ok, value _ openLaunch_ok, [],
    eq_ok_value (launch []) openLaunch_ok, .nil _, rfl⟩

def openSatellite : Result (FDFIOFTUpgradeable OFTToken) := do
  let c ← (FDFIOFTUpgradeable.deployed .deployed).init .reference OFTToken.base (msgOf 1) [] 1
  c.exec .reference OFTToken.base (msgOf 9) (.credit 5 8000000000000 7)

private theorem openSatellite_ok : openSatellite.isOk = true := by decide

private theorem openSatellite_reaches :
    FDFIOFTUpgradeable.Reaches .reference OFTToken.base [] ⟨1, value _ openSatellite_ok⟩ := by
  obtain ⟨c, hinit, hcredit⟩ := bind_eq_ok.mp (eq_ok_value openSatellite openSatellite_ok)
  exact ⟨msgOf 1, 1, [], .deployed, c, [(msgOf 9, .credit 5 8000000000000 7)], hinit,
    .cons ⟨le_rfl, rfl, hcredit⟩ (.nil _), rfl⟩

/-- Nobody configured anything, yet five units cannot be sent although the base would. -/
theorem debits_not_optional :
    FDFIOFTAdapter.Reaches .reference core [] openAdapter ∧
      (core.debit (msgOf 9) 5 5000000000000 0 7 openAdapter.contract.base).isOk = true ∧
      openAdapter.contract.debitOnBase .reference core (msgOf 9) 5 5000000000000 0 7 =
        .error .rateLimitExceeded ∧
      FDFIOFTUpgradeable.Reaches .reference OFTToken.base [] ⟨1, value _ openSatellite_ok⟩ ∧
      (OFTToken.base.debit (msgOf 9) 5 5000000000000 0 7
        (value _ openSatellite_ok).base).isOk = true ∧
      (value _ openSatellite_ok).debitOnBase .reference OFTToken.base (msgOf 9) 5 5000000000000
        0 7 = .error .rateLimitExceeded :=
  ⟨openAdapter_reaches, by decide, failure_eq_some.mp (by decide), openSatellite_reaches,
    by decide, failure_eq_some.mp (by decide)⟩

theorem debits_optional_iff_sample :
    (∀ out, openAdapter.contract.debitOnBase .reference core (msgOf 9) 5 0 0 7 = .ok out ↔
        core.debit (msgOf 9) 5 0 0 7 openAdapter.contract.base = .ok out) ∧
      ∀ out, (value _ openSatellite_ok).debitOnBase .reference OFTToken.base (msgOf 9) 5 0 0 7 =
          .ok out ↔
        OFTToken.base.debit (msgOf 9) 5 0 0 7 (value _ openSatellite_ok).base = .ok out := by
  obtain ⟨hadapter, hsatellite⟩ := debits_optional_iff .reference core OFTToken.base [] 7
    (fun config hconfig => by cases hconfig)
  constructor
  · exact (hadapter openAdapter openAdapter_reaches (msgOf 9) 5 0 0 le_rfl).mpr (.inl rfl)
  · exact (hsatellite ⟨1, value _ openSatellite_ok⟩ openSatellite_reaches (msgOf 9) 5 0 0
      le_rfl).mpr (.inl rfl)

end Reference

end FdfiToken.Evm
