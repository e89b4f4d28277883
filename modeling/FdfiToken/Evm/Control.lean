import FdfiToken.Evm.LaneFlow
import FdfiToken.Evm.Proxy

/-!
# Who may come to control the contracts

Owners offer ownership, name a rate limiter and upgrade. Traced over whole runs: whoever owns a
contract, upgrades it, mints, opens the gate or sets limits has that from the owner at the start,
by offers and appointments each made by the one before.
-/

namespace FdfiToken.Evm

open Word Fallible Runs Authority

def FDFIToken._authorizeUpgrade {oz : OpenZeppelin} (msg : Msg) (_newImplementation : Address)
    (s : FDFIToken oz) : Result Unit := s.ownable.checkOwner msg

def FDFIOFTUpgradeable._authorizeUpgrade {σ : Type} (msg : Msg) (_newImplementation : Address)
    (c : FDFIOFTUpgradeable σ) : Result Unit := c.ownable.checkOwner msg

inductive SatelliteCall (σ : Type) where
  | init (rateLimitConfigs : List RateLimitConfig) (owner_ : Address)
  | bridge (call : BridgeCall σ)

def FDFIOFTUpgradeable.call {σ : Type} (lib : RateLimiter) (core : OFTBase σ) (msg : Msg)
    (call : SatelliteCall σ) (c : FDFIOFTUpgradeable σ) : Result (FDFIOFTUpgradeable σ) :=
  match call with
  | .init rateLimitConfigs owner_ => c.init lib core msg rateLimitConfigs owner_
  | .bridge call => c.exec lib core msg call

namespace FDFIToken

variable {oz : OpenZeppelin} {s s' : FDFIToken oz} {msg : Msg}

def call (msg : Msg) (call : TokenCall) (s : FDFIToken oz) : Result (FDFIToken oz) :=
  s.exec ⟨msg, call⟩

def offers (call : TokenCall) (b : Address) : Prop := call = .transferOwnership b

structure Governed (s s' : FDFIToken oz) : Prop where
  ownable : s'.ownable = s.ownable
  transfersEnabled : s'.transfersEnabled = s.transfersEnabled
  totalSupply : s'.erc20.totalSupply.toNat ≤ s.erc20.totalSupply.toNat

theorem Governed.refl (s : FDFIToken oz) : s.Governed s := ⟨rfl, rfl, le_rfl⟩

theorem Governed.trans (s s' s'' : FDFIToken oz) (h : s.Governed s') (h' : s'.Governed s'') :
    s.Governed s'' :=
  ⟨h'.ownable.trans h.ownable, h'.transfersEnabled.trans h.transfersEnabled,
    h'.totalSupply.trans h.totalSupply⟩

/-- What a call to an initialized token makes of ownership. -/
theorem exec_passed {call : TokenCall} (hinit : s.initialized = true)
    (h : s.exec ⟨msg, call⟩ = .ok s') :
    s'.initialized = true ∧ Ownable.Passed msg (offers call) s.ownable s'.ownable := by
  cases hmove : TokenTx.movement ⟨msg, call⟩ with
  | some t =>
    obtain ⟨-, f, -, hmoved⟩ := exec_moved h hmove
    have hownable : s'.ownable = s.ownable := hmoved.ownable
    rw [hownable]
    exact ⟨hmoved.initialized.trans hinit, .same⟩
  | none =>
    cases exec_unmoved h hmove with
    | init fresh owned => cases hinit.symm.trans fresh
    | transferOwnership passed => exact ⟨hinit, Ownable.transferOwnership_passed passed rfl⟩
    | acceptOwnership passed => exact ⟨hinit, Ownable.acceptOwnership_passed passed⟩
    | renounceOwnership passed => exact ⟨hinit, Ownable.renounceOwnership_passed passed⟩
    | _ => exact ⟨hinit, .same⟩

theorem exec_supply {call : TokenCall} (hs : s.Sound) (h : s.exec ⟨msg, call⟩ = .ok s') :
    s'.erc20.totalSupply.toNat ≤ s.erc20.totalSupply.toNat ∨ s.ownable.owner = msg.sender := by
  cases hmove : TokenTx.movement ⟨msg, call⟩ with
  | none =>
    obtain ⟨⟨f, hledger, -⟩, -, -⟩ := exec_quiet h hmove
    rw [hledger]
    exact .inl le_rfl
  | some t =>
    obtain ⟨hends, f, -, hmoved⟩ := exec_moved h hmove
    by_cases hsrc : t.src = 0
    · right
      have hmint : call = .mintTo t.dst t.value := hends.mint hsrc
      subst hmint
      exact (mintTo_eq_ok h).1
    · left
      have hsupply := (hmoved.ledger_of hs.backed).totalSupply
      rw [Shifts.Shift, ERC20.zeroSide, ERC20.zeroSide, if_neg hsrc] at hsupply
      omega

private theorem exec_opens {call : TokenCall} (hinit : s.initialized = true)
    (h : s.exec ⟨msg, call⟩ = .ok s') :
    s'.transfersEnabled = s.transfersEnabled ∨ s.ownable.owner = msg.sender := by
  have hgate := exec_gate h
  cases call with
  | init owner_ =>
    simp only [exec, init, bind_eq_ok, require_eq_ok, hinit] at h
    obtain ⟨-, hfalse, -⟩ := h
    cases hfalse
  | enableTransfers => exact .inr (enableTransfers_eq_ok h).1
  | _ => exact .inl hgate

/-- The owner alone governs an initialized token. -/
theorem guarded (oz : OpenZeppelin) :
    Guarded (fun s : FDFIToken oz => s.Sound ∧ s.initialized = true) (Called call) caller
      (fun l => offers l.2) (fun s => s.ownable.Holds) Governed where
  keeps {s s' l} hs h := by
    have hrun : s.exec ⟨l.1, l.2⟩ = .ok s' := h
    have hstep : FDFIToken.Step s ⟨l.1, l.2⟩ s' := hrun
    exact ⟨hs.1.step hstep, (exec_passed hs.2 hrun).1⟩
  granted {s s' l b} hs h hb := by
    have hrun : s.exec ⟨l.1, l.2⟩ = .ok s' := h
    exact (exec_passed hs.2 hrun).2.granted hb
  guarded {s s' l} hs h := by
    have hrun : s.exec ⟨l.1, l.2⟩ = .ok s' := h
    rcases (exec_passed hs.2 hrun).2.guarded with hownable | hholds
    · rcases exec_opens hs.2 hrun with hgate | howner
      · rcases exec_supply hs.1 hrun with hsupply | howner
        · exact .inl ⟨hownable, hgate, hsupply⟩
        · exact .inr ⟨_, rfl, Ownable.holds_of_owner howner⟩
      · exact .inr ⟨_, rfl, Ownable.holds_of_owner howner⟩
    · exact .inr ⟨_, rfl, hholds⟩

end FDFIToken

def RateLimits.SameSettings (rls rls' : RateLimits) : Prop :=
  ∀ eid, (rls' eid).limit = (rls eid).limit ∧ (rls' eid).window = (rls eid).window

namespace RateLimits.SameSettings

variable {lib : RateLimiter} {msg : Msg} {eid : U32} {amount : U256} {rls rls' rls'' : RateLimits}

theorem refl (rls : RateLimits) : rls.SameSettings rls := fun _ => ⟨rfl, rfl⟩

theorem trans (h : rls.SameSettings rls') (h' : rls'.SameSettings rls'') :
    rls.SameSettings rls'' :=
  fun eid => ⟨(h' eid).1.trans (h eid).1, (h' eid).2.trans (h eid).2⟩

theorem update {rl : RateLimit} (hlimit : rl.limit = (rls eid).limit)
    (hwindow : rl.window = (rls eid).window) :
    rls.SameSettings (Function.update rls eid rl) := by
  intro eid'
  by_cases heid : eid' = eid
  · subst heid
    rw [Function.update_self]
    exact ⟨hlimit, hwindow⟩
  · rw [Function.update_of_ne heid]
    exact ⟨rfl, rfl⟩

theorem outflow (h : lib.outflow msg eid amount rls = .ok rls') : rls.SameSettings rls' := by
  simp only [RateLimiter.outflow, bind_eq_ok, pure_eq_ok] at h
  obtain ⟨-, -, -, -, -, -, rfl⟩ := h
  exact update rfl rfl

theorem inflow (eid : U32) (amount : U256) (rls : RateLimits) :
    rls.SameSettings (rls.inflow eid amount) := update rfl rfl

end RateLimits.SameSettings

def BridgeCall.offers {σ : Type} (call : BridgeCall σ) (b : Address) : Prop :=
  match call with
  | .transferOwnership newOwner => newOwner = b
  | _ => False

def BridgeCall.appoints {σ : Type} (call : BridgeCall σ) (b : Address) : Prop :=
  match call with
  | .transferOwnership newOwner => newOwner = b
  | .setRateLimiter rateLimiter_ => rateLimiter_ = b
  | _ => False

def SatelliteCall.offers {σ : Type} (call : SatelliteCall σ) (b : Address) : Prop :=
  match call with
  | .init _ _ => False
  | .bridge call => call.offers b

def SatelliteCall.appoints {σ : Type} (call : SatelliteCall σ) (b : Address) : Prop :=
  match call with
  | .init _ _ => False
  | .bridge call => call.appoints b

namespace FDFIOFTAdapter

variable {σ : Type} {lib : RateLimiter} {core : OFTBase σ} {msg : Msg} {a a' : FDFIOFTAdapter σ}

def IsOwner (a : FDFIOFTAdapter σ) (b : Address) : Prop := b ≠ 0 ∧ a.owner = b

def MayLimit (a : FDFIOFTAdapter σ) (b : Address) : Prop :=
  b ≠ 0 ∧ (a.owner = b ∨ a.rateLimiter = b)

instance (a : FDFIOFTAdapter σ) (b : Address) : Decidable (a.MayLimit b) :=
  inferInstanceAs (Decidable (_ ∧ _))

structure Governed (a a' : FDFIOFTAdapter σ) : Prop where
  owner : a'.owner = a.owner
  rateLimiter : a'.rateLimiter = a.rateLimiter

def Limited (a a' : FDFIOFTAdapter σ) : Prop := a.rateLimits.SameSettings a'.rateLimits

inductive Managed (msg : Msg) (a : FDFIOFTAdapter σ) : BridgeCall σ → FDFIOFTAdapter σ → Prop
  | kept {call : BridgeCall σ} {rateLimits : RateLimits} {base : σ}
      (settings : a.rateLimits.SameSettings rateLimits) :
      Managed msg a call { a with rateLimits, base }
  | limited {call : BridgeCall σ} {rateLimits : RateLimits}
      (sender : msg.sender = a.rateLimiter ∨ msg.sender = a.owner) :
      Managed msg a call { a with rateLimits }
  | appointed {rateLimiter_ : Address} (owner : a.owner = msg.sender) :
      Managed msg a (.setRateLimiter rateLimiter_) { a with rateLimiter := rateLimiter_ }
  | handed {newOwner : Address} (owner : a.owner = msg.sender) :
      Managed msg a (.transferOwnership newOwner) { a with owner := newOwner }
  | renounced {call : BridgeCall σ} (owner : a.owner = msg.sender) :
      Managed msg a call { a with owner := 0 }

private theorem exec_managed {call : BridgeCall σ} (h : a.exec lib core msg call = .ok a') :
    Managed msg a call a' := by
  cases call with
  | debit src amountLD minAmountLD dstEid =>
    simp only [exec, _debit, map_eq_ok, bind_eq_ok, pure_eq_ok] at h
    obtain ⟨-, ⟨rls, hout, -, -, -, -, rfl⟩, rfl⟩ := h
    exact .kept (.outflow hout)
  | credit dst amountLD srcEid =>
    simp only [exec, _credit, map_eq_ok, bind_eq_ok, pure_eq_ok] at h
    obtain ⟨-, ⟨-, -, -, -, rfl⟩, rfl⟩ := h
    exact .kept (.inflow srcEid amountLD _)
  | setRateLimits rateLimitConfigs =>
    simp only [exec, setRateLimits, bind_eq_ok, require_eq_ok, pure_eq_ok] at h
    obtain ⟨-, hsender, rls, -, rfl⟩ := h
    exact .limited hsender
  | setRateLimiter rateLimiter_ =>
    simp only [exec, setRateLimiter, checkOwner, bind_eq_ok, require_eq_ok, pure_eq_ok] at h
    obtain ⟨-, howner, rfl⟩ := h
    exact .appointed howner
  | transferOwnership newOwner =>
    simp only [exec, transferOwnership, checkOwner, bind_eq_ok, require_eq_ok, pure_eq_ok] at h
    obtain ⟨-, howner, -, -, rfl⟩ := h
    exact .handed howner
  | acceptOwnership => cases h
  | renounceOwnership =>
    simp only [exec, renounceOwnership, checkOwner, bind_eq_ok, require_eq_ok, pure_eq_ok] at h
    obtain ⟨-, howner, rfl⟩ := h
    exact .renounced howner
  | outside base =>
    cases h
    exact .kept (.refl _)

private theorem isOwner_sender (h : a.owner = msg.sender) : a.IsOwner msg.sender :=
    ⟨msg.sender_ne, h⟩

theorem governed (lib : RateLimiter) (core : OFTBase σ) :
    Guarded (fun _ => True) (Called (exec lib core)) caller (fun l => l.2.offers) IsOwner
      Governed where
  keeps _ _ := trivial
  granted {a a' l b} _ h hb := by
    obtain ⟨msg, call⟩ := l
    cases exec_managed h with
    | handed owner => exact .inr ⟨msg.sender, rfl, isOwner_sender owner, hb.2⟩
    | renounced owner => exact absurd hb.2.symm hb.1
    | _ => exact .inl hb
  guarded {a a' l} _ h := by
    obtain ⟨msg, call⟩ := l
    cases exec_managed h with
    | kept settings => exact .inl ⟨rfl, rfl⟩
    | limited sender => exact .inl ⟨rfl, rfl⟩
    | appointed owner => exact .inr ⟨msg.sender, rfl, isOwner_sender owner⟩
    | handed owner => exact .inr ⟨msg.sender, rfl, isOwner_sender owner⟩
    | renounced owner => exact .inr ⟨msg.sender, rfl, isOwner_sender owner⟩

theorem limited (lib : RateLimiter) (core : OFTBase σ) :
    Guarded (fun _ => True) (Called (exec lib core)) caller (fun l => l.2.appoints) MayLimit
      Limited where
  keeps _ _ := trivial
  granted {a a' l b} _ h hb := by
    obtain ⟨msg, call⟩ := l
    obtain ⟨hne, hb⟩ := hb
    cases exec_managed h with
    | appointed owner =>
      rcases hb with hb | hb
      · exact .inl ⟨hne, .inl hb⟩
      · exact .inr ⟨msg.sender, rfl, ⟨msg.sender_ne, .inl owner⟩, hb⟩
    | handed owner =>
      rcases hb with hb | hb
      · exact .inr ⟨msg.sender, rfl, ⟨msg.sender_ne, .inl owner⟩, hb⟩
      · exact .inl ⟨hne, .inr hb⟩
    | renounced owner =>
      rcases hb with hb | hb
      · exact absurd hb.symm hne
      · exact .inl ⟨hne, .inr hb⟩
    | _ => exact .inl ⟨hne, hb⟩
  guarded {a a' l} _ h := by
    obtain ⟨msg, call⟩ := l
    cases exec_managed h with
    | kept settings => exact .inl settings
    | limited sender =>
      rcases sender with hsender | hsender
      · exact .inr ⟨msg.sender, rfl, msg.sender_ne, .inr hsender.symm⟩
      · exact .inr ⟨msg.sender, rfl, msg.sender_ne, .inl hsender.symm⟩
    | _ => exact .inl (.refl _)

end FDFIOFTAdapter

namespace FDFIOFTUpgradeable

variable {σ : Type} {lib : RateLimiter} {core : OFTBase σ} {msg : Msg} {c c' : FDFIOFTUpgradeable σ}

def MayLimit (c : FDFIOFTUpgradeable σ) (b : Address) : Prop :=
  c.ownable.Holds b ∨ b ≠ 0 ∧ c.rateLimiter = b

instance (c : FDFIOFTUpgradeable σ) (b : Address) : Decidable (c.MayLimit b) :=
  inferInstanceAs (Decidable (_ ∨ _))

structure Governed (c c' : FDFIOFTUpgradeable σ) : Prop where
  ownable : c'.ownable = c.ownable
  rateLimiter : c'.rateLimiter = c.rateLimiter

def Limited (c c' : FDFIOFTUpgradeable σ) : Prop := c.rateLimits.SameSettings c'.rateLimits

inductive Managed (msg : Msg) (c : FDFIOFTUpgradeable σ) :
    BridgeCall σ → FDFIOFTUpgradeable σ → Prop
  | kept {call : BridgeCall σ} {rateLimits : RateLimits} {base : σ}
      (settings : c.rateLimits.SameSettings rateLimits) :
      Managed msg c call { c with rateLimits, base }
  | limited {call : BridgeCall σ} {rateLimits : RateLimits}
      (sender : msg.sender = c.rateLimiter ∨ msg.sender = c.ownable.owner) :
      Managed msg c call { c with rateLimits }
  | appointed {rateLimiter_ : Address} (owner : c.ownable.owner = msg.sender) :
      Managed msg c (.setRateLimiter rateLimiter_) { c with rateLimiter := rateLimiter_ }
  | passed {call : BridgeCall σ} {ownable : Ownable}
      (passed : Ownable.Passed msg call.offers c.ownable ownable) :
      Managed msg c call { c with ownable }

private theorem exec_managed {call : BridgeCall σ} (h : c.exec lib core msg call = .ok c') :
    Managed msg c call c' := by
  cases call with
  | debit src amountLD minAmountLD dstEid =>
    simp only [exec, _debit, map_eq_ok, bind_eq_ok, pure_eq_ok] at h
    obtain ⟨-, ⟨rls, hout, -, -, rfl⟩, rfl⟩ := h
    exact .kept (.outflow hout)
  | credit dst amountLD srcEid =>
    simp only [exec, _credit, map_eq_ok, bind_eq_ok, pure_eq_ok] at h
    obtain ⟨-, ⟨-, -, rfl⟩, rfl⟩ := h
    exact .kept (.refl _)
  | setRateLimits rateLimitConfigs =>
    simp only [exec, setRateLimits, bind_eq_ok, require_eq_ok, pure_eq_ok] at h
    obtain ⟨-, hsender, rls, -, rfl⟩ := h
    exact .limited hsender
  | setRateLimiter rateLimiter_ =>
    simp only [exec, setRateLimiter, Ownable.checkOwner, bind_eq_ok, require_eq_ok,
      pure_eq_ok] at h
    obtain ⟨-, howner, rfl⟩ := h
    exact .appointed howner
  | transferOwnership newOwner =>
    obtain ⟨o, ho, rfl⟩ := withOwnable_eq_ok.mp h
    exact .passed (Ownable.transferOwnership_passed ho rfl)
  | acceptOwnership =>
    obtain ⟨o, ho, rfl⟩ := withOwnable_eq_ok.mp h
    exact .passed (Ownable.acceptOwnership_passed ho)
  | renounceOwnership =>
    obtain ⟨o, ho, rfl⟩ := withOwnable_eq_ok.mp h
    exact .passed (Ownable.renounceOwnership_passed ho)
  | outside base =>
    cases h
    exact .kept (.refl _)

private theorem call_bridge {call : SatelliteCall σ} (hinit : c.initialized = true)
    (h : c.call lib core msg call = .ok c') :
    ∃ bridge, call = .bridge bridge ∧ Managed msg c bridge c' := by
  cases call with
  | init rateLimitConfigs owner_ =>
    simp only [FDFIOFTUpgradeable.call, init, bind_eq_ok, require_eq_ok, hinit] at h
    obtain ⟨-, hfalse, -⟩ := h
    cases hfalse
  | bridge bridge => exact ⟨bridge, rfl, exec_managed h⟩

theorem Managed.initialized {call : BridgeCall σ} (h : Managed msg c call c')
    (hinit : c.initialized = true) : c'.initialized = true := by
  cases h <;> exact hinit

theorem governed (lib : RateLimiter) (core : OFTBase σ) :
    Guarded (fun c : FDFIOFTUpgradeable σ => c.initialized = true) (Called (call lib core)) caller
      (fun l => l.2.offers) (fun c => c.ownable.Holds) Governed where
  keeps {c c' l} hinit h := by
    obtain ⟨bridge, -, hmanaged⟩ := call_bridge hinit h
    exact hmanaged.initialized hinit
  granted {c c' l b} hinit h hb := by
    obtain ⟨msg, call⟩ := l
    obtain ⟨bridge, hcall, hmanaged⟩ := call_bridge hinit h
    change call = _ at hcall
    subst hcall
    cases hmanaged with
    | passed passed => exact passed.granted hb
    | _ => exact .inl hb
  guarded {c c' l} hinit h := by
    obtain ⟨bridge, -, hmanaged⟩ := call_bridge hinit h
    cases hmanaged with
    | kept settings => exact .inl ⟨rfl, rfl⟩
    | limited sender => exact .inl ⟨rfl, rfl⟩
    | appointed owner => exact .inr ⟨_, rfl, Ownable.holds_of_owner owner⟩
    | passed passed =>
      rcases passed.guarded with hsame | hholds
      · exact .inl ⟨hsame, rfl⟩
      · exact .inr ⟨_, rfl, hholds⟩

theorem limited (lib : RateLimiter) (core : OFTBase σ) :
    Guarded (fun c : FDFIOFTUpgradeable σ => c.initialized = true) (Called (call lib core)) caller
      (fun l => l.2.appoints) MayLimit Limited where
  keeps {c c' l} hinit h := by
    obtain ⟨bridge, -, hmanaged⟩ := call_bridge hinit h
    exact hmanaged.initialized hinit
  granted {c c' l b} hinit h hb := by
    obtain ⟨msg, call⟩ := l
    obtain ⟨bridge, hcall, hmanaged⟩ := call_bridge hinit h
    change call = _ at hcall
    subst hcall
    cases hmanaged with
    | appointed owner =>
      rcases hb with hb | ⟨-, hb⟩
      · exact .inl (.inl hb)
      · exact .inr ⟨msg.sender, rfl, .inl (Ownable.holds_of_owner owner), hb⟩
    | passed passed =>
      rcases hb with hb | hb
      · rcases passed.granted hb with hheld | ⟨holder, hsender, hholder, hoffer⟩
        · exact .inl (.inl hheld)
        · refine .inr ⟨holder, hsender, .inl hholder, ?_⟩
          change bridge.appoints b
          cases bridge with
          | transferOwnership newOwner => exact hoffer
          | _ => cases hoffer
      · exact .inl (.inr hb)
    | _ => exact .inl hb
  guarded {c c' l} hinit h := by
    obtain ⟨msg, call⟩ := l
    obtain ⟨bridge, -, hmanaged⟩ := call_bridge hinit h
    cases hmanaged with
    | kept settings => exact .inl settings
    | limited sender =>
      rcases sender with hsender | hsender
      · exact .inr ⟨msg.sender, rfl, .inr ⟨msg.sender_ne, hsender.symm⟩⟩
      · exact .inr ⟨msg.sender, rfl, .inl (Ownable.holds_of_owner hsender.symm)⟩
    | _ => exact .inl (.refl _)

end FDFIOFTUpgradeable

section Runs

variable {σ : Type} {oz : OpenZeppelin} {lib : RateLimiter} {core : OFTBase σ}
  {versions : Set Address} {check : Address → Result Unit}

abbrev FDFIToken.ProxyStep (versions : Set Address) (check : Address → Result Unit)
    (oz : OpenZeppelin) :
    Proxy (FDFIToken oz) → Msg × ProxyCall TokenCall → Proxy (FDFIToken oz) → Prop :=
  Proxy.Step versions (Proxy.exec check _authorizeUpgrade call)

abbrev FDFIOFTUpgradeable.ProxyStep (versions : Set Address) (check : Address → Result Unit)
    (lib : RateLimiter) (core : OFTBase σ) :
    Proxy (FDFIOFTUpgradeable σ) → Msg × ProxyCall (SatelliteCall σ) →
      Proxy (FDFIOFTUpgradeable σ) → Prop :=
  Proxy.Step versions (Proxy.exec check _authorizeUpgrade (call lib core))

private theorem FDFIToken.authorizeUpgrade_holds {msg : Msg} {newImplementation : Address}
    {s : FDFIToken oz} {u : Unit} (h : s._authorizeUpgrade msg newImplementation = .ok u) :
    s.ownable.Holds msg.sender := by
  rw [_authorizeUpgrade, Ownable.checkOwner, require_eq_ok] at h
  exact Ownable.holds_of_owner h

private theorem FDFIOFTUpgradeable.authorizeUpgrade_holds {msg : Msg} {newImplementation : Address}
    {c : FDFIOFTUpgradeable σ} {u : Unit} (h : c._authorizeUpgrade msg newImplementation = .ok u) :
    c.ownable.Holds msg.sender := by
  rw [_authorizeUpgrade, Ownable.checkOwner, require_eq_ok] at h
  exact Ownable.holds_of_owner h

private theorem FDFIToken.proxy_sound {implementation : Address} {p : Proxy (FDFIToken oz)}
    {ls : List (Msg × ProxyCall TokenCall)}
    (h : Run (ProxyStep versions check oz) ⟨implementation, .deployed oz⟩ ls p) :
    p.contract.Sound := by
  refine h.invariant (I := fun p => p.contract.Sound) ?_ (sound_deployed oz)
  intro p l p' hs hstep
  cases hstep.ran with
  | @forward msg call s run =>
    have htoken : FDFIToken.Step p.contract ⟨msg, call⟩ s := run
    exact hs.step htoken
  | upgrade leave => exact hs

/-- Over any run of calls by anybody, as long as the proxies run this code. Who owns a contract in
the end, and who may set its limits, was offered that by a chain of offers and appointments from
the owner, the owner offered or the rate limiter at the start, each made by the one before; and
so was whoever upgrades, mints, opens the gate, names a rate limiter or sets limits then. Unless
one of those at the start calls, none of this ever happens. -/
theorem contracts_controlled (versions : Set Address) (check : Address → Result Unit)
    (oz : OpenZeppelin) (lib : RateLimiter) (core : OFTBase σ) :
    (∀ implementation before (p p' : Proxy (FDFIToken oz)) ls,
      Run (FDFIToken.ProxyStep versions check oz) ⟨implementation, .deployed oz⟩ before p →
      p.contract.initialized = true → Run (FDFIToken.ProxyStep versions check oz) p ls p' →
      Controlled (FDFIToken.ProxyStep versions check oz) caller
        (ProxyCall.grants FDFIToken.offers) (fun p => p.contract.ownable.Holds)
        (Proxy.Keeps FDFIToken.Governed) p ls p') ∧
    (∀ (a a' : FDFIOFTAdapter σ) ls, Run (Called (FDFIOFTAdapter.exec lib core)) a ls a' →
      Controlled (Called (FDFIOFTAdapter.exec lib core)) caller (fun l => l.2.offers)
          FDFIOFTAdapter.IsOwner FDFIOFTAdapter.Governed a ls a' ∧
        Controlled (Called (FDFIOFTAdapter.exec lib core)) caller (fun l => l.2.appoints)
          FDFIOFTAdapter.MayLimit FDFIOFTAdapter.Limited a ls a') ∧
    ∀ (p p' : Proxy (FDFIOFTUpgradeable σ)) ls, p.contract.initialized = true →
      Run (FDFIOFTUpgradeable.ProxyStep versions check lib core) p ls p' →
      Controlled (FDFIOFTUpgradeable.ProxyStep versions check lib core) caller
          (ProxyCall.grants SatelliteCall.offers) (fun p => p.contract.ownable.Holds)
          (Proxy.Keeps FDFIOFTUpgradeable.Governed) p ls p' ∧
        Controlled (FDFIOFTUpgradeable.ProxyStep versions check lib core) caller
          (ProxyCall.grants SatelliteCall.appoints) (fun p => p.contract.MayLimit)
          (Proxy.Keeps FDFIOFTUpgradeable.Limited) p ls p' := by
  refine ⟨?_, ?_, ?_⟩
  · intro implementation before p p' ls hbefore hinit hrun
    exact (Proxy.guarded (FDFIToken.guarded oz)
      fun _ _ _ _ h => FDFIToken.authorizeUpgrade_holds h).controlled
        (Proxy.Keeps.refl FDFIToken.Governed.refl) (Proxy.Keeps.trans FDFIToken.Governed.trans)
        hrun ⟨FDFIToken.proxy_sound hbefore, hinit⟩
  · intro a a' ls hrun
    constructor
    · exact (FDFIOFTAdapter.governed lib core).controlled (fun _ => ⟨rfl, rfl⟩)
        (fun _ _ _ h h' => ⟨h'.owner.trans h.owner, h'.rateLimiter.trans h.rateLimiter⟩) hrun
        trivial
    · exact (FDFIOFTAdapter.limited lib core).controlled (fun _ => .refl _)
        (fun _ _ _ h h' => .trans h h') hrun trivial
  · intro p p' ls hinit hrun
    constructor
    · exact (Proxy.guarded (FDFIOFTUpgradeable.governed lib core)
        fun _ _ _ _ h => FDFIOFTUpgradeable.authorizeUpgrade_holds h).controlled
          (Proxy.Keeps.refl fun _ => ⟨rfl, rfl⟩)
          (Proxy.Keeps.trans fun _ _ _ h h' =>
            ⟨h'.ownable.trans h.ownable, h'.rateLimiter.trans h.rateLimiter⟩) hrun hinit
    · exact (Proxy.guarded (FDFIOFTUpgradeable.limited lib core)
        fun _ _ _ _ h => .inl (FDFIOFTUpgradeable.authorizeUpgrade_holds h)).controlled
          (Proxy.Keeps.refl fun _ => .refl _) (Proxy.Keeps.trans fun _ _ _ h h' => .trans h h')
          hrun hinit

end Runs

namespace Reference

def proxied {κ γ : Type} (exec : Msg → ProxyCall γ → Proxy κ → Result (Proxy κ)) (p : Proxy κ)
    (ls : List (Msg × ProxyCall γ)) : Result (Proxy κ) := ls.foldlM (fun p l => exec l.1 l.2 p) p

private theorem proxied_run {κ γ : Type} {exec : Msg → ProxyCall γ → Proxy κ → Result (Proxy κ)}
    {p p' : Proxy κ} {ls : List (Msg × ProxyCall γ)} (h : proxied exec p ls = .ok p') :
    Run (Proxy.Step Set.univ exec) p ls p' := by
  have hcalled : Run (Called exec) p ls p' := Run.of_foldlM ls h
  have hrun := hcalled.relabel (I := fun _ => True) id (fun _ _ _ _ _ => trivial)
    (fun _ _ _ _ hcall => Proxy.Step.mk (Set.mem_univ _) hcall) trivial
  rwa [List.map_id] at hrun

abbrev tokenProxy := Proxy.exec (fun _ => .ok ()) FDFIToken._authorizeUpgrade
  (@FDFIToken.call .reference)

abbrev satelliteProxy := Proxy.exec (fun _ => .ok ()) FDFIOFTUpgradeable._authorizeUpgrade
  (FDFIOFTUpgradeable.call .reference OFTToken.base)

def initialCalls : List (Msg × ProxyCall TokenCall) := [(msgOf 1, .forward (.init 1))]

def tokenAt : Result (Proxy (FDFIToken .reference)) :=
  proxied tokenProxy ⟨200, .deployed .reference⟩ initialCalls

private theorem tokenAt_ok : tokenAt.isOk = true := by decide

def tokenCalls : List (Msg × ProxyCall TokenCall) := [
  (msgOf 1, .forward (.transferOwnership 9)),
  (msgOf 9, .forward .acceptOwnership),
  (msgOf 9, .upgradeToAndCall 201)]

private theorem tokenCalls_ok : (proxied tokenProxy (value _ tokenAt_ok) tokenCalls).isOk = true :=
    by
  decide

def limiterCalls : List (Msg × BridgeCall (FDFIToken .reference)) := [
  (msgOf 1, .setRateLimiter 8),
  (msgOf 8, .setRateLimits [⟨7, 0, 3600⟩])]

private theorem limiterCalls_ok :
    (callAll (FDFIOFTAdapter.exec .reference core) limitedAdapter.contract
    limiterCalls).isOk = true := by decide

def holderCalls : List (Msg × ProxyCall (SatelliteCall OFTToken)) := [
  (msgOf 5, .forward (.bridge (.debit 5 1000000000000 0 7)))]

private theorem holderCalls_ok :
    (proxied satelliteProxy ⟨300, value _ limitedSatellite_ok⟩ holderCalls).isOk = true := by decide

theorem contracts_controlled_sample :
    ((value _ tokenCalls_ok).implementation = 201 ∧
      ∃ a, (value _ tokenAt_ok).contract.ownable.Holds a ∧
        Delegated caller (ProxyCall.grants FDFIToken.offers) tokenCalls a 9) ∧
    (((value _ limiterCalls_ok).rateLimits 7).limit = 0 ∧
      ∃ a, limitedAdapter.contract.MayLimit a ∧
        Delegated caller (fun l => l.2.appoints) limiterCalls a 8) ∧
    FDFIOFTUpgradeable.Limited (value _ limitedSatellite_ok)
      (value _ holderCalls_ok).contract := by
  have hcontrol := contracts_controlled Set.univ (fun _ => .ok ()) .reference .reference
    OFTToken.base
  have hadapter := contracts_controlled Set.univ (fun _ => .ok ()) .reference .reference core
  have hbefore := proxied_run (eq_ok_value _ tokenAt_ok)
  have htoken := proxied_run (eq_ok_value _ tokenCalls_ok)
  have hlimiter : Run (Called (FDFIOFTAdapter.exec .reference core)) limitedAdapter.contract
      limiterCalls (value _ limiterCalls_ok) :=
    Run.of_foldlM limiterCalls (eq_ok_value _ limiterCalls_ok)
  have hholder := proxied_run (eq_ok_value _ holderCalls_ok)
  refine ⟨⟨by decide, ?_⟩, ⟨by decide, ?_⟩, ?_⟩
  · exact (hcontrol.1 200 _ _ _ _ hbefore (by decide) htoken).traced 9 (by decide)
  · exact (hadapter.2.1 _ _ _ hlimiter).2.traced 8 (by decide)
  · refine ((hcontrol.2.2 _ _ _ (by decide) hholder).2.outsiders ?_).1.contract
    intro l hl a ha
    obtain rfl := List.mem_singleton.mp hl
    cases ha
    decide

end Reference

end FdfiToken.Evm
