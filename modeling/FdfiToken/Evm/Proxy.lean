import FdfiToken.Evm.Runtime
import FdfiToken.Lib.Authority

/-!
# Proxies and their owners

The upgradeable contracts live behind proxies whose code authorises its own replacement, and pass
ownership in two steps. Whatever guards a contract guards its proxy, as long as only its holders
may upgrade.
-/

namespace FdfiToken.Evm

open Word Fallible Runs Authority

/-- An upgradeable proxy: the address of its code, and its storage. -/
structure Proxy (κ : Type) where
  implementation : Address
  contract : κ

/-- A call that comes with an upgrade is a call of its own. -/
inductive ProxyCall (γ : Type) where
  | forward (call : γ)
  | upgradeToAndCall (newImplementation : Address)

section Proxies

variable {κ γ : Type}

def Called (exec : Msg → γ → κ → Result κ) (k : κ) (l : Msg × γ) (k' : κ) : Prop :=
  exec l.1 l.2 k = .ok k'

/-- UUPS: the code authorises its own replacement; `checkImplementation` is what the library
asks of the new one. -/
def Proxy.exec (checkImplementation : Address → Result Unit)
    (authorizeUpgrade : Msg → Address → κ → Result Unit) (exec : Msg → γ → κ → Result κ) (msg : Msg)
    (call : ProxyCall γ) (p : Proxy κ) : Result (Proxy κ) :=
  match call with
  | .forward call => do
    let contract ← exec msg call p.contract
    pure { p with contract }
  | .upgradeToAndCall newImplementation => do
    authorizeUpgrade msg newImplementation p.contract
    checkImplementation newImplementation
    pure { p with implementation := newImplementation }

/-- A call of a proxy while the code at its implementation is one of `versions`. -/
structure Proxy.Step (versions : Set Address)
    (exec : Msg → ProxyCall γ → Proxy κ → Result (Proxy κ)) (p : Proxy κ) (l : Msg × ProxyCall γ)
    (p' : Proxy κ) : Prop where
  current : p.implementation ∈ versions
  run : Called exec p l p'

def caller (l : Msg × γ) : Option Address := some l.1.sender

def ProxyCall.grants (grants : γ → Address → Prop) (l : Msg × ProxyCall γ) (b : Address) : Prop :=
  match l.2 with
  | .forward call => grants call b
  | .upgradeToAndCall _ => False

structure Proxy.Keeps (keeps : κ → κ → Prop) (p p' : Proxy κ) : Prop where
  implementation : p'.implementation = p.implementation
  contract : keeps p.contract p'.contract

theorem Proxy.Keeps.refl {keeps : κ → κ → Prop} (h : ∀ k, keeps k k) (p : Proxy κ) :
    Proxy.Keeps keeps p p := ⟨rfl, h _⟩

theorem Proxy.Keeps.trans {keeps : κ → κ → Prop}
    (h : ∀ k k' k'', keeps k k' → keeps k' k'' → keeps k k'') (p p' p'' : Proxy κ)
    (hp : Proxy.Keeps keeps p p') (hp' : Proxy.Keeps keeps p' p'') : Proxy.Keeps keeps p p'' :=
  ⟨hp'.implementation.trans hp.implementation, h _ _ _ hp.contract hp'.contract⟩

/-- A proxy forwards a call to its contract, or replaces its code with the leave of the old one. -/
inductive Proxy.Ran (authorize : Msg → Address → κ → Result Unit) (exec : Msg → γ → κ → Result κ) :
    Proxy κ → Msg × ProxyCall γ → Proxy κ → Prop
  | forward {p : Proxy κ} {msg : Msg} {call : γ} {contract : κ}
      (run : Called exec p.contract (msg, call) contract) :
      Ran authorize exec p (msg, .forward call) { p with contract }
  | upgrade {p : Proxy κ} {msg : Msg} {newImplementation : Address}
      (leave : authorize msg newImplementation p.contract = .ok ()) :
      Ran authorize exec p (msg, .upgradeToAndCall newImplementation)
        { p with implementation := newImplementation }

theorem Proxy.Step.ran {versions : Set Address} {check : Address → Result Unit}
    {authorize : Msg → Address → κ → Result Unit} {exec : Msg → γ → κ → Result κ} {p p' : Proxy κ}
    {l : Msg × ProxyCall γ} (h : Proxy.Step versions (Proxy.exec check authorize exec) p l p') :
    Proxy.Ran authorize exec p l p' := by
  obtain ⟨msg, call⟩ := l
  have hrun : Proxy.exec check authorize exec msg call p = .ok p' := h.run
  cases call with
  | forward call =>
    simp only [Proxy.exec, bind_eq_ok, pure_eq_ok] at hrun
    obtain ⟨k, hk, rfl⟩ := hrun
    exact .forward hk
  | upgradeToAndCall newImplementation =>
    simp only [Proxy.exec, bind_eq_ok, pure_eq_ok] at hrun
    obtain ⟨u, hu, -, -, rfl⟩ := hrun
    exact .upgrade hu

/-- A proxy is guarded where its contract is and only a holder may upgrade it. -/
theorem Proxy.guarded {versions : Set Address} {check : Address → Result Unit}
    {authorize : Msg → Address → κ → Result Unit} {exec : Msg → γ → κ → Result κ} {I : κ → Prop}
    {grants : γ → Address → Prop} {holds : κ → Address → Prop} {keeps : κ → κ → Prop}
    (hguard : Guarded I (Called exec) caller (fun l => grants l.2) holds keeps)
    (hauthorize : ∀ msg newImplementation k u, authorize msg newImplementation k = .ok u →
      holds k msg.sender) :
    Guarded (fun p => I p.contract) (Proxy.Step versions (Proxy.exec check authorize exec)) caller
      (ProxyCall.grants grants) (fun p => holds p.contract) (Proxy.Keeps keeps) where
  keeps {p p' l} hp h := by
    cases h.ran with
    | forward run => exact hguard.keeps hp run
    | upgrade leave => exact hp
  granted {p p' l b} hp h hb := by
    cases h.ran with
    | forward run => exact hguard.granted hp run hb
    | upgrade leave => exact .inl hb
  guarded {p p' l} hp h := by
    cases h.ran with
    | @forward msg call contract run =>
      rcases hguard.guarded hp run with hkeeps | hholds
      · exact .inl ⟨rfl, hkeeps⟩
      · exact .inr hholds
    | @upgrade msg newImplementation leave =>
      exact .inr ⟨msg.sender, rfl, hauthorize _ _ _ _ leave⟩

end Proxies

namespace Ownable

variable {msg : Msg} {o o' : Ownable} {a b : Address}

def Holds (o : Ownable) (a : Address) : Prop := a ≠ 0 ∧ (o.owner = a ∨ o.pendingOwner = a)

instance (o : Ownable) (a : Address) : Decidable (o.Holds a) :=
  inferInstanceAs (Decidable (_ ∧ _))

/-- What a call makes of ownership; `offers` is whom it offers it to. -/
inductive Passed (msg : Msg) (offers : Address → Prop) (o : Ownable) : Ownable → Prop
  | same : Passed msg offers o o
  | offer {newOwner : Address} (owner : o.owner = msg.sender) (offered : offers newOwner) :
      Passed msg offers o { o with pendingOwner := newOwner }
  | accept (pending : o.pendingOwner = msg.sender) : Passed msg offers o ⟨msg.sender, 0⟩
  | renounce (owner : o.owner = msg.sender) : Passed msg offers o ⟨0, 0⟩

theorem holds_of_owner (h : o.owner = msg.sender) : o.Holds msg.sender := ⟨msg.sender_ne, .inl h⟩

private theorem holds_of_pending (h : o.pendingOwner = msg.sender) : o.Holds msg.sender :=
  ⟨msg.sender_ne, .inr h⟩

/-- Nobody holds ownership but who did or was offered it by a holder. -/
theorem Passed.granted {offers : Address → Prop} (h : Passed msg offers o o') (hb : o'.Holds b) :
    o.Holds b ∨ ∃ a, some msg.sender = some a ∧ o.Holds a ∧ offers b := by
  obtain ⟨hne, hb⟩ := hb
  cases h with
  | same => exact .inl ⟨hne, hb⟩
  | offer owner offered =>
    rcases hb with hb | rfl
    · exact .inl ⟨hne, .inl hb⟩
    · exact .inr ⟨_, rfl, holds_of_owner owner, offered⟩
  | accept pending =>
    rcases hb with rfl | hb
    · exact .inl (holds_of_pending pending)
    · exact absurd hb.symm hne
  | renounce owner =>
    rcases hb with hb | hb
    · exact absurd hb.symm hne
    · exact absurd hb.symm hne

theorem Passed.guarded {offers : Address → Prop} (h : Passed msg offers o o') :
    o' = o ∨ o.Holds msg.sender := by
  cases h with
  | same => exact .inl rfl
  | offer owner _ => exact .inr (holds_of_owner owner)
  | accept pending => exact .inr (holds_of_pending pending)
  | renounce owner => exact .inr (holds_of_owner owner)

theorem transferOwnership_passed {newOwner : Address} {offers : Address → Prop}
    (h : o.transferOwnership msg newOwner = .ok o') (hoffers : offers newOwner) :
    Passed msg offers o o' := by
  simp only [transferOwnership, checkOwner, bind_eq_ok, require_eq_ok, pure_eq_ok] at h
  obtain ⟨-, howner, rfl⟩ := h
  exact .offer howner hoffers

theorem acceptOwnership_passed {offers : Address → Prop} (h : o.acceptOwnership msg = .ok o') :
    Passed msg offers o o' := by
  simp only [acceptOwnership, bind_eq_ok, require_eq_ok, pure_eq_ok] at h
  obtain ⟨-, hpending, rfl⟩ := h
  exact .accept hpending

theorem renounceOwnership_passed {offers : Address → Prop}
    (h : o.renounceOwnership msg = .ok o') : Passed msg offers o o' := by
  simp only [renounceOwnership, checkOwner, bind_eq_ok, require_eq_ok, pure_eq_ok] at h
  obtain ⟨-, howner, rfl⟩ := h
  exact .renounce howner

end Ownable

end FdfiToken.Evm
