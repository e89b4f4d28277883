import FdfiToken.Lib.Run

/-!
# Delegated authority

A system some parties have authority over. They may pass it on; nobody else gains any, and
without any nothing that is guarded changes. Over a run every holder has it by a chain of grants
from a holder at the start, each made while the granter held it.
-/

namespace Authority

open Runs

variable {σ ℓ α : Type*}

/-- Only who holds authority passes it on, and only a holder's step changes what is guarded. -/
structure Guarded (I : σ → Prop) (step : σ → ℓ → σ → Prop) (actor : ℓ → Option α)
    (grants : ℓ → α → Prop) (holds : σ → α → Prop) (Keeps : σ → σ → Prop) : Prop where
  keeps {s s' : σ} {l : ℓ} : I s → step s l s' → I s'
  granted {s s' : σ} {l : ℓ} {b : α} : I s → step s l s' → holds s' b →
    holds s b ∨ ∃ a, actor l = some a ∧ holds s a ∧ grants l b
  guarded {s s' : σ} {l : ℓ} : I s → step s l s' →
    Keeps s s' ∨ ∃ a, actor l = some a ∧ holds s a

/-- Authority passes from `a` to `b` by grants among the labels, in their order. -/
inductive Delegated (actor : ℓ → Option α) (grants : ℓ → α → Prop) : List ℓ → α → α → Prop
  | nil (a : α) : Delegated actor grants [] a a
  | skip {l : ℓ} {ls : List ℓ} {a b : α} (rest : Delegated actor grants ls a b) :
      Delegated actor grants (l :: ls) a b
  | grant {l : ℓ} {ls : List ℓ} {a b c : α} (acts : actor l = some a) (granted : grants l c)
      (rest : Delegated actor grants ls c b) : Delegated actor grants (l :: ls) a b

namespace Guarded

variable {I : σ → Prop} {step : σ → ℓ → σ → Prop} {actor : ℓ → Option α} {grants : ℓ → α → Prop}
  {holds : σ → α → Prop} {Keeps : σ → σ → Prop} {s s' s'' : σ} {l : ℓ} {ls : List ℓ}

/-- Who holds authority in the end was given it, grant after grant, by a holder at the start. -/
theorem traced (hguard : Guarded I step actor grants holds Keeps) (h : Run step s ls s')
    (hs : I s) {b : α} (hb : holds s' b) : ∃ a, holds s a ∧ Delegated actor grants ls a b := by
  induction h with
  | nil s => exact ⟨b, hb, .nil b⟩
  | @cons s s₁ s₂ l ls head _ ih =>
    obtain ⟨c, hc, hrest⟩ := ih (hguard.keeps hs head) hb
    rcases hguard.granted hs head hc with hc | ⟨a, hacts, ha, hgrant⟩
    · exact ⟨c, hc, .skip hrest⟩
    · exact ⟨a, ha, .grant hacts hgrant hrest⟩

theorem changed (hguard : Guarded I step actor grants holds Keeps) (h : Run step s ls s')
    (hs : I s) (hstep : step s' l s'') (hchange : ¬ Keeps s' s'') :
    ∃ a b, actor l = some b ∧ holds s a ∧ Delegated actor grants ls a b := by
  have hs' : I s' := h.invariant (fun _ _ _ hI hst => hguard.keeps hI hst) hs
  rcases hguard.guarded hs' hstep with hkeeps | ⟨b, hacts, hb⟩
  · exact absurd hkeeps hchange
  · obtain ⟨a, ha, hchain⟩ := hguard.traced h hs hb
    exact ⟨a, b, hacts, ha, hchain⟩

theorem outsiders (hguard : Guarded I step actor grants holds Keeps) (hrefl : ∀ s, Keeps s s)
    (htrans : ∀ s s' s'', Keeps s s' → Keeps s' s'' → Keeps s s'') (h : Run step s ls s')
    (hs : I s) (hout : ∀ l ∈ ls, ∀ a, actor l = some a → ¬ holds s a) :
    Keeps s s' ∧ ∀ b, holds s' b → holds s b := by
  induction h with
  | nil s => exact ⟨hrefl s, fun _ hb => hb⟩
  | @cons s s₁ s₂ l ls head _ ih =>
    have hfirst (b : α) (hb : holds s₁ b) : holds s b := by
      rcases hguard.granted hs head hb with hb | ⟨a, hacts, ha, -⟩
      · exact hb
      · exact absurd ha (hout l List.mem_cons_self a hacts)
    obtain ⟨hrest, hheld⟩ := ih (hguard.keeps hs head) fun m hm a hacts ha =>
      hout m (List.mem_cons_of_mem _ hm) a hacts (hfirst a ha)
    refine ⟨?_, fun b hb => hfirst b (hheld b hb)⟩
    rcases hguard.guarded hs head with hkeeps | ⟨a, hacts, ha⟩
    · exact htrans _ _ _ hkeeps hrest
    · exact absurd ha (hout l List.mem_cons_self a hacts)

end Guarded

structure Controlled (step : σ → ℓ → σ → Prop) (actor : ℓ → Option α) (grants : ℓ → α → Prop)
    (holds : σ → α → Prop) (Keeps : σ → σ → Prop) (s : σ) (ls : List ℓ) (s' : σ) : Prop where
  traced (b : α) : holds s' b → ∃ a, holds s a ∧ Delegated actor grants ls a b
  changed (l : ℓ) (s'' : σ) : step s' l s'' → ¬ Keeps s' s'' →
    ∃ a b, actor l = some b ∧ holds s a ∧ Delegated actor grants ls a b
  outsiders : (∀ l ∈ ls, ∀ a, actor l = some a → ¬ holds s a) →
    Keeps s s' ∧ ∀ b, holds s' b → holds s b

theorem Guarded.controlled {I : σ → Prop} {step : σ → ℓ → σ → Prop} {actor : ℓ → Option α}
    {grants : ℓ → α → Prop} {holds : σ → α → Prop} {Keeps : σ → σ → Prop} {s s' : σ} {ls : List ℓ}
    (hguard : Guarded I step actor grants holds Keeps) (hrefl : ∀ s, Keeps s s)
    (htrans : ∀ s s' s'', Keeps s s' → Keeps s' s'' → Keeps s s'') (h : Run step s ls s')
    (hs : I s) : Controlled step actor grants holds Keeps s ls s' where
  traced _ hb := hguard.traced h hs hb
  changed _ _ hstep hchange := hguard.changed h hs hstep hchange
  outsiders hout := hguard.outsiders hrefl htrans h hs hout

end Authority
