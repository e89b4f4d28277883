import FdfiToken.Lib.Run
import FdfiToken.Lib.Shift
import Mathlib.Data.List.Perm.Basic

/-!
# Interleaved schedules

Requests carry a key and meet a system that keeps a register for each key. What a request does
is decided by the register of its own key, so it does not matter how the requests of different
keys are interleaved: each key sees the same, and what is counted in total is the same.
-/

namespace Schedules

open Runs Shifts

variable {σ ℓ ε κ ρ : Type*} [DecidableEq κ]

section Own

variable (key : ℓ → κ) (k : κ)

def own (ls : List (ℓ × ε)) : List (ℓ × ε) := ls.filter fun l => key l.1 = k

def requests (ls : List (ℓ × ε)) : List ℓ := (own key k ls).map Prod.fst

def effects (ls : List (ℓ × ε)) : List ε := (own key k ls).map Prod.snd

theorem requests_eq_filter {ls : List (ℓ × ε)} {rs : List ℓ} (h : ls.map Prod.fst = rs) :
    requests key k ls = rs.filter fun l => key l = k := by
  rw [requests, own, ← h, List.filter_map]
  rfl

theorem effects_map {ε' : Type*} (f : ε → ε') (ls : List (ℓ × ε)) :
    effects key k (ls.map fun l => (l.1, f l.2)) = (effects key k ls).map f := by
  rw [effects, effects, own, own, List.filter_map, List.map_map, List.map_map]
  rfl

theorem requests_map {ε' : Type*} (f : ε → ε') (ls : List (ℓ × ε)) :
    requests key k (ls.map fun l => (l.1, f l.2)) = requests key k ls := by
  rw [requests_eq_filter key k rfl, requests_eq_filter key k rfl, List.map_map]
  rfl

theorem perm_of_effects {ls ms : List (ℓ × ε)}
    (h : ∀ k, effects key k ls = effects key k ms) :
    (ls.map Prod.snd).Perm (ms.map Prod.snd) := by
  classical
  have hcount (ls : List (ℓ × ε)) (k : κ) (e : ε) :
      (ls.map fun l => (key l.1, l.2)).count (k, e) = (effects key k ls).count e := by
    rw [effects, own, List.count, List.count, List.countP_map, List.countP_map, List.countP_filter]
    refine List.countP_congr fun l _ => ?_
    simp [and_comm]
  have hperm : (ls.map fun l => (key l.1, l.2)).Perm (ms.map fun l => (key l.1, l.2)) := by
    rw [List.perm_iff_count]
    intro p
    rw [hcount, hcount, h]
  have hsnd := hperm.map Prod.snd
  rw [List.map_map, List.map_map] at hsnd
  exact hsnd

theorem perm_of_requests {ls ms : List (ℓ × ε)}
    (h : ∀ k, requests key k ls = requests key k ms) :
    (ls.map Prod.fst).Perm (ms.map Prod.fst) := by
  have heffects (ls : List (ℓ × ε)) (k : κ) :
      effects key k (ls.map fun l => (l.1, l.1)) = requests key k ls := by
    rw [effects, requests, own, own, List.filter_map, List.map_map]
    rfl
  have hperm : ((ls.map fun l => (l.1, l.1)).map Prod.snd).Perm
      ((ms.map fun l => (l.1, l.1)).map Prod.snd) :=
    perm_of_effects key fun k => by rw [heffects, heffects, h]
  rw [List.map_map, List.map_map] at hperm
  exact hperm

end Own

/-- What a step shows and what it leaves in the register of its key is decided by that register,
up to `Same`; the other registers stay. -/
structure Keyed (I : σ → Prop) (step : σ → ℓ × ε → σ → Prop) (key : ℓ → κ) (reg : σ → κ → ρ)
    (Same : ε → ε → Prop) : Prop where
  keeps {s s' : σ} {l : ℓ × ε} : I s → step s l s' → I s'
  frame {s s' : σ} {l : ℓ × ε} {k : κ} : I s → step s l s' → k ≠ key l.1 → reg s' k = reg s k
  decided {s s' t t' : σ} {l : ℓ} {e e' : ε} : I s → I t → reg s (key l) = reg t (key l) →
    step s (l, e) s' → step t (l, e') t' → Same e e' ∧ reg s' (key l) = reg t' (key l)

section Keyed

variable {I : σ → Prop} {step : σ → ℓ × ε → σ → Prop} {key : ℓ → κ} {reg : σ → κ → ρ}
  {Same : ε → ε → Prop} {s s' t t' : σ} {ls ms : List (ℓ × ε)} {k : κ}

def View (I : σ → Prop) (step : σ → ℓ × ε → σ → Prop) (reg : σ → κ → ρ) (k : κ) (r : ρ)
    (l : ℓ × ε) (r' : ρ) : Prop :=
  ∃ s s', I s ∧ step s l s' ∧ reg s k = r ∧ reg s' k = r'

private theorem Keyed.view (hkeyed : Keyed I step key reg Same) (h : Run step s ls s') (hs : I s) :
    Run (View I step reg k) (reg s k) (own key k ls) (reg s' k) := by
  induction h with
  | nil s => exact .nil _
  | @cons s s₁ s₂ l ls head _ ih =>
    have htail := ih (hkeyed.keeps hs head)
    by_cases hk : key l.1 = k
    · rw [own, List.filter_cons_of_pos (by simpa using hk)]
      exact .cons ⟨s, s₁, hs, head, rfl, rfl⟩ htail
    · rw [own, List.filter_cons_of_neg (by simpa using hk)]
      rw [hkeyed.frame hs head (Ne.symm hk)] at htail
      exact htail

omit [DecidableEq κ] in
private theorem Keyed.views_agree (hkeyed : Keyed I step key reg Same) {r r' q' : ρ}
    (h : Run (View I step reg k) r ls r') (h' : Run (View I step reg k) r ms q')
    (hkey : ∀ l ∈ ls, key l.1 = k) (hrequests : ls.map Prod.fst = ms.map Prod.fst) :
    List.Forall₂ Same (ls.map Prod.snd) (ms.map Prod.snd) ∧ r' = q' := by
  induction h generalizing ms with
  | nil r =>
    cases h' with
    | nil => exact ⟨.nil, rfl⟩
    | cons head tail => simp at hrequests
  | @cons r r₁ r₂ l ls head _ ih =>
    cases h' with
    | nil => simp at hrequests
    | @cons _ q₁ _ m ms head' tail' =>
      obtain ⟨s, s', hs, hstep, hr, hr'⟩ := head
      obtain ⟨t, t', ht, hstep', hq, hq'⟩ := head'
      obtain ⟨a, e⟩ := l
      obtain ⟨b, e'⟩ := m
      rw [List.map_cons, List.map_cons, List.cons.injEq] at hrequests
      obtain ⟨hsame, hrest⟩ := hrequests
      change a = b at hsame
      subst hsame
      have hk : key a = k := hkey (a, e) List.mem_cons_self
      subst hk
      obtain ⟨hsees, hreg⟩ := hkeyed.decided hs ht (hr.trans hq.symm) hstep hstep'
      rw [hr', hq'] at hreg
      subst hreg
      obtain ⟨htail, hend⟩ := ih tail' (fun l hl => hkey l (List.mem_cons_of_mem _ hl)) hrest
      exact ⟨.cons hsees htail, hend⟩

/-- However it is interleaved with the others, a key that asks the same sees the same. -/
theorem Keyed.agree (hkeyed : Keyed I step key reg Same) (h : Run step s ls s')
    (h' : Run step t ms t') (hs : I s) (ht : I t) (hreg : reg s k = reg t k)
    (hrequests : requests key k ls = requests key k ms) :
    List.Forall₂ Same (effects key k ls) (effects key k ms) ∧ reg s' k = reg t' k := by
  have hview := hkeyed.view (k := k) h hs
  have hview' := hkeyed.view (k := k) h' ht
  rw [← hreg] at hview'
  refine hkeyed.views_agree hview hview' (fun l hl => ?_) hrequests
  simpa using (List.mem_filter.mp hl).2

end Keyed

theorem run_shift {G : Type*} [AddCancelCommMonoid G] {step : σ → ℓ → σ → Prop} {I : σ → Prop}
    {s s' : σ} {ls : List ℓ} (μ : σ → G) (out into : ℓ → G)
    (hI : ∀ s l s', I s → step s l s' → I s')
    (hstep : ∀ s l s', I s → step s l s' → Shift (out l) (into l) (μ s) (μ s'))
    (h : Run step s ls s') (hs : I s) :
    Shift (ls.map out).sum (ls.map into).sum (μ s) (μ s') := by
  induction h with
  | nil s => exact Shift.refl _
  | @cons s s₁ s₂ l ls head _ ih =>
    rw [List.map_cons, List.map_cons, List.sum_cons, List.sum_cons]
    exact (hstep _ _ _ hs head).trans (ih (hI _ _ _ hs head))

/-- Where each request shifts what is counted by an amount of its own, schedules that ask the same
count the same. -/
theorem counts_agree {G : Type*} [AddCancelCommMonoid G] {step : σ → ℓ × ε → σ → Prop}
    {I : σ → Prop} {s s₁ s₂ : σ} {ls ms : List (ℓ × ε)} (μ : σ → G) (out into : ℓ → G)
    (hI : ∀ s l s', I s → step s l s' → I s')
    (hstep : ∀ s l s', I s → step s l s' → Shift (out l.1) (into l.1) (μ s) (μ s'))
    (h : Run step s ls s₁) (h' : Run step s ms s₂) (hs : I s)
    (hrequests : (ls.map Prod.fst).Perm (ms.map Prod.fst)) : μ s₂ = μ s₁ := by
  have hshift := run_shift μ (fun l : ℓ × ε => out l.1) (fun l => into l.1) hI hstep h hs
  have hshift' := run_shift μ (fun l : ℓ × ε => out l.1) (fun l => into l.1) hI hstep h' hs
  have hout := (hrequests.map out).sum_eq
  have hinto := (hrequests.map into).sum_eq
  rw [List.map_map, List.map_map] at hout hinto
  change (ls.map fun l => out l.1).sum = (ms.map fun l => out l.1).sum at hout
  change (ls.map fun l => into l.1).sum = (ms.map fun l => into l.1).sum at hinto
  rw [← hout, ← hinto] at hshift'
  exact hshift'.unique hshift

end Schedules
