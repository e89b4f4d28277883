import Mathlib.Algebra.BigOperators.Group.List.Basic
import Mathlib.Algebra.Order.Ring.Int
import Mathlib.Tactic.Linarith
import Mathlib.Tactic.Ring

/-!
# Runs of labelled transition systems

A run is a finite sequence of labelled steps. The rules below turn what one step does into
what every run does: an invariant, an exact ledger whose entries are read off the labels,
and an amortised bound against a potential that grows with time.
-/

namespace Runs

variable {σ ℓ : Type*}

/-- `Run step s ls s'`: the labels `ls` lead from `s` to `s'`. -/
inductive Run (step : σ → ℓ → σ → Prop) : σ → List ℓ → σ → Prop
  | nil (s : σ) : Run step s [] s
  | cons {s s' s'' : σ} {l : ℓ} {ls : List ℓ} (head : step s l s') (tail : Run step s' ls s'') :
      Run step s (l :: ls) s''

theorem sum_map_sub {α : Type*} (f g : α → ℕ) (xs : List α) :
    (xs.map fun x => (f x : ℤ) - g x).sum = ((xs.map f).sum : ℤ) - (xs.map g).sum := by
  induction xs with
  | nil => rfl
  | cons x xs ih =>
    simp only [List.map_cons, List.sum_cons, ih]
    push_cast
    ring

theorem sum_map_filterMap {α β : Type*} (f : α → Option β) (g : β → ℤ) (xs : List α) :
    ((xs.filterMap f).map g).sum = (xs.map fun x => ((f x).map g).getD 0).sum := by
  induction xs with
  | nil => rfl
  | cons x xs ih =>
    cases hf : f x with
    | none => simp [List.filterMap_cons_none hf, hf, ih]
    | some y => simp [List.filterMap_cons_some hf, hf, ih]

namespace Run

variable {step : σ → ℓ → σ → Prop} {s s' s'' : σ} {l : ℓ} {ls ms : List ℓ}

theorem append (h : Run step s ls s') (h' : Run step s' ms s'') : Run step s (ls ++ ms) s'' := by
  induction h with
  | nil s => exact h'
  | cons head _ ih => exact .cons head (ih h')

theorem restrict {P : ℓ → Prop} (h : Run step s ls s') (hP : ∀ l ∈ ls, P l) :
    Run (fun s l s' => P l ∧ step s l s') s ls s' := by
  induction h with
  | nil s => exact .nil s
  | cons head _ ih =>
    exact .cons ⟨hP _ List.mem_cons_self, head⟩
      (ih fun l hl => hP l (List.mem_cons_of_mem _ hl))

theorem relabel {κ : Type*} {step' : σ → κ → σ → Prop} {I : σ → Prop} (f : ℓ → κ)
    (hI : ∀ s l s', I s → step s l s' → I s')
    (hstep : ∀ s l s', I s → step s l s' → step' s (f l) s') (h : Run step s ls s') (hs : I s) :
    Run step' s (ls.map f) s' := by
  induction h with
  | nil s => exact .nil s
  | cons head _ ih => exact .cons (hstep _ _ _ hs head) (ih (hI _ _ _ hs head))

theorem annotate {κ : Type*} {step' : σ → κ → σ → Prop} (f : κ → ℓ)
    (hstep : ∀ s l s', step s l s' → ∃ k, f k = l ∧ step' s k s') (h : Run step s ls s') :
    ∃ ks, ks.map f = ls ∧ Run step' s ks s' := by
  induction h with
  | nil s => exact ⟨[], rfl, .nil s⟩
  | cons head _ ih =>
    obtain ⟨k, rfl, hk⟩ := hstep _ _ _ head
    obtain ⟨ks, rfl, hrest⟩ := ih
    exact ⟨k :: ks, rfl, .cons hk hrest⟩

theorem of_foldlM {ε : Type*} {f : σ → ℓ → Except ε σ} (ls : List ℓ) {s s' : σ}
    (h : ls.foldlM f s = .ok s') : Run (fun s l s' => f s l = .ok s') s ls s' := by
  induction ls generalizing s with
  | nil =>
    cases h
    exact .nil _
  | cons l ls ih =>
    rw [List.foldlM_cons] at h
    cases hl : f s l with
    | error e =>
      rw [hl] at h
      cases h
    | ok s₁ =>
      rw [hl] at h
      exact .cons hl (ih h)

theorem held_throughout {I P : σ → Prop} (hI : ∀ s l s', I s → step s l s' → I s')
    (hstep : ∀ s l s', I s → step s l s' → P s' → P s)
    (h : Run step s ls s') (hs : I s) (hs' : P s') :
    Run (fun s l s' => P s ∧ step s l s') s ls s' ∧ P s := by
  induction h with
  | nil s => exact ⟨.nil s, hs'⟩
  | @cons s s₁ s₂ l ls head _ ih =>
    obtain ⟨tail, hmid⟩ := ih (hI _ _ _ hs head) hs'
    have hfirst := hstep _ _ _ hs head hmid
    exact ⟨.cons ⟨hfirst, head⟩ tail, hfirst⟩

theorem invariant_of {I : σ → Prop} {P : ℓ → Prop}
    (hstep : ∀ s l s', P l → I s → step s l s' → I s')
    (h : Run step s ls s') (hP : ∀ l ∈ ls, P l) (hs : I s) : I s' := by
  induction h with
  | nil => exact hs
  | cons head _ ih =>
    exact ih (fun l hl => hP l (List.mem_cons_of_mem _ hl))
      (hstep _ _ _ (hP _ List.mem_cons_self) hs head)

theorem invariant {I : σ → Prop} (hstep : ∀ s l s', I s → step s l s' → I s')
    (h : Run step s ls s') (hs : I s) : I s' :=
  h.invariant_of (P := fun _ => True) (fun s l s' _ => hstep s l s') (fun _ _ => trivial) hs

theorem label_of {I : σ → Prop} {Q : ℓ → Prop} (hstep : ∀ s l s', I s → step s l s' → I s')
    (hQ : ∀ s l s', I s → step s l s' → Q l) (h : Run step s ls s') (hs : I s) :
    ∀ l ∈ ls, Q l := by
  induction h with
  | nil => simp
  | cons head _ ih =>
    intro l hl
    rcases List.mem_cons.mp hl with rfl | hl
    · exact hQ _ _ _ hs head
    · exact ih (hstep _ _ _ hs head) l hl

/-- The books balance over a run when each step books exactly its own entry. -/
theorem ledger {G : Type*} [AddMonoid G] {I : σ → Prop} (μ : σ → G) (δ : ℓ → G)
    (hI : ∀ s l s', I s → step s l s' → I s')
    (hδ : ∀ s l s', I s → step s l s' → μ s' = μ s + δ l)
    (h : Run step s ls s') (hs : I s) : μ s' = μ s + (ls.map δ).sum := by
  induction h with
  | nil => simp
  | cons head _ ih =>
    rw [ih (hI _ _ _ hs head), hδ _ _ _ hs head, List.map_cons, List.sum_cons, add_assoc]

theorem last_written {V : Type*} {μ : σ → V} {f : ℓ → Option V}
    (hstep : ∀ s l s', step s l s' → μ s' = (f l).getD (μ s)) (h : Run step s ls s') :
    μ s' = ((ls.filterMap f).getLast?).getD (μ s) := by
  induction h with
  | nil => rfl
  | @cons s s' s'' l ls head _ ih =>
    rw [ih, hstep _ _ _ head]
    cases hf : f l with
    | none => rw [List.filterMap_cons_none hf, Option.getD_none]
    | some v =>
      rw [List.filterMap_cons_some hf, List.getLast?_cons, Option.getD_some, Option.getD_some]

theorem once_raised {μ : σ → Bool} {f : ℓ → Bool}
    (hstep : ∀ s l s', step s l s' → μ s' = (f l || μ s)) (h : Run step s ls s') :
    μ s' = (ls.any f || μ s) := by
  induction h with
  | nil => rfl
  | cons head _ ih =>
    rw [ih, hstep _ _ _ head, List.any_cons, Bool.or_left_comm, Bool.or_assoc]

/-- Amortised bound. `V s t` is what the state `s` can still give at time `t`. It grows by at
most `r` a second, an active step pays its net outflow from it, and the other steps do not
raise it; then a run pays out at most what it started with and what accrued meanwhile. -/
theorem amortised {I : σ → Prop} {time : ℓ → ℕ} {active : ℓ → Bool} {net : ℓ → ℤ}
    {V : σ → ℕ → ℤ} {r : ℤ}
    (hI : ∀ s l s', I s → step s l s' → I s')
    (haccrue : ∀ s t t', I s → t ≤ t' → V s t' ≤ V s t + r * ((t' : ℤ) - t))
    (hactive : ∀ s l s', I s → step s l s' → active l = true →
      net l + V s' (time l) ≤ V s (time l))
    (hquiet : ∀ s l s', I s → step s l s' → active l = false →
      net l = 0 ∧ ∀ t, V s' t ≤ V s t)
    {t₁ t₂ : ℕ} (h : Run step s ls s') (hs : I s)
    (hsorted : (ls.filter active).Pairwise fun a b => time a ≤ time b)
    (hfirst : ∀ l ∈ ls, active l = true → t₁ ≤ time l)
    (hlast : ∀ l ∈ ls, active l = true → time l ≤ t₂) (ht : t₁ ≤ t₂) :
    (ls.map net).sum + V s' t₂ ≤ V s t₁ + r * ((t₂ : ℤ) - t₁) := by
  induction h generalizing t₁ with
  | nil s => simpa using haccrue s t₁ t₂ hs ht
  | cons head tail ih =>
    rename_i s s' s'' l ls
    have hs' := hI _ _ _ hs head
    have hlast' : ∀ m ∈ ls, active m = true → time m ≤ t₂ :=
      fun m hm => hlast m (List.mem_cons_of_mem _ hm)
    rw [List.map_cons, List.sum_cons]
    cases hact : active l with
    | true =>
      rw [List.filter_cons_of_pos hact, List.pairwise_cons] at hsorted
      have hfirst' : ∀ m ∈ ls, active m = true → time l ≤ time m :=
        fun m hm ha => hsorted.1 m (List.mem_filter.mpr ⟨hm, ha⟩)
      have hrest := ih hs' hsorted.2 hfirst' hlast' (hlast l List.mem_cons_self hact)
      have hpay := hactive _ _ _ hs head hact
      have hgrow := haccrue s t₁ (time l) hs (hfirst l List.mem_cons_self hact)
      have hsplit : r * ((t₂ : ℤ) - t₁) =
          r * ((time l : ℤ) - t₁) + r * ((t₂ : ℤ) - time l) := by ring
      linarith
    | false =>
      rw [List.filter_cons_of_neg (by simp [hact])] at hsorted
      have hrest := ih hs' hsorted (fun m hm => hfirst m (List.mem_cons_of_mem _ hm)) hlast' ht
      obtain ⟨hzero, hle⟩ := hquiet _ _ _ hs head hact
      have hkeep := hle t₁
      linarith

theorem metered {I : σ → Prop} (time : ℓ → ℕ) (net : ℓ → ℤ) (V : σ → ℕ → ℤ) (r : ℤ)
    (hI : ∀ s l s', I s → step s l s' → I s')
    (haccrue : ∀ s t t', I s → t ≤ t' → V s t' ≤ V s t + r * ((t' : ℤ) - t))
    (hpays : ∀ s l s', I s → step s l s' → net l + V s' (time l) ≤ V s (time l))
    {t₁ t₂ : ℕ} (h : Run step s ls s') (hs : I s)
    (hsorted : ls.Pairwise fun a b => time a ≤ time b)
    (hbetween : ∀ l ∈ ls, t₁ ≤ time l ∧ time l ≤ t₂) (ht : t₁ ≤ t₂) :
    (ls.map net).sum + V s' t₂ ≤ V s t₁ + r * ((t₂ : ℤ) - t₁) := by
  let every : ℓ → Bool := fun _ => true
  have hquiet : ∀ s l s', I s → step s l s' → every l = false →
      net l = 0 ∧ ∀ t, V s' t ≤ V s t := fun _ _ _ _ _ hfalse => by cases hfalse
  refine h.amortised hI haccrue (fun s l s' hs hstep _ => hpays s l s' hs hstep) hquiet hs ?_
    (fun l hl _ => (hbetween l hl).1) (fun l hl _ => (hbetween l hl).2) ht
  rwa [List.filter_eq_self.mpr fun _ _ => rfl]

/-- Simulation with stuttering: a step whose label means nothing to the other system leaves it
where it is, any other is matched by one of its steps. -/
theorem simulates {τ κ : Type*} {step' : τ → κ → τ → Prop} {R : σ → τ → Prop} {f : ℓ → Option κ}
    (hquiet : ∀ s l s' t, R s t → step s l s' → f l = none → R s' t)
    (hvisible : ∀ s l s' t k, R s t → step s l s' → f l = some k → ∃ t', step' t k t' ∧ R s' t')
    (h : Run step s ls s') {t : τ} (hR : R s t) :
    ∃ t', Run step' t (ls.filterMap f) t' ∧ R s' t' := by
  induction h generalizing t with
  | nil s => exact ⟨t, .nil t, hR⟩
  | @cons s s' s'' l ls head _ ih =>
    cases hf : f l with
    | none =>
      rw [List.filterMap_cons_none hf]
      exact ih (hquiet _ _ _ _ hR head hf)
    | some k =>
      obtain ⟨t₁, hstep, hR₁⟩ := hvisible _ _ _ _ _ hR head hf
      obtain ⟨t₂, hrest, hR₂⟩ := ih hR₁
      rw [List.filterMap_cons_some hf]
      exact ⟨t₂, .cons hstep hrest, hR₂⟩

theorem simulates_booked {τ κ G : Type*} [AddMonoid G] {step' : τ → κ → τ → Prop}
    {R : σ → τ → G → Prop} {f : ℓ → Option κ} (δ : ℓ → G)
    (hquiet : ∀ s l s' t g, R s t g → step s l s' → f l = none → R s' t (g + δ l))
    (hvisible : ∀ s l s' t k g, R s t g → step s l s' → f l = some k →
      ∃ t', step' t k t' ∧ R s' t' (g + δ l))
    (h : Run step s ls s') {t : τ} {g : G} (hR : R s t g) :
    ∃ t', Run step' t (ls.filterMap f) t' ∧ R s' t' (g + (ls.map δ).sum) := by
  induction h generalizing t g with
  | nil s =>
    refine ⟨t, .nil t, ?_⟩
    rwa [List.map_nil, List.sum_nil, add_zero]
  | @cons s s' s'' l ls head _ ih =>
    rw [List.map_cons, List.sum_cons, ← add_assoc]
    cases hf : f l with
    | none =>
      rw [List.filterMap_cons_none hf]
      exact ih (hquiet _ _ _ _ _ hR head hf)
    | some k =>
      obtain ⟨t₁, hstep, hR₁⟩ := hvisible _ _ _ _ _ _ hR head hf
      obtain ⟨t₂, hrest, hR₂⟩ := ih hR₁
      rw [List.filterMap_cons_some hf]
      exact ⟨t₂, .cons hstep hrest, hR₂⟩

end Run

section Machines

variable {τ ι κ ω : Type*}

/-- The steps of a machine on a list of inputs: each input, the state it leaves and its answer. -/
def trace (step : σ → ι → σ × ω) : σ → List ι → List (ι × σ × ω)
  | _, [] => []
  | s, i :: is => (i, step s i) :: trace step (step s i).1 is

/-- Simulation along inputs whose times never decrease: two machines related at each time stay
related and give the same answers. -/
theorem trace_simulates {step : σ → ι → σ × ω} {step' : τ → κ → τ × ω} {R : ℕ → σ → τ → Prop}
    {time : ι → ℕ} {f : ι → κ}
    (hstep : ∀ t s s' i, R t s s' → t ≤ time i →
      R (time i) (step s i).1 (step' s' (f i)).1 ∧ (step s i).2 = (step' s' (f i)).2)
    (is : List ι) {t : ℕ} {s : σ} {s' : τ} (hR : R t s s') (hfirst : ∀ i ∈ is, t ≤ time i)
    (hsorted : is.Pairwise fun i j => time i ≤ time j) :
    List.Forall₂ (fun a b => b.1 = f a.1 ∧ R (time a.1) a.2.1 b.2.1 ∧ a.2.2 = b.2.2)
      (trace step s is) (trace step' s' (is.map f)) := by
  induction is generalizing t s s' with
  | nil => exact .nil
  | cons i is ih =>
    rw [List.pairwise_cons] at hsorted
    obtain ⟨hnext, hanswer⟩ := hstep t s s' i hR (hfirst i List.mem_cons_self)
    exact .cons ⟨rfl, hnext, hanswer⟩ (ih hnext hsorted.1 hsorted.2)

end Machines

end Runs
