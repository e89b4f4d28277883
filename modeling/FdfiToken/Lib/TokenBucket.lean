import FdfiToken.Lib.Run
import Mathlib.Logic.Function.Iterate
import Mathlib.Order.Monotone.Basic
import Mathlib.Tactic.Linarith
import Mathlib.Tactic.Ring

/-!
# The ideal token bucket

A bucket over the natural numbers that is ticked once a second. A lane is a bucket that may
be absent, together with the second it has been ticked up to; its commands are given at
non-decreasing times. Commands that only look at a lane never change what it does later.
-/

/-- A bucket never holds more than its capacity. -/
structure TokenBucket where
  capacity : ℕ
  rate : ℕ
  tokens : ℕ
  tokens_le : tokens ≤ capacity

namespace TokenBucket

@[ext] theorem ext {b c : TokenBucket} (hcap : b.capacity = c.capacity) (hrate : b.rate = c.rate)
    (htok : b.tokens = c.tokens) : b = c := by
  cases b
  cases c
  simp_all

/-- The bucket that has just been created: no capacity, no accrual. -/
def empty : TokenBucket := ⟨0, 0, 0, le_rfl⟩

def tick (b : TokenBucket) : TokenBucket :=
  ⟨b.capacity, b.rate, min b.capacity (b.tokens + b.rate), Nat.min_le_left _ _⟩

def refill (extra : ℕ) (b : TokenBucket) : TokenBucket :=
  ⟨b.capacity, b.rate, min b.capacity (b.tokens + extra), Nat.min_le_left _ _⟩

/-- A withdrawal is accepted exactly when the bucket holds the amount. -/
def consume (amount : ℕ) (b : TokenBucket) : Option TokenBucket :=
  if amount ≤ b.tokens then
    some ⟨b.capacity, b.rate, b.tokens - amount, (Nat.sub_le _ _).trans b.tokens_le⟩
  else none

def setRate (rate : ℕ) (b : TokenBucket) : TokenBucket := ⟨b.capacity, rate, b.tokens, b.tokens_le⟩

def setCapacity (capacity : ℕ) (b : TokenBucket) : TokenBucket :=
  ⟨capacity, b.rate, capacity, le_rfl⟩

theorem iterate_tick (b : TokenBucket) (n : ℕ) :
    (tick^[n] b).capacity = b.capacity ∧ (tick^[n] b).rate = b.rate ∧
      (tick^[n] b).tokens = min b.capacity (b.tokens + n * b.rate) := by
  induction n with
  | zero => simpa using b.tokens_le
  | succ n ih =>
    obtain ⟨hcap, hrate, htok⟩ := ih
    rw [Function.iterate_succ_apply']
    refine ⟨hcap, hrate, ?_⟩
    simp only [tick, hcap, hrate, htok, Nat.succ_mul]
    omega

@[simp] theorem refill_zero (b : TokenBucket) : b.refill 0 = b := by
  ext
  · rfl
  · rfl
  · simpa [refill] using b.tokens_le

@[simp] theorem consume_zero (b : TokenBucket) : b.consume 0 = some b := by
  simp [consume]

structure Config where
  capacity : Option ℕ
  rate : Option ℕ

def configure (c : Config) (b : TokenBucket) : TokenBucket :=
  let b := match c.capacity with
    | some capacity => b.setCapacity capacity
    | none => b
  match c.rate with
  | some rate => b.setRate rate
  | none => b

inductive Command where
  | configure (config : Option Config)
  | refill (extra : ℕ)
  | consume (amount : ℕ)

/-- A bucket that may be absent, ticked up to the second `now`. -/
structure Lane where
  bucket : Option TokenBucket
  now : ℕ

namespace Lane

/-- Tick once for each second up to `t`. -/
def advance (t : ℕ) (l : Lane) : Lane := ⟨l.bucket.map (tick^[t - l.now]), t⟩

/-- The effect of a command at the lane's own second, and whether it is accepted. A lane
without a bucket lets everything through. -/
def perform (c : Command) (l : Lane) : Lane × Bool :=
  match c, l.bucket with
  | .configure none, _ => (⟨none, l.now⟩, true)
  | .configure (some config), b => (⟨some ((b.getD empty).configure config), l.now⟩, true)
  | .refill extra, b => (⟨b.map (TokenBucket.refill extra), l.now⟩, true)
  | .consume _, none => (l, true)
  | .consume amount, some b =>
    match b.consume amount with
    | some b' => (⟨some b', l.now⟩, true)
    | none => (l, false)

/-- A command at second `t`. -/
def step (t : ℕ) (c : Command) (l : Lane) : Lane × Bool := (l.advance t).perform c

private theorem advance_advance (l : Lane) {t t' : ℕ} (h : l.now ≤ t) (h' : t ≤ t') :
    (l.advance t).advance t' = l.advance t' := by
  have hsplit : t' - l.now = (t' - t) + (t - l.now) := by omega
  simp only [advance, Option.map_map, hsplit]
  congr 2
  funext b
  exact (Function.iterate_add_apply tick (t' - t) (t - l.now) b).symm

private theorem step_now (l : Lane) (t : ℕ) (c : Command) : (l.step t c).1.now = t := by
  unfold step perform
  split
  · rfl
  · rfl
  · rfl
  · rfl
  · split <;> rfl

/-- Whether a command with this verdict only looked: nothing added, nothing taken. -/
def Looked (c : Command) (accepted : Bool) : Prop :=
  c = .refill 0 ∨ c = .consume 0 ∨ (∃ amount, c = .consume amount) ∧ accepted = false

private theorem step_looked (l : Lane) (t : ℕ) (c : Command) (h : Looked c (l.step t c).2) :
    (l.step t c).1 = l.advance t := by
  unfold Looked step at h
  unfold step
  generalize l.advance t = m at h ⊢
  obtain ⟨bucket, now⟩ := m
  cases bucket with
  | none => rcases h with rfl | rfl | ⟨⟨amount, rfl⟩, _⟩ <;> simp [perform]
  | some b =>
    rcases h with rfl | rfl | ⟨⟨amount, rfl⟩, hrej⟩
    · simp [perform]
    · simp [perform]
    · cases hc : b.consume amount with
      | none => simp [perform, hc]
      | some b' => simp [perform, hc] at hrej

/-- A command with its second; `probe` marks one that was added only to look. -/
structure Timed where
  time : ℕ
  command : Command
  probe : Bool

def run (l : Lane) (c : Timed) : Lane × Bool := l.step c.time c.command

def verdicts (answers : List (Timed × Lane × Bool)) : List Bool :=
  (answers.filter fun a => !a.1.probe).map (·.2.2)

private theorem verdicts_without_probes_from (cs : List Timed) (l m : Lane)
    (hsame : ∀ t, l.now ≤ t → l.advance t = m.advance t)
    (hfirst : ∀ c ∈ cs, l.now ≤ c.time) (hsorted : cs.Pairwise fun a b => a.time ≤ b.time)
    (hprobes : ∀ a ∈ Runs.trace run l cs, a.1.probe = true → Looked a.1.command a.2.2) :
    verdicts (Runs.trace run l cs) =
      verdicts (Runs.trace run m (cs.filter fun c => !c.probe)) := by
  induction cs generalizing l m with
  | nil => rfl
  | cons c cs ih =>
    rw [List.pairwise_cons] at hsorted
    have hnow := hfirst c List.mem_cons_self
    have hnext := step_now l c.time c.command
    have hrest : ∀ c' ∈ cs, (l.run c).1.now ≤ c'.time := by
      intro c' hc'
      rw [run, hnext]
      exact hsorted.1 c' hc'
    have hprobes' : ∀ a ∈ Runs.trace run (l.run c).1 cs,
        a.1.probe = true → Looked a.1.command a.2.2 :=
      fun a ha => hprobes a (List.mem_cons_of_mem _ ha)
    cases hc : c.probe with
    | true =>
      -- the probe has only ticked the lane, which any later command does again
      have hticked : (l.run c).1 = l.advance c.time :=
        step_looked l c.time c.command (hprobes _ List.mem_cons_self hc)
      rw [List.filter_cons_of_neg (by simp [hc]), Runs.trace, verdicts,
        List.filter_cons_of_neg (by simp [hc])]
      refine ih _ m (fun t ht => ?_) hrest hsorted.2 hprobes'
      rw [run, hnext] at ht
      rw [hticked, advance_advance l hnow ht, hsame t (hnow.trans ht)]
    | false =>
      have hstep : l.run c = m.run c := by
        rw [run, run, step, step, hsame c.time hnow]
      rw [List.filter_cons_of_pos (by simp [hc]), Runs.trace, Runs.trace, verdicts, verdicts,
        List.filter_cons_of_pos (by simp [hc]), List.filter_cons_of_pos (by simp [hc]),
        List.map_cons, List.map_cons, ← hstep]
      exact congrArg _ (ih _ _ (fun _ _ => rfl) hrest hsorted.2 hprobes')

/-- Probes, wherever they are added, change no verdict. -/
theorem verdicts_without_probes (cs : List Timed) (l : Lane)
    (hfirst : ∀ c ∈ cs, l.now ≤ c.time) (hsorted : cs.Pairwise fun a b => a.time ≤ b.time)
    (hprobes : ∀ a ∈ Runs.trace run l cs, a.1.probe = true → Looked a.1.command a.2.2) :
    verdicts (Runs.trace run l cs) =
      verdicts (Runs.trace run l (cs.filter fun c => !c.probe)) :=
  verdicts_without_probes_from cs l l (fun _ _ => rfl) hfirst hsorted hprobes

end Lane

end TokenBucket
