import FdfiToken.Lib.Schedule
import FdfiToken.Oft.Commutation

/-!
# Interleaved traffic

The traffic of all peers of a store, in any order that goes through. What a transfer does depends
on its own peer's account alone, so the order between peers does not matter: the same traffic
leaves the same store and sends the same messages.
-/

namespace FdfiToken

open Word Fallible Runs Shifts Schedules TokenLedger

abbrev Traffic := (Clock × Instruction) × Outcome

/-- A signed transfer that succeeds, whatever the endpoint answers. -/
structure TransferStep (rt : Runtime) (w : World) (l : Traffic) (w' : World) : Prop where
  transfer : l.1.2.transferEid.isSome = true
  signed : l.1.2.signed rt = true
  run : ∃ ep, execute rt ep l.1.1 l.1.2 w = .ok (w', l.2)

inductive Transferred (rt : Runtime) :
    World → (Clock × Instruction) × Effect × Outcome → World → Prop
  | send {ep : Endpoint} {clock : Clock} {accs : SendAccounts} {params : SendParams}
      {peer : PeerConfig} {w w' : World} {out : SendOutcome}
      (signed : rt.signable accs.signer = true)
      (run : Send.apply rt ep clock accs params w = .ok (w', out))
      (sent : Send.Sent rt clock accs params peer w w' out) :
      Transferred rt w ((clock, .send accs params),
        Send.effect clock accs params peer out w, .sent out) w'
  | lzReceive {ep : Endpoint} {clock : Clock} {metas : List LzAccount} {params : LzReceiveParams}
      {a : LzReceiveAccounts} {peer : PeerConfig} {w w' : World} {out : LzReceiveOutcome}
      (run : LzReceive.apply rt ep clock metas params w = .ok (w', out))
      (parsed : LzReceive.parse rt metas = .ok a)
      (received : LzReceive.Received rt clock a params peer w w' out) :
      Transferred rt w ((clock, .lzReceive metas params),
        LzReceive.effect clock a params peer out w, .received out) w'

def requestEid (r : Clock × Instruction) : Option U32 := r.2.transferEid

def World.peerOf (w : World) (eid : Option U32) : Option PeerConfig := eid.bind w.peers

def SameEffect (e e' : Effect × Outcome) : Prop := e'.1 = e.1 ∧ e.2.Same e'.2

section Transfers

variable {rt : Runtime} {sd : U8} {w v w' v' : World} {l : (Clock × Instruction) × Effect × Outcome}

theorem TransferStep.transferred {l : Traffic} (h : TransferStep rt w l w') :
    ∃ f, Transferred rt w (l.1, f, l.2) w' := by
  obtain ⟨htransfer, hsigned, ep, hrun⟩ := h
  obtain ⟨⟨clock, i⟩, o⟩ := l
  cases i with
  | send accs params =>
    simp only [execute, bind_eq_ok, pure_eq_ok, Prod.mk.injEq, Prod.exists] at hrun
    obtain ⟨_, out, hrun, rfl, rfl⟩ := hrun
    obtain ⟨peer, hsent⟩ := Send.apply_sent hrun
    exact ⟨_, .send hsigned hrun hsent⟩
  | lzReceive metas params =>
    simp only [execute, bind_eq_ok, pure_eq_ok, Prod.mk.injEq, Prod.exists] at hrun
    obtain ⟨_, out, hrun, rfl, rfl⟩ := hrun
    obtain ⟨a, peer, hparse, hreceived⟩ := LzReceive.apply_received hrun
    exact ⟨_, .lzReceive hrun hparse hreceived⟩
  | _ => cases htransfer

private theorem Transferred.applies (hwf : WellFormed rt sd w) (h : Transferred rt w l w') :
    l.2.1.Applies w w' ∧ requestEid l.1 = some l.2.1.eid := by
  cases h with
  | send signed run sent =>
    exact ⟨sent.effect_applies hwf signed, congrArg some Send.effect_eid.symm⟩
  | lzReceive run parsed received =>
    exact ⟨received.effect_applies hwf, congrArg some LzReceive.effect_eid.symm⟩

theorem Transferred.step (h : Transferred rt w l w') :
    Step rt w (.executed l.1.1 l.1.2 l.2.2) w' := by
  cases h with
  | @send ep clock accs params peer w w' out signed run sent =>
    have hrun : execute rt ep clock (.send accs params) w = .ok (w', .sent out) := by
      rw [execute, run]
      rfl
    refine .executed (fun k hk => ?_) hrun
    cases hk
    exact signed
  | @lzReceive ep clock metas params a peer w w' out run parsed received =>
    have hrun : execute rt ep clock (.lzReceive metas params) w = .ok (w', .received out) := by
      rw [execute, run]
      rfl
    exact .executed (fun k hk => by cases hk) hrun

theorem Transferred.decided {r : Clock × Instruction} {e e' : Effect × Outcome}
    (halike : w.Alike v) (hpeer : v.peerOf (requestEid r) = w.peerOf (requestEid r))
    (h : Transferred rt w (r, e) w') (h' : Transferred rt v (r, e') v') : SameEffect e e' := by
  cases h with
  | send signed run sent =>
    cases h' with
    | send signed' run' sent' =>
      obtain rfl := sent'.peer_unique (hpeer.trans sent.peer_eq)
      have hsame := Send.apply_alike halike hpeer run run'
      refine ⟨?_, hsame⟩
      change Send.effect _ _ _ _ _ v = Send.effect _ _ _ _ _ w
      rw [Send.effect_alike halike, Send.effect_same hsame]
  | lzReceive run parsed received =>
    cases h' with
    | lzReceive run' parsed' received' =>
      obtain rfl := Except.ok.inj (parsed.symm.trans parsed')
      obtain rfl :=
        Option.some.inj (received.peer_eq.symm.trans (hpeer.symm.trans received'.peer_eq))
      obtain rfl := LzReceive.apply_alike halike run run'
      exact ⟨LzReceive.effect_alike halike, rfl⟩

end Transfers

namespace World

variable {w v v' : World}

theorem Alike.refl (w : World) : w.Alike w := rfl

private theorem Alike.euclidean (h : w.Alike v) (h' : w.Alike v') : v.Alike v' := by
  rw [Alike, h', h]

theorem Alike.trans (h : w.Alike v) (h' : v.Alike v') : w.Alike v' := by
  rw [Alike, h', h]

private theorem Alike.eq_of (h : w.Alike v) (hpeers : v.peers = w.peers) (htvl : v.tvl = w.tvl)
    (hledger : v.ledger = w.ledger) : v = w := by
  have hstore : v.oftStore.tvlLd = w.oftStore.tvlLd := BitVec.eq_of_toNat_eq htvl
  rw [h, hpeers, hstore, hledger]

end World

namespace Effect

variable {w w' w₁ w₂ : World} {fs gs : List Effect} {k o : Pubkey}

/-- `w'` is `w` after the effects, one after the other. -/
abbrev Chain (w : World) (fs : List Effect) (w' : World) : Prop :=
  Run (fun w f w' => f.Applies w w') w fs w'

theorem Chain.alike (h : Chain w fs w') : w.Alike w' := by
  induction h with
  | nil w => exact .refl w
  | cons head _ ih => exact head.alike.trans ih

theorem Chain.counter (h : Chain w fs w') :
    Shift (fs.map Effect.out).sum (fs.map Effect.into).sum w.ledger.counter w'.ledger.counter :=
  run_shift (I := fun _ => True) (fun w => w.ledger.counter) Effect.out Effect.into
    (fun _ _ _ _ _ => trivial) (fun _ _ _ _ happlies => happlies.ledger.shift) h trivial

theorem Chain.tvl (h : Chain w fs w') :
    Shift (fs.map Effect.unlocked).sum (fs.map Effect.locked).sum w.tvl w'.tvl :=
  run_shift (I := fun _ => True) World.tvl Effect.unlocked Effect.locked
    (fun _ _ _ _ _ => trivial) (fun _ _ _ _ happlies => happlies.tvl) h trivial

theorem Chain.owned (h : Chain w fs w') (howner : w.ledger.ownerOf k = some o) :
    w'.ledger.ownerOf k = some o := by
  induction h with
  | nil w => exact howner
  | cons head _ ih =>
    refine ih ?_
    rw [head.ledger.ownerOf, howner, Option.some_or]

theorem Chain.opened {f : Effect} (h : Chain w fs w') (hf : f ∈ fs)
    (hopened : f.opened k = some o) :
    w'.ledger.ownerOf k = some o := by
  induction h with
  | nil w => cases hf
  | cons head tail ih =>
    rcases List.mem_cons.mp hf with rfl | hf
    · exact Chain.owned tail (head.ledger.opens k o hopened)
    · exact ih hf

private theorem Chain.unopened (h : Chain w fs w') (hnone : ∀ f ∈ fs, f.opened k = none) :
    w'.ledger.ownerOf k = w.ledger.ownerOf k := by
  induction h with
  | nil w => rfl
  | @cons w w₁ w₂ f fs head _ ih =>
    rw [ih fun g hg => hnone g (List.mem_cons_of_mem _ hg), head.ledger.ownerOf,
      hnone f List.mem_cons_self, Option.or_none]

private theorem Chain.ledger_eq (h : Chain w fs w₁) (h' : Chain w gs w₂) (hperm : fs.Perm gs) :
    w₂.ledger = w₁.ledger := by
  have halike : w₁.Alike w₂ := h.alike.euclidean h'.alike
  have hledger : w₁.ledger.Alike w₂.ledger := by
    rw [TokenLedger.Alike, halike]
  refine hledger.eq_of_counter ?_ ?_
  · have hcounter := h.counter
    rw [(hperm.map Effect.out).sum_eq, (hperm.map Effect.into).sum_eq] at hcounter
    exact h'.counter.unique hcounter
  · intro k
    by_cases hopened : ∃ f ∈ fs, (f.opened k).isSome = true
    · obtain ⟨f, hf, hsome⟩ := hopened
      obtain ⟨o, ho⟩ := Option.isSome_iff_exists.mp hsome
      rw [h.opened hf ho, h'.opened (hperm.mem_iff.mp hf) ho]
    · have hnone : ∀ f ∈ fs, f.opened k = none := by
        intro f hf
        rw [← Option.not_isSome_iff_eq_none]
        intro hsome
        exact hopened ⟨f, hf, hsome⟩
      rw [h.unopened hnone, h'.unopened fun g hg => hnone g (hperm.mem_iff.mpr hg)]

/-- The same effects in another order leave the same world, where they leave the same peers. -/
theorem Chain.permuted (h : Chain w fs w₁) (h' : Chain w gs w₂) (hperm : fs.Perm gs)
    (hpeers : w₂.peers = w₁.peers) : w₂ = w₁ := by
  refine (h.alike.euclidean h'.alike).eq_of hpeers ?_ (h.ledger_eq h' hperm)
  have htvl := h.tvl
  rw [(hperm.map Effect.unlocked).sum_eq, (hperm.map Effect.locked).sum_eq] at htvl
  exact h'.tvl.unique htvl

end Effect

section Schedules

variable {rt : Runtime} {sd : U8} {w w₁ w₂ : World}

private theorem requestEid_of_applies {r : Clock × Instruction} {f : Effect} (hf : f.Applies w w₁)
    (heid : requestEid r = some f.eid) : w₁.peerOf (requestEid r) = some f.peer := by
  rw [heid]
  change w₁.peers f.eid = some f.peer
  rw [hf.peers, Function.update_self]

/-- Transfers are decided by the account of their peer. -/
theorem transferred_keyed (rt : Runtime) (sd : U8) (w : World) :
    Keyed (fun v => WellFormed rt sd v ∧ w.Alike v) (Transferred rt) requestEid World.peerOf
      SameEffect where
  keeps h hstep := by
    obtain ⟨hwf, halike⟩ := h
    exact ⟨hwf.step hstep.step, halike.trans (hstep.applies hwf).1.alike⟩
  frame {v v' l k} h hstep hne := by
    obtain ⟨happlies, heid⟩ := hstep.applies h.1
    cases k with
    | none => rfl
    | some eid =>
      refine happlies.peers_of_ne ?_
      rintro rfl
      exact hne heid.symm
  decided {v v' u u' r e e'} hv hu hreg hstep hstep' := by
    have hsame := hstep.decided (hv.2.euclidean hu.2) hreg.symm hstep'
    obtain ⟨happlies, heid⟩ := hstep.applies hv.1
    obtain ⟨happlies', heid'⟩ := hstep'.applies hu.1
    refine ⟨hsame, ?_⟩
    rw [requestEid_of_applies happlies heid, requestEid_of_applies happlies' heid', hsame.1]

private theorem traffic_transferred {ls : List Traffic} (h : Run (TransferStep rt) w ls w₁) :
    ∃ zs : List ((Clock × Instruction) × Effect × Outcome),
      (zs.map fun z => (z.1, z.2.2)) = ls ∧ Run (Transferred rt) w zs w₁ := by
  refine h.annotate (fun z : (Clock × Instruction) × Effect × Outcome => (z.1, z.2.2)) ?_
  intro v l v' hstep
  obtain ⟨f, hf⟩ := hstep.transferred
  exact ⟨(l.1, f, l.2), rfl, hf⟩

private theorem transferred_chain {zs : List ((Clock × Instruction) × Effect × Outcome)}
    (h : Run (Transferred rt) w zs w₁) (hwf : WellFormed rt sd w) :
    Effect.Chain w (zs.map fun z => z.2.1) w₁ :=
  h.relabel (I := WellFormed rt sd) (fun z => z.2.1) (fun _ _ _ hwf hstep => hwf.step hstep.step)
    (fun _ _ _ hwf hstep => (hstep.applies hwf).1) hwf

private theorem transferred_agree {xs ys : List ((Clock × Instruction) × Effect × Outcome)}
    (hx : Run (Transferred rt) w xs w₁) (hy : Run (Transferred rt) w ys w₂)
    (hwf : WellFormed rt sd w)
    (hown : ∀ k, requests requestEid k xs = requests requestEid k ys) :
    w₂ = w₁ ∧ ∀ k, List.Forall₂ SameEffect (effects requestEid k xs) (effects requestEid k ys) := by
  have hagree (k : Option U32) := (transferred_keyed rt sd w).agree hx hy ⟨hwf, .refl w⟩
    ⟨hwf, .refl w⟩ rfl (hown k)
  refine ⟨?_, fun k => (hagree k).1⟩
  have hsame (k : Option U32) : effects requestEid k (xs.map fun z => (z.1, z.2.1)) =
      effects requestEid k (ys.map fun z => (z.1, z.2.1)) := by
    rw [effects_map requestEid k Prod.fst, effects_map requestEid k Prod.fst,
      ← List.forall₂_eq_eq_eq, List.forall₂_map_left_iff, List.forall₂_map_right_iff]
    exact (hagree k).1.imp fun e e' h => h.1.symm
  have hperm := perm_of_effects requestEid hsame
  rw [List.map_map, List.map_map] at hperm
  refine (transferred_chain hx hwf).permuted (transferred_chain hy hwf) hperm ?_
  funext eid
  exact (hagree (some eid)).2.symm

end Schedules

/-- Two schedules of transfers, sends and deliveries mixed and each at a time of its own, in
which every peer's requests come in the same order. If both go through from a reachable store,
then they leave the same store, and every peer was sent and paid the same. -/
theorem schedules_agree {rt : Runtime} {sd : U8} {events : List Event} {w w₁ w₂ : World}
    (h : Reaches rt sd events w) {xs ys : List Traffic} (hx : Run (TransferStep rt) w xs w₁)
    (hy : Run (TransferStep rt) w ys w₂)
    (hown : ∀ eid, requests requestEid eid xs = requests requestEid eid ys) :
    w₂ = w₁ ∧
      ∀ eid, List.Forall₂ Outcome.Same (effects requestEid eid xs) (effects requestEid eid ys) := by
  obtain ⟨xs, rfl, hrun⟩ := traffic_transferred hx
  obtain ⟨ys, rfl, hrun'⟩ := traffic_transferred hy
  simp only [requests_map requestEid _ Prod.snd] at hown
  obtain ⟨hworld, hsame⟩ := transferred_agree hrun hrun' h.wellFormed hown
  refine ⟨hworld, fun k => ?_⟩
  rw [effects_map requestEid k Prod.snd, effects_map requestEid k Prod.snd,
    List.forall₂_map_left_iff, List.forall₂_map_right_iff]
  exact (hsame k).imp fun e e' h => h.2

namespace Reference

def batch (rt : Runtime) (ep : Endpoint) :
    World → List (Clock × Instruction) → Result (World × List Traffic)
  | w, [] => return (w, [])
  | w, r :: rs => do
    let (w', o) ← execute rt ep r.1 r.2 w
    let (w'', ls) ← batch rt ep w' rs
    return (w'', (r, o) :: ls)

private theorem batch_run {rt : Runtime} {ep : Endpoint} (rs : List (Clock × Instruction))
    {w : World} {p : World × List Traffic} (h : batch rt ep w rs = .ok p)
    (hrs : ∀ r ∈ rs, r.2.transferEid.isSome = true ∧ r.2.signed rt = true) :
    Run (TransferStep rt) w p.2 p.1 ∧ p.2.map Prod.fst = rs := by
  induction rs generalizing w p with
  | nil =>
    cases h
    exact ⟨.nil _, rfl⟩
  | cons r rs ih =>
    simp only [batch, bind_eq_ok, pure_eq_ok, Prod.exists] at h
    obtain ⟨w₁, o, hrun, w₂, ls, hrest, rfl⟩ := h
    obtain ⟨tail, hmap⟩ := ih hrest fun r hr => hrs r (List.mem_cons_of_mem _ hr)
    obtain ⟨htransfer, hsigned⟩ := hrs r List.mem_cons_self
    exact ⟨.cons ⟨htransfer, hsigned, ep, hrun⟩ tail, by rw [List.map_cons, hmap]⟩

def firstToPeer : Clock × Instruction := (clockAt 30, sendFirst)
def secondToPeer : Clock × Instruction := send (clockAt 40) 7 (Bytes32.fill 33) 500000 none

def delivery : Clock × Instruction := (clockAt 30, receiveSecond)

private theorem deliveryFirst_ok :
    (batch runtime endpoint twoPeersRun.1 [delivery, firstToPeer, secondToPeer]).isOk = true := by
  decide

private theorem deliveryLast_ok :
    (batch runtime endpoint twoPeersRun.1 [firstToPeer, secondToPeer, delivery]).isOk = true := by
  decide

theorem schedules_agree_sample :
    (value _ deliveryLast_ok).1 = (value _ deliveryFirst_ok).1 ∧
      (value _ deliveryLast_ok).1.tvl = 2985000 := by
  have hreach : Reaches runtime 6 twoPeersRun.2 twoPeersRun.1 :=
    adapter.replay_reaches adapter_init _ (by decide)
  obtain ⟨hearly, hrequests⟩ := batch_run _ (eq_ok_value _ deliveryFirst_ok) (by decide)
  obtain ⟨hlate, hrequests'⟩ := batch_run _ (eq_ok_value _ deliveryLast_ok) (by decide)
  refine ⟨(schedules_agree hreach hearly hlate fun eid => ?_).1, by decide⟩
  rw [requests_eq_filter _ _ hrequests, requests_eq_filter _ _ hrequests']
  have hsecond : requestEid secondToPeer = requestEid firstToPeer := rfl
  have hdelivery : requestEid delivery ≠ requestEid firstToPeer := by decide
  by_cases hfirst : requestEid firstToPeer = eid
  · subst hfirst
    simp [hsecond, hdelivery]
  · simp [List.filter_cons, hsecond, hfirst]

end Reference

end FdfiToken
