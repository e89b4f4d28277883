import FdfiToken.Lib.Authority
import FdfiToken.Oft.Authorisation

/-!
# Who may come to control a store

The admin hands the store over and appoints who may pause it. Traced over whole runs: whoever
configures a store, takes fees or pauses was put in place by a chain of such instructions, each
signed by the one before.
-/

namespace FdfiToken

open Word Fallible Runs Authority

def Event.handsOver (e : Event) (k : Pubkey) : Prop :=
  match e with
  | .executed _ (.setOftConfig _ (.admin admin)) _ => admin = k
  | _ => False

/-- The admin hands the store over or lets somebody pause or unpause it. -/
def Event.appoints (e : Event) (k : Pubkey) : Prop :=
  match e with
  | .executed _ (.setOftConfig _ (.admin admin)) _ => admin = k
  | .executed _ (.setOftConfig _ (.pauser pauser)) _ => pauser = some k
  | .executed _ (.setOftConfig _ (.unpauser unpauser)) _ => unpauser = some k
  | _ => False

namespace World

def surplus (w : World) : ℤ := w.escrow - w.tvl

def IsAdmin (w : World) (k : Pubkey) : Prop := w.oftStore.admin = k

def MayPause (w : World) (k : Pubkey) : Prop :=
  w.oftStore.admin = k ∨ w.oftStore.pauser = some k ∨ w.oftStore.unpauser = some k

structure Governed (w w' : World) : Prop where
  configuration : w'.configuration = w.configuration
  surplus : w.surplus ≤ w'.surplus

structure Running (w w' : World) : Prop where
  paused : w'.oftStore.paused = w.oftStore.paused
  pauser : w'.oftStore.pauser = w.oftStore.pauser
  unpauser : w'.oftStore.unpauser = w.oftStore.unpauser

theorem Governed.refl (w : World) : w.Governed w := ⟨rfl, le_rfl⟩

theorem Governed.trans (w w' w'' : World) (h : w.Governed w') (h' : w'.Governed w'') :
    w.Governed w'' :=
  ⟨h'.configuration.trans h.configuration, h.surplus.trans h'.surplus⟩

theorem Running.refl (w : World) : w.Running w := ⟨rfl, rfl, rfl⟩

theorem Running.trans (w w' w'' : World) (h : w.Running w') (h' : w'.Running w'') :
    w.Running w'' :=
  ⟨h'.paused.trans h.paused, h'.pauser.trans h.pauser, h'.unpauser.trans h.unpauser⟩

end World

section Steps

variable {rt : Runtime} {sd : U8} {w w' : World} {e : Event} {k : Pubkey}

private theorem LzReceive.Received.native_escrow {clock : Clock} (hwf : WellFormed rt sd w)
    (htype : w.oftStore.oftType = .native) {a : LzReceiveAccounts} {params : LzReceiveParams}
    {peer : PeerConfig} {out : LzReceiveOutcome}
    (h : LzReceive.Received rt clock a params peer w w' out) : w'.escrow = w.escrow := by
  obtain ⟨opened, received, hopened, hrelease, -, -⟩ := h.released
  have hdest : w.oftStore.tokenEscrow ≠ a.tokenDest := by
    rw [h.tokenDest]
    exact hwf.escrow_ne_associated _ _ _
  have hframe := (release_native (w := { w with ledger := opened }) (OFTType.ne_adapter htype)
    hrelease).2.1.frame
  rw [World.escrow, h.sameStore.tokenEscrow, hframe.balance (by simpa using hdest)]
  exact (TokenLedger.initIfNeeded_spec hopened).2.2.2.1 _

/-- Only the admin takes from the surplus. -/
theorem Step.surplus (hwf : WellFormed rt sd w) (h : Step rt w e w') :
    w.surplus ≤ w'.surplus ∨ e.signer = some w.oftStore.admin := by
  have hwithdrawn (hnone : ∀ clock accs feeLd o, e ≠ .executed clock (.withdrawFee accs feeLd) o)
      (escrow : Pubkey) : e.withdrawn escrow = 0 := by
    unfold Event.withdrawn
    split
    · exact absurd rfl (hnone _ _ _ _)
    · rfl
  by_cases hfee : ∃ clock accs feeLd o, e = .executed clock (.withdrawFee accs feeLd) o
  · obtain ⟨clock, accs, feeLd, o, rfl⟩ := hfee
    cases h with
    | executed signed hrun =>
      cases execute_executed hrun with
      | withdrawFee run => exact .inr (congrArg some (WithdrawFee.apply_eq_ok run).1.symm)
  · left
    have hzero := hwithdrawn fun clock accs feeLd o heq => hfee ⟨clock, accs, feeLd, o, heq⟩
    unfold World.surplus
    cases htype : w.oftStore.oftType with
    | adapter =>
      have hbooks := (h.books hwf htype).1
      rw [hzero] at hbooks
      omega
    | native =>
      have htvl : w'.tvl = w.tvl := by rw [World.tvl, h.native_tvl htype, World.tvl]
      have hescrow : w.escrow ≤ w'.escrow := by
        by_contra hlt
        rcases h.value hwf (.inl (Nat.not_le.mp hlt)) with hpaid | hpaid
        · obtain ⟨clock, metas, params, out, rfl, -⟩ := hpaid
          obtain ⟨a, peer, hreceived⟩ := h.received
          exact hlt (hreceived.native_escrow hwf htype).ge
        · obtain ⟨clock, accs, feeLd, rfl, -⟩ := hpaid
          exact hfee ⟨_, _, _, _, rfl⟩
      omega

private theorem SetOFTConfig.apply_roles {ep : Endpoint} {accs : AdminAccounts}
    {params : SetOFTConfigParams} (run : SetOFTConfig.apply rt ep accs params w = .ok w')
    (clock : Clock) (o : Outcome) :
    (w'.oftStore.admin = w.oftStore.admin ∧ w'.oftStore.pauser = w.oftStore.pauser ∧
        w'.oftStore.unpauser = w.oftStore.unpauser) ∨
      (Event.executed clock (.setOftConfig accs params) o).signer = some w.oftStore.admin ∧
        (∀ k, w'.IsAdmin k →
          w.IsAdmin k ∨ (Event.executed clock (.setOftConfig accs params) o).handsOver k) ∧
        ∀ k, w'.MayPause k →
          w.MayPause k ∨ (Event.executed clock (.setOftConfig accs params) o).appoints k := by
  have hadmin := SetOFTConfig.apply_admin run
  cases params with
  | admin admin =>
    simp only [SetOFTConfig.apply, bind_eq_ok, pure_eq_ok] at run
    obtain ⟨-, -, rfl⟩ := run
    refine .inr ⟨congrArg some hadmin.symm, fun k hk => .inr hk, fun k hk => ?_⟩
    rcases hk with hk | hk
    · exact .inr hk
    · exact .inl (.inr hk)
  | pauser pauser =>
    simp only [SetOFTConfig.apply, bind_eq_ok, pure_eq_ok] at run
    obtain ⟨-, -, rfl⟩ := run
    refine .inr ⟨congrArg some hadmin.symm, fun k hk => .inl hk, fun k hk => ?_⟩
    rcases hk with hk | hk | hk
    · exact .inl (.inl hk)
    · exact .inr hk
    · exact .inl (.inr (.inr hk))
  | unpauser unpauser =>
    simp only [SetOFTConfig.apply, bind_eq_ok, pure_eq_ok] at run
    obtain ⟨-, -, rfl⟩ := run
    refine .inr ⟨congrArg some hadmin.symm, fun k hk => .inl hk, fun k hk => ?_⟩
    rcases hk with hk | hk | hk
    · exact .inl (.inl hk)
    · exact .inl (.inr (.inl hk))
    · exact .inr hk
  | delegate delegate =>
    simp only [SetOFTConfig.apply, bind_eq_ok, cpi_eq_ok, exists_const, pure_eq_ok] at run
    obtain ⟨_, -, -, rfl⟩ := run
    exact .inl ⟨rfl, rfl, rfl⟩
  | defaultFee feeBps =>
    simp only [SetOFTConfig.apply, bind_eq_ok, pure_eq_ok] at run
    obtain ⟨-, -, -, -, rfl⟩ := run
    exact .inl ⟨rfl, rfl, rfl⟩
  | paused paused =>
    simp only [SetOFTConfig.apply, bind_eq_ok, pure_eq_ok] at run
    obtain ⟨-, -, rfl⟩ := run
    exact .inl ⟨rfl, rfl, rfl⟩

private theorem Step.roles (h : Step rt w e w') :
    (w'.oftStore.admin = w.oftStore.admin ∧ w'.oftStore.pauser = w.oftStore.pauser ∧
        w'.oftStore.unpauser = w.oftStore.unpauser) ∨
      e.signer = some w.oftStore.admin ∧
        (∀ k, w'.IsAdmin k → w.IsAdmin k ∨ e.handsOver k) ∧
        ∀ k, w'.MayPause k → w.MayPause k ∨ e.appoints k := by
  have hsame (hconf : w'.configuration = w.configuration) :
      w'.oftStore.admin = w.oftStore.admin ∧ w'.oftStore.pauser = w.oftStore.pauser ∧
        w'.oftStore.unpauser = w.oftStore.unpauser :=
    ⟨congrArg Configuration.admin hconf, congrArg Configuration.pauser hconf,
      congrArg Configuration.unpauser hconf⟩
  cases h with
  | failed _ => exact .inl ⟨rfl, rfl, rfl⟩
  | external _ => exact .inl ⟨rfl, rfl, rfl⟩
  | executed _ hrun =>
    cases execute_executed hrun with
    | setOftConfig _ run => exact SetOFTConfig.apply_roles run _ _
    | setPeerConfig run =>
      obtain ⟨-, peer, -, rfl⟩ := SetPeerConfig.apply_eq_ok run
      exact .inl ⟨rfl, rfl, rfl⟩
    | setPause run =>
      rw [(SetPause.apply_signer run).2]
      exact .inl ⟨rfl, rfl, rfl⟩
    | withdrawFee run =>
      rw [(WithdrawFee.apply_eq_ok run).2.2.1]
      exact .inl ⟨rfl, rfl, rfl⟩
    | send sent => exact .inl (hsame sent.configuration)
    | lzReceive _ received => exact .inl (hsame received.configuration)

end Steps

section Runs

variable {rt : Runtime} {sd : U8} {events later : List Event} {w w' : World}

theorem governed (rt : Runtime) (sd : U8) :
    Guarded (WellFormed rt sd) (Step rt) Event.signer Event.handsOver World.IsAdmin
      World.Governed where
  keeps hwf h := hwf.step h
  granted {w w' e k} hwf h hk := by
    rcases h.roles with ⟨hadmin, -⟩ | ⟨hsigner, hadmin, -⟩
    · exact .inl (hadmin.symm.trans hk)
    · rcases hadmin k hk with hk | hk
      · exact .inl hk
      · exact .inr ⟨_, hsigner, rfl, hk⟩
  guarded {w w' e} hwf h := by
    rcases h.configuration with hconf | hsigner
    · rcases h.surplus hwf with hsurplus | hsigner
      · exact .inl ⟨hconf, hsurplus⟩
      · exact .inr ⟨_, hsigner, rfl⟩
    · exact .inr ⟨_, hsigner, rfl⟩

private theorem isValidSigner_mayPause {k : Pubkey} {paused : Bool}
    (h : isValidSigner k w.oftStore paused = true) : w.MayPause k := by
  unfold isValidSigner at h
  split at h
  · exact .inr (.inl (by simpa using h))
  · exact .inr (.inr (by simpa using h))

private theorem kept_running (rt : Runtime) (sd : U8) :
    Guarded (WellFormed rt sd) (Step rt) Event.signer Event.appoints World.MayPause
      World.Running where
  keeps hwf h := hwf.step h
  granted {w w' e k} hwf h hk := by
    rcases h.roles with ⟨hadmin, hpauser, hunpauser⟩ | ⟨hsigner, -, hpause⟩
    · left
      rw [World.MayPause, hadmin, hpauser, hunpauser] at hk
      exact hk
    · rcases hpause k hk with hk | hk
      · exact .inl hk
      · exact .inr ⟨_, hsigner, .inl rfl, hk⟩
  guarded {w w' e} hwf h := by
    rcases h.roles with ⟨-, hpauser, hunpauser⟩ | ⟨hsigner, -⟩
    · rcases h.paused with hsame | ⟨k, hsigner, hk⟩
      · exact .inl ⟨hsame, hpauser, hunpauser⟩
      · refine .inr ⟨k, hsigner, ?_⟩
        rcases hk with hk | hk
        · exact .inl hk.symm
        · exact isValidSigner_mayPause hk
    · exact .inr ⟨_, hsigner, .inl rfl⟩

/-- Over any run from a reachable store, in which anybody signs anything: the admin in the end
was handed the store, admin after admin, by the admin at the start, and so was whoever configures
anything or takes fees; whoever pauses or unpauses was appointed through such a chain. Unless the
first admin signs, nothing is ever configured and no fee taken; unless one of those who may pause
signs, nothing is ever paused or unpaused. -/
theorem control_delegated (h : Reaches rt sd events w) (hrun : Run (Step rt) w later w') :
    Delegated Event.signer Event.handsOver later w.oftStore.admin w'.oftStore.admin ∧
      (∀ e w'', Step rt w' e w'' → ¬ w'.Governed w'' → ∃ k, e.signer = some k ∧
        Delegated Event.signer Event.handsOver later w.oftStore.admin k) ∧
      (∀ e w'', Step rt w' e w'' → ¬ w'.Running w'' → ∃ first k, e.signer = some k ∧
        w.MayPause first ∧ Delegated Event.signer Event.appoints later first k) ∧
      ((∀ e ∈ later, e.signer ≠ some w.oftStore.admin) →
        w.Governed w' ∧ w'.oftStore.admin = w.oftStore.admin) ∧
      ((∀ e ∈ later, ∀ k, e.signer = some k → ¬ w.MayPause k) → w.Running w') := by
  have hwf := h.wellFormed
  refine ⟨?_, ?_, ?_, ?_, ?_⟩
  · obtain ⟨first, hfirst, hchain⟩ := (governed rt sd).traced hrun hwf rfl
    rwa [← hfirst] at hchain
  · intro e w'' hstep hchange
    obtain ⟨first, k, hsigner, hfirst, hchain⟩ := (governed rt sd).changed hrun hwf hstep hchange
    rw [← hfirst] at hchain
    exact ⟨k, hsigner, hchain⟩
  · intro e w'' hstep hchange
    obtain ⟨first, k, hsigner, hfirst, hchain⟩ :=
      (kept_running rt sd).changed hrun hwf hstep hchange
    exact ⟨first, k, hsigner, hfirst, hchain⟩
  · intro hout
    obtain ⟨hgoverned, -⟩ := (governed rt sd).outsiders World.Governed.refl
      World.Governed.trans hrun hwf fun e he k hsigner hk => hout e he (hk.symm ▸ hsigner)
    exact ⟨hgoverned, congrArg Configuration.admin hgoverned.configuration⟩
  · intro hout
    exact ((kept_running rt sd).outsiders World.Running.refl World.Running.trans hrun hwf hout).1

end Runs

namespace Reference

def handover : World × List Event :=
  replay runtime endpoint adapterStore [
    (clockAt 10, .setOftConfig ⟨admin, []⟩ (.admin user)),
    (clockAt 11, .setOftConfig ⟨user, []⟩ (.defaultFee 100))]

def intruders : World × List Event :=
  replay runtime endpoint handover.1 [
    (clockAt 12, .setPause admin true),
    (clockAt 13, .setOftConfig ⟨admin, []⟩ (.paused true))]

theorem control_delegated_sample :
    handover.1.oftStore.defaultFeeBps = 100 ∧
      Delegated Event.signer Event.handsOver handover.2 admin user ∧
      intruders.1.oftStore.paused = false ∧ handover.1.Governed intruders.1 ∧
      handover.1.Running intruders.1 := by
  have hstart : Reaches runtime 6 [] adapterStore :=
    ⟨_, adapter.store_genesis adapter_init, .nil _⟩
  have hrun : Run (Step runtime) adapterStore handover.2 handover.1 :=
    replay_run _ adapterStore (by decide)
  have hreach : Reaches runtime 6 handover.2 handover.1 :=
    adapter.replay_reaches adapter_init _ (by decide)
  have hrest : Run (Step runtime) handover.1 intruders.2 intruders.1 :=
    replay_run _ handover.1 (by decide)
  have houtside : ∀ e ∈ intruders.2, e.signer = none := by decide
  have hcontrol := control_delegated hreach hrest
  refine ⟨by decide, (control_delegated hstart hrun).1, by decide, ?_, ?_⟩
  · refine (hcontrol.2.2.2.1 fun e he hsigner => ?_).1
    rw [houtside e he] at hsigner
    cases hsigner
  · refine hcontrol.2.2.2.2 fun e he k hsigner => ?_
    rw [houtside e he] at hsigner
    cases hsigner

end Reference

end FdfiToken
