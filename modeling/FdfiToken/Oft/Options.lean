import FdfiToken.Oft.Authorisation
import FdfiToken.Oft.Quotes

/-!
# Enforced options

Options are chosen by whether there is a compose message, the receiver tells a composed message
by its length. The two agree, also for an empty compose message, so what is enforced for a kind
of message precedes the caller's options on every message of that kind.
-/

namespace FdfiToken

open Word Fallible Runs

/-- How `oapp::options::combine_options` puts options together. -/
structure Runtime.CombinesOptions (rt : Runtime) : Prop where
  noEnforced : ∀ extra, rt.combineOptions [] extra = some extra
  noExtra : ∀ enforced, rt.combineOptions enforced [] = some enforced
  both : ∀ enforced extra combined, enforced ≠ [] → extra ≠ [] →
    rt.combineOptions enforced extra = some combined →
    rt.assertType3 extra = true ∧ combined = enforced ++ extra.drop 2

private theorem Runtime.CombinesOptions.enforced_prefix {rt : Runtime} (h : rt.CombinesOptions)
    {enforced extra combined : Bytes}
    (hcombined : rt.combineOptions enforced extra = some combined) :
    enforced <+: combined := by
  by_cases henforced : enforced = []
  · rw [henforced]
    exact List.nil_prefix
  · by_cases hextra : extra = []
    · rw [hextra, h.noExtra, Option.some.injEq] at hcombined
      rw [hcombined]
    · obtain ⟨-, heq⟩ := h.both _ _ _ henforced hextra hcombined
      rw [heq]
      exact List.prefix_append _ _

def EnforcedOptions.required (o : EnforcedOptions) (message : Bytes) : Bytes :=
  match MsgCodec.composeMsg message with
  | some _ => o.sendAndCall
  | none => o.send

/-- The sender's choice of options is the receiver's reading of the message. -/
theorem EnforcedOptions.required_encode (o : EnforcedOptions) (toAddress : Bytes32) (amount : U64)
    (sender : Pubkey) (composeMsg : Option Bytes) :
    o.required (MsgCodec.encode toAddress amount sender composeMsg) =
      o.getEnforcedOptions composeMsg := by
  rw [required, MsgCodec.composeMsg_encode]
  cases composeMsg <;> rfl

private theorem EnforcedOptions.required_prefix {rt : Runtime} (h : rt.CombinesOptions)
    {o : EnforcedOptions} {composeMsg : Option Bytes} {extra combined : Bytes}
    (hcombined : o.combineOptions rt composeMsg extra = .ok combined) (toAddress : Bytes32)
    (amount : U64) (sender : Pubkey) :
    o.required (MsgCodec.encode toAddress amount sender composeMsg) <+: combined := by
  rw [required_encode]
  exact h.enforced_prefix (orError_eq_ok.mp hcombined)

/-- The options enforced for `eid`, none as long as none were set. -/
def World.enforcedOptions (w : World) (eid : U32) : EnforcedOptions :=
  ((w.peers eid).map (·.enforcedOptions)).getD EnforcedOptions.default

/-- The options an event sets for `eid`. -/
def Event.enforcedOptions (eid : U32) : Event → Option EnforcedOptions
  | .executed _ (.setPeerConfig _ params) _ =>
    match params.config with
    | .enforcedOptions send sendAndCall =>
      if params.remoteEid = eid then some ⟨send, sendAndCall⟩ else none
    | _ => none
  | _ => none

/-- The options last set for `eid`. -/
def lastEnforcedOptions (eid : U32) (events : List Event) : EnforcedOptions :=
  ((events.filterMap (Event.enforcedOptions eid)).getLast?).getD EnforcedOptions.default

section Steps

variable {rt : Runtime} {w w' : World} {e : Event}

private theorem World.enforcedOptions_of_configuration (h : w'.configuration = w.configuration)
    (eid : U32) : w'.enforcedOptions eid = w.enforcedOptions eid := by
  have hpeers := congrArg (fun c : Configuration =>
    ((c.peers eid).map (·.enforcedOptions)).getD EnforcedOptions.default) h
  simp only [configuration, Option.map_map] at hpeers
  exact hpeers

theorem Step.enforcedOptions (h : Step rt w e w') (eid : U32) :
    w'.enforcedOptions eid = (e.enforcedOptions eid).getD (w.enforcedOptions eid) := by
  cases h with
  | failed _ => rfl
  | external _ => rfl
  | executed _ hrun =>
    cases execute_executed hrun with
    | setOftConfig ep run =>
      rw [(SetOFTConfig.reconfigured run).eq]
      rfl
    | setPause run =>
      rw [(SetPause.reconfigured run).eq]
      rfl
    | withdrawFee run =>
      rw [(WithdrawFee.apply_eq_ok run).2.2.1]
      rfl
    | send sent => exact World.enforcedOptions_of_configuration sent.configuration eid
    | lzReceive _ received =>
      exact World.enforcedOptions_of_configuration received.configuration eid
    | @setPeerConfig admin params run =>
      obtain ⟨-, peer, hconf, rfl⟩ := SetPeerConfig.apply_eq_ok run
      obtain ⟨hset, -⟩ := PeerConfig.configure_eq_ok hconf
      obtain ⟨remoteEid, config⟩ := params
      have hold : ((w.peers remoteEid).getD PeerConfig.default).enforcedOptions =
          w.enforcedOptions remoteEid := by
        rw [World.enforcedOptions]
        cases w.peers remoteEid <;> rfl
      by_cases heid : remoteEid = eid
      · subst heid
        rw [World.enforcedOptions, World.setPeer_peers, Function.update_self, hset]
        cases config with
        | enforcedOptions send sendAndCall =>
          simp [PeerConfigParam.set, Event.enforcedOptions]
        | _ => exact hold
      · rw [World.enforcedOptions, World.setPeer_peers, Function.update_of_ne (Ne.symm heid)]
        cases config with
        | enforcedOptions send sendAndCall =>
          simp [Event.enforcedOptions, heid, World.enforcedOptions]
        | _ => rfl

end Steps

section Reachable

variable {rt : Runtime} {sd : U8} {events : List Event} {w : World}

theorem Reaches.enforcedOptions (h : Reaches rt sd events w) {eid : U32} {peer : PeerConfig}
    (hpeer : w.peers eid = some peer) : peer.enforcedOptions = lastEnforcedOptions eid events := by
  obtain ⟨w₀, hgen, hrun⟩ := h
  have hlast := hrun.last_written (μ := fun w : World => w.enforcedOptions eid)
    fun _ _ _ hstep => hstep.enforcedOptions eid
  rw [World.enforcedOptions, World.enforcedOptions, hpeer, hgen.fresh.2.2 eid] at hlast
  exact hlast

/-- On every message that a store sends or has quoted, the options begin with those last set for
the kind of message its receiver takes it for. -/
theorem options_enforced (hoptions : rt.CombinesOptions) (h : Reaches rt sd events w) (eid : U32) :
    (∀ ep clock accs params w' out, params.dstEid = eid →
      Send.apply rt ep clock accs params w = .ok (w', out) →
      (lastEnforcedOptions eid events).required out.endpointCall.message <+:
        out.endpointCall.options) ∧
    ∀ ep clock remaining params fee, params.dstEid = eid →
      QuoteSend.apply rt ep clock remaining params w = .ok fee →
      ∃ quote, QuoteSend.request rt clock params w = .ok quote ∧
        ep.quote quote remaining = some fee ∧
        (lastEnforcedOptions eid events).required quote.message <+: quote.options := by
  constructor
  · rintro ep clock accs params w' out rfl hsend
    obtain ⟨peer, hsent⟩ := Send.apply_sent hsend
    obtain ⟨amountSd, -, hmessage⟩ := hsent.message
    rw [hmessage, ← h.enforcedOptions hsent.peer_eq]
    exact EnforcedOptions.required_prefix hoptions hsent.options _ _ _
  · rintro ep clock remaining params fee rfl hrun
    obtain ⟨quote, hquote, hfee⟩ := QuoteSend.apply_eq_ok.mp hrun
    refine ⟨quote, hquote, hfee, ?_⟩
    simp only [QuoteSend.request, QuoteSend.quoteParams, bind_eq_ok, Prod.exists, pure_eq_ok,
      World.peerAccount_eq_ok] at hquote
    obtain ⟨_, -, peer, ⟨hpeer, -⟩, _, -, _, _, _, -, options, hcombined, rfl⟩ := hquote
    rw [← h.enforcedOptions hpeer]
    exact EnforcedOptions.required_prefix hoptions hcombined _ _ _

end Reachable

namespace Reference

private theorem runtime_combinesOptions : runtime.CombinesOptions where
  noEnforced _ := rfl
  noExtra enforced := by
    change combineOptions enforced [] = some enforced
    unfold combineOptions
    split
    · rename_i hnil
      rw [hnil]
    · rfl
  both enforced extra combined henforced hextra h := by
    change combineOptions enforced extra = some combined at h
    rw [combineOptions, if_neg henforced, if_neg hextra] at h
    split at h
    · rename_i htype
      exact ⟨htype, (Option.some.inj h).symm⟩
    · cases h

def enforcingRun : World × List Event :=
  replay runtime endpoint adapterStore [
    setPeer (clockAt 10) 7 (.peerAddress (Bytes32.fill 77)),
    setPeer (clockAt 11) 7 (.enforcedOptions [0, 3, 1] [0, 3, 1, 2])]

def sendEmptyCompose : Result (World × SendOutcome) :=
  Send.apply runtime endpoint (clockAt 20) ⟨user, userTokens, [admin, storeKey]⟩
    ⟨7, Bytes32.fill 33, 2000000, 0, [0, 3, 9], some [], 5000, 0⟩ enforcingRun.1

private theorem sendEmptyCompose_ok : sendEmptyCompose.isOk = true := by decide

theorem options_enforced_sample :
    (value sendEmptyCompose sendEmptyCompose_ok).2.endpointCall.options = [0, 3, 1, 2, 9] ∧
      (lastEnforcedOptions 7 enforcingRun.2).required
          (value sendEmptyCompose sendEmptyCompose_ok).2.endpointCall.message <+:
        (value sendEmptyCompose sendEmptyCompose_ok).2.endpointCall.options := by
  have hreach : Reaches runtime 6 enforcingRun.2 enforcingRun.1 :=
    adapter.replay_reaches adapter_init _ (by decide)
  exact ⟨by decide, (options_enforced runtime_combinesOptions hreach 7).1 _ _ _ _ _ _ rfl
    (eq_ok_value sendEmptyCompose sendEmptyCompose_ok)⟩

end Reference

end FdfiToken
