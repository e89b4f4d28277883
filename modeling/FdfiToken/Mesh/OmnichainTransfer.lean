import FdfiToken.Mesh.OmnichainBacking

/-!
# One transfer

A debit on an EVM chain and the receive of its message on Solana, the other way round, and between
two EVM chains. What leaves the sender's account and what reaches the recipient's are the same
shared units, and the recipient is the one that was named.
-/

namespace FdfiToken

open Word Fallible Runs LockIssue Shifts

namespace Evm

section Accounts

variable {oz : OpenZeppelin} {self : { a : Address // a ≠ 0 }} {msg : Msg}
  {src dst : Address} {amountLD minAmountLD : U256} {eid : U32}

theorem ERC20.Updated.accounts {l l' : ERC20} {value : U256} (h : Updated ⟨src, dst, value⟩ l l')
    (hne : src ≠ dst) :
    (src ≠ 0 → l'.holdings src + value.toNat = l.holdings src) ∧
      (dst ≠ 0 → l'.holdings dst = l.holdings dst + value.toNat) := by
  constructor
  · intro hsrc
    have hbooks := h.holdings.apply src
    unfold Shift at hbooks
    rw [side_self value hsrc, side_of_ne value hne] at hbooks
    exact hbooks
  · intro hdst
    have hbooks := h.holdings.apply dst
    unfold Shift at hbooks
    rw [side_self value hdst, side_of_ne value (Ne.symm hne)] at hbooks
    exact hbooks

private theorem ERC20.Updated.to_self {l l' : ERC20} {value : U256}
    (h : Updated ⟨src, src, value⟩ l l') :
    l'.holdings = l.holdings :=
  add_right_cancel h.holdings

/-- A debit sends whole shared units, no fewer than asked for, out of the sender's account. -/
structure Sends (amountLD minAmountLD received : U256) (before after : ℕ) : Prop where
  whole : received = OFTCore.removeDust amountLD
  slippage : minAmountLD.toNat ≤ received.toNat
  debited : after + received.toNat = before

private theorem OFTAdapter.debit_sends {s : FDFIToken oz} {out : Debited (FDFIToken oz)}
    (hs : s.Sound) (hne : src ≠ self.1)
    (h : (base oz self).debit msg src amountLD minAmountLD eid s = .ok out) :
    Sends amountLD minAmountLD out.amountReceivedLD (s.erc20.holdings src)
      (out.state.erc20.holdings src) := by
  obtain ⟨hamount, hpull⟩ := debit_eq_ok h
  obtain ⟨-, f, -, hmoved⟩ := FDFIToken.exec_moved hpull rfl
  simp only [base, bind_eq_ok, OFTCore.debitView_eq_ok, pure_eq_ok] at h
  obtain ⟨-, ⟨hmin, rfl⟩, s₁, -, rfl⟩ := h
  exact ⟨hamount, hmin,
    ((hmoved.ledger_of hs.backed).accounts hne).1 (ERC20.transferFrom_eq_ok hpull).1⟩

private theorem OFTToken.debit_sends {s : OFTToken} {out : Debited OFTToken} (hs : s.erc20.Backed)
    (h : base.debit msg src amountLD minAmountLD eid s = .ok out) :
    Sends amountLD minAmountLD out.amountReceivedLD (s.erc20.holdings src)
      (out.state.erc20.holdings src) := by
  simp only [base, bind_eq_ok, OFTCore.debitView_eq_ok, pure_eq_ok, ERC20.burn_eq_ok] at h
  obtain ⟨-, ⟨hmin, rfl⟩, s₁, ⟨hsrc, hburn⟩, rfl⟩ := h
  exact ⟨rfl, hmin, ((update_eq_ok hs hburn).accounts hsrc).1 hsrc⟩

private theorem OFTAdapter.credit_accounts {s : FDFIToken oz} {out : Credited (FDFIToken oz)}
    (hs : s.Sound) (hne : dst ≠ self.1)
    (h : (base oz self).credit msg dst amountLD eid s = .ok out) :
    dst ≠ 0 ∧ out.state.erc20.holdings dst = s.erc20.holdings dst + amountLD.toNat := by
  have hpay := credit_eq_ok h
  obtain ⟨-, f, -, hmoved⟩ := FDFIToken.exec_moved hpay rfl
  have hdst := (ERC20.transfer_eq_ok.mp hpay).2.1
  exact ⟨hdst, ((hmoved.ledger_of hs.backed).accounts (Ne.symm hne)).2 hdst⟩

private theorem OFTAdapter.credit_self {s : FDFIToken oz} {out : Credited (FDFIToken oz)}
    (hs : s.Sound) (h : (base oz self).credit msg self.1 amountLD eid s = .ok out) :
    out.state.erc20.holdings = s.erc20.holdings := by
  obtain ⟨-, f, -, hmoved⟩ := FDFIToken.exec_moved (credit_eq_ok h) rfl
  exact (hmoved.ledger_of hs.backed).to_self

/-- A credit to the zero address goes to the dead one. -/
theorem OFTToken.credit_accounts {s : OFTToken} {out : Credited OFTToken} (hs : s.erc20.Backed)
    (h : base.credit msg dst amountLD eid s = .ok out) :
    out.state.erc20.holdings (if dst = 0 then dead else dst) =
      s.erc20.holdings (if dst = 0 then dead else dst) + amountLD.toNat := by
  simp only [base, bind_eq_ok, pure_eq_ok, ERC20.mint_eq_ok] at h
  obtain ⟨s₁, ⟨hdst, hmint⟩, rfl⟩ := h
  exact ((update_eq_ok hs hmint).accounts (Ne.symm hdst)).2 hdst

end Accounts

end Evm

namespace Omnichain

section Transfer

variable {ι κ : Type} [Fintype ι] [Fintype κ] [DecidableEq ι] [DecidableEq κ]
  {net : Omnichain ι κ} {m₀ m m' v v' : OmniMesh net.evm.oz ι κ}
  {ls ks : List (OmniEvent net.evm.oz ι κ)}

def holdings (net : Omnichain ι κ) (m : OmniMesh net.evm.oz ι κ) : Option ι → Evm.Address → ℕ
  | none => m.adapter.base.erc20.holdings
  | some i => (m.satellites i).base.erc20.holdings

/-- The account `_credit` pays for a recipient. -/
def payee (a : Evm.Address) : Evm.Address := if a = 0 then Evm.OFTToken.dead else a

private theorem toBytes32_inj {x y : Evm.Bytes32} (h : toBytes32 x = toBytes32 y) : x = y := by
  have hbytes := congrArg Bytes32.toList h
  simp only [toBytes32] at hbytes
  have hwidth : 256 ^ 32 = 2 ^ 256 := by norm_num
  calc x = BigEndian.toWord 256 (BigEndian.ofWord 32 x) := (BigEndian.toWord_ofWord hwidth x).symm
    _ = BigEndian.toWord 256 (BigEndian.ofWord 32 y) := congrArg _ hbytes
    _ = y := BigEndian.toWord_ofWord hwidth y

/-- A debit takes whole shared units from its caller and puts their number on the wire. -/
structure Debits (net : Omnichain ι κ) (m m' : OmniMesh net.evm.oz ι κ) (party : Option ι)
    (msg : Evm.Msg) (param : Evm.SendParam) (message : Bytes) (n : ℕ) : Prop where
  amount : n = param.amountLD.toNat / 10 ^ 12
  slippage : param.minAmountLD.toNat ≤ n * 10 ^ 12
  debited : net.holdings m' party msg.sender + n * 10 ^ 12 = net.holdings m party msg.sender
  written : ∃ amountSd, MsgCodec.amountSd message = .ok amountSd ∧ amountSd.toNat = n
  addressed : MsgCodec.sendTo message = .ok (toBytes32 param.sendTo)

omit [Fintype ι] [Fintype κ] [DecidableEq ι] [DecidableEq κ] in
private theorem debits_of_sends {party : Option ι} {msg : Evm.Msg} {param : Evm.SendParam}
    {received : Evm.U256} (composeMsg : Bytes)
    (h : Evm.Sends param.amountLD param.minAmountLD received (net.holdings m party msg.sender)
      (net.holdings m' party msg.sender)) (hcap : received.toNat ≤ Evm.maxSupply.toNat) :
    net.Debits m m' party msg param (net.message msg param composeMsg received)
      (param.amountLD.toNat / 10 ^ 12) := by
  have hdust := Evm.OFTCore.toNat_removeDust param.amountLD
  have hunits := toSD_lossless (h.whole ▸ hcap)
  have hslippage := h.slippage
  have hdebited := h.debited
  rw [← h.whole] at hdust hunits
  refine ⟨rfl, by omega, by omega, ⟨_, net.codec.amountSd_encode .., by omega⟩,
    net.codec.sendTo_encode ..⟩

private theorem Refines.debits {b : Books (Option ι ⊕ κ)} {g : Option κ → ℕ} (h : net.Refines m b g)
    {party : Option ι} {msg : Evm.Msg} {param : Evm.SendParam} {message : Bytes}
    (hstep : net.Step m (.evmSend party msg param message) m') :
    net.Debits m m' party msg param message (param.amountLD.toNat / 10 ^ 12) := by
  cases hstep with
  | @adapterSend msg param composeMsg dst out event foreign peer hdebit =>
    have hbase := Evm.FDFIOFTAdapter.debit_forwards hdebit
    have hcap := (h.evm.pulled foreign (Evm.OFTAdapter.debit_eq_ok hbase).2).2
    exact debits_of_sends composeMsg (Evm.OFTAdapter.debit_sends h.sound.token foreign hbase) hcap
  | @satelliteSend i msg param composeMsg dst out peer hdebit =>
    have hbase := Evm.FDFIOFTUpgradeable.debit_forwards hdebit
    have hcap := h.evm.burned (Evm.OFTToken.debit_eq_ok (h.sound.satellites i) hbase).2.2
    refine debits_of_sends composeMsg ?_ hcap
    have hsends := Evm.OFTToken.debit_sends (h.sound.satellites i) hbase
    simpa [holdings, Evm.Debited.map] using hsends

omit [Fintype ι] [Fintype κ] in
/-- A credit pays the shared units it reads to the recipient it reads; to itself the adapter pays
nothing. -/
theorem Sound.credits (h : net.Sound m) {party : Option ι} {msg : Evm.Msg} {p : Packet}
    (hreadable : ∃ amount, MsgCodec.amountSd p.message = .ok amount)
    (hstep : net.Step m (.evmDeliver party msg p) m')
    (hself : party = none → net.recipient p ≠ net.evm.adapter.1) :
    net.holdings m' party (payee (net.recipient p)) =
      net.holdings m party (payee (net.recipient p)) + p.amountSd * 10 ^ 12 := by
  have hunits := net.amountLD_eq hreadable
  rw [← hunits]
  cases hstep with
  | @adapterDeliver msg p out event sent here hcredit =>
    obtain ⟨hdst, hpaid⟩ := Evm.OFTAdapter.credit_accounts h.token (hself rfl)
      (Evm.FDFIOFTAdapter.credit_forwards hcredit)
    rw [payee, if_neg hdst]
    exact hpaid
  | @satelliteDeliver i msg p out sent here hcredit =>
    have hpaid := Evm.OFTToken.credit_accounts (h.satellites i)
      (Evm.FDFIOFTUpgradeable.credit_forwards hcredit)
    simpa [holdings, payee, Evm.Credited.map] using hpaid

omit [Fintype ι] [Fintype κ] in
private theorem Sound.credits_self (h : net.Sound m) {msg : Evm.Msg} {p : Packet}
    (hstep : net.Step m (.evmDeliver none msg p) m') (hself : net.recipient p = net.evm.adapter.1) :
    net.holdings m' none = net.holdings m none := by
  cases hstep with
  | @adapterDeliver msg p out event sent here hcredit =>
    have hbase := Evm.FDFIOFTAdapter.credit_forwards hcredit
    rw [hself] at hbase
    exact Evm.OFTAdapter.credit_self h.token hbase

/-- A store pays the shared units it reads to the recipient's own account. -/
structure Mints (net : Omnichain ι κ) (m m' : OmniMesh net.evm.oz ι κ) (k : κ)
    (toAddress : Pubkey) (n : ℕ) : Prop where
  owner : (m'.stores k).ledger.ownerOf
    ((m.stores k).recipientAccount (net.runtime k) toAddress) = some toAddress
  credited : (m'.stores k).ledger.balance
      ((m.stores k).recipientAccount (net.runtime k) toAddress) =
    (m.stores k).ledger.balance ((m.stores k).recipientAccount (net.runtime k) toAddress) +
      n * (m.stores k).oftStore.rate
  minted : (m'.stores k).supply = (m.stores k).supply + n * (m.stores k).oftStore.rate

omit [Fintype ι] [Fintype κ] in
theorem Step.of_store {k : κ} {e : Event} (h : net.Step m (.store k e) m') :
    FdfiToken.Step (net.runtime k) (m.stores k) e (m'.stores k) := by
  cases h with
  | store step quiet allowed => simpa using step
  | storeSend step => simpa using step
  | storeDeliver step sent => simpa using step
  | storeForeign step nonzero outside => simpa using step

omit [Fintype ι] [Fintype κ] in
theorem Sound.mints (h : net.Sound m) {k : κ} {clock : Clock} {metas : List LzAccount}
    {params : LzReceiveParams} {out : LzReceiveOutcome} (hstep : net.Step m
      (.store k (.executed clock (.lzReceive metas params) (.received out))) m') :
    MsgCodec.sendTo params.message = .ok out.event.toAddress ∧
      net.Mints m m' k out.event.toAddress (messageAmountSd params.message) := by
  obtain ⟨a, peer, received⟩ := hstep.of_store.received
  obtain ⟨howner, hcredited⟩ := received.pays (h.wellFormed k)
  have hminted := received.mints (h.native k)
  have hunits := received.units
  obtain ⟨opened, amount, -, hrelease, -, hevent⟩ := received.released
  have hwhole := (LzReceive.release_native (w := { m.stores k with ledger := opened })
    (OFTType.ne_adapter (h.native k)) hrelease).2.2
  have hto : out.event.toAddress = a.toAddress := by rw [hevent]
  have hamount : out.event.amountReceivedLd = out.amountLd := by rw [hevent, hwhole]
  rw [hamount, hunits] at hcredited
  rw [hunits] at hminted
  rw [hto]
  exact ⟨received.toAddress, howner, hcredited, hminted⟩

/-- What a transfer from a contract to a store comes to. -/
structure Outbound (net : Omnichain ι κ) (m m' v v' : OmniMesh net.evm.oz ι κ) (party : Option ι)
    (msg : Evm.Msg) (param : Evm.SendParam) (k : κ) (toAddress : Pubkey) (n : ℕ) : Prop where
  amount : n = param.amountLD.toNat / 10 ^ 12
  slippage : param.minAmountLD.toNat ≤ n * 10 ^ 12
  recipient : toAddress = toBytes32 param.sendTo
  debited : net.holdings m' party msg.sender + n * 10 ^ 12 = net.holdings m party msg.sender
  mints : net.Mints v v' k toAddress n

/-- What a contract takes from its caller, whole shared units, a store mints to the recipient the
caller named, however long the message was on its way. -/
theorem outbound_exact {ls ks : List (OmniEvent net.evm.oz ι κ)} {party : Option ι} {msg : Evm.Msg}
    {param : Evm.SendParam} {k : κ} {clock : Clock} {metas : List LzAccount}
    {params : LzReceiveParams} {out : LzReceiveOutcome} (hm : net.Launched m₀)
    (hbefore : Run net.Step m₀ ls m)
    (hsend : net.Step m (.evmSend party msg param params.message) m')
    (hmeanwhile : Run net.Step m' ks v)
    (hreceive : net.Step v (.store k (.executed clock (.lzReceive metas params) (.received out)))
      v') :
    ∃ n, net.Outbound m m' v v' party msg param k out.event.toAddress n := by
  obtain ⟨b, -, hrefines⟩ := hm.refines hbefore
  have hdebits := hrefines.debits hsend
  obtain ⟨b', -, hsound⟩ := hm.refines (hbefore.append (.cons hsend hmeanwhile))
  obtain ⟨hto, hmints⟩ := hsound.sound.mints hreceive
  obtain ⟨amountSd, hsd, hamount⟩ := hdebits.written
  have hn : messageAmountSd params.message = param.amountLD.toNat / 10 ^ 12 := by
    rw [messageAmountSd, hsd]
    exact hamount
  rw [hn] at hmints
  have hrecipient := hdebits.addressed
  rw [hto, Except.ok.injEq] at hrecipient
  exact ⟨_, rfl, hdebits.slippage, hrecipient, hdebits.debited, hmints⟩

/-- What a transfer from a store to a contract comes to. -/
structure Inbound (net : Omnichain ι κ) (m m' v v' : OmniMesh net.evm.oz ι κ) (k : κ)
    (params : SendParams) (party : Option ι) (p : Packet) (n : ℕ) : Prop where
  burned : (m'.stores k).supply + n * (m.stores k).oftStore.rate = (m.stores k).supply
  slippage : params.minAmountLd.toNat ≤ n * (m.stores k).oftStore.rate
  recipient : toBytes32 (net.codec.sendTo p.message) = params.toAddress
  credited : (party = none → net.recipient p ≠ net.evm.adapter.1) →
    net.holdings v' party (payee (net.recipient p)) =
      net.holdings v party (payee (net.recipient p)) + n * 10 ^ 12
  selfCredited : party = none → net.recipient p = net.evm.adapter.1 →
    net.holdings v' none = net.holdings v none

/-- What a store burns a contract pays to the recipient the sender named. -/
theorem inbound_exact {ls ks : List (OmniEvent net.evm.oz ι κ)} {k : κ} {clock : Clock}
    {accs : SendAccounts} {params : SendParams} {out : SendOutcome} {party : Option ι}
    {msg : Evm.Msg} {p : Packet} (hm : net.Launched m₀) (hbefore : Run net.Step m₀ ls m)
    (hsend : net.Step m (.store k (.executed clock (.send accs params) (.sent out))) m')
    (hmeanwhile : Run net.Step m' ks v)
    (hmessage : p.message = out.endpointCall.message)
    (hdeliver : net.Step v (.evmDeliver party msg p) v') :
    net.Inbound m m' v v' k params party p (messageAmountSd out.endpointCall.message) := by
  obtain ⟨b, -, hrefines⟩ := hm.refines hbefore
  obtain ⟨b', -, hlater⟩ := hm.refines (hbefore.append (.cons hsend hmeanwhile))
  have hsound := hrefines.sound
  obtain ⟨hsigned, peer, sent⟩ := hsend.of_store.sent
  have hburned := sent.burns (hsound.wellFormed k) (hsound.native k) hsigned
  have hslippage := sent.slippage
  rw [sent.units] at hburned hslippage
  obtain ⟨amountSd, -, hencoded⟩ := sent.message
  have hreadable : ∃ amount, MsgCodec.amountSd p.message = .ok amount := by
    refine ⟨amountSd, ?_⟩
    rw [hmessage, hencoded, Send.messageOf, MsgCodec.amountSd_encode]
  refine ⟨hburned, hslippage, ?_, ?_, ?_⟩
  · refine net.codec.sendTo_eq ?_
    rw [hmessage, hencoded, Send.messageOf, MsgCodec.sendTo_encode]
  · intro hself
    rw [← hmessage]
    exact hlater.sound.credits hreadable hdeliver hself
  · rintro rfl hself
    exact hlater.sound.credits_self hdeliver hself

/-- What a transfer between two contracts comes to. -/
structure Across (net : Omnichain ι κ) (m m' v v' : OmniMesh net.evm.oz ι κ)
    (source destination : Option ι) (msg : Evm.Msg) (param : Evm.SendParam) (to_ : Evm.Address)
    (n : ℕ) : Prop where
  amount : n = param.amountLD.toNat / 10 ^ 12
  slippage : param.minAmountLD.toNat ≤ n * 10 ^ 12
  recipient : to_ = BitVec.setWidth 160 param.sendTo
  debited : net.holdings m' source msg.sender + n * 10 ^ 12 = net.holdings m source msg.sender
  credited : (destination = none → to_ ≠ net.evm.adapter.1) →
    net.holdings v' destination (payee to_) =
      net.holdings v destination (payee to_) + n * 10 ^ 12
  selfCredited : destination = none → to_ = net.evm.adapter.1 →
    net.holdings v' none = net.holdings v none

/-- What one contract takes from its caller another pays to the recipient the caller named. -/
theorem across_exact {ls ks : List (OmniEvent net.evm.oz ι κ)} {source destination : Option ι}
    {msg msg' : Evm.Msg} {param : Evm.SendParam} {p : Packet} (hm : net.Launched m₀)
    (hbefore : Run net.Step m₀ ls m) (hsend : net.Step m (.evmSend source msg param p.message) m')
    (hmeanwhile : Run net.Step m' ks v)
    (hdeliver : net.Step v (.evmDeliver destination msg' p) v') :
    ∃ n, net.Across m m' v v' source destination msg param (net.recipient p) n := by
  obtain ⟨b, -, hrefines⟩ := hm.refines hbefore
  have hdebits := hrefines.debits hsend
  obtain ⟨b', -, hlater⟩ := hm.refines (hbefore.append (.cons hsend hmeanwhile))
  obtain ⟨amountSd, hsd, hamount⟩ := hdebits.written
  have hunits : p.amountSd = param.amountLD.toNat / 10 ^ 12 := by
    rw [Packet.amountSd, messageAmountSd, hsd]
    exact hamount
  have hrecipient : net.codec.sendTo p.message = param.sendTo :=
    toBytes32_inj (net.codec.sendTo_eq hdebits.addressed)
  refine ⟨_, rfl, hdebits.slippage, congrArg _ hrecipient, hdebits.debited, ?_, ?_⟩
  · intro hself
    rw [← hunits]
    exact hlater.sound.credits ⟨amountSd, hsd⟩ hdeliver hself
  · rintro rfl hself
    exact hlater.sound.credits_self hdeliver hself

end Transfer

end Omnichain

namespace Reference

open Evm.Reference (msgOf)

theorem outbound_exact_sample : ∃ n,
    omni.Outbound omniPeered omniSent omniSent omniReceived none (msgOf 5) omniOutward ()
      (value _ omniReceive_ok).2.event.toAddress n ∧ n = 5 := by
  obtain ⟨n, hout⟩ := omni.outbound_exact omniLaunch_launched omniPeered_run omniSent_step
    (.nil _) omniReceived_step
  exact ⟨n, hout, hout.amount.trans (by decide)⟩

theorem inbound_exact_sample :
    omni.Inbound omniReceived omniForwarded omniForwarded omniCredited () omniOnwardParams
      (some ()) omniPacket
      (messageAmountSd (value _ omniOnward_ok).2.endpointCall.message) := by
  have hbefore := omniPeered_run.append (.cons omniSent_step (.cons omniReceived_step (.nil _)))
  exact omni.inbound_exact omniLaunch_launched hbefore omniForwarded_step (.nil _) rfl
    omniCredited_step

def omniHomePacket : Packet := omni.packet omniCredited (.inl (some ())) (.inl none) omniReturn

def omniUnlock : Evm.Result (Evm.Credited (Evm.FDFIOFTAdapter (Evm.FDFIToken .reference)) ×
    Evm.RateConsumed) :=
  omniLast.adapter._credit .reference Evm.Reference.core (msgOf 9) (omni.recipient omniHomePacket)
    (omni.amountLD omniHomePacket) omniHomePacket.srcEid

set_option maxRecDepth 8192 in
private theorem omniUnlock_ok : omniUnlock.isOk = true := by decide

private theorem omniHome_addressed : omni.Addressed omniLast (.inl none) omniHomePacket :=
    ⟨rfl, rfl⟩

def omniHome : OmniMesh omni.evm.oz Unit Unit :=
  { omniLast with
    adapter := (value _ omniUnlock_ok).1.state
    inFlight := omniLast.inFlight.erase omniHomePacket }

set_option maxRecDepth 8192 in
private theorem omniHome_step : omni.Step omniLast
    (.evmDeliver none (msgOf 9) omniHomePacket) omniHome :=
  @Omnichain.Step.adapterDeliver Unit Unit _ _ omni omniLast (msgOf 9) omniHomePacket
    (value _ omniUnlock_ok).1 (value _ omniUnlock_ok).2
    (Multiset.mem_cons_self omniHomePacket omniCredited.inFlight) omniHome_addressed
    (eq_ok_value omniUnlock omniUnlock_ok)

theorem across_exact_sample : ∃ n,
    omni.Across omniCredited omniLast omniLast omniHome (some ()) none (msgOf 6) omniHomeward
      (omni.recipient omniHomePacket) n ∧ n = 1 := by
  have hbefore := omniPeered_run.append (.cons omniSent_step (.cons omniReceived_step
    (.cons omniForwarded_step (.cons omniCredited_step (.nil _)))))
  obtain ⟨n, hacross⟩ := omni.across_exact (p := omniHomePacket) omniLaunch_launched hbefore
    omniLast_step (.nil _) omniHome_step
  exact ⟨n, hacross, hacross.amount.trans (by decide)⟩

end Reference

end FdfiToken
