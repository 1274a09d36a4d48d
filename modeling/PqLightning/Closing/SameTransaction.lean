import PqLightning.Closing.NoPanic

/-!
# What the signatures of a closing transaction sign

A cooperative close ends with a transaction and two signatures. `closing_signed` looks for the
transaction the counterparty signed in two variants, with its output and without it. If its fee is
the one the holder proposed last, the holder's signature of that proposal is taken as it is; a
proposal always has both outputs.

With a signer that answers at once, this module follows the stored signature through a negotiation,
and says exactly when the two signatures of a completed close are of one transaction.
-/

namespace PqLightning.Closing

variable {Script Sig : Type}

namespace FundedChannel

variable {crypto : Crypto Script Sig} {env : CallEnv} {ch ch' : FundedChannel Script Sig}
  {msg : ClosingSigned Sig} {r : Except ChannelError (ClosingReply Script Sig)}

/-- The signatures in the witness of `signed` are both of `signed.tx`: the counterparty's, out of
its message, is valid for it, and the holder's is what the signer gives for it. -/
def BothSigned (crypto : Crypto Script Sig) (self : FundedChannel Script Sig)
    (msg : ClosingSigned Sig)
    (signed : SignedClosingTransaction Script Sig) : Prop :=
  crypto.verify signed.tx msg.signature ∧
    signed = self.buildSignedClosingTransaction signed.tx msg.signature (crypto.sign signed.tx)

def counterpartyValue (self : FundedChannel Script Sig) (fee : ℕ) : ℕ :=
  (self.valueSatoshis * 1000 - self.valueToSelfMsat) / 1000 - if self.isOutbound then 0 else fee

/-- **The condition of a completed close.** If the counterparty proposes the fee that the holder
proposed last, then its signature is of the transaction with its own output, or there is no such
output because it would be dust. -/
def StoredSignatureFits (crypto : Crypto Script Sig) (self : FundedChannel Script Sig)
    (msg : ClosingSigned Sig) : Prop :=
  ∀ last a b, self.lastSentClosingFee = some last → self.shutdownScriptpubkey = some a →
    self.counterpartyShutdownScriptpubkey = some b → last.feeSatoshis = msg.feeSatoshis →
      crypto.verify (self.txAt a b msg.feeSatoshis false) msg.signature ∨
        self.counterpartyValue msg.feeSatoshis ≤ self.holderDustLimitSatoshis

/-- **What the stored signature signs**, until the channel is closed: the transaction with the fee
of the proposal, and with both outputs. -/
def StoredSignature (crypto : Crypto Script Sig) (self : FundedChannel Script Sig) : Prop :=
  self.channelState = .shutdownComplete ∨
    ∀ last a b, self.lastSentClosingFee = some last → self.shutdownScriptpubkey = some a →
      self.counterpartyShutdownScriptpubkey = some b →
        last.holderSig = some (crypto.sign (self.txAt a b last.feeSatoshis false))

/-! ### The two variants -/

/-- The variants of a closing transaction differ exactly if the counterparty's output is not dust.
-/
theorem txAt_eq_iff {a b : Script} {fee : ℕ} {skip : Bool} :
    ch.txAt a b fee false = ch.txAt a b fee skip ↔
      skip = false ∨ ch.counterpartyValue fee ≤ ch.holderDustLimitSatoshis := by
  rw [txAt, txAt, ClosingTransaction.mk.injEq]
  change (_ ∧ (if false = true ∨ ch.counterpartyValue fee ≤ ch.holderDustLimitSatoshis then 0
    else ch.counterpartyValue fee) = (if skip = true ∨ ch.counterpartyValue fee ≤
      ch.holderDustLimitSatoshis then 0 else ch.counterpartyValue fee) ∧ _) ↔ _
  cases skip with
  | false => simp
  | true =>
    by_cases hdust : ch.counterpartyValue fee ≤ ch.holderDustLimitSatoshis
    · simp [hdust]
    · have hpos : ch.counterpartyValue fee ≠ 0 := by omega
      simp [hdust, hpos]

theorem buildSignedClosingTransaction_inj {tx : ClosingTransaction Script} {sig s₁ s₂ : Sig} :
    ch.buildSignedClosingTransaction tx sig s₁ = ch.buildSignedClosingTransaction tx sig s₂ ↔
      s₁ = s₂ := by
  simp only [buildSignedClosingTransaction, SignedClosingTransaction.mk.injEq, true_and]
  split_ifs <;> simp

theorem isBothSidesShutdown_shutdownComplete :
    ChannelState.isBothSidesShutdown .shutdownComplete = false := rfl

theorem Accepts.state_ne (h : ch.Accepts msg) : ch.channelState ≠ .shutdownComplete := by
  intro hstate
  have hboth := h.checks.1
  rw [hstate, isBothSidesShutdown_shutdownComplete] at hboth
  cases hboth

/-! ### One step -/

/-- A proposal that was just signed is what the stored signature signs. -/
theorem StoredSignature.getClosingSignedMsg (hready : env.signerReady) {a b : Script}
    (ha : ch.shutdownScriptpubkey = some a) (hb : ch.counterpartyShutdownScriptpubkey = some b)
    (fee minFee maxFee : ℕ) :
    StoredSignature crypto
      (ch.getClosingSignedMsg crypto env (ch.txAt a b fee false) false fee minFee
      maxFee).1 := by
  refine .inr fun last a' b' hlast ha' hb' => ?_
  obtain rfl := Option.some.inj (ha.symm.trans ha')
  obtain rfl := Option.some.inj (hb.symm.trans hb')
  cases hlast
  rw [if_pos hready]
  rfl

/-- **Step.** What the stored signature signs is kept track of. -/
theorem ClosingStep.storedSignature (hready : env.signerReady) (h : ch.StoredSignature crypto)
    (hstep : ClosingStep crypto env ch msg ch' r) : ch'.StoredSignature crypto := by
  cases hstep with
  | refused => exact h
  | delayed => exact h
  | reused => exact .inl rfl
  | disagreed => exact h
  | proposed a b minFee maxFee newFee ha hb _ _ sent hsent =>
    rw [hsent]
    have hlimits := @StoredSignature.getClosingSignedMsg _ _ crypto env
      { ch with closingFeeLimits := some (minFee, maxFee) } hready a b ha hb newFee minFee maxFee
    exact hlimits
  | agreed => exact .inl rfl
  | agreedUnsigned a b _ _ _ _ sent hsent hnone =>
    -- a signer that answers at once leaves nothing unsigned
    rw [hsent, FundedChannel.getClosingSignedMsg, if_pos hready] at hnone
    cases hnone

theorem ProposeStep.storedSignature (hready : env.signerReady) (h : ch.StoredSignature crypto)
    (hstep : ProposeStep crypto env ch ch' r) : ch'.StoredSignature crypto := by
  cases hstep with
  | idle => exact h
  | handled msg _ _ _ _ hstep =>
    have hnone : StoredSignature crypto { ch with pendingCounterpartyClosingSigned := none } := h
    exact hstep.storedSignature hready hnone
  | proposed a b minFee maxFee ha hb _ _ sent hsent =>
    rw [hsent]
    have hlimits := @StoredSignature.getClosingSignedMsg _ _ crypto env
      { ch with closingFeeLimits := some (minFee, maxFee) } hready a b ha hb minFee minFee maxFee
    exact hlimits

/-- **A completing step returns two signatures of one transaction exactly if the stored signature
fits.** -/
theorem ClosingStep.bothSigned_iff (hsign : Function.Injective crypto.sign)
    (hready : env.signerReady)
    (h : ch.StoredSignature crypto) {reply : Option (ClosingSigned Sig)}
    {signed : SignedClosingTransaction Script Sig} {result : ShutdownResult}
    (hstep : ClosingStep crypto env ch msg ch' (.ok (reply, some (signed, result)))) :
    ch.BothSigned crypto msg signed ↔ ch.StoredSignatureFits crypto msg := by
  cases hstep with
  | reused a b last sig ha hb haccepts hverify hlast hfee hsig =>
    have hsigned := (h.resolve_left haccepts.state_ne) last a b hlast ha hb
    obtain rfl := Option.some.inj (hsig.symm.trans hsigned)
    have hkey : ch.BothSigned crypto msg (ch.buildSignedClosingTransaction (ch.txOf crypto a b msg)
        msg.signature (crypto.sign (ch.txAt a b last.feeSatoshis false))) ↔
        crypto.verify (ch.txAt a b msg.feeSatoshis false) msg.signature ∨
          ch.counterpartyValue msg.feeSatoshis ≤ ch.holderDustLimitSatoshis := by
      calc ch.BothSigned crypto msg (ch.buildSignedClosingTransaction _ _ _)
          ↔ crypto.sign (ch.txAt a b last.feeSatoshis false) =
              crypto.sign (ch.txOf crypto a b msg) :=
            (and_iff_right hverify).trans buildSignedClosingTransaction_inj
        _ ↔ ch.txAt a b msg.feeSatoshis false = ch.txOf crypto a b msg := by
            rw [hsign.eq_iff, hfee]
        _ ↔ ch.leftOut crypto a b msg = false ∨ _ := txAt_eq_iff
        _ ↔ _ := by rw [leftOut, Bool.not_eq_false']
    rw [hkey]
    constructor
    · intro hfits last' a' b' _ ha' hb' _
      obtain rfl := Option.some.inj (ha.symm.trans ha')
      obtain rfl := Option.some.inj (hb.symm.trans hb')
      exact hfits
    · intro hfits
      exact hfits last a b hlast ha hb hfee
  | agreed a b minFee maxFee ha hb haccepts _ _ hverify hnew sent hsent reply hreply =>
    have hsig : reply.signature = crypto.sign (ch.txOf crypto a b msg) := by
      rw [hsent, FundedChannel.getClosingSignedMsg, if_pos hready] at hreply
      cases hreply
      rfl
    refine iff_of_true ⟨hverify, ?_⟩ fun last a' b' hlast ha' hb' hfee => ?_
    · rw [hsig]
      rfl
    · have hsigned := (h.resolve_left haccepts.state_ne) last a' b' hlast ha' hb'
      exact absurd hfee (hnew last _ hlast hsigned)

end FundedChannel

open FundedChannel

def Event.SignerReady : Event Sig → Prop
  | .updateFee env _ => env.signerReady
  | .closingSigned env _ => env.signerReady
  | .maybeProposeClosingSigned env => env.signerReady
  | .peerDisconnected => True
  | .other .. => True

section Runs

variable {crypto : Crypto Script Sig} {ch ch' : FundedChannel Script Sig} {event : Event Sig}

theorem step_storedSignature (h : ch.WellFormed crypto) (hready : event.SignerReady)
    (hstored : ch.StoredSignature crypto) (hstep : step crypto ch event = .ok ch') :
    ch'.StoredSignature crypto := by
  cases event with
  | closingSigned env msg =>
    obtain ⟨r, hr⟩ := eq_ok_of_map_fst hstep
    exact ((closingSigned_spec h).2 ch' r hr).storedSignature hready hstored
  | maybeProposeClosingSigned env =>
    obtain ⟨r, hr⟩ := eq_ok_of_map_fst hstep
    exact ((maybePropose_spec h).2 ch' r hr).storedSignature hready hstored
  | updateFee env feeratePerKw =>
    cases hstep
    obtain ⟨_, heq⟩ := @updateFee_frame _ _ env ch feeratePerKw
    rw [heq]
    exact hstored
  | peerDisconnected =>
    cases hstep
    exact .inr fun _ _ _ hnone => by cases hnone
  | other =>
    cases hstep
    rcases hstored with hclosed | hopen
    · exact .inl (if_pos hclosed)
    · exact .inr hopen

/-- **Run.** In every run from a channel on which nothing has been proposed. -/
theorem run_storedSignature {events : List (Event Sig)} (h : ch.WellFormed crypto)
    (hready : ∀ event ∈ events, event.SignerReady) (hstored : ch.StoredSignature crypto)
    (hrun : run crypto ch events = .ok ch') :
    ch'.WellFormed crypto ∧ ch'.StoredSignature crypto := by
  induction events generalizing ch with
  | nil =>
    cases hrun
    exact ⟨h, hstored⟩
  | cons event events ih =>
    obtain ⟨ch₁, hch₁, hrest⟩ := bind_eq_ok.1 hrun
    have hevent := hready event List.mem_cons_self
    exact ih (step_wellFormed h hch₁) (fun e he => hready e (List.mem_cons_of_mem _ he))
      (step_storedSignature h hevent hstored hch₁) hrest

end Runs

/-- **A completed close carries two signatures of one transaction exactly if the stored signature
fits.** Take any run of a closing negotiation with a signer that answers at once, on a channel on
which nothing has been proposed yet. Whenever `closing_signed` then returns a signed transaction,
the counterparty's signature is valid for it and the holder's was made of it if and only if the
condition holds of the channel and the message. If the message had been put off until
`maybe_propose_closing_signed`, they always are. -/
theorem close_bothSigned_iff (crypto : Crypto Script Sig) (hsign : Function.Injective crypto.sign)
    (start : FundedChannel Script Sig) (h : start.WellFormed crypto)
    (hstart : start.lastSentClosingFee = none) (events : List (Event Sig))
    (hready : ∀ event ∈ events, event.SignerReady) (ch : FundedChannel Script Sig)
    (hrun : run crypto start events = .ok ch) (env : CallEnv) (henv : env.signerReady)
    (ch' : FundedChannel Script Sig) (reply : Option (ClosingSigned Sig))
    (signed : SignedClosingTransaction Script Sig) (result : ShutdownResult) :
    (∀ msg, ch.closingSigned crypto env msg = .ok (ch', .ok (reply, some (signed, result))) →
      (ch.BothSigned crypto msg signed ↔ ch.StoredSignatureFits crypto msg)) ∧
    (ch.maybeProposeClosingSigned crypto env = .ok (ch', .ok (reply, some (signed, result))) →
      ∃ msg, ch.pendingCounterpartyClosingSigned = some msg ∧ ch.BothSigned crypto msg signed) := by
  have hnone : start.StoredSignature crypto :=
    .inr fun last _ _ hlast => by rw [hstart] at hlast; cases hlast
  obtain ⟨hwell, hstored⟩ := run_storedSignature h hready hnone hrun
  refine ⟨fun msg hclose => ?_, fun hpropose => ?_⟩
  · exact ((closingSigned_spec hwell).2 ch' _ hclose).bothSigned_iff hsign henv hstored
  · generalize hr : Except.ok (reply, some (signed, result)) = r at hpropose
    have hstep := (maybePropose_spec hwell).2 ch' r hpropose
    cases hstep with
    | idle => cases hr
    | handled msg _ _ hlast hpending hstep =>
      subst hr
      refine ⟨msg, hpending, ?_⟩
      have hstored' : StoredSignature crypto { ch with pendingCounterpartyClosingSigned := none } :=
        hstored
      refine (hstep.bothSigned_iff hsign henv hstored').2 fun last _ _ hlast' => ?_
      change ch.lastSentClosingFee = some last at hlast'
      rw [hlast] at hlast'
      cases hlast'
    | proposed => cases hr

/-! ### A negotiation -/

/-- A proposal without a range, signed with the counterparty's output or without it. -/
def signedMsg (fee : ℕ) (skipRemoteOutput : Bool) :
    ClosingSigned (ClosingTransaction ℕ × Bool) where
  feeSatoshis := fee
  signature := (plainChannel.txAt 1 2 fee skipRemoteOutput, false)
  feeRange := none

theorem plainCrypto_sign_injective : Function.Injective plainCrypto.sign :=
  fun _ _ h => (Prod.mk.inj h).1

set_option maxRecDepth 4000 in
/-- The counterparty proposes 500 sat, is answered with 674 sat, and agrees. -/
theorem close_bothSigned_iff_plain :
    ∃ ch ch' reply signed result,
      run plainCrypto plainChannel [.closingSigned plainEnv (signedMsg 500 false)] = .ok ch ∧
      ch.closingSigned plainCrypto plainEnv (signedMsg 674 false) =
        .ok (ch', .ok (reply, some (signed, result))) ∧
      (ch.BothSigned plainCrypto (signedMsg 674 false) signed ↔
        ch.StoredSignatureFits plainCrypto (signedMsg 674 false)) := by
  refine ⟨_, _, _, _, _, rfl, rfl, ?_⟩
  refine (close_bothSigned_iff plainCrypto plainCrypto_sign_injective plainChannel
    plainChannel_wellFormed rfl [.closingSigned plainEnv (signedMsg 500 false)] ?_ _ rfl
    plainEnv rfl _ _ _ _).1 _ rfl
  intro event hevent
  obtain rfl := List.mem_singleton.1 hevent
  rfl

set_option maxRecDepth 4000 in
/-- **The signatures can be of two transactions.** The counterparty proposes 500 sat, is answered
with 674 sat, and agrees to that with a signature of the transaction without its own output. -/
theorem close_mixes_transactions :
    ∃ ch ch' reply signed result,
      run plainCrypto plainChannel [.closingSigned plainEnv (signedMsg 500 false)] = .ok ch ∧
      ch.closingSigned plainCrypto plainEnv (signedMsg 674 true) =
        .ok (ch', .ok (reply, some (signed, result))) ∧
      ¬ ch.BothSigned plainCrypto (signedMsg 674 true) signed := by
  refine ⟨_, _, _, _, _, rfl, rfl, fun h => ?_⟩
  have hwitness := congrArg SignedClosingTransaction.witness h.2
  revert hwitness
  decide

end PqLightning.Closing
