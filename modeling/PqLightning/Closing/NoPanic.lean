import PqLightning.Closing.Steps

/-!
# When cooperative closing panics

Runs of a closing negotiation: messages of the counterparty, proposals of the holder, and what the
rest of the channel does meanwhile. A run panics exactly if some step of it does not meet its
condition, and a counterparty can bring that about.
-/

namespace PqLightning.Closing

variable {Script Sig : Type}

namespace FundedChannel

variable {crypto : Crypto Script Sig} {env : CallEnv} {ch ch' : FundedChannel Script Sig}
  {msg : ClosingSigned Sig}

/-! ### Runs -/

theorem ClosingStep.wellFormed {r : Except ChannelError (ClosingReply Script Sig)}
    (h : ch.WellFormed crypto) (hstep : ClosingStep crypto env ch msg ch' r) :
    ch'.WellFormed crypto := by
  cases hstep with
  | refused => exact h
  | delayed => exact h.congr rfl
  | reused => exact h.congr rfl
  | disagreed _ _ _ hlimits => exact hlimits
  | proposed a b _ _ newFee _ _ hlimits hle sent hsent =>
    rw [hsent]
    exact hlimits.getClosingSignedMsg rfl hle _ _ _ _
  | agreed a b _ _ _ _ _ hlimits hle _ _ sent hsent =>
    rw [hsent]
    exact (hlimits.getClosingSignedMsg rfl hle _ _ _ _).congr rfl
  | agreedUnsigned a b _ _ hlimits hle sent hsent =>
    rw [hsent]
    exact (hlimits.getClosingSignedMsg rfl hle _ _ _ _).congr rfl

theorem ProposeStep.wellFormed {r : Except ChannelError (ClosingReply Script Sig)}
    (h : ch.WellFormed crypto) (hstep : ProposeStep crypto env ch ch' r) :
    ch'.WellFormed crypto := by
  cases hstep with
  | idle => exact h
  | handled msg _ _ _ _ hstep =>
    have hwait : WellFormed crypto { ch with pendingCounterpartyClosingSigned := none } :=
      h.congr rfl
    exact hstep.wellFormed hwait
  | proposed a b _ _ _ _ hlimits hle sent hsent =>
    rw [hsent]
    exact hlimits.getClosingSignedMsg rfl hle _ _ _ _

/-- `update_fee` changes nothing but the pending update. -/
theorem updateFee_frame (feeratePerKw : UInt32) :
    ∃ pendingUpdateFee, (ch.updateFee env feeratePerKw).1 = { ch with pendingUpdateFee } := by
  unfold updateFee
  split_ifs
  · exact ⟨_, rfl⟩
  · exact ⟨_, rfl⟩
  · exact ⟨_, rfl⟩
  · exact ⟨_, rfl⟩
  · split <;> exact ⟨_, rfl⟩

end FundedChannel

inductive Event (Sig : Type) where
  /-- The counterparty sends `update_fee`. -/
  | updateFee (env : CallEnv) (feeratePerKw : UInt32)
  /-- The counterparty sends `closing_signed`. -/
  | closingSigned (env : CallEnv) (msg : ClosingSigned Sig)
  /-- The holder checks whether to start the negotiation. -/
  | maybeProposeClosingSigned (env : CallEnv)
  /-- The connection is lost: what was proposed is forgotten. -/
  | peerDisconnected
  /-- The rest of the channel moves on: its state and its pending updates change. -/
  | other (channelState : ChannelState) (feeratePerKw : UInt32)
      (pendingUpdateFee : Option (UInt32 × FeeUpdateState))
      (pendingInboundHtlcs pendingOutboundHtlcs : ℕ) (expectingPeerCommitmentSigned : Bool)

open FundedChannel

variable (crypto : Crypto Script Sig)

variable (ch : FundedChannel Script Sig)

def step : Event Sig → Except Panic (FundedChannel Script Sig)
  | .updateFee env feeratePerKw => .ok (ch.updateFee env feeratePerKw).1
  | .closingSigned env msg => (ch.closingSigned crypto env msg).map Prod.fst
  | .maybeProposeClosingSigned env => (ch.maybeProposeClosingSigned crypto env).map Prod.fst
  | .peerDisconnected => .ok { ch with
      closingFeeLimits := none
      lastSentClosingFee := none
      pendingCounterpartyClosingSigned := none }
  | .other channelState feeratePerKw pendingUpdateFee pendingInboundHtlcs pendingOutboundHtlcs
      expectingPeerCommitmentSigned => .ok { ch with
        -- a channel that has been closed stays so
        channelState := if ch.channelState = .shutdownComplete then .shutdownComplete
          else channelState
        feeratePerKw, pendingUpdateFee, pendingInboundHtlcs, pendingOutboundHtlcs
        expectingPeerCommitmentSigned }

def run (events : List (Event Sig)) : Except Panic (FundedChannel Script Sig) :=
  events.foldlM (step crypto) ch

/-- **The condition of a step**, on the channel before it. -/
def Safe : Event Sig → Prop
  | .closingSigned env msg => ch.ClosingSignedSafe crypto env msg
  | .maybeProposeClosingSigned env => ch.ProposeSafe crypto env
  | _ => True

section Runs

variable {crypto : Crypto Script Sig} {ch ch' : FundedChannel Script Sig} {event : Event Sig}

theorem returns_of_isSome {α : Type} {x : Except Panic α} (h : x.toOption.isSome) : Returns x := by
  cases x with
  | error e => cases h
  | ok a => exact ⟨a, rfl⟩

theorem returns_map {α β : Type} {x : Except Panic α} {f : α → β} :
    Returns (x.map f) ↔ Returns x := by
  cases x with
  | error e => exact ⟨fun ⟨_, h⟩ => (by cases h), fun ⟨_, h⟩ => (by cases h)⟩
  | ok a => exact ⟨fun _ => ⟨a, rfl⟩, fun _ => ⟨f a, rfl⟩⟩

/-- **A step panics exactly if it does not meet its condition.** -/
theorem step_returns_iff (h : ch.WellFormed crypto) :
    Returns (step crypto ch event) ↔ Safe crypto ch event := by
  cases event with
  | closingSigned env msg => exact returns_map.trans (closingSigned_spec h).1
  | maybeProposeClosingSigned env => exact returns_map.trans (maybePropose_spec h).1
  | updateFee => exact ⟨fun _ => trivial, fun _ => ⟨_, rfl⟩⟩
  | peerDisconnected => exact ⟨fun _ => trivial, fun _ => ⟨_, rfl⟩⟩
  | other => exact ⟨fun _ => trivial, fun _ => ⟨_, rfl⟩⟩

theorem eq_ok_of_map_fst {α β : Type} {x : Except Panic (α × β)} {a : α}
    (h : x.map Prod.fst = .ok a) : ∃ b, x = .ok (a, b) := by
  cases x with
  | error e => cases h
  | ok p => cases h; exact ⟨p.2, rfl⟩

/-- **A step keeps a channel well formed.** -/
theorem step_wellFormed (h : ch.WellFormed crypto) (hstep : step crypto ch event = .ok ch') :
    ch'.WellFormed crypto := by
  cases event with
  | closingSigned env msg =>
    obtain ⟨r, hr⟩ := eq_ok_of_map_fst hstep
    exact ((closingSigned_spec h).2 ch' r hr).wellFormed h
  | maybeProposeClosingSigned env =>
    obtain ⟨r, hr⟩ := eq_ok_of_map_fst hstep
    exact ((maybePropose_spec h).2 ch' r hr).wellFormed h
  | updateFee env feeratePerKw =>
    cases hstep
    obtain ⟨_, heq⟩ := @updateFee_frame _ _ env ch feeratePerKw
    rw [heq]
    exact h.congr rfl
  | peerDisconnected =>
    cases hstep
    exact ⟨h.value_le, h.balance_le, h.script, h.counterpartyScript, h.scriptLen_lt,
      h.counterpartyScriptLen_lt, fun _ hnone => (by cases hnone), fun _ hnone => (by cases hnone),
      fun _ hnone => (by cases hnone)⟩
  | other =>
    cases hstep
    exact h.congr rfl

/-- **Cooperative closing panics exactly if a step does not meet its condition.** Take any channel
that both sides shut down and any run of `update_fee` and `closing_signed` messages of the
counterparty, of proposals of the holder, and of whatever else happens to the channel meanwhile. No
`assert!`, `debug_assert!`, `unwrap` or overflow fires in it if and only if at each step the channel
before it meets the condition of the step. -/
theorem run_returns_iff (crypto : Crypto Script Sig) (ch : FundedChannel Script Sig)
    (h : ch.WellFormed crypto) (events : List (Event Sig)) :
    Returns (run crypto ch events) ↔
      ∀ before event after ch', events = before ++ event :: after →
        run crypto ch before = .ok ch' → Safe crypto ch' event := by
  induction events generalizing ch with
  | nil =>
    refine ⟨fun _ before event after ch' heq => ?_, fun _ => ⟨ch, rfl⟩⟩
    cases before <;> cases heq
  | cons first rest ih =>
    have hfirst := @step_returns_iff _ _ crypto ch first h
    constructor
    · rintro ⟨last, hlast⟩ before event after ch' heq hbefore
      obtain ⟨ch₁, hch₁, hrest⟩ := bind_eq_ok.1 hlast
      cases before with
      | nil =>
        cases heq
        cases hbefore
        exact hfirst.1 ⟨ch₁, hch₁⟩
      | cons first' before =>
        cases heq
        obtain ⟨ch₂, hch₂, hbefore⟩ := bind_eq_ok.1 hbefore
        obtain rfl : ch₁ = ch₂ := Except.ok.inj (hch₁.symm.trans hch₂)
        exact (ih ch₁ (step_wellFormed h hch₁)).1 ⟨last, hrest⟩ before event after ch' rfl hbefore
    · intro hsafe
      obtain ⟨ch₁, hch₁⟩ := hfirst.2 (hsafe [] first rest ch rfl rfl)
      obtain ⟨last, hlast⟩ :=
        (ih ch₁ (step_wellFormed h hch₁)).2 fun before event after ch' heq hrun =>
        hsafe (first :: before) event after ch' (by rw [heq]; rfl)
          (bind_eq_ok.2 ⟨ch₁, hch₁, hrun⟩)
      exact ⟨last, bind_eq_ok.2 ⟨ch₁, hch₁, hlast⟩⟩

end Runs

/-! ### A channel -/

/-- A signature is the transaction it signs, and whose it is. -/
def plainCrypto : Crypto ℕ (ClosingTransaction ℕ × Bool) where
  scriptLen _ := 22
  isWitnessProgram _ := true
  verify tx sig := sig = (tx, false)
  sign tx := (tx, true)

def plainEnv : CallEnv where
  maximumFeeEstimate := 5000
  channelCloseMinimum := 1000
  nonAnchorChannelFee := 2000
  minAllowedAnchorChannelRemoteFee := 253
  minAllowedNonAnchorChannelRemoteFee := 253
  signerReady := true

/-- Both sides have shut down a channel of 100,000 sat that the counterparty funded; it has
40,000 sat. -/
def plainChannel : FundedChannel ℕ (ClosingTransaction ℕ × Bool) where
  channelState := .channelReady ⟨⟨false, false, true, true⟩, false, false, false, false⟩
  isOutbound := false
  valueSatoshis := 100000
  valueToSelfMsat := 60000000
  channelType := ⟨false, false⟩
  holderKeyFirst := true
  feeratePerKw := 253
  holderDustLimitSatoshis := 354
  pendingInboundHtlcs := 0
  pendingOutboundHtlcs := 0
  pendingUpdateFee := none
  shutdownScriptpubkey := some 1
  counterpartyShutdownScriptpubkey := some 2
  localInitiatedShutdown := false
  targetClosingFeerateSatsPerKw := none
  forceCloseAvoidanceMaxFeeSatoshis := 1000
  expectingPeerCommitmentSigned := false
  closingFeeLimits := none
  lastSentClosingFee := none
  lastReceivedClosingSig := none
  pendingCounterpartyClosingSigned := none
  signerPendingClosing := false

def plainMsg (fee : ℕ) : ClosingSigned (ClosingTransaction ℕ × Bool) where
  feeSatoshis := fee
  signature := (plainChannel.txAt 1 2 fee false, false)
  feeRange := some ⟨fee, fee⟩

theorem plainChannel_wellFormed : plainChannel.WellFormed plainCrypto where
  value_le := by decide
  balance_le := by decide
  script := rfl
  counterpartyScript := rfl
  scriptLen_lt := fun _ _ => show 22 < 2 ^ 16 by decide
  counterpartyScriptLen_lt := fun _ _ => show 22 < 2 ^ 16 by decide
  limits := fun _ hnone => by cases hnone
  minFee_lt := fun _ hnone => by cases hnone
  sent := fun _ hnone => by cases hnone

/-- A proposal that the counterparty can pay meets the condition, and is handled. -/
theorem run_returns_iff_plain :
    Returns (run plainCrypto plainChannel [.closingSigned plainEnv (plainMsg 1000)]) ∧
      plainChannel.ClosingSignedSafe plainCrypto plainEnv (plainMsg 1000) := by
  have hreturns : Returns
      (run plainCrypto plainChannel [.closingSigned plainEnv (plainMsg 1000)]) :=
    returns_of_isSome (by decide +kernel)
  refine ⟨hreturns, ?_⟩
  exact (run_returns_iff plainCrypto plainChannel plainChannel_wellFormed _).1 hreturns [] _ []
    plainChannel rfl rfl

/-- **The counterparty can make us panic**, in two ways: it sends `update_fee` after both sides have
shut down, and then `closing_signed`; or it proposes a fee that it cannot pay. -/
theorem closing_panics :
    plainChannel.WellFormed plainCrypto ∧
      run plainCrypto plainChannel
        [.updateFee plainEnv 300, .closingSigned plainEnv (plainMsg 1000)]
        = .error .assertion ∧
      run plainCrypto plainChannel [.closingSigned plainEnv (plainMsg 40001)]
        = .error .debugAssertion :=
  ⟨plainChannel_wellFormed, rfl, rfl⟩

end PqLightning.Closing
