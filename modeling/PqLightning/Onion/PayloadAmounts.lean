import Mathlib.Algebra.Order.Ring.Nat
import PqLightning.Onion.Payloads

/-!
# The amounts and CLTVs in the payloads

The walk of `build_onion_payloads_callback` adds up fees and deltas from the last hop to the first.
Here is what the sums are, and when they are what the hops need. There are three ways to go wrong:

* the sum of the fees is compared with the supply of bitcoin after it was added up in 64 bits, and
  the addition may overflow first;
* the height of a blinded receive payload is a sum in 32 bits that nothing bounds;
* a running value of zero is taken for the start of the walk, so that if the recipient is to get
  nothing, the payload of a hop in front of it says to forward the hop's own fee.

## Main results

* `walk_ends`, `buildOnionPayloads_outcome` — whether the walk returns, refuses or overflows
* `exactOrRefused_iff` — the paths for which the payloads are exact or refused
-/

namespace PqLightning.Onion

open List

/-! ### How a call ends -/

section Outcome

variable {α β : Type} {ok : α → Prop} {ok' : β → Prop} {refused refused' panicked panicked' : Prop}

def Outcome (ok : α → Prop) (refused panicked : Prop) : Except OnionError α → Prop
  | .ok a => ok a
  | .error (.invalidRoute _) => refused
  | .error (.panicked _) => panicked

theorem Outcome.bind {x : Except OnionError α} {f : α → Except OnionError β}
    (hx : Outcome ok refused panicked x)
    (hf : ∀ a, ok a → Outcome ok' refused' panicked' (f a))
    (hrefused : refused → refused') (hpanicked : panicked → panicked') :
    Outcome ok' refused' panicked' (x >>= f) := by
  cases x with
  | ok a => exact hf a hx
  | error e =>
    cases e with
    | invalidRoute => exact hrefused hx
    | panicked => exact hpanicked hx

theorem Outcome.mono {ok' : α → Prop} {x : Except OnionError α} (hx : Outcome ok refused panicked x)
    (hok : ∀ a, ok a → ok' a) (hrefused : refused → refused') (hpanicked : panicked → panicked') :
    Outcome ok' refused' panicked' x := by
  rw [← bind_pure x]
  exact hx.bind hok hrefused hpanicked

theorem addU64_outcome (a b : ℕ) :
    Outcome (fun sum => a + b < 2 ^ 64 ∧ sum = a + b) False (2 ^ 64 ≤ a + b)
      (OnionError.ofPanic (addU64 a b)) := by
  rw [addU64]
  split
  next h => exact ⟨h, rfl⟩
  next h => exact not_lt.mp h

theorem addU32_outcome (a b : ℕ) :
    Outcome (fun sum => a + b < 2 ^ 32 ∧ sum = a + b) False (2 ^ 32 ≤ a + b)
      (OnionError.ofPanic (addU32 a b)) := by
  rw [addU32]
  split
  next h => exact ⟨h, rfl⟩
  next h => exact not_lt.mp h

theorem guardWith_outcome (p : Prop) [Decidable p] (err : String) :
    Outcome (fun _ => p) (¬ p) False (guardWith p (.invalidRoute err)) := by
  rw [guardWith]
  split <;> assumption

end Outcome

/-! ### What is due -/

section Due

variable {HopId Payload : Type} (finalValueMsat curBlockHeight : ℕ) (hops : List (PathHop HopId))

/-- What the first of the hops is to receive, if the last is to end up with `finalValueMsat` and its
own fee. -/
def dueMsat : ℕ := finalValueMsat + (hops.map PathHop.feeMsat).sum

def dueCltv : ℕ := curBlockHeight + (hops.map PathHop.cltvExpiryDelta).sum

def Payable : Prop :=
  dueMsat finalValueMsat hops < 21000000 * 100000000 * 1000 ∧
    dueCltv curBlockHeight hops < 500000000

instance : Decidable (Payable finalValueMsat curBlockHeight hops) :=
  inferInstanceAs (Decidable (_ ∧ _))

/-- The walk refuses the path before a sum of fees overflows. -/
def FeesFit : Prop :=
  ∀ suffix ∈ hops.tails, suffix.tail = [] ∨ Payable finalValueMsat curBlockHeight suffix.tail →
    dueMsat finalValueMsat suffix < 2 ^ 64

/-- Where a hop is to receive nothing, the hop in front of it keeps nothing. -/
def NothingForFree : Prop :=
  ∀ suffix ∈ hops.tails, suffix.tail ≠ [] → dueMsat finalValueMsat suffix.tail = 0 →
    dueMsat finalValueMsat suffix = 0

/-- The payloads of all hops but the last. Each says what the next hop is to receive, as `carried`
reports it. -/
def forwards (op : OnionPayload PublicKey HopId Payload) (carried : PathHop HopId → ℕ → ℕ) :
    List (PathHop HopId) → List Payload
  | [] => []
  | [_] => []
  | hop :: next :: hops =>
    op.newForward next.hopId (carried hop (dueMsat finalValueMsat (next :: hops)))
      (dueCltv curBlockHeight (next :: hops)) :: forwards op carried (next :: hops)

/-- What the walk takes for the value of the next hop. -/
def valueMsat (hop : PathHop HopId) (curValueMsat : ℕ) : ℕ :=
  if curValueMsat = 0 then hop.feeMsat else curValueMsat

variable {finalValueMsat curBlockHeight hops} (hop : PathHop HopId)

theorem dueMsat_cons : dueMsat finalValueMsat (hop :: hops) =
    dueMsat finalValueMsat hops + hop.feeMsat := by
  simp only [dueMsat, map_cons, sum_cons]
  omega

theorem dueCltv_cons : dueCltv curBlockHeight (hop :: hops) =
    dueCltv curBlockHeight hops + hop.cltvExpiryDelta := by
  simp only [dueCltv, map_cons, sum_cons]
  omega

theorem feesFit_nil : FeesFit finalValueMsat curBlockHeight ([] : List (PathHop HopId)) ↔
    finalValueMsat < 2 ^ 64 := by
  simp [FeesFit, dueMsat]

theorem feesFit_cons : FeesFit finalValueMsat curBlockHeight (hop :: hops) ↔
    (hops = [] ∨ Payable finalValueMsat curBlockHeight hops →
      dueMsat finalValueMsat (hop :: hops) < 2 ^ 64) ∧
      FeesFit finalValueMsat curBlockHeight hops := by
  simp [FeesFit]

theorem nothingForFree_cons : NothingForFree finalValueMsat (hop :: hops) ↔
    (hops ≠ [] → dueMsat finalValueMsat hops = 0 → hop.feeMsat = 0) ∧
      NothingForFree finalValueMsat hops := by
  simp +contextual [NothingForFree, dueMsat_cons]

variable {hop}

theorem Payable.of_cons (h : Payable finalValueMsat curBlockHeight (hop :: hops)) :
    Payable finalValueMsat curBlockHeight hops := by
  rw [Payable, dueMsat_cons, dueCltv_cons] at h
  exact ⟨by omega, by omega⟩

theorem Payable.feesFit (h : Payable finalValueMsat curBlockHeight hops) :
    FeesFit finalValueMsat curBlockHeight hops := by
  induction hops with
  | nil => exact feesFit_nil.mpr (h.1.trans (by decide))
  | cons hop hops ih =>
    exact (feesFit_cons hop).mpr ⟨fun _ => h.1.trans (by decide), ih h.of_cons⟩

theorem feesFit_cons_iff (h : hops = [] ∨ Payable finalValueMsat curBlockHeight hops) :
    FeesFit finalValueMsat curBlockHeight (hop :: hops) ↔
      dueMsat finalValueMsat (hop :: hops) < 2 ^ 64 := by
  rw [feesFit_cons]
  refine ⟨fun hfit => hfit.1 h, fun hlt => ⟨fun _ => hlt, ?_⟩⟩
  rcases h with rfl | hpayable
  · exact feesFit_nil.mpr ((Nat.le_add_right _ _).trans_lt hlt)
  · exact hpayable.feesFit

theorem length_forwards (op : OnionPayload PublicKey HopId Payload)
    (carried : PathHop HopId → ℕ → ℕ) :
    (forwards finalValueMsat curBlockHeight op carried hops).length = hops.length - 1 := by
  fun_induction forwards <;> simp_all

end Due

/-! ### The walk -/

section Walk

variable {HopId Payload : Type} {op : OnionPayload PublicKey HopId Payload}
  {finalValueMsat curBlockHeight numTail : ℕ} {hop : PathHop HopId} {hops : List (PathHop HopId)}
  {walk : Walk HopId Payload}

/-- Where the walk is after the hops. -/
structure Reached (op : OnionPayload PublicKey HopId Payload)
    (finalValueMsat curBlockHeight numTail : ℕ) (hops : List (PathHop HopId))
    (walk : Walk HopId Payload) : Prop where
  payable : Payable finalValueMsat curBlockHeight hops
  curValueMsat : walk.curValueMsat = dueMsat finalValueMsat hops
  curCltv : walk.curCltv = dueCltv curBlockHeight hops
  lastHopId : walk.lastHopId = hops.head?.map PathHop.hopId
  res : ∃ tail, tail.length = numTail ∧
    walk.res = forwards finalValueMsat curBlockHeight op valueMsat hops ++ tail

/-- How the walk over the hops ends if the payloads of the last can be made. -/
def WalkOutcome (op : OnionPayload PublicKey HopId Payload)
    (finalValueMsat curBlockHeight numTail : ℕ) (hops : List (PathHop HopId)) :
    Except OnionError (Walk HopId Payload) → Prop :=
  Outcome (Reached op finalValueMsat curBlockHeight numTail hops)
    (FeesFit finalValueMsat curBlockHeight hops ∧ ¬ Payable finalValueMsat curBlockHeight hops)
    (¬ FeesFit finalValueMsat curBlockHeight hops)

theorem saturatingAddU32_lt_iff {a b : ℕ} :
    saturatingAddU32 a b < 500000000 ↔ a + b < 500000000 := by
  rw [saturatingAddU32]
  omega

theorem saturatingAddU32_of_lt {a b : ℕ} (h : a + b < 500000000) :
    saturatingAddU32 a b = a + b := by
  rw [saturatingAddU32]
  omega

theorem closeHop_outcome (hop : PathHop HopId) (delta : ℕ) (walk : Walk HopId Payload) :
    Outcome (fun walk' => (walk.curValueMsat + hop.feeMsat < 21000000 * 100000000 * 1000 ∧
          walk.curCltv + delta < 500000000) ∧
        walk' = ⟨walk.curValueMsat + hop.feeMsat, walk.curCltv + delta, some hop.hopId, walk.res⟩)
      (walk.curValueMsat + hop.feeMsat < 2 ^ 64 ∧
        ¬ (walk.curValueMsat + hop.feeMsat < 21000000 * 100000000 * 1000 ∧
          walk.curCltv + delta < 500000000))
      (2 ^ 64 ≤ walk.curValueMsat + hop.feeMsat) (closeHop hop delta walk) := by
  refine (addU64_outcome _ _).bind ?_ False.elim id
  rintro _ ⟨hsum, rfl⟩
  refine (guardWith_outcome _ _).bind ?_ (fun h => ⟨hsum, fun hfits => h hfits.1⟩) False.elim
  intro _ hvalue
  refine (guardWith_outcome _ _).bind ?_
    (fun h => ⟨hsum, fun hfits => h (saturatingAddU32_lt_iff.mpr hfits.2)⟩) False.elim
  intro _ hcltv
  have hlt := saturatingAddU32_lt_iff.mp hcltv
  exact ⟨⟨hvalue, hlt⟩, by rw [saturatingAddU32_of_lt hlt]⟩

/-- **Step.** The end of a round, whatever payload it made. -/
theorem closeHop_reached (hstart : hops = [] ∨ Payable finalValueMsat curBlockHeight hops)
    (hvalue : walk.curValueMsat = dueMsat finalValueMsat hops)
    (hcltv : walk.curCltv = dueCltv curBlockHeight hops)
    (hres : ∃ tail, tail.length = numTail ∧
      walk.res = forwards finalValueMsat curBlockHeight op valueMsat (hop :: hops) ++ tail) :
    WalkOutcome op finalValueMsat curBlockHeight numTail (hop :: hops)
      (closeHop hop hop.cltvExpiryDelta walk) := by
  rw [WalkOutcome, feesFit_cons_iff hstart, not_lt, Payable, dueMsat_cons, dueCltv_cons, ← hvalue,
    ← hcltv]
  refine (closeHop_outcome _ _ _).mono ?_ id id
  rintro walk' ⟨hfits, rfl⟩
  refine ⟨?_, ?_, ?_, rfl, hres⟩
  · rwa [Payable, dueMsat_cons, dueCltv_cons, ← hvalue, ← hcltv]
  · rw [dueMsat_cons, hvalue]
  · rw [dueCltv_cons, hcltv]

theorem forwardRound_outcome (hne : hops ≠ [])
    (h : Reached op finalValueMsat curBlockHeight numTail hops walk) :
    WalkOutcome op finalValueMsat curBlockHeight numTail (hop :: hops)
      (forwardRound op walk hop) := by
  obtain ⟨next, hops, rfl⟩ := exists_cons_of_ne_nil hne
  obtain ⟨tail, hlength, hres⟩ := h.res
  rw [forwardRound, h.lastHopId]
  refine closeHop_reached (.inr h.payable) h.curValueMsat h.curCltv ⟨tail, hlength, ?_⟩
  rw [forwards, cons_append, ← hres, ← h.curValueMsat, ← h.curCltv, valueMsat]

end Walk

/-! ### A path -/

section Path

variable (path : Path PublicKey) (curBlockHeight : ℕ) (trampolinePacket : Option (Packet PublicKey))

/-- `Must be at least length one`, and so must a blinded path. -/
structure Path.WellFormed : Prop where
  hops_ne_nil : path.hops ≠ []
  tail_ne_nil : ∀ tail ∈ path.blindedTail, tail.hops ≠ []

/-- What the recipient gets beyond the fee of the last hop. -/
def Path.tailValueMsat : ℕ := path.blindedTail.elim 0 BlindedTail.finalValueMsat

/-- The blinded hops beyond the introduction node. If there is a Trampoline packet, they are in
there. -/
def Path.hopsBeyond : ℕ :=
  match path.blindedTail, trampolinePacket with
  | some tail, none => tail.hops.length - 1
  | _, _ => 0

def Path.HeightFits : Prop :=
  trampolinePacket = none → ∀ tail ∈ path.blindedTail,
    curBlockHeight + tail.excessFinalCltvExpiryDelta < 2 ^ 32

def Path.pathHops : List (PathHop ℕ) := path.hops.map RouteHop.pathHop

structure ExactPayloads (payloads : List (OutboundOnionPayload PublicKey)) (valueMsat cltv : ℕ) :
    Prop where
  length_eq : payloads.length = path.hops.length + path.hopsBeyond trampolinePacket
  value_eq : valueMsat = path.tailValueMsat + (path.hops.map RouteHop.feeMsat).sum
  value_lt : valueMsat < 21000000 * 100000000 * 1000
  cltv_eq : cltv = curBlockHeight + (path.hops.map RouteHop.cltvExpiryDelta).sum
  cltv_lt : cltv < 500000000
  /-- A hop that forwards is told what the next hop is to receive, and its channel. -/
  forwards_eq : forwards path.tailValueMsat curBlockHeight outboundOnionPayload (fun _ due => due)
    path.pathHops <+: payloads

variable (recipientOnion : RecipientOnionFields) (keysendPreimage : Option Bytes32)
  (invoiceRequest : Option (List UInt8))

def ExactOrRefused : Prop :=
  Outcome (fun (payloads, valueMsat, cltv) =>
      ExactPayloads path curBlockHeight trampolinePacket payloads valueMsat cltv) True False
    (buildOnionPayloads path recipientOnion curBlockHeight keysendPreimage invoiceRequest
      trampolinePacket)

variable {path curBlockHeight trampolinePacket recipientOnion keysendPreimage invoiceRequest}

theorem blindedPayloads_outcome {HopId Payload : Type} {op : OnionPayload PublicKey HopId Payload}
    {finalValueMsat excess curValueMsat : ℕ} {hops : List (BlindedHop PublicKey)}
    {point : Option PublicKey} (hne : hops ≠ []) :
    Outcome (fun r => curBlockHeight + excess < 2 ^ 32 ∧ r.1.length = hops.length ∧
        r.2 = curValueMsat + finalValueMsat) False
      (2 ^ 64 ≤ curValueMsat + finalValueMsat ∨ 2 ^ 32 ≤ curBlockHeight + excess)
      (blindedPayloads op recipientOnion curBlockHeight keysendPreimage invoiceRequest
        finalValueMsat excess hops point curValueMsat) := by
  fun_induction blindedPayloads with
  | case1 => exact absurd rfl hne
  | case2 hop =>
    refine (addU64_outcome _ _).bind ?_ id .inl
    rintro _ ⟨hsum, rfl⟩
    refine (addU32_outcome _ _).bind ?_ id .inr
    rintro _ ⟨hheight, rfl⟩
    exact ⟨hheight, rfl, rfl⟩
  | case3 hop point curValueMsat hop' hops ih =>
    refine (ih (cons_ne_nil _ _)).bind ?_ id id
    rintro ⟨payloads, value⟩ ⟨hheight, hlength, hvalue⟩
    exact ⟨hheight, by simp_all, hvalue⟩

/-- What `build_onion_payloads` passes on for the end of the path. -/
def Path.tailDetails (path : Path PublicKey) (trampolinePacket : Option (Packet PublicKey)) :
    Option (TailDetails PublicKey) :=
  path.blindedTail.map fun tail =>
    match trampolinePacket with
    | some packet => .sendToTrampoline packet tail.finalValueMsat
    | none => tail.details

variable (path curBlockHeight trampolinePacket) in
/-- How the walk over the last hops of the path ends. -/
def Path.Ends (hops : List (PathHop ℕ)) :
    Except OnionError (Walk ℕ (OutboundOnionPayload PublicKey)) → Prop :=
  Outcome (fun walk => path.HeightFits curBlockHeight trampolinePacket ∧
      Reached outboundOnionPayload path.tailValueMsat curBlockHeight
        (path.hopsBeyond trampolinePacket + 1) hops walk)
    (path.HeightFits curBlockHeight trampolinePacket ∧
      FeesFit path.tailValueMsat curBlockHeight hops ∧
      ¬ Payable path.tailValueMsat curBlockHeight hops)
    (¬ (path.HeightFits curBlockHeight trampolinePacket ∧
      FeesFit path.tailValueMsat curBlockHeight hops))

theorem WalkOutcome.ends {hops : List (PathHop ℕ)}
    {x : Except OnionError (Walk ℕ (OutboundOnionPayload PublicKey))}
    (h : WalkOutcome outboundOnionPayload path.tailValueMsat curBlockHeight
      (path.hopsBeyond trampolinePacket + 1) hops x)
    (hheight : path.HeightFits curBlockHeight trampolinePacket) :
    path.Ends curBlockHeight trampolinePacket hops x := by
  refine h.mono ?_ ?_ ?_
  · exact fun _ hreached => ⟨hheight, hreached⟩
  · exact fun hrefused => ⟨hheight, hrefused⟩
  · exact fun hpanicked hboth => hpanicked hboth.2

theorem ends_closeHop {last : PathHop ℕ} {payloads : List (OutboundOnionPayload PublicKey)}
    (hheight : path.HeightFits curBlockHeight trampolinePacket)
    (hlength : payloads.length = path.hopsBeyond trampolinePacket + 1) :
    path.Ends curBlockHeight trampolinePacket [last]
      (closeHop last last.cltvExpiryDelta ⟨path.tailValueMsat, curBlockHeight, none, payloads⟩) :=
  (closeHop_reached (.inl rfl) rfl rfl ⟨payloads, hlength, rfl⟩).ends hheight

/-- The round for the last hop. -/
theorem tailRound_ends (hwf : path.WellFormed) (last : PathHop ℕ) :
    path.Ends curBlockHeight trampolinePacket [last]
      (tailRound outboundOnionPayload recipientOnion curBlockHeight keysendPreimage invoiceRequest
        (path.tailDetails trampolinePacket) last) := by
  obtain ⟨hops, _ | tail⟩ := path
  · exact ends_closeHop (fun _ _ h => nomatch h) rfl
  have hne := hwf.tail_ne_nil tail rfl
  have hfees := @feesFit_cons_iff _ tail.finalValueMsat curBlockHeight [] last (.inl rfl)
  rw [dueMsat_cons] at hfees
  cases trampolinePacket with
  | some packet =>
    refine (addU64_outcome _ _).bind ?_ False.elim (fun h hboth => ?_)
    · rintro _ ⟨-, rfl⟩
      exact ends_closeHop nofun rfl
    · exact absurd (hfees.mp hboth.2) (not_lt.mpr h)
  | none =>
    refine (blindedPayloads_outcome hne).bind ?_ False.elim ?_
    · rintro ⟨payloads, value⟩ ⟨hheight, hlength, hvalue⟩
      obtain rfl : value = tail.finalValueMsat := hvalue.trans (Nat.zero_add _)
      refine ends_closeHop (fun _ _ htail => Option.mem_some.mp htail ▸ hheight) ?_
      have hpos := length_pos_iff.mpr hne
      dsimp only [Path.hopsBeyond] at hlength ⊢
      omega
    · rintro (hvalue | hheight) hboth
      · have hlt := (feesFit_cons last).mp hboth.2
        have hfinal := feesFit_nil.mp hlt.2
        dsimp only [Path.tailValueMsat, Option.elim] at hfinal
        omega
      · exact absurd (hboth.1 rfl tail rfl) (not_lt.mpr hheight)

/-- **Run.** -/
theorem walk_ends (hwf : path.WellFormed) (hops : List (PathHop ℕ)) (last : PathHop ℕ) :
    path.Ends curBlockHeight trampolinePacket (hops ++ [last])
      (tailRound outboundOnionPayload recipientOnion curBlockHeight keysendPreimage invoiceRequest
        (path.tailDetails trampolinePacket) last >>=
        hops.reverse.foldlM (forwardRound outboundOnionPayload)) := by
  induction hops with
  | nil =>
    rw [reverse_nil, nil_append]
    exact (bind_pure (tailRound ..)).symm ▸ tailRound_ends hwf last
  | cons hop hops ih =>
    have hne : hops ++ [last] ≠ [] := by simp
    have hfees := @feesFit_cons _ path.tailValueMsat curBlockHeight (hops ++ [last]) hop
    simp only [reverse_cons, foldlM_append, foldlM_cons, foldlM_nil, bind_pure]
    rw [← bind_assoc]
    refine ih.bind ?_ ?_ ?_
    · rintro walk ⟨hheight, hreached⟩
      exact (forwardRound_outcome hne hreached).ends hheight
    · rintro ⟨hheight, hfit, hpayable⟩
      refine ⟨hheight, hfees.mpr ⟨?_, hfit⟩, fun h => hpayable h.of_cons⟩
      exact fun h => h.elim (absurd · hne) (absurd · hpayable)
    · exact fun h hboth => h ⟨hboth.1, (hfees.mp hboth.2).2⟩

/-- What `build_onion_payloads` returns, and when. -/
theorem buildOnionPayloads_outcome (hwf : path.WellFormed) :
    Outcome (fun r => path.HeightFits curBlockHeight trampolinePacket ∧
        Payable path.tailValueMsat curBlockHeight path.pathHops ∧
        r.2 = (dueMsat path.tailValueMsat path.pathHops, dueCltv curBlockHeight path.pathHops) ∧
        ∃ tail, tail.length = path.hopsBeyond trampolinePacket + 1 ∧
          r.1 = forwards path.tailValueMsat curBlockHeight outboundOnionPayload valueMsat
            path.pathHops ++ tail)
      (path.HeightFits curBlockHeight trampolinePacket ∧
        FeesFit path.tailValueMsat curBlockHeight path.pathHops ∧
        ¬ Payable path.tailValueMsat curBlockHeight path.pathHops)
      (¬ (path.HeightFits curBlockHeight trampolinePacket ∧
        FeesFit path.tailValueMsat curBlockHeight path.pathHops))
      (buildOnionPayloads path recipientOnion curBlockHeight keysendPreimage invoiceRequest
        trampolinePacket) := by
  obtain ⟨hops, last, hsnoc⟩ : ∃ hops last, path.pathHops = hops ++ [last] := by
    have hne : path.pathHops ≠ [] := by simpa [Path.pathHops] using hwf.hops_ne_nil
    exact ⟨_, _, (dropLast_append_getLast hne).symm⟩
  have hbuild : buildOnionPayloads path recipientOnion curBlockHeight keysendPreimage
      invoiceRequest trampolinePacket =
      (tailRound outboundOnionPayload recipientOnion curBlockHeight keysendPreimage invoiceRequest
        (path.tailDetails trampolinePacket) last >>=
        hops.reverse.foldlM (forwardRound outboundOnionPayload)) >>=
        fun walk => .ok (walk.res, walk.curValueMsat, walk.curCltv) := by
    rw [buildOnionPayloads, ← Path.pathHops, hsnoc, buildOnionPayloadsCallback, reverse_append,
      bind_assoc]
    rfl
  rw [hbuild, hsnoc]
  refine (walk_ends hwf hops last).bind ?_ id id
  rintro walk ⟨hheight, hreached⟩
  exact ⟨hheight, hreached.payable, by rw [← hreached.curValueMsat, ← hreached.curCltv],
    hreached.res⟩

theorem forwards_prefix_iff {finalValueMsat : ℕ} {hops : List (PathHop ℕ)}
    {tail : List (OutboundOnionPayload PublicKey)} :
    forwards finalValueMsat curBlockHeight outboundOnionPayload (fun _ due => due) hops <+:
        forwards finalValueMsat curBlockHeight outboundOnionPayload valueMsat hops ++ tail ↔
      NothingForFree finalValueMsat hops := by
  rw [prefix_iff_eq_take, take_left' (by rw [length_forwards, length_forwards])]
  fun_induction forwards finalValueMsat curBlockHeight outboundOnionPayload valueMsat hops with
  | case1 => simp [forwards, NothingForFree]
  | case2 => simp [forwards, NothingForFree]
  | case3 hop next hops ih =>
    rw [nothingForFree_cons, ← ih, forwards, cons.injEq]
    refine and_congr ?_ Iff.rfl
    simp only [outboundOnionPayload, OutboundOnionPayload.forward.injEq, valueMsat]
    split <;> simp_all [eq_comm]

/-- **Payloads are exact or refused** if no sum of fees overflows before the walk refuses it, the
height of the recipient fits, and a path that can be paid does not take a fee for forwarding
nothing; and only then. -/
theorem exactOrRefused_iff (hwf : path.WellFormed) :
    ExactOrRefused path curBlockHeight trampolinePacket recipientOnion keysendPreimage
        invoiceRequest ↔
      path.HeightFits curBlockHeight trampolinePacket ∧
      FeesFit path.tailValueMsat curBlockHeight path.pathHops ∧
      (Payable path.tailValueMsat curBlockHeight path.pathHops →
        NothingForFree path.tailValueMsat path.pathHops) := by
  have houtcome := @buildOnionPayloads_outcome _ path curBlockHeight trampolinePacket recipientOnion
    keysendPreimage invoiceRequest hwf
  rw [ExactOrRefused]
  cases hbuild : buildOnionPayloads path recipientOnion curBlockHeight keysendPreimage
    invoiceRequest trampolinePacket with
  | ok r =>
    rw [hbuild] at houtcome
    obtain ⟨payloads, value, cltv⟩ := r
    obtain ⟨hheight, hpayable, hsums, tail, hlength, rfl⟩ := houtcome
    obtain ⟨rfl, rfl⟩ := Prod.mk.inj hsums
    constructor
    · intro hexact
      exact ⟨hheight, hpayable.feesFit, fun _ => forwards_prefix_iff.mp hexact.forwards_eq⟩
    · rintro ⟨-, -, hfree⟩
      refine ⟨?_, ?_, hpayable.1, ?_, hpayable.2, forwards_prefix_iff.mpr (hfree hpayable)⟩
      · rw [length_append, length_forwards, hlength, Path.pathHops, length_map]
        have hpos := length_pos_iff.mpr hwf.hops_ne_nil
        omega
      · simp [dueMsat, Path.pathHops, Function.comp_def, RouteHop.pathHop]
      · simp [dueCltv, Path.pathHops, Function.comp_def, RouteHop.pathHop]
  | error e =>
    rw [hbuild] at houtcome
    cases e with
    | invalidRoute =>
      obtain ⟨hheight, hfees, hpayable⟩ := houtcome
      exact iff_of_true trivial ⟨hheight, hfees, (absurd · hpayable)⟩
    | panicked => exact iff_of_false id fun h => houtcome ⟨h.1, h.2.1⟩

end Path

def sampleRecipient : RecipientOnionFields := ⟨none, 1000, none, []⟩

/-- Two hops and a blinded path of two. -/
def blindedSample : Path ℕ where
  hops := [⟨1, 10, 500, 40⟩, ⟨2, 20, 70, 80⟩]
  blindedTail := some ⟨[], [⟨3, [1]⟩, ⟨4, [2]⟩], 5, 12, 1000, none⟩

theorem exactOrRefused_blindedSample :
    blindedSample.WellFormed ∧
      ExactOrRefused blindedSample 800000 none sampleRecipient none none := by
  have hwf : blindedSample.WellFormed := ⟨by decide, fun _ h => Option.mem_some.mp h ▸ by decide⟩
  have hpayable : Payable blindedSample.tailValueMsat 800000 blindedSample.pathHops := by decide
  refine ⟨hwf, (exactOrRefused_iff hwf).mpr ⟨fun _ _ h => ?_, hpayable.feesFit, fun _ => ?_⟩⟩
  · exact Option.mem_some.mp h ▸ by decide
  · unfold NothingForFree
    decide

def twoHops (feeMsat lastFeeMsat : ℕ) : Path ℕ :=
  ⟨[⟨1, 10, feeMsat, 40⟩, ⟨2, 20, lastFeeMsat, 18⟩], none⟩

/-- The fees overflow instead of being refused, and for a recipient that is to get nothing the hop
in front of it is told to forward its own fee. -/
theorem twoHops_not_exactOrRefused :
    (buildOnionPayloads (twoHops (2 ^ 64 - 1) 1000) sampleRecipient 800000 none none none =
        .error (.panicked .overflow) ∧
      ¬ ExactOrRefused (twoHops (2 ^ 64 - 1) 1000) 800000 none sampleRecipient none none) ∧
    buildOnionPayloads (twoHops 1000 0) sampleRecipient 800000 none none none =
        .ok ([.forward 20 1000 800018, .receive none none none [] 0 800018], 1000, 800058) ∧
      ¬ ExactOrRefused (twoHops 1000 0) 800000 none sampleRecipient none none := by
  refine ⟨⟨rfl, id⟩, by decide +kernel, fun h => ?_⟩
  exact absurd h.forwards_eq (by decide)

end PqLightning.Onion
