import PqLightning.Basic

/-!
# The fees along a payment path

When the router changes the value of a path it recomputes the fees from the payee back to the payer
(`update_value_and_recompute_fees` of `routing/router.rs`). A hop below its minimum is overpaid. On
the last hop the excess goes to the payee: the loop returns it, but leaves it out of the running
total it takes the other hops' amounts from.

So the amount the loop computes a hop's fee from is short of what the hop forwards by that excess,
everywhere but at the last hop. The fees are right all the same where the fees and the minimums of
the other hops do not let that be seen (`AbsorbsExcess`).
-/

namespace PqLightning.Routing

structure RoutingFees where
  (baseMsat proportionalMillionths : ℕ)
deriving DecidableEq

def RoutingFees.feeMsat (fees : RoutingFees) (amountMsat : ℕ) : ℕ :=
  fees.baseMsat + amountMsat * fees.proportionalMillionths / 1000000

def computeFees (amountMsat : ℕ) (channelFees : RoutingFees) : Option ℕ := do
  guard (amountMsat * channelFees.proportionalMillionths < 2 ^ 64)
  guard (channelFees.feeMsat amountMsat < 2 ^ 64)
  return channelFees.feeMsat amountMsat

/-- `struct PathBuildingHop`, with what its candidate charges and accepts. -/
structure PathBuildingHop where
  fees : RoutingFees
  (htlcMinimumMsat feeMsat nextHopsFeeMsat hopUseFeeMsat pathPenaltyMsat : ℕ)
deriving DecidableEq

/-- The `fee_msat` of a hop, the total fee and the extra contribution, if `missing` is what the hop
needs to reach its minimum. -/
def payHop (next : Option PathBuildingHop) (transferred missing totalFee extra : ℕ) :
    Except Panic (ℕ × ℕ × ℕ) :=
  match next with
  | none => return (transferred, totalFee, missing)
  | some next => do
    let totalFee ← addU64 totalFee missing
    let feeMsat ← addU64 next.hopUseFeeMsat missing
    return (feeMsat, totalFee, extra)

/-- What the use of a hop costs on the hop before it. -/
def chargeHop (hop : PathBuildingHop) (transferred totalFee : ℕ) :
    Except Panic (PathBuildingHop × ℕ) :=
  match computeFees transferred hop.fees with
  | none => throw .unreachable
  | some newFee => do
    let totalFee ← addU64 totalFee newFee
    return ({ hop with hopUseFeeMsat := newFee }, totalFee)

def recomputeHop (valueMsat : ℕ) (first : Bool) (hop : PathBuildingHop)
    (next : Option PathBuildingHop) (totalFee extra : ℕ) :
    Except Panic (PathBuildingHop × ℕ × ℕ) := do
  let penalty ← addU64 hop.pathPenaltyMsat extra
  let transferred ← addU64 totalFee valueMsat
  -- nothing is missing where `checked_sub` is `None`
  let missing := hop.htlcMinimumMsat - transferred
  let transferred ← addU64 transferred missing
  let (feeMsat, totalFee', extra) ← payHop next transferred missing totalFee extra
  let hop := { hop with nextHopsFeeMsat := totalFee, pathPenaltyMsat := penalty, feeMsat }
  let (hop, totalFee) ←
    (if first then pure (hop, totalFee') else chargeHop hop transferred totalFee')
  return (hop, totalFee, extra)

def recomputeFees (valueMsat : ℕ) (first : Bool) :
    List PathBuildingHop → Except Panic (List PathBuildingHop × ℕ × ℕ)
  | [] => return ([], 0, 0)
  | hop :: hops => do
    let (hops, totalFee, extra) ← recomputeFees valueMsat false hops
    let (hop, totalFee, extra) ← recomputeHop valueMsat first hop hops.head? totalFee extra
    return (hop :: hops, totalFee, extra)

/-- The path with its new fees, and what it contributes. -/
def updateValueAndRecomputeFees (hops : List PathBuildingHop) (valueMsat : ℕ) :
    Except Panic (List PathBuildingHop × ℕ) := do
  let (hops, _, extra) ← recomputeFees valueMsat true hops
  let contribution ← addU64 valueMsat extra
  return (hops, contribution)

/-! ### What a path pays -/

def sentMsat (hops : List PathBuildingHop) : ℕ := (hops.map (·.feeMsat)).sum

def ReachesMinimums : List PathBuildingHop → Prop
  | [] => True
  | hop :: hops => hop.htlcMinimumMsat ≤ sentMsat (hop :: hops) ∧ ReachesMinimums hops

/-- What is sent over a hop covers the fee of the next, and no more unless it is the hop's minimum.
-/
def PaidInFull : List PathBuildingHop → Prop
  | hop :: next :: hops =>
    next.fees.feeMsat (sentMsat (next :: hops)) ≤ hop.feeMsat ∧
    (hop.feeMsat = next.fees.feeMsat (sentMsat (next :: hops)) ∨
      sentMsat (hop :: next :: hops) = hop.htlcMinimumMsat) ∧ PaidInFull (next :: hops)
  | _ => True

/-- What the last hop pays above the value. -/
def excessMsat (valueMsat : ℕ) (hops : List PathBuildingHop) : ℕ :=
  hops.getLast?.elim 0 (·.htlcMinimumMsat - valueMsat)

/-- The amount the loop takes a hop's fee from. -/
def transferredMsat (valueMsat : ℕ) : List PathBuildingHop → ℕ
  | [] => valueMsat
  | [hop] => max valueMsat hop.htlcMinimumMsat
  | [hop, last] => max (valueMsat + last.fees.feeMsat (max valueMsat last.htlcMinimumMsat))
      hop.htlcMinimumMsat
  | hop :: next :: third :: hops =>
    let transferred := transferredMsat valueMsat (next :: third :: hops)
    max (transferred + next.fees.feeMsat transferred) hop.htlcMinimumMsat

/-- What has to be sent for the last hop to carry its minimum and every other hop its fee. -/
def idealMsat : List PathBuildingHop → ℕ
  | [] => 0
  | [last] => last.htlcMinimumMsat
  | _ :: next :: hops => idealMsat (next :: hops) + next.fees.feeMsat (idealMsat (next :: hops))

/-- The minimum of every hop but the last is reached without the excess. Where the next hop is not
the last one, its fee is the same without the excess, or the minimum makes up for the difference. -/
def AbsorbsExcess (excess : ℕ) : List PathBuildingHop → Prop
  | hop :: next :: hops =>
    hop.htlcMinimumMsat + excess ≤ idealMsat (hop :: next :: hops) ∧
    (hops = [] ∨ hop.htlcMinimumMsat + excess = idealMsat (hop :: next :: hops) ∨
      next.fees.feeMsat (idealMsat (next :: hops) - excess) =
        next.fees.feeMsat (idealMsat (next :: hops))) ∧ AbsorbsExcess excess (next :: hops)
  | _ => True

/-! ### The loop -/

variable {valueMsat totalFee extra : ℕ} {first : Bool} {hop hop' : PathBuildingHop}
  {hops hops' : List PathBuildingHop}

theorem RoutingFees.feeMsat_mono (fees : RoutingFees) {a b : ℕ} (h : a ≤ b) :
    fees.feeMsat a ≤ fees.feeMsat b :=
  Nat.add_le_add_left (Nat.div_le_div_right (Nat.mul_le_mul_right _ h)) _

theorem computeFees_eq_some {amount fee : ℕ} {fees : RoutingFees}
    (h : computeFees amount fees = some fee) : fee = fees.feeMsat amount := by
  simp only [computeFees, Option.bind_eq_bind, Option.bind_eq_some_iff] at h
  obtain ⟨_, -, _, -, h⟩ := h
  exact (Option.some.inj h).symm

theorem chargeHop_eq_ok {transferred totalFee' : ℕ}
    (h : chargeHop hop transferred totalFee = .ok (hop', totalFee')) :
    hop' = { hop with hopUseFeeMsat := hop.fees.feeMsat transferred } ∧
      totalFee' = totalFee + hop.fees.feeMsat transferred := by
  rw [chargeHop] at h
  split at h
  next => exact nomatch h
  next newFee hfee =>
    obtain rfl := computeFees_eq_some hfee
    obtain ⟨_, hsum, h⟩ := bind_eq_ok.mp h
    obtain ⟨-, rfl⟩ := addU64_eq_ok.mp hsum
    exact ⟨(ok_pair_inj h).1.symm, (ok_pair_inj h).2.symm⟩

/-- **One round.** -/
theorem recomputeHop_spec {next : Option PathBuildingHop} {totalFee' extra' : ℕ}
    (h : recomputeHop valueMsat first hop next totalFee extra = .ok (hop', totalFee', extra')) :
    ∃ feeMsat total, payHop next (max (totalFee + valueMsat) hop.htlcMinimumMsat)
        (hop.htlcMinimumMsat - (totalFee + valueMsat)) totalFee extra =
          .ok (feeMsat, total, extra') ∧
      hop'.fees = hop.fees ∧ hop'.htlcMinimumMsat = hop.htlcMinimumMsat ∧ hop'.feeMsat = feeMsat ∧
      (first = false →
        hop'.hopUseFeeMsat = hop.fees.feeMsat (max (totalFee + valueMsat) hop.htlcMinimumMsat) ∧
        totalFee' = total + hop'.hopUseFeeMsat) := by
  simp only [recomputeHop, bind_eq_ok, addU64_eq_ok] at h
  obtain ⟨_, ⟨-, rfl⟩, _, ⟨-, rfl⟩, _, ⟨-, rfl⟩, ⟨feeMsat, total, excess⟩, hpay, ⟨charged, total'⟩,
    hcharge, h⟩ := h
  obtain ⟨rfl, rfl, rfl⟩ := by simpa [pure, Except.pure] using h
  have hmax : totalFee + valueMsat + (hop.htlcMinimumMsat - (totalFee + valueMsat)) =
      max (totalFee + valueMsat) hop.htlcMinimumMsat := by omega
  rw [hmax] at hpay hcharge
  refine ⟨feeMsat, total, hpay, ?_⟩
  split at hcharge
  next hfirst =>
    obtain ⟨rfl, rfl⟩ := by simpa [pure, Except.pure] using hcharge
    exact ⟨rfl, rfl, rfl, by simp [hfirst]⟩
  next =>
    obtain ⟨rfl, rfl⟩ := chargeHop_eq_ok hcharge
    exact ⟨rfl, rfl, rfl, fun _ => ⟨rfl, rfl⟩⟩

theorem transferredMsat_cons (valueMsat : ℕ) (hop next : PathBuildingHop)
    (hops : List PathBuildingHop) :
    transferredMsat valueMsat (hop :: next :: hops) =
      max ((if hops = [] then valueMsat else transferredMsat valueMsat (next :: hops)) +
        next.fees.feeMsat (transferredMsat valueMsat (next :: hops))) hop.htlcMinimumMsat := by
  rcases hops with _ | ⟨third, hops⟩ <;> simp [transferredMsat]

/-- **The loop up to a hop**: the excess, what is sent over the hop, and what its use costs. -/
structure Recomputed (valueMsat : ℕ) (first : Bool) (hop : PathBuildingHop)
    (hops hops' : List PathBuildingHop) (totalFee extra : ℕ) : Prop where
  extra_eq : extra = excessMsat valueMsat (hop :: hops)
  minimums : ReachesMinimums hops'
  last : ∀ last ∈ hops'.getLast?, last.feeMsat = valueMsat + extra
  paid_iff : PaidInFull hops' ↔ extra = 0 ∨ AbsorbsExcess extra (hop :: hops)
  ideal : 0 < extra → PaidInFull hops' → sentMsat hops' = idealMsat (hop :: hops)
  sent : sentMsat hops' = transferredMsat valueMsat (hop :: hops) + (if hops = [] then 0 else extra)
  head : ∃ hop' rest, hops' = hop' :: rest ∧ hop'.fees = hop.fees ∧
    (first = false →
      hop'.hopUseFeeMsat = hop.fees.feeMsat (transferredMsat valueMsat (hop :: hops)) ∧
      totalFee + valueMsat = (if hops = [] then valueMsat
        else transferredMsat valueMsat (hop :: hops)) + hop'.hopUseFeeMsat)

/-- With an excess a hop carries more than its minimum, so it has to be paid exactly its fee.
`carried` is what the loop takes the next hop's amount to be. -/
theorem paid_iff_of_excess {excess sent carried ideal fee feeWithout minimum feeMsat : ℕ}
    (hpos : 0 < excess) (hideal : sent = ideal) (hcarried : carried + excess = ideal)
    (hfee : feeWithout ≤ fee)
    (hsent : feeMsat + sent = max (carried + feeWithout) minimum + excess) :
    (fee ≤ feeMsat ∧ (feeMsat = fee ∨ feeMsat + sent = minimum)) ↔
      minimum + excess ≤ ideal + fee ∧ (minimum + excess = ideal + fee ∨ feeWithout = fee) := by
  omega

theorem recomputed_singleton {totalFee' extra' : ℕ}
    (h : recomputeHop valueMsat first hop none 0 0 = .ok (hop', totalFee', extra')) :
    Recomputed valueMsat first hop [] [hop'] totalFee' extra' := by
  obtain ⟨feeMsat, total, hpay, hfees, hmin, rfl, huse⟩ := recomputeHop_spec h
  obtain ⟨hfee, rfl, rfl⟩ := by simpa [payHop, pure, Except.pure] using hpay
  refine ⟨by simp [excessMsat], ?_, ?_, by simp [PaidInFull, AbsorbsExcess], fun hpos _ => ?_, ?_,
    hop', [], rfl, hfees, fun hfirst => ?_⟩
  · simp [ReachesMinimums, sentMsat, ← hfee, hmin]
  · simp only [List.getLast?_singleton, Option.mem_some_iff, forall_eq', ← hfee]
    omega
  · simp only [sentMsat, List.map_cons, List.map_nil, List.sum_singleton, ← hfee, idealMsat]
    omega
  · simp [sentMsat, transferredMsat, ← hfee]
  · simpa [transferredMsat, Nat.add_comm] using huse hfirst

/-! A hop before others: `next` is the hop after it, and `hsum` says what the loop sends over it. -/

section Cons

variable {next next' : PathBuildingHop} {rest : List PathBuildingHop}
  (hnext : Recomputed valueMsat false next hops (next' :: rest) totalFee extra)

include hnext

/-- What the loop takes the amount of the next hop to be, and the excess on top. -/
theorem Recomputed.carried :
    (if hops = [] then valueMsat else transferredMsat valueMsat (next :: hops)) + extra =
      sentMsat (next' :: rest) := by
  rw [hnext.sent]
  split
  next hnil =>
    subst hnil
    simp only [hnext.extra_eq, transferredMsat, excessMsat, List.getLast?_singleton,
      Option.elim_some]
    omega
  next => rfl

theorem Recomputed.charged :
    next'.fees = next.fees ∧
      next'.hopUseFeeMsat = next.fees.feeMsat (transferredMsat valueMsat (next :: hops)) ∧
      totalFee + valueMsat = (if hops = [] then valueMsat
        else transferredMsat valueMsat (next :: hops)) + next'.hopUseFeeMsat := by
  obtain ⟨_, _, heq, hfees, hcharged⟩ := hnext.head
  cases heq
  exact ⟨hfees, hcharged rfl⟩

/-- **One more hop is paid in full** if the hops after it are and it absorbs the excess. -/
theorem Recomputed.paidInFull_cons_iff (hmin : hop'.htlcMinimumMsat = hop.htlcMinimumMsat)
    (hsum : sentMsat (hop' :: next' :: rest) =
      transferredMsat valueMsat (hop :: next :: hops) + extra) :
    PaidInFull (hop' :: next' :: rest) ↔ extra = 0 ∨ AbsorbsExcess extra (hop :: next :: hops) := by
  obtain ⟨hfees, huse, -⟩ := hnext.charged
  have hcons : sentMsat (hop' :: next' :: rest) = hop'.feeMsat + sentMsat (next' :: rest) := rfl
  rw [PaidInFull, hfees, hnext.paid_iff]
  rcases Nat.eq_zero_or_pos extra with hzero | hpos
  · have hsent := hnext.sent
    simp only [hzero, Nat.add_zero, ite_self] at hsent hsum
    rw [transferredMsat_cons] at hsum
    simp only [hzero, true_or, and_true, iff_true, hsent]
    have hcarried := hnext.carried
    omega
  · have hne : extra ≠ 0 := by omega
    simp only [hne, false_or, AbsorbsExcess]
    rw [← and_assoc, ← and_assoc]
    refine and_congr_left fun habsorbs => ?_
    have hideal := hnext.ideal hpos (hnext.paid_iff.mpr (.inr habsorbs))
    have hle : transferredMsat valueMsat (next :: hops) ≤ idealMsat (next :: hops) := by
      rw [← hideal, hnext.sent]
      exact Nat.le_add_right _ _
    have hstep := paid_iff_of_excess hpos hideal (hnext.carried.trans hideal)
      (next.fees.feeMsat_mono hle) (hsum.trans (by rw [transferredMsat_cons]))
    rw [hmin, hideal]
    refine hstep.trans (and_congr_right fun _ => ?_)
    by_cases hnil : hops = []
    · have hall : transferredMsat valueMsat (next :: hops) = idealMsat (next :: hops) := by
        rw [← hideal, hnext.sent, if_pos hnil, Nat.add_zero]
      exact ⟨fun _ => .inl hnil, fun _ => .inr (by rw [hall])⟩
    · have hless : transferredMsat valueMsat (next :: hops) = idealMsat (next :: hops) - extra := by
        rw [← hideal, hnext.sent, if_neg hnil, Nat.add_sub_cancel]
      simp [hnil, hless, idealMsat]

/-- **Step.** -/
theorem Recomputed.cons {totalFee' extra' : ℕ}
    (h : recomputeHop valueMsat first hop (some next') totalFee extra =
      .ok (hop', totalFee', extra')) :
    Recomputed valueMsat first hop (next :: hops) (hop' :: next' :: rest) totalFee' extra' := by
  obtain ⟨hfees₁, huse₁, htotal⟩ := hnext.charged
  obtain ⟨feeMsat, total, hpay, hfees, hmin, rfl, huse⟩ := recomputeHop_spec h
  simp only [payHop, bind_eq_ok, addU64_eq_ok] at hpay
  obtain ⟨_, ⟨-, rfl⟩, _, ⟨-, rfl⟩, hpay⟩ := hpay
  obtain ⟨hfee, rfl, rfl⟩ := by simpa [pure, Except.pure] using hpay
  have htransferred : transferredMsat valueMsat (hop :: next :: hops) =
      max (totalFee + valueMsat) hop.htlcMinimumMsat := by
    rw [transferredMsat_cons, htotal, huse₁]
  have hcons : sentMsat (hop' :: next' :: rest) = hop'.feeMsat + sentMsat (next' :: rest) := rfl
  have hsum : sentMsat (hop' :: next' :: rest) =
      transferredMsat valueMsat (hop :: next :: hops) + extra := by
    have hcarried := hnext.carried
    omega
  refine ⟨by rw [hnext.extra_eq]; simp [excessMsat], ⟨by omega, hnext.minimums⟩,
    by simpa using hnext.last, hnext.paidInFull_cons_iff hmin hsum, fun hpos hfull => ?_,
    by simpa using hsum, hop', _, rfl, hfees, fun hfirst => ?_⟩
  · obtain ⟨-, hor, hrest⟩ := hfull
    have hideal := hnext.ideal hpos hrest
    have hexact := hor.resolve_right (by omega)
    rw [idealMsat, ← hideal, ← hfees₁, ← hexact, Nat.add_comm]
    rfl
  · obtain ⟨huse', rfl⟩ := huse hfirst
    rw [htransferred]
    refine ⟨huse', ?_⟩
    simp only [reduceCtorEq, if_false]
    omega

end Cons

/-- **Run.** -/
theorem recomputeFees_spec
    (h : recomputeFees valueMsat first (hop :: hops) = .ok (hops', totalFee, extra)) :
    Recomputed valueMsat first hop hops hops' totalFee extra := by
  induction hops generalizing first hop hops' totalFee extra with
  | nil =>
    obtain ⟨_, hrest, h⟩ := bind_eq_ok.mp h
    cases hrest
    obtain ⟨⟨hop', totalFee', extra'⟩, hhop, h⟩ := bind_eq_ok.mp h
    obtain ⟨rfl, rfl, rfl⟩ := by simpa [pure, Except.pure] using h
    exact recomputed_singleton hhop
  | cons next hops ih =>
    obtain ⟨⟨hops₁, totalFee₁, extra₁⟩, hrest, h⟩ := bind_eq_ok.mp h
    obtain ⟨⟨hop', totalFee', extra'⟩, hhop, h⟩ := bind_eq_ok.mp h
    obtain ⟨rfl, rfl, rfl⟩ := by simpa [pure, Except.pure] using h
    obtain ⟨next', rest, rfl, -⟩ := (ih hrest).head
    exact (ih hrest).cons hhop

/-- **Every hop is paid its fee and no more** exactly if the value reaches the last hop's minimum or
the other hops' fees and minimums absorb the excess. -/
theorem paidInFull_iff {contribution : ℕ}
    (h : updateValueAndRecomputeFees hops valueMsat = .ok (hops', contribution)) :
    valueMsat ≤ contribution ∧ (∀ last ∈ hops'.getLast?, last.feeMsat = contribution) ∧
    ReachesMinimums hops' ∧
    (PaidInFull hops' ↔ excessMsat valueMsat hops = 0 ∨
      AbsorbsExcess (excessMsat valueMsat hops) hops) := by
  obtain ⟨⟨hops₁, totalFee, extra⟩, hloop, h⟩ := bind_eq_ok.mp h
  obtain ⟨_, hsum, h⟩ := bind_eq_ok.mp h
  obtain ⟨-, rfl⟩ := addU64_eq_ok.mp hsum
  obtain ⟨rfl, rfl⟩ := by simpa [pure, Except.pure] using h
  rcases hops with _ | ⟨hop, hops⟩
  · obtain ⟨rfl, rfl, rfl⟩ := by simpa [recomputeFees, pure, Except.pure] using hloop
    simp [ReachesMinimums, PaidInFull, excessMsat]
  have hspec := recomputeFees_spec hloop
  exact ⟨Nat.le_add_right .., hspec.last, hspec.minimums, hspec.extra_eq ▸ hspec.paid_iff⟩

def freshHop (base prop minimum : ℕ) : PathBuildingHop := ⟨⟨base, prop⟩, minimum, 0, 0, 0, 0⟩

/-- A payment of 1000 msat over a last hop with a minimum of 2000 msat and a proportional fee. The
hop before it has a fee of 5 msat whatever it forwards, and its minimum is what is left without the
excess. -/
theorem paidInFull_absorbed : ∃ hops' contribution,
    updateValueAndRecomputeFees [freshHop 0 0 0, freshHop 5 0 1002, freshHop 0 1000 2000] 1000 =
      .ok (hops', contribution) ∧ contribution = 2000 ∧ sentMsat hops' = 2007 ∧
        PaidInFull hops' := by
  have h : updateValueAndRecomputeFees [freshHop 0 0 0, freshHop 5 0 1002, freshHop 0 1000 2000]
      1000 =
      .ok ([⟨⟨0, 0⟩, 0, 5, 7, 0, 1000⟩, ⟨⟨5, 0⟩, 1002, 2, 2, 5, 1000⟩,
        ⟨⟨0, 1000⟩, 2000, 2000, 0, 2, 0⟩], 2000) := by
    decide +kernel
  refine ⟨_, _, h, rfl, by decide, (paidInFull_iff h).2.2.2.mpr (.inr ?_)⟩
  exact ⟨by decide, .inr (.inr rfl), by decide, .inl rfl, trivial⟩

/-- **A hop that is underpaid.** The last hop has a minimum of 2000 msat and 1000 are paid. The hop
before it charges 1 % of the 2000 it forwards, and is paid 1 % of 1000. -/
theorem underpaid_with_excess : ∃ hops' contribution,
    updateValueAndRecomputeFees [freshHop 0 0 0, freshHop 0 10000 0, freshHop 0 0 2000] 1000 =
      .ok (hops', contribution) ∧ contribution = 2000 ∧ sentMsat hops' = 2010 ∧
      ¬ PaidInFull hops' := by
  refine ⟨[⟨⟨0, 0⟩, 0, 10, 10, 0, 1000⟩, ⟨⟨0, 10000⟩, 0, 0, 0, 10, 1000⟩,
    ⟨⟨0, 0⟩, 2000, 2000, 0, 0, 0⟩], 2000, by decide +kernel, rfl, by decide, ?_⟩
  rintro ⟨hpaid, -⟩
  exact absurd hpaid (by decide)

end PqLightning.Routing
