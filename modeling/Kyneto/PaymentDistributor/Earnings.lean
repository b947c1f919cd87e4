import Kyneto.PaymentDistributor.Settlement

/-!
# Do the books of the distributor agree?

A provider's earnings are kept six times over: by kind of reward, in total, and as what was withdrawn. The reserve is
kept once, and paid out as usage rewards. `ProviderEarnings.Moved` says what an operation does to the record of one
provider; the rest is addition along a run, of the amounts that its calls logged (`earnings_run`).
-/

namespace Kyneto

open Evm

/-! ## The views -/

namespace PaymentDistributor

def getAvailableEarnings (d : PaymentDistributor) (provider : Address) : Tx Nat :=
  checkedSub (d.earnings provider).totalEarned (d.earnings provider).totalWithdrawn

structure EarningsBreakdown where
  capacityRewards : Nat
  usageRewards : Nat
  proofBonuses : Nat
  totalEarned : Nat
  totalWithdrawn : Nat
  available : Nat
  deriving DecidableEq, Repr

def getEarningsBreakdown (d : PaymentDistributor) (provider : Address) : Tx EarningsBreakdown := do
  let e := d.earnings provider
  let available ← checkedSub e.totalEarned e.totalWithdrawn
  return ⟨e.capacityRewards, e.usageRewards, e.proofBonuses, e.totalEarned, e.totalWithdrawn, available⟩

end PaymentDistributor

/-! ## What the calls of a run booked -/

/-- The reward that an event reports for `provider`. -/
def NetworkLog.rewardTo (provider : Address) : NetworkLog → Nat
  | .distributor (.CapacityRewardPaid p amount) => if p = provider then amount else 0
  | .distributor (.UsageRewardPaid p _ amount) => if p = provider then amount else 0
  | .distributor (.ProofBonusPaid p amount) => if p = provider then amount else 0
  | _ => 0

/-- The tokens that an event reports as moved from `a` to `b`. -/
def NetworkLog.moved (a b : Address) : NetworkLog → Nat
  | .base (.token (.Transfer src dst value)) => if src = a ∧ dst = b then value else 0
  | _ => 0

def NetworkLog.reserve : NetworkLog → Nat
  | .distributor (.RepairFunded amount) => amount
  | _ => 0

section Amounts

variable {sites : Sites}

/-- What a call credited to `provider`. Payments from the reserve emit no event. -/
def credited (provider : Address) (e : NetworkEntry sites) : Nat :=
  match e.act.call with
  | .distributor (.useRepairReserve newProvider amount) => if newProvider = provider then amount else 0
  | .distributor _ => (e.logs.map (NetworkLog.rewardTo provider)).sum
  | _ => 0

/-- The tokens that `withdrawEarnings` sent to `provider`. -/
def withdrawn (provider : Address) (e : NetworkEntry sites) : Nat :=
  match e.act.call with
  | .distributor .withdrawEarnings => (e.logs.map (NetworkLog.moved sites.distributor provider)).sum
  | _ => 0

/-- What `distributeUsageRewards` added to the reserve. -/
def reserved (e : NetworkEntry sites) : Nat :=
  match e.act.call with
  | .distributor (.distributeUsageRewards _) => (e.logs.map NetworkLog.reserve).sum
  | _ => 0

/-- What `useRepairReserve` took from the reserve. -/
def paidFromReserve (e : NetworkEntry sites) : Nat :=
  match e.act.call with
  | .distributor (.useRepairReserve _ amount) => amount
  | _ => 0

def total (amount : NetworkEntry sites → Nat) (hist : List (NetworkEntry sites)) : Nat := (hist.map amount).sum

theorem total_snoc (amount : NetworkEntry sites → Nat) (hist : List (NetworkEntry sites)) (e : NetworkEntry sites) :
    total amount (hist ++ [e]) = total amount hist + amount e := by
  simp [total]

end Amounts

/-! ## One record -/

namespace ProviderEarnings

def rewards (e : ProviderEarnings) : Nat := e.capacityRewards + e.usageRewards + e.proofBonuses

/-- `credit` was earned, in one kind of reward, or `withdrawal` taken from what was available. -/
structure Moved (e e' : ProviderEarnings) (credit withdrawal : Nat) : Prop where
  rewards : e'.rewards = e.rewards + credit
  totalEarned : e'.totalEarned = e.totalEarned + credit
  totalWithdrawn : e'.totalWithdrawn = e.totalWithdrawn + withdrawal
  available : e.totalWithdrawn ≤ e.totalEarned → e'.totalWithdrawn ≤ e'.totalEarned

theorem Moved.refl (e : ProviderEarnings) : Moved e e 0 0 := ⟨rfl, rfl, rfl, id⟩

theorem Moved.trans {e e' e'' : ProviderEarnings} {c c' w w' : Nat} (h : Moved e e' c w) (h' : Moved e' e'' c' w') :
    Moved e e'' (c + c') (w + w') where
  rewards := by rw [h'.rewards, h.rewards, Nat.add_assoc]
  totalEarned := by rw [h'.totalEarned, h.totalEarned, Nat.add_assoc]
  totalWithdrawn := by rw [h'.totalWithdrawn, h.totalWithdrawn, Nat.add_assoc]
  available := fun hle => h'.available (h.available hle)

/-- A reward of any kind. -/
theorem Moved.of_credit {e e' : ProviderEarnings} {amount : Nat} (hrewards : e'.rewards = e.rewards + amount)
    (hearned : e'.totalEarned = e.totalEarned + amount) (hwithdrawn : e'.totalWithdrawn = e.totalWithdrawn) :
    Moved e e' amount 0 := by
  refine ⟨hrewards, hearned, hwithdrawn, ?_⟩
  intro hle
  omega

theorem creditUsage_moved {e e' : ProviderEarnings} {amount : Nat} (h : e.creditUsage amount = .ok e') :
    Moved e e' amount 0 := by
  simp only [creditUsage, bind_eq_ok, checkedAdd_eq_ok, pure_eq_ok] at h
  obtain ⟨_, ⟨-, rfl⟩, _, ⟨-, rfl⟩, rfl⟩ := h
  apply Moved.of_credit
  · simp only [rewards]
    omega
  · rfl
  · rfl

end ProviderEarnings

/-! ## One call -/

section Steps

open ProviderEarnings (Moved)

variable {sites : Sites} {n n' : Network} {d d' : PaymentDistributor} {logs : List NetworkLog}

/-- Only one record is written. -/
theorem moved_setEarnings {p : Address} {e : ProviderEarnings} {credit withdrawal : Nat}
    (h : Moved (d.earnings p) e credit withdrawal) (provider : Address) :
    Moved (d.earnings provider) ((d.setEarnings p e).earnings provider) (if p = provider then credit else 0)
      (if p = provider then withdrawal else 0) := by
  unfold PaymentDistributor.setEarnings
  by_cases hp : p = provider
  · subst hp
    simpa using h
  · have hne : provider ≠ p := fun heq => hp heq.symm
    simpa [hp, hne] using Moved.refl (d.earnings provider)

theorem reward_token (provider : Address) (paid : List TokenLog) :
    (paid.map (NetworkLog.rewardTo provider ∘ NetworkLog.base ∘ Log.token)).sum = 0 := by
  induction paid with
  | nil => rfl
  | cons l paid ih => simpa [NetworkLog.rewardTo] using ih

/-- The loop credits what its events say, the reserve apart. -/
theorem creditActive_moved {deal : Deal} {dealId reward : Nat} {l : List Address}
    (h : d.creditActive dealId deal reward l = .ok (d', logs)) :
    d'.repairReserve = d.repairReserve ∧ (logs.map NetworkLog.reserve).sum = 0 ∧
      ∀ provider, Moved (d.earnings provider) (d'.earnings provider)
        (logs.map (NetworkLog.rewardTo provider)).sum 0 := by
  induction l generalizing d logs with
  | nil =>
    obtain ⟨rfl, rfl⟩ := Prod.mk.inj (Except.ok.inj h)
    exact ⟨rfl, rfl, fun provider => Moved.refl _⟩
  | cons p rest ih =>
    unfold PaymentDistributor.creditActive at h
    split at h
    · simp only [bind_eq_ok, pure_eq_ok, Prod.exists, Prod.mk.injEq] at h
      obtain ⟨e, hcredit, d₁, more, hrest, rfl, rfl⟩ := h
      obtain ⟨hreserve, hnone, hmoved⟩ := ih hrest
      refine ⟨hreserve, by simpa [NetworkLog.reserve] using hnone, ?_⟩
      intro provider
      have hone := moved_setEarnings (ProviderEarnings.creditUsage_moved hcredit) provider
      simpa [NetworkLog.rewardTo] using hone.trans (hmoved provider)
    · exact ih h

/-- What a call does to the books. -/
structure BooksStep (n : Network) (a : NetworkAction sites) (logs : List NetworkLog) (n' : Network) : Prop where
  earnings : ∀ provider, Moved (n.distributor.earnings provider) (n'.distributor.earnings provider)
    (credited provider ⟨n, a, logs, n'⟩) (withdrawn provider ⟨n, a, logs, n'⟩)
  reserve : n'.distributor.repairReserve + paidFromReserve ⟨n, a, logs, n'⟩ =
    n.distributor.repairReserve + reserved ⟨n, a, logs, n'⟩

/-- Calls of the other contracts touch nothing. -/
theorem BooksStep.of_frame {a : NetworkAction sites} (hcall : ∀ c, a.call ≠ .distributor c)
    (h : n'.distributor = n.distributor) : BooksStep n a logs n' := by
  have hzero : (∀ p, credited p ⟨n, a, logs, n'⟩ = 0) ∧ (∀ p, withdrawn p ⟨n, a, logs, n'⟩ = 0) ∧
      reserved ⟨n, a, logs, n'⟩ = 0 ∧ paidFromReserve ⟨n, a, logs, n'⟩ = 0 := by
    unfold credited withdrawn reserved paidFromReserve
    dsimp only
    cases hc : a.call with
    | base c => exact ⟨fun _ => rfl, fun _ => rfl, rfl, rfl⟩
    | pledge c => exact ⟨fun _ => rfl, fun _ => rfl, rfl, rfl⟩
    | distributor c => exact absurd hc (hcall c)
  obtain ⟨hcredited, hwithdrawn, hreserved, hpaid⟩ := hzero
  constructor
  · intro provider
    rw [hcredited, hwithdrawn, h]
    exact Moved.refl _
  · rw [hreserved, hpaid, h]

/-- What a call of the distributor does to its books, one case for each of its functions. -/
theorem distributorStep_books {a : NetworkAction sites} {c : PaymentDistributor.Call} (hcall : a.call = .distributor c)
    (h : n.distributorStep sites a.msg c = .ok (n', logs)) : BooksStep n a logs n' := by
  cases c with
  | distributeCapacityRewards p pledgeId =>
    simp only [Network.distributorStep, Network.distributeCapacityRewards, bind_eq_ok, checkedAdd_eq_ok, pure_eq_ok,
      Prod.exists, Prod.mk.injEq] at h
    obtain ⟨_, -, _, -, _, -, _, -, scaled, -, token, paid, -, _, ⟨-, rfl⟩, _, ⟨-, rfl⟩, rfl, rfl⟩ := h
    constructor
    · intro provider
      have hcredit : Moved (n.distributor.earnings p)
          { n.distributor.earnings p with
            capacityRewards := (n.distributor.earnings p).capacityRewards + scaled / 100
            -- what is credited goes to one kind of rewards, and to the total
            totalEarned := (n.distributor.earnings p).totalEarned + scaled / 100 } (scaled / 100) 0 := by
        apply Moved.of_credit
        · simp only [ProviderEarnings.rewards]
          omega
        · rfl
        · rfl
      have hmoved := moved_setEarnings hcredit provider
      simpa [credited, withdrawn, hcall, reward_token, NetworkLog.rewardTo] using hmoved
    · simp [paidFromReserve, reserved, hcall, PaymentDistributor.setEarnings]
  | distributeUsageRewards dealId =>
    simp only [Network.distributorStep, Network.distributeUsageRewards, bind_eq_ok, checkedAdd_eq_ok, pure_eq_ok,
      Prod.exists, Prod.mk.injEq] at h
    -- the reserve gets its share, and the loop credits the providers
    obtain ⟨_, -, _, -, _, -, split, -, _, -, _, -, reserve, ⟨-, rfl⟩, d, l, hloop, rfl, rfl⟩ := h
    obtain ⟨hreserve, hnone, hmoved⟩ := creditActive_moved hloop
    constructor
    · intro provider
      simpa [credited, withdrawn, hcall, NetworkLog.rewardTo] using hmoved provider
    · simp only [paidFromReserve, reserved, hcall, List.map_cons, List.sum_cons, hnone, NetworkLog.reserve]
      simpa using hreserve
  | payProofBonus p =>
    simp only [Network.distributorStep, Network.payProofBonus, bind_eq_ok, checkedAdd_eq_ok, pure_eq_ok, Prod.exists,
      Prod.mk.injEq] at h
    obtain ⟨_, -, _, -, _, ⟨-, rfl⟩, _, ⟨-, rfl⟩, token, paid, -, rfl, rfl⟩ := h
    constructor
    · intro provider
      have hcredit : Moved (n.distributor.earnings p)
          { n.distributor.earnings p with
            proofBonuses := (n.distributor.earnings p).proofBonuses + n.distributor.postBonusPerSubmission
            totalEarned := (n.distributor.earnings p).totalEarned + n.distributor.postBonusPerSubmission }
          n.distributor.postBonusPerSubmission 0 := by
        apply Moved.of_credit
        · simp only [ProviderEarnings.rewards]
          omega
        · rfl
        · rfl
      have hmoved := moved_setEarnings hcredit provider
      simpa [credited, withdrawn, hcall, reward_token, NetworkLog.rewardTo] using hmoved
    · simp [paidFromReserve, reserved, hcall, PaymentDistributor.setEarnings]
  | withdrawEarnings =>
    simp only [Network.distributorStep, Network.withdrawEarnings, bind_eq_ok, checkedSub_eq_ok, checkedAdd_eq_ok,
      StorageToken.transfer_eq_ok, pure_eq_ok, Prod.exists, Prod.mk.injEq] at h
    obtain ⟨available, ⟨hle, rfl⟩, _, -, _, ⟨-, rfl⟩, token, paid, ⟨-, -, -, rfl, rfl⟩, rfl, rfl⟩ := h
    constructor
    · intro provider
      -- all that is available goes, so the two totals meet
      have hpaid : Moved (n.distributor.earnings a.msg.sender)
          { n.distributor.earnings a.msg.sender with
            totalWithdrawn := (n.distributor.earnings a.msg.sender).totalWithdrawn +
              ((n.distributor.earnings a.msg.sender).totalEarned -
                (n.distributor.earnings a.msg.sender).totalWithdrawn)
            lastClaimTimestamp := a.msg.timestamp } 0
          ((n.distributor.earnings a.msg.sender).totalEarned -
            (n.distributor.earnings a.msg.sender).totalWithdrawn) := by
        refine ⟨rfl, rfl, rfl, ?_⟩
        intro _
        exact (Nat.add_sub_of_le hle).le
      have hmoved := moved_setEarnings hpaid provider
      simpa [credited, withdrawn, hcall, NetworkLog.rewardTo, NetworkLog.moved] using hmoved
    · simp [paidFromReserve, reserved, hcall, PaymentDistributor.setEarnings]
  | withdrawProtocolFees recipient =>
    simp only [Network.distributorStep, Network.withdrawProtocolFees, bind_eq_ok, pure_eq_ok, Prod.exists,
      Prod.mk.injEq] at h
    obtain ⟨_, -, _, -, token, paid, -, rfl, rfl⟩ := h
    constructor
    -- the fees are no one's earnings
    · intro provider
      simpa [credited, withdrawn, hcall, reward_token] using Moved.refl (n.distributor.earnings provider)
    · simp [paidFromReserve, reserved, hcall]
  | useRepairReserve newProvider amount =>
    simp only [Network.distributorStep, Network.useRepairReserve, bind_eq_ok, require_eq_ok, pure_eq_ok,
      Prod.mk.injEq, exists_const] at h
    obtain ⟨_, -, hreserve, e, hcredit, rfl, rfl⟩ := h
    constructor
    · intro provider
      -- a repair is paid like usage, out of the reserve
      have hmoved := moved_setEarnings (ProviderEarnings.creditUsage_moved hcredit) provider
      simpa [credited, withdrawn, hcall] using hmoved
    · simp only [paidFromReserve, reserved, hcall]
      omega
  | updateRates _ _ _ =>
    simp only [Network.distributorStep, Network.updateRates, bind_eq_ok, pure_eq_ok, Prod.mk.injEq] at h
    obtain ⟨_, -, rfl, rfl⟩ := h
    constructor
    · intro provider
      simpa [credited, withdrawn, hcall] using Moved.refl _
    · simp [paidFromReserve, reserved, hcall]
  | transferOwnership _ | renounceOwnership =>
    simp only [Network.distributorStep, bind_eq_ok, pure_eq_ok, Prod.mk.injEq] at h
    obtain ⟨_, -, rfl, rfl⟩ := h
    constructor
    · intro provider
      simpa [credited, withdrawn, hcall] using Moved.refl _
    · simp [paidFromReserve, reserved, hcall]

/-- The other contracts leave the books of the distributor alone. -/
theorem step_books {a : NetworkAction sites} (h : n.step sites a = .ok (n', logs)) : BooksStep n a logs n' := by
  cases networkStep_of_ok h with
  | market call done | token call done | registry call done | pledge call done =>
    apply BooksStep.of_frame
    · intro c hc
      rw [call] at hc
      cases hc
    · rfl
  | @distributor c _ logs' call done =>
    have hlogs : n.step sites a = n.distributorStep sites a.msg c := by
      unfold Network.step
      rw [call]
    exact distributorStep_books call (hlogs ▸ h)

end Steps

/-! ## Runs -/

/-- The record of one provider agrees with itself, and with what the calls of the run credited and sent. -/
structure EarningsBooked (n : Network) {sites : Sites} (hist : List (NetworkEntry sites)) (provider : Address) :
    Prop where
  rewards : (n.distributor.earnings provider).totalEarned =
    (n.distributor.earnings provider).capacityRewards + (n.distributor.earnings provider).usageRewards +
      (n.distributor.earnings provider).proofBonuses
  withdrawn : (n.distributor.earnings provider).totalWithdrawn ≤ (n.distributor.earnings provider).totalEarned
  credited : total (credited provider) hist = (n.distributor.earnings provider).totalEarned
  sent : total (Kyneto.withdrawn provider) hist = (n.distributor.earnings provider).totalWithdrawn

/-- The reserve is what was booked, less what was paid out of it. -/
def ReserveBooked (n : Network) {sites : Sites} (hist : List (NetworkEntry sites)) : Prop :=
  n.distributor.repairReserve + total paidFromReserve hist = total reserved hist

section Runs

variable {sites : Sites}

/-- The network in which the distributor has just been deployed, whatever state the other contracts are in. -/
def Network.withNewDistributor (n : Network) (msg : Msg) : Network := { n with distributor := .deploy msg }

theorem booked_new (n : Network) (msg : Msg) :
    (∀ provider, EarningsBooked (n.withNewDistributor msg) ([] : List (NetworkEntry sites)) provider) ∧
      ReserveBooked (n.withNewDistributor msg) ([] : List (NetworkEntry sites)) :=
  ⟨fun _ => ⟨rfl, Nat.le_refl 0, rfl, rfl⟩, rfl⟩

/-- Every step books for a provider what the history credits it with. -/
theorem EarningsBooked.step {n n' : Network} {hist : List (NetworkEntry sites)} {a : NetworkAction sites}
    {logs : List NetworkLog} {provider : Address} (h : EarningsBooked n hist provider)
    (hstep : BooksStep n a logs n') : EarningsBooked n' (hist ++ [⟨n, a, logs, n'⟩]) provider := by
  have hmoved := hstep.earnings provider
  constructor
  · have hrewards := hmoved.rewards
    have hearned := hmoved.totalEarned
    have hbefore := h.rewards
    simp only [ProviderEarnings.rewards] at hrewards
    omega
  · exact hmoved.available h.withdrawn
  · rw [total_snoc, h.credited, hmoved.totalEarned]
  · rw [total_snoc, h.sent, hmoved.totalWithdrawn]

/-- From a new distributor on, the books are those of the history. -/
theorem booked_history (n : Network) (msg : Msg) (as : List (NetworkAction sites)) :
    (∀ provider, EarningsBooked (run (Network.step sites) (n.withNewDistributor msg) as)
        (history (Network.step sites) (n.withNewDistributor msg) as) provider) ∧
      ReserveBooked (run (Network.step sites) (n.withNewDistributor msg) as)
        (history (Network.step sites) (n.withNewDistributor msg) as) := by
  refine run_induction (P := fun n hist => (∀ provider, EarningsBooked n hist provider) ∧ ReserveBooked n hist)
    (booked_new n msg) ?_ as (meets_true _ as)
  intro n hist a n' logs hbooked _ hok
  have hstep := step_books hok
  refine ⟨fun provider => (hbooked.1 provider).step hstep, ?_⟩
  have hbefore := hbooked.2
  have hreserve := hstep.reserve
  unfold ReserveBooked at hbefore ⊢
  rw [total_snoc, total_snoc]
  omega

/-- **Earnings bookkeeping**, in every state of every run of the network from the deployment of the distributor on. -/
theorem earnings_run (n : Network) (msg : Msg) (as : List (NetworkAction sites)) :
    (∀ provider,
      EarningsBooked (run (Network.step sites) (n.withNewDistributor msg) as)
          (history (Network.step sites) (n.withNewDistributor msg) as) provider ∧
        (∃ available, (run (Network.step sites) (n.withNewDistributor msg) as).distributor.getAvailableEarnings
          provider = .ok available) ∧
        (∃ breakdown, (run (Network.step sites) (n.withNewDistributor msg) as).distributor.getEarningsBreakdown
          provider = .ok breakdown) ∧
        total (withdrawn provider) (history (Network.step sites) (n.withNewDistributor msg) as) ≤
          total (credited provider) (history (Network.step sites) (n.withNewDistributor msg) as)) ∧
      ReserveBooked (run (Network.step sites) (n.withNewDistributor msg) as)
        (history (Network.step sites) (n.withNewDistributor msg) as) := by
  obtain ⟨hearnings, hreserve⟩ := booked_history n msg as
  refine ⟨fun provider => ?_, hreserve⟩
  have hbooked := hearnings provider
  have hdifference := checkedSub_eq_ok.mpr ⟨hbooked.withdrawn, rfl⟩
  refine ⟨hbooked, ⟨_, hdifference⟩, ?_, ?_⟩
  · simp only [PaymentDistributor.getEarningsBreakdown, bind_eq_ok, pure_eq_ok]
    exact ⟨_, _, hdifference, rfl⟩
  · rw [hbooked.sent, hbooked.credited]
    exact hbooked.withdrawn

end Runs

end Kyneto
