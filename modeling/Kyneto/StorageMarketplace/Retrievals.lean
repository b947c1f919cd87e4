import Kyneto.PaymentDistributor.Settlement

/-!
# Retrieval payments

A client deposits the payment for a retrieval under the next id, and the provider it names claims it. The records are
never looked at by the operations on deals. A claim checks the sender and the flag and not that the record exists: the
record of an id not handed out yet names the zero address, which sends nothing.

`RetrievalStep` is what a call does to the records, and `retrievals_run` what follows for every run.
-/

namespace Kyneto

open Evm

section Entries

variable {sites : Sites}

/-- The call creates the retrieval. -/
def initiates (id : Nat) (e : NetworkEntry sites) : Bool :=
  match e.act.call with
  | .base (.market (.initiateRetrieval _ _ _)) => e.pre.market.retrievalCount = id
  | _ => false

/-- The call claims the payment of the retrieval. -/
def claims (id : Nat) (e : NetworkEntry sites) : Bool :=
  match e.act.call with
  | .base (.market (.claimRetrievalPayment retrievalId)) => retrievalId = id
  | _ => false

def NetworkLog.received (a : Address) : NetworkLog → Nat
  | .base l => l.received a
  | _ => 0

def NetworkLog.sent (a : Address) : NetworkLog → Nat
  | .base l => l.sent a
  | _ => 0

/-- The tokens that `initiateRetrieval` took in. -/
def retrievalDeposit (e : NetworkEntry sites) : Nat :=
  match e.act.call with
  | .base (.market (.initiateRetrieval _ _ _)) => (e.logs.map (NetworkLog.received sites.marketplace)).sum
  | _ => 0

/-- The tokens that `claimRetrievalPayment` paid out, to whomever. -/
def retrievalPayment (e : NetworkEntry sites) : Nat :=
  match e.act.call with
  | .base (.market (.claimRetrievalPayment _)) => (e.logs.map (NetworkLog.sent sites.marketplace)).sum
  | _ => 0

def deposits (hist : List (NetworkEntry sites)) : Nat := (hist.map retrievalDeposit).sum

def retrievalPayments (hist : List (NetworkEntry sites)) : Nat := (hist.map retrievalPayment).sum

/-- The call created `r` under `id`, and its sender deposited the amount. -/
structure OpenedBy (id : Nat) (r : Retrieval) (e : NetworkEntry sites) : Prop where
  number : e.pre.market.retrievalCount = id
  call : e.act.call = .base (.market (.initiateRetrieval r.dealId r.provider r.amount))
  client : e.act.msg.sender = r.client
  logs : e.logs = [.base (.token (.Transfer r.client sites.marketplace r.amount)),
    .base (.market (.RetrievalInitiated id r.dealId r.client r.provider r.amount))]

/-- The call was made by the provider of `r`, and all it did with tokens was to send that provider the amount. -/
structure PaidBy (id : Nat) (r : Retrieval) (e : NetworkEntry sites) : Prop where
  call : e.act.call = .base (.market (.claimRetrievalPayment id))
  provider : e.act.msg.sender = r.provider
  logs : e.logs = [.base (.token (.Transfer sites.marketplace r.provider r.amount)),
    .base (.market (.RetrievalClaimed id r.provider))]

end Entries

/-- What has still to be paid for a retrieval. -/
def Retrieval.pending (r : Retrieval) : Nat := if r.completed then 0 else r.amount

/-- All that has still to be paid. -/
def StorageMarketplace.pendingRetrievals (m : StorageMarketplace) : Nat :=
  ∑ id ∈ Finset.range m.retrievalCount, (m.retrievals id).pending

/-- Nothing is paid twice, nor without a retrieval that was paid for, and the totals agree. -/
structure RetrievalsPaid {sites : Sites} (m : StorageMarketplace) (hist : List (NetworkEntry sites)) : Prop where
  once : ∀ id, hist.countP (claims id) ≤ 1
  opened : ∀ id, hist.countP (initiates id) ≤ 1
  paid : ∀ before e, before ++ [e] <+: hist → ∀ id, claims id e = true →
    ∃ i ∈ before, ∃ r, OpenedBy id r i ∧ PaidBy id r e
  balance : retrievalPayments hist + m.pendingRetrievals = deposits hist

/-! ## One call -/

/-- What a call does to the retrievals. -/
inductive RetrievalStep {sites : Sites} (n : Network) (a : NetworkAction sites) (logs : List NetworkLog)
    (n' : Network) : Prop
  | opened {r : Retrieval} (pending : r.completed = false)
      (openedBy : OpenedBy n.market.retrievalCount r ⟨n, a, logs, n'⟩)
      (retrievals : n'.market.retrievals = Function.update n.market.retrievals n.market.retrievalCount r)
      (count : n'.market.retrievalCount = n.market.retrievalCount + 1)
  | claimed {id : Nat} (pending : (n.market.retrievals id).completed = false)
      (paidBy : PaidBy id (n.market.retrievals id) ⟨n, a, logs, n'⟩)
      (retrievals : n'.market.retrievals =
        Function.update n.market.retrievals id { n.market.retrievals id with completed := true })
      (count : n'.market.retrievalCount = n.market.retrievalCount)
  | other (no_deposit : ∀ id, initiates id ⟨n, a, logs, n'⟩ = false)
      (no_claim : ∀ id, claims id ⟨n, a, logs, n'⟩ = false)
      (amounts : retrievalDeposit ⟨n, a, logs, n'⟩ = 0 ∧ retrievalPayment ⟨n, a, logs, n'⟩ = 0)
      (retrievals : n'.market.retrievals = n.market.retrievals)
      (count : n'.market.retrievalCount = n.market.retrievalCount)

section Steps

variable {sites : Sites} {n n' : Network} {a : NetworkAction sites} {logs : List NetworkLog}

/-- The calls on deals, fees and settings do not touch the retrievals. -/
theorem effect_retrievals {this : Address} {s s' : System} {msg : Msg} {c : MarketCall} {l : List Log}
    (hinitiate : ∀ dealId provider amount, c ≠ .initiateRetrieval dealId provider amount)
    (hclaim : ∀ id, c ≠ .claimRetrievalPayment id) (e : Effect this s msg (.market c) s' l) :
    s'.market.retrievals = s.market.retrievals ∧ s'.market.retrievalCount = s.market.retrievalCount := by
  cases e with
  | idle _ books _ => exact ⟨books.retrievals, books.retrievalCount⟩
  | created _ _ _ _ _ _ _ wrote | renewed _ _ _ _ wrote | completed _ _ _ _ _ wrote | cancelled _ _ _ _ wrote
  | lost _ _ _ _ _ wrote | failed _ _ _ _ _ _ wrote | repaired _ _ _ _ _ wrote =>
    exact ⟨wrote.retrievals, wrote.retrievalCount⟩
  | retrieving => exact absurd rfl (hinitiate _ _ _)
  | claimed => exact absurd rfl (hclaim _)
  | withdrawn _ market =>
    rw [market]
    exact ⟨rfl, rfl⟩

/-- A call that neither creates nor claims a retrieval. -/
theorem RetrievalStep.of_other (hinitiate : ∀ dealId provider amount,
      a.call ≠ .base (.market (.initiateRetrieval dealId provider amount)))
    (hclaim : ∀ id, a.call ≠ .base (.market (.claimRetrievalPayment id)))
    (hsame : n'.market.retrievals = n.market.retrievals ∧ n'.market.retrievalCount = n.market.retrievalCount) :
    RetrievalStep n a logs n' := by
  refine .other ?_ ?_ ⟨?_, ?_⟩ hsame.1 hsame.2
  · intro id
    unfold initiates
    split
    · next hcall => exact absurd hcall (hinitiate _ _ _)
    · rfl
  · intro id
    unfold claims
    split
    · next hcall => exact absurd hcall (hclaim _)
    · rfl
  · unfold retrievalDeposit
    split
    · next hcall => exact absurd hcall (hinitiate _ _ _)
    · rfl
  · unfold retrievalPayment
    split
    · next hcall => exact absurd hcall (hclaim _)
    · rfl

theorem initiateRetrieval_opens {dealId amount : Nat} {provider : Address}
    (hcall : a.call = .base (.market (.initiateRetrieval dealId provider amount)))
    (h : n.step sites a = .ok (n', logs)) : RetrievalStep n a logs n' := by
  simp only [Network.step, hcall, System.marketStep, System.initiateRetrieval, bind_eq_ok, require_eq_ok,
    checkedAdd_eq_ok, pure_eq_ok, Prod.exists, Prod.mk.injEq, exists_const] at h
  obtain ⟨s, l, ⟨-, -, token, paid, htransfer, _, ⟨-, rfl⟩, rfl, rfl⟩, rfl, rfl⟩ := h
  obtain ⟨-, -, -, -, rfl⟩ := StorageToken.transferFrom_ok htransfer
  exact .opened (r := ⟨dealId, a.msg.sender, provider, amount, false⟩) rfl ⟨rfl, hcall, rfl, rfl⟩ rfl rfl

theorem claimRetrievalPayment_pays {id : Nat} (hcall : a.call = .base (.market (.claimRetrievalPayment id)))
    (h : n.step sites a = .ok (n', logs)) : RetrievalStep n a logs n' := by
  simp only [Network.step, hcall, System.marketStep, System.claimRetrievalPayment, bind_eq_ok, require_eq_ok,
    StorageToken.transfer_eq_ok, pure_eq_ok, Prod.exists, Prod.mk.injEq, exists_const] at h
  obtain ⟨s, l, ⟨hpending, hprovider, token, paid, ⟨-, -, -, rfl, rfl⟩, rfl, rfl⟩, rfl, rfl⟩ := h
  refine .claimed hpending ⟨hcall, hprovider, ?_⟩ rfl rfl
  rw [hprovider]
  rfl

/-- What a call does to the retrievals: open one, pay one, or leave them. -/
theorem step_retrieval (h : n.step sites a = .ok (n', logs)) : RetrievalStep n a logs n' := by
  rcases step_market h with ⟨hother, hmarket⟩ | ⟨c, l, hcall, -, heffect⟩
  · apply RetrievalStep.of_other
    · exact fun _ _ _ => hother _
    · exact fun _ => hother _
    · rw [hmarket]
      exact ⟨rfl, rfl⟩
  · cases c with
    | initiateRetrieval dealId provider amount => exact initiateRetrieval_opens hcall h
    | claimRetrievalPayment id => exact claimRetrievalPayment_pays hcall h
    | _ =>
      apply RetrievalStep.of_other
      · simp [hcall]
      · simp [hcall]
      · exact effect_retrievals (by simp) (by simp) heffect

end Steps

/-! ## Runs -/

section Runs

variable {sites : Sites}

theorem OpenedBy.amounts {id : Nat} {r : Retrieval} {e : NetworkEntry sites} (h : OpenedBy id r e) :
    retrievalDeposit e = r.amount ∧ retrievalPayment e = 0 := by
  unfold retrievalDeposit retrievalPayment
  rw [h.call, h.logs]
  simp [NetworkLog.received, Log.received]

theorem PaidBy.amounts {id : Nat} {r : Retrieval} {e : NetworkEntry sites} (h : PaidBy id r e) :
    retrievalDeposit e = 0 ∧ retrievalPayment e = r.amount := by
  unfold retrievalDeposit retrievalPayment
  rw [h.call, h.logs]
  simp [NetworkLog.sent, Log.sent]

theorem OpenedBy.kind {id : Nat} {r : Retrieval} {e : NetworkEntry sites} (h : OpenedBy id r e) (i : Nat) :
    initiates i e = decide (id = i) ∧ claims i e = false := by
  unfold initiates claims
  rw [h.call, h.number]
  exact ⟨rfl, rfl⟩

theorem PaidBy.kind {id : Nat} {r : Retrieval} {e : NetworkEntry sites} (h : PaidBy id r e) (i : Nat) :
    initiates i e = false ∧ claims i e = decide (id = i) := by
  unfold initiates claims
  rw [h.call]
  exact ⟨rfl, rfl⟩

/-- The invariant: ids are handed out in order, each by one call that deposited its amount, and the flags tell what
has been claimed. -/
structure RetrievalBooks (m : StorageMarketplace) (hist : List (NetworkEntry sites)) : Prop where
  beyond : ∀ id, m.retrievalCount ≤ id → m.retrievals id = {}
  openedBy : ∀ id < m.retrievalCount, ∃ i ∈ hist, OpenedBy id (m.retrievals id) i
  opened : ∀ id, hist.countP (initiates id) = if id < m.retrievalCount then 1 else 0
  claimed : ∀ id, hist.countP (claims id) = if (m.retrievals id).completed then 1 else 0
  paid : ∀ before e, before ++ [e] <+: hist → ∀ id, claims id e = true →
    ∃ i ∈ before, ∃ r, OpenedBy id r i ∧ PaidBy id r e
  balance : retrievalPayments hist + m.pendingRetrievals = deposits hist

theorem deposits_snoc (hist : List (NetworkEntry sites)) (e : NetworkEntry sites) :
    deposits (hist ++ [e]) = deposits hist + retrievalDeposit e := by
  simp [deposits]

theorem retrievalPayments_snoc (hist : List (NetworkEntry sites)) (e : NetworkEntry sites) :
    retrievalPayments (hist ++ [e]) = retrievalPayments hist + retrievalPayment e := by
  simp [retrievalPayments]

variable {n n' : Network} {a : NetworkAction sites} {logs : List NetworkLog} {hist : List (NetworkEntry sites)}

/-- A retrieval is opened by its client's deposit. -/
theorem RetrievalBooks.open_step {r : Retrieval} (h : RetrievalBooks n.market hist) (pending : r.completed = false)
    (openedBy : OpenedBy n.market.retrievalCount r ⟨n, a, logs, n'⟩)
    (retrievals : n'.market.retrievals = Function.update n.market.retrievals n.market.retrievalCount r)
    (count : n'.market.retrievalCount = n.market.retrievalCount + 1) :
    RetrievalBooks n'.market (hist ++ [⟨n, a, logs, n'⟩]) := by
  constructor
  · intro id hid
    rw [count] at hid
    rw [retrievals, Function.update_of_ne (by omega)]
    exact h.beyond id (by omega)
  · intro id hid
    rw [count] at hid
    by_cases heq : id = n.market.retrievalCount
    · subst heq
      rw [retrievals, Function.update_self]
      exact ⟨_, List.mem_append_right _ (List.mem_singleton_self _), openedBy⟩
    · obtain ⟨i, hi, hopened⟩ := h.openedBy id (by omega)
      rw [retrievals, Function.update_of_ne heq]
      exact ⟨i, List.mem_append_left _ hi, hopened⟩
  · intro id
    rw [List.countP_append, h.opened, List.countP_singleton, (openedBy.kind id).1, count]
    simp only [decide_eq_true_eq]
    split_ifs <;> omega
  · intro id
    rw [List.countP_append, h.claimed, List.countP_singleton, (openedBy.kind id).2, retrievals]
    by_cases heq : id = n.market.retrievalCount
    · subst heq
      rw [Function.update_self, pending, h.beyond _ (Nat.le_refl _)]
      rfl
    · rw [Function.update_of_ne heq]
      rfl
  · refine forall_prefix_snoc.mpr ⟨h.paid, ?_⟩
    intro id hclaims
    rw [(openedBy.kind id).2] at hclaims
    cases hclaims
  · have hpending : n'.market.pendingRetrievals = n.market.pendingRetrievals + r.amount := by
      unfold StorageMarketplace.pendingRetrievals
      rw [count, retrievals, Finset.sum_range_succ, Function.update_self, sum_range_update_next]
      simp [Retrieval.pending, pending]
    have hbalance := h.balance
    rw [retrievalPayments_snoc, deposits_snoc, openedBy.amounts.1, openedBy.amounts.2, hpending]
    omega

/-- A retrieval is paid once, and then it is complete. -/
theorem RetrievalBooks.claim_step {id : Nat} (h : RetrievalBooks n.market hist)
    (pending : (n.market.retrievals id).completed = false)
    (paidBy : PaidBy id (n.market.retrievals id) ⟨n, a, logs, n'⟩)
    (retrievals : n'.market.retrievals =
      Function.update n.market.retrievals id { n.market.retrievals id with completed := true })
    (count : n'.market.retrievalCount = n.market.retrievalCount) :
    RetrievalBooks n'.market (hist ++ [⟨n, a, logs, n'⟩]) := by
  -- an id not handed out yet names the zero address
  have hid : id < n.market.retrievalCount := by
    by_contra hbeyond
    have hzero := paidBy.provider
    rw [h.beyond id (by omega)] at hzero
    exact a.sender_ne_zero hzero
  constructor
  · intro i hi
    rw [count] at hi
    rw [retrievals, Function.update_of_ne (by omega)]
    exact h.beyond i hi
  -- a retrieval is opened once, and its number, client and amount stay
  · intro i hi
    rw [count] at hi
    obtain ⟨e, he, hopened⟩ := h.openedBy i hi
    refine ⟨e, List.mem_append_left _ he, ?_⟩
    rw [retrievals]
    by_cases heq : i = id
    · subst heq
      rw [Function.update_self]
      exact ⟨hopened.number, hopened.call, hopened.client, hopened.logs⟩
    · rw [Function.update_of_ne heq]
      exact hopened
  -- openings are counted as before, and one more claim
  · intro i
    rw [List.countP_append, h.opened, List.countP_singleton, (paidBy.kind i).1, count]
    rfl
  · intro i
    rw [List.countP_append, h.claimed, List.countP_singleton, (paidBy.kind i).2, retrievals]
    by_cases heq : i = id
    · subst heq
      rw [Function.update_self, pending]
      simp
    · rw [Function.update_of_ne heq]
      simp [Ne.symm heq]
  -- the claim pays what its opening has brought in
  · refine forall_prefix_snoc.mpr ⟨h.paid, ?_⟩
    intro i hclaims
    rw [(paidBy.kind i).2, decide_eq_true_eq] at hclaims
    subst hclaims
    obtain ⟨e, he, hopened⟩ := h.openedBy id hid
    exact ⟨e, he, _, hopened, paidBy⟩
  -- what is pending goes down by the amount of this retrieval
  · have hpending : n'.market.pendingRetrievals + (n.market.retrievals id).amount = n.market.pendingRetrievals := by
      have hsum := sum_range_update (fun i => (n.market.retrievals i).pending) 0 hid
      have hone : (n.market.retrievals id).pending = (n.market.retrievals id).amount := by
        simp [Retrieval.pending, pending]
      have hsame : (fun i => (n'.market.retrievals i).pending) =
          Function.update (fun i => (n.market.retrievals i).pending) id 0 := by
        rw [retrievals]
        exact Function.comp_update Retrieval.pending n.market.retrievals id _
      unfold StorageMarketplace.pendingRetrievals
      rw [count, hsame]
      omega
    have hbalance := h.balance
    rw [retrievalPayments_snoc, deposits_snoc, paidBy.amounts.1, paidBy.amounts.2]
    omega

/-- So the books hold after every call. -/
theorem RetrievalBooks.step (h : RetrievalBooks n.market hist) (hstep : RetrievalStep n a logs n') :
    RetrievalBooks n'.market (hist ++ [⟨n, a, logs, n'⟩]) := by
  cases hstep with
  | opened pending openedBy retrievals count => exact h.open_step pending openedBy retrievals count
  | claimed pending paidBy retrievals count => exact h.claim_step pending paidBy retrievals count
  | other no_deposit no_claim amounts retrievals count =>
    constructor
    · rw [retrievals, count]
      exact h.beyond
    · intro id hid
      rw [count] at hid
      obtain ⟨i, hi, hopened⟩ := h.openedBy id hid
      rw [retrievals]
      exact ⟨i, List.mem_append_left _ hi, hopened⟩
    · intro id
      rw [List.countP_append, h.opened, List.countP_singleton, no_deposit, count]
      rfl
    · intro id
      rw [List.countP_append, h.claimed, List.countP_singleton, no_claim, retrievals]
      rfl
    · refine forall_prefix_snoc.mpr ⟨h.paid, ?_⟩
      intro id hclaims
      rw [no_claim] at hclaims
      cases hclaims
    · have hpending : n'.market.pendingRetrievals = n.market.pendingRetrievals := by
        unfold StorageMarketplace.pendingRetrievals
        rw [count, retrievals]
      rw [retrievalPayments_snoc, deposits_snoc, amounts.1, amounts.2, hpending]
      exact h.balance

/-- **Retrieval payments**, along every run of the network from the deployment of the marketplace on. -/
theorem retrievals_run (n : Network) (msg : Msg) (treasury : Address) (as : List (NetworkAction sites)) :
    RetrievalsPaid (run (Network.step sites) (n.withNewMarket msg treasury) as).market
      (history (Network.step sites) (n.withNewMarket msg treasury) as) := by
  have hbooks : RetrievalBooks (run (Network.step sites) (n.withNewMarket msg treasury) as).market
      (history (Network.step sites) (n.withNewMarket msg treasury) as) := by
    refine run_induction (P := fun n hist => RetrievalBooks n.market hist) ?_ ?_ as (meets_true _ as)
    · refine ⟨fun _ _ => rfl, ?_, fun _ => rfl, fun _ => rfl, forall_prefix_nil, rfl⟩
      intro id hid
      exact absurd hid (Nat.not_lt_zero id)
    · intro n hist a n' logs hbooks _ hok
      exact hbooks.step (step_retrieval hok)
  refine ⟨fun id => ?_, fun id => ?_, hbooks.paid, hbooks.balance⟩
  · rw [hbooks.claimed]
    split <;> omega
  · rw [hbooks.opened]
    split <;> omega

end Runs

end Kyneto
