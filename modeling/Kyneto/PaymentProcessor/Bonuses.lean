import Kyneto.PaymentProcessor.Basic
import Kyneto.Workers

/-!
# A bonus for every proof

`processProofBonuses` selects the providers that have an unpaid submission of the last 24 hours, sends each a bonus,
waits for the transaction, and marks the submissions of the provider as paid: all that are less than 24 hours old by
then, those that were paid before and those that came in meanwhile as well.

The table is filled by other services; a row keeps the address as they spell it. Runs are cut as those for the capacity
rewards are. `bonusesMatch_iff` says when the payments made and the rows marked agree: exactly if each update finds one
unpaid row, and no payment is made or lost on the way to its update.
-/

namespace Kyneto

open Evm

/-- The most providers a run selects. -/
def BONUS_LIMIT : Nat := 100

/-! ## The table -/

/-- A row of `proof_submissions`. -/
structure ProofRow where
  providerAddress : String
  submittedAt : Nat
  bonusPaid : Bool := false
  deriving DecidableEq, Repr

/-- `submitted_at > NOW() - INTERVAL '24 hours'` -/
def ProofRow.recent (now : Nat) (row : ProofRow) : Bool := now < row.submittedAt + DAY

/-- A recent submission without a bonus. -/
def ProofRow.due (now : Nat) (row : ProofRow) : Bool := row.recent now && !row.bonusPaid

def dueProviders (now : Nat) (table : List ProofRow) : List String :=
  ((table.filter (ProofRow.due now)).map ProofRow.providerAddress).dedup

/-- What the query may return: different providers with a due row, as many as there are up to the limit. -/
def SelectsProviders (now : Nat) (table : List ProofRow) (rows : List String) : Prop :=
  rows.Nodup ∧ (∀ address ∈ rows, address ∈ dueProviders now table) ∧
    rows.length = min BONUS_LIMIT (dueProviders now table).length

instance (now : Nat) (table : List ProofRow) (rows : List String) : Decidable (SelectsProviders now table rows) :=
  inferInstanceAs (Decidable (_ ∧ _ ∧ _))

/-- `UPDATE proof_submissions SET bonus_paid = true WHERE …`. It does not ask for `bonus_paid = false`. -/
def recordBonuses (now : Nat) (address : String) (table : List ProofRow) : List ProofRow :=
  table.map fun row => if row.providerAddress = address ∧ row.recent now then { row with bonusPaid := true } else row

/-! ## Runs -/

/-- A run of `processProofBonuses`, after its query. -/
structure BonusRun where
  todo : List String
  current : Option (String × Phase) := none
  deriving DecidableEq, Repr

/-- The account of the processor, and how ethers reads an address. -/
structure BonusEnv (sites : Sites) where
  wallet : Wallet sites
  parseAddress : String → Option Address

/-- The network, the table and the runs. -/
structure BonusProcessor where
  network : Network
  proofSubmissions : List ProofRow := []
  runs : List BonusRun := []
  abandoned : List Address := []   -- bonuses that are out and nobody waits for

inductive BonusEvent (sites : Sites) where
  | transaction (a : NetworkAction sites)
  | submitted (address : String) (submittedAt : Nat)
  | runStarts (rows : List String)
  | sends (i : Nat)
  | sendFails (i : Nat)
  | sendsUnseen (i : Nat)   -- the transaction is out, and the call ends with an error
  | mines (i : Nat)
  | minesAbandoned (i : Nat)
  | waitReturns (i : Nat)
  | waitFails (i : Nat)
  | updates (i : Nat)
  | updateFails (i : Nat)

structure BonusAction (sites : Sites) where
  now : Nat
  event : BonusEvent sites

/-- The transaction for one provider. -/
def Wallet.paysBonus {sites : Sites} (wallet : Wallet sites) (now : Nat) (p : Address) : NetworkAction sites where
  msg := ⟨wallet.addr, now⟩
  call := .distributor (.payProofBonus p)
  sender_ne_zero := wallet.ne_zero
  sender_ne_marketplace := wallet.ne_marketplace
  sender_ne_pledges := wallet.ne_pledges
  sender_ne_distributor := wallet.ne_distributor

namespace BonusProcessor

variable {sites : Sites} (env : BonusEnv sites)

def setRun (s : BonusProcessor) (i : Nat) (r : BonusRun) : BonusProcessor := { s with runs := s.runs.set i r }

/-- The bonus for `p` is mined: if it reverts, the network stays as it is. -/
def mine (s : BonusProcessor) (now : Nat) (p : Address) : Bool × BonusProcessor × List (Mined sites) :=
  match s.network.step sites (env.wallet.paysBonus now p) with
  | .ok (network, logs) => (true, { s with network }, [⟨env.wallet.paysBonus now p, logs⟩])
  | .error _ => (false, s, [])

def step (s : BonusProcessor) (a : BonusAction sites) : Tx (BonusProcessor × List (Mined sites)) :=
  match a.event with
  | .transaction tx => do
    let (network, logs) ← s.network.step sites tx
    return ({ s with network }, [⟨tx, logs⟩])
  | .submitted providerAddress submittedAt =>
    .ok ({ s with proofSubmissions := s.proofSubmissions ++ [{ providerAddress, submittedAt }] }, [])
  | .runStarts rows => do
    require (SelectsProviders a.now s.proofSubmissions rows) "not an answer to the query"
    return ({ s with runs := s.runs ++ [{ todo := rows }] }, [])
  | .sends i =>
    match s.runs[i]? with
    | some ⟨address :: todo, none⟩ =>
      if (env.parseAddress address).isSome then .ok (s.setRun i ⟨todo, some (address, .sent)⟩, [])
      else PaymentProcessor.disabled
    | _ => PaymentProcessor.disabled
  | .sendFails i =>
    match s.runs[i]? with
    | some ⟨_ :: todo, none⟩ => .ok (s.setRun i ⟨todo, none⟩, [])
    | _ => PaymentProcessor.disabled
  | .sendsUnseen i =>
    match s.runs[i]? with
    | some ⟨address :: todo, none⟩ =>
      .ok ({ s.setRun i ⟨todo, none⟩ with abandoned := s.abandoned ++ (env.parseAddress address).toList }, [])
    | _ => PaymentProcessor.disabled
  | .mines i =>
    match s.runs[i]? with
    | some ⟨todo, some (address, .sent)⟩ =>
      match env.parseAddress address with
      | some p =>
        let (ok, s, logs) := s.mine env a.now p
        .ok (s.setRun i ⟨todo, some (address, .mined ok)⟩, logs)
      | none => PaymentProcessor.disabled
    | _ => PaymentProcessor.disabled
  | .minesAbandoned i =>
    match s.abandoned[i]? with
    | some p =>
      let (_, s, logs) := s.mine env a.now p
      .ok ({ s with abandoned := s.abandoned.eraseIdx i }, logs)
    | none => PaymentProcessor.disabled
  | .waitReturns i =>
    match s.runs[i]? with
    | some ⟨todo, some (address, .mined true)⟩ => .ok (s.setRun i ⟨todo, some (address, .confirmed)⟩, [])
    | _ => PaymentProcessor.disabled
  | .waitFails i =>
    match s.runs[i]? with
    | some ⟨todo, some (address, .sent)⟩ =>
      .ok ({ s.setRun i ⟨todo, none⟩ with abandoned := s.abandoned ++ (env.parseAddress address).toList }, [])
    | some ⟨todo, some (_, .mined _)⟩ => .ok (s.setRun i ⟨todo, none⟩, [])
    | _ => PaymentProcessor.disabled
  | .updates i =>
    match s.runs[i]? with
    | some ⟨todo, some (address, .confirmed)⟩ =>
      .ok ({ s.setRun i ⟨todo, none⟩ with
        proofSubmissions := recordBonuses a.now address s.proofSubmissions }, [])
    | _ => PaymentProcessor.disabled
  | .updateFails i =>
    match s.runs[i]? with
    | some ⟨todo, some (_, .confirmed)⟩ => .ok (s.setRun i ⟨todo, none⟩, [])
    | _ => PaymentProcessor.disabled

end BonusProcessor

/-! ## Payments and marked rows -/

abbrev BonusEntry (sites : Sites) := Entry BonusProcessor (BonusAction sites) (Mined sites)

/-- The event reports a bonus of `p`. -/
def NetworkLog.paysBonus (p : Address) : NetworkLog → Bool
  | .distributor (.ProofBonusPaid q _) => q = p
  | _ => false

/-- The provider that the call pays a bonus. -/
def NetworkCall.bonusFor : NetworkCall → Option Address
  | .distributor (.payProofBonus p) => some p
  | _ => none

section Definitions

variable {sites : Sites} (env : BonusEnv sites)

/-- The bonuses of `p` in the transactions of one step. -/
def bonusesIn (p : Address) (mined : List (Mined sites)) : Nat :=
  (mined.map fun m => m.logs.countP (NetworkLog.paysBonus p)).sum

/-- The bonuses that were ever paid to `p`. -/
def bonusesPaid (p : Address) (hist : List (BonusEntry sites)) : Nat := (hist.map fun e => bonusesIn p e.logs).sum

/-- The row is one of `p`, and marked. -/
def ProofRow.marked (p : Address) (row : ProofRow) : Bool :=
  row.bonusPaid && decide (env.parseAddress row.providerAddress = some p)

/-- The run has paid `p` a bonus, and the update is still to come. -/
def BonusRun.owes (p : Address) (r : BonusRun) : Bool :=
  match r.current with
  | some (address, .mined true) | some (address, .confirmed) => env.parseAddress address = some p
  | _ => false

/-- The rows of `p` that were ever marked: none is ever unmarked. -/
def markedRows (p : Address) (s : BonusProcessor) : Nat := s.proofSubmissions.countP (ProofRow.marked env p)

/-- The bonuses of `p` that a run is about to record. -/
def unrecorded (p : Address) (s : BonusProcessor) : Nat := s.runs.countP (BonusRun.owes env p)

/-- Every provider has been paid as many bonuses as rows of it are marked, or are about to be. -/
def BonusesMatch (s : BonusProcessor) (hist : List (BonusEntry sites)) : Prop :=
  ∀ p, bonusesPaid p hist = markedRows env p s + unrecorded env p s

/-- The row a run is at, and how far it is. -/
def BonusProcessor.currentOf (s : BonusProcessor) (i : Nat) : Option (String × Phase) :=
  s.runs[i]?.bind BonusRun.current

/-- Nobody pays a bonus by hand, and no bonus that nobody waits for any more goes through; `tx.wait()` does not fail
for a bonus that did, nor does the update, and it finds one unpaid row in its window. -/
def OneForOne (s : BonusProcessor) (a : BonusAction sites) : Prop :=
  match a.event with
  | .transaction tx => tx.call.bonusFor = none
  | .minesAbandoned i => ∀ p, s.abandoned[i]? = some p →
    ∀ r, s.network.step sites (env.wallet.paysBonus a.now p) ≠ .ok r
  | .waitFails i => ∀ address, s.currentOf i ≠ some (address, .mined true)
  | .updates i => ∀ address phase, s.currentOf i = some (address, phase) →
    s.proofSubmissions.countP (fun row => row.due a.now && decide (row.providerAddress = address)) = 1
  | .updateFails _ => False
  | _ => True

end Definitions

/-! ## Which calls pay bonuses -/

section Logs

variable {sites : Sites} {n n' : Network} {a : NetworkAction sites} {logs : List NetworkLog} {p : Address}

theorem countP_base (p : Address) (l : List Log) : (l.map NetworkLog.base).countP (NetworkLog.paysBonus p) = 0 := by
  rw [List.countP_eq_zero]
  intro log hlog
  obtain ⟨b, -, rfl⟩ := List.mem_map.mp hlog
  exact Bool.false_ne_true

theorem countP_token (p : Address) (l : List TokenLog) :
    (l.map (NetworkLog.base ∘ Log.token)).countP (NetworkLog.paysBonus p) = 0 := by
  rw [← List.map_map]
  exact countP_base p _

/-- Paying for the usage gives no bonus. -/
theorem countP_creditActive {d d' : PaymentDistributor} {deal : Deal} {dealId reward : Nat} {l : List Address}
    (h : d.creditActive dealId deal reward l = .ok (d', logs)) : logs.countP (NetworkLog.paysBonus p) = 0 := by
  induction l generalizing d d' logs with
  | nil =>
    obtain ⟨-, rfl⟩ := Prod.mk.inj (Except.ok.inj h)
    rfl
  | cons q rest ih =>
    unfold PaymentDistributor.creditActive at h
    split at h
    · simp only [bind_eq_ok, pure_eq_ok, Prod.exists, Prod.mk.injEq] at h
      obtain ⟨e, -, d₁, more, hrest, -, rfl⟩ := h
      rw [List.countP_cons, ih hrest]
      rfl
    · exact ih h

/-- Only `payProofBonus` pays a bonus, and it pays one. -/
theorem countP_paysBonus (h : n.step sites a = .ok (n', logs)) (p : Address) :
    logs.countP (NetworkLog.paysBonus p) = if a.call.bonusFor = some p then 1 else 0 := by
  cases hcall : a.call with
  | base c =>
    -- the other contracts have no events of this kind
    have hlogs : ∃ l : List Log, logs = l.map NetworkLog.base := by
      cases c with
      | market c =>
        simp only [Network.step, hcall, bind_eq_ok, pure_eq_ok, Prod.exists, Prod.mk.injEq] at h
        obtain ⟨s, l, -, -, rfl⟩ := h
        exact ⟨l, rfl⟩
      | token c =>
        simp only [Network.step, hcall, bind_eq_ok, pure_eq_ok, Prod.exists, Prod.mk.injEq] at h
        obtain ⟨token, l, -, -, rfl⟩ := h
        exact ⟨l.map Log.token, by rw [List.map_map]⟩
      | registry c =>
        simp only [Network.step, hcall, bind_eq_ok, pure_eq_ok, Prod.exists, Prod.mk.injEq] at h
        obtain ⟨registry, l, -, -, rfl⟩ := h
        exact ⟨l.map Log.registry, by rw [List.map_map]⟩
    obtain ⟨l, rfl⟩ := hlogs
    exact countP_base p l
  | pledge c =>
    simp only [Network.step, hcall, bind_eq_ok, pure_eq_ok, Prod.exists, Prod.mk.injEq] at h
    obtain ⟨token, pledges, paid, l, -, -, rfl⟩ := h
    have hpledge : (l.map NetworkLog.pledge).countP (NetworkLog.paysBonus p) = 0 := by
      rw [List.countP_eq_zero]
      -- the token's events, and those of the pledge contract, are of other kinds
      intro log hlog
      obtain ⟨b, -, rfl⟩ := List.mem_map.mp hlog
      exact Bool.false_ne_true
    rw [List.countP_append, countP_token, hpledge]
    rfl
  | distributor c =>
    simp only [Network.step, hcall] at h
    cases c with
    | distributeCapacityRewards q pledgeId =>
      simp only [Network.distributorStep, Network.distributeCapacityRewards, bind_eq_ok, pure_eq_ok, Prod.exists,
        Prod.mk.injEq] at h
      obtain ⟨_, -, _, -, _, -, _, -, _, -, token, paid, -, _, -, _, -, -, rfl⟩ := h
      rw [List.countP_append, countP_token]
      rfl
    | distributeUsageRewards dealId =>
      simp only [Network.distributorStep, Network.distributeUsageRewards, bind_eq_ok, pure_eq_ok, Prod.exists,
        -- `creditActive` is the loop over the providers of the deal
        Prod.mk.injEq] at h
      obtain ⟨_, -, _, -, _, -, _, -, _, -, _, -, _, -, d, l, hloop, -, rfl⟩ := h
      rw [List.countP_cons, List.countP_cons, countP_creditActive hloop]
      rfl
    | payProofBonus q =>
      simp only [Network.distributorStep, Network.payProofBonus, bind_eq_ok, pure_eq_ok, Prod.exists,
        Prod.mk.injEq] at h
      obtain ⟨_, -, _, -, _, -, _, -, token, paid, -, -, rfl⟩ := h
      rw [List.countP_append, countP_token, List.countP_singleton]
      simp [NetworkLog.paysBonus, NetworkCall.bonusFor]
    | withdrawEarnings =>
      simp only [Network.distributorStep, Network.withdrawEarnings, bind_eq_ok, pure_eq_ok, Prod.exists,
        Prod.mk.injEq] at h
      obtain ⟨_, -, _, -, _, -, token, paid, -, -, rfl⟩ := h
      rw [List.countP_append, countP_token]
      rfl
    | withdrawProtocolFees recipient =>
      simp only [Network.distributorStep, Network.withdrawProtocolFees, bind_eq_ok, pure_eq_ok, Prod.exists,
        Prod.mk.injEq] at h
      obtain ⟨_, -, _, -, token, paid, -, -, rfl⟩ := h
      rw [countP_token]
      rfl
    | useRepairReserve newProvider amount =>
      simp only [Network.distributorStep, Network.useRepairReserve, bind_eq_ok, pure_eq_ok, Prod.mk.injEq] at h
      obtain ⟨_, -, _, -, _, -, -, rfl⟩ := h
      rfl
    | updateRates _ _ _ | transferOwnership _ | renounceOwnership =>
      simp only [Network.distributorStep, Network.updateRates, bind_eq_ok, pure_eq_ok, Prod.mk.injEq] at h
      obtain ⟨_, -, -, rfl⟩ := h
      rfl

end Logs

/-! ## Counting runs and rows -/

section Counting

variable {sites : Sites} {env : BonusEnv sites} {s : BonusProcessor} {p : Address} {i : Nat} {r r' : BonusRun}

theorem unrecorded_setRun (env : BonusEnv sites) (p : Address) (r' : BonusRun) (hr : s.runs[i]? = some r) :
    unrecorded env p (s.setRun i r') + (if r.owes env p then 1 else 0) =
      unrecorded env p s + if r'.owes env p then 1 else 0 := countP_set_add hr

/-- The update marks the rows that are due, and nothing else. -/
theorem marked_recordBonuses (now : Nat) (address : String) (table : List ProofRow) :
    (recordBonuses now address table).countP (ProofRow.marked env p) = table.countP (ProofRow.marked env p) +
      if env.parseAddress address = some p then
        table.countP (fun row => row.due now && decide (row.providerAddress = address)) else 0 := by
  induction table with
  | nil => simp [recordBonuses]
  | cons row table ih =>
    have hcons : recordBonuses now address (row :: table) =
        (if row.providerAddress = address ∧ row.recent now then { row with bonusPaid := true } else row) ::
          recordBonuses now address table := rfl
    have hrow : (if ProofRow.marked env p
          (if row.providerAddress = address ∧ row.recent now then { row with bonusPaid := true } else row)
          then 1 else 0) =
        (if ProofRow.marked env p row then 1 else 0) +
          if env.parseAddress address = some p ∧ row.due now ∧ row.providerAddress = address then 1 else 0 := by
      by_cases hsame : row.providerAddress = address
      · subst hsame
        cases hrecent : row.recent now <;> cases hpaid : row.bonusPaid <;>
          simp [ProofRow.marked, ProofRow.due, hrecent, hpaid]
      · simp [hsame]
    rw [hcons, List.countP_cons, List.countP_cons, List.countP_cons, ih, hrow]
    by_cases hparse : env.parseAddress address = some p
    · simp only [hparse, true_and, if_true, Bool.and_eq_true, decide_eq_true_eq]
      omega
    · simp only [hparse, false_and, if_false]
      omega

end Counting

/-! ## One step -/

section Steps

variable {sites : Sites} {env : BonusEnv sites} {s s' : BonusProcessor} {hist : List (BonusEntry sites)}
  {a : BonusAction sites} {logs : List (Mined sites)} {i : Nat} {r r' : BonusRun}

/-- A run is at a row whose address can be read. -/
def Readable (env : BonusEnv sites) (s : BonusProcessor) : Prop :=
  ∀ r ∈ s.runs, ∀ address phase, r.current = some (address, phase) → ∃ p, env.parseAddress address = some p

theorem bonusesPaid_snoc (p : Address) (hist : List (BonusEntry sites)) (e : BonusEntry sites) :
    bonusesPaid p (hist ++ [e]) = bonusesPaid p hist + bonusesIn p e.logs := by
  simp [bonusesPaid]

/-- What a step pays and takes from what is about to be recorded has to be what it marks and adds to it. -/
theorem match_iff_of_moves (paid marked taken added : Address → Nat) (h : BonusesMatch env s hist)
    (hpaid : ∀ p, bonusesIn p logs = paid p) (hmarked : ∀ p, markedRows env p s' = markedRows env p s + marked p)
    (hunrecorded : ∀ p, unrecorded env p s' + taken p = unrecorded env p s + added p) :
    BonusesMatch env s' (hist ++ [⟨s, a, logs, s'⟩]) ↔ ∀ p, paid p + taken p = marked p + added p := by
  unfold BonusesMatch
  constructor
  · intro h' p
    have hbefore := h p
    have hafter := h' p
    have hrecord := hunrecorded p
    rw [bonusesPaid_snoc, hpaid, hmarked] at hafter
    omega
  · intro hmoves p
    have hbefore := h p
    have hrecord := hunrecorded p
    have hmove := hmoves p
    rw [bonusesPaid_snoc, hpaid, hmarked]
    omega

/-- A step that pays and marks nothing, and leaves every run with what it was about to record. -/
theorem match_of_quiet (h : BonusesMatch env s hist)
    (hmarked : ∀ p, markedRows env p s' = markedRows env p s)
    (hunrecorded : ∀ p, unrecorded env p s' = unrecorded env p s) :
    BonusesMatch env s' (hist ++ [⟨s, a, [], s'⟩]) := by
  apply (match_iff_of_moves (fun _ => 0) (fun _ => 0) (fun _ => 0) (fun _ => 0) h (fun _ => rfl) hmarked
    hunrecorded).mpr
  exact fun _ => rfl

/-- A run moves on, and is about to record what it was. -/
theorem match_of_setRun (h : BonusesMatch env s hist) (hr : s.runs[i]? = some r)
    (hruns : s'.runs = s.runs.set i r') (htable : s'.proofSubmissions = s.proofSubmissions)
    (howes : ∀ p, r'.owes env p = r.owes env p) : BonusesMatch env s' (hist ++ [⟨s, a, [], s'⟩]) := by
  apply match_of_quiet h
  · intro p
    unfold markedRows
    rw [htable]
  · intro p
    have hset := unrecorded_setRun env p r' hr
    have hsame : unrecorded env p s' = unrecorded env p (s.setRun i r') := by
      unfold unrecorded
      rw [hruns]
      rfl
    rw [howes] at hset
    omega

/-- What a bonus does when it is mined. -/
theorem minesBonus_cases (env : BonusEnv sites) (s : BonusProcessor) (now : Nat) (p : Address) :
    (∃ network mined, s.network.step sites (env.wallet.paysBonus now p) = .ok (network, mined) ∧
        s.mine env now p = (true, { s with network := network }, [⟨env.wallet.paysBonus now p, mined⟩])) ∨
      (∀ r, s.network.step sites (env.wallet.paysBonus now p) ≠ .ok r) ∧ s.mine env now p = (false, s, []) := by
  unfold BonusProcessor.mine
  cases h : s.network.step sites (env.wallet.paysBonus now p) with
  | ok r =>
    obtain ⟨network, mined⟩ := r
    exact Or.inl ⟨network, mined, rfl, rfl⟩
  | error e => exact Or.inr ⟨nofun, rfl⟩

theorem bonusesIn_paysBonus {now : Nat} {p : Address} {n n' : Network} {mined : List NetworkLog}
    (h : n.step sites (env.wallet.paysBonus now p) = .ok (n', mined)) (q : Address) :
    bonusesIn q [⟨env.wallet.paysBonus now p, mined⟩] = if p = q then 1 else 0 := by
  have hcount := countP_paysBonus h q
  simpa [bonusesIn, Wallet.paysBonus, NetworkCall.bonusFor] using hcount

/-- A transaction of somebody else keeps the bonuses matched exactly if it pays none. -/
theorem transaction_match_iff {tx : NetworkAction sites} {network : Network} {mined : List NetworkLog}
    (h : BonusesMatch env s hist) (hok : s.network.step sites tx = .ok (network, mined)) :
    BonusesMatch env { s with network := network } (hist ++ [⟨s, a, [⟨tx, mined⟩], { s with network := network }⟩]) ↔
      tx.call.bonusFor = none := by
  refine (match_iff_of_moves (fun p => if tx.call.bonusFor = some p then 1 else 0) (fun _ => 0) (fun _ => 0)
    (fun _ => 0) h ?_ ?_ ?_).trans ?_
  · intro p
    simpa [bonusesIn] using countP_paysBonus hok p
  · exact fun _ => rfl
  · exact fun _ => rfl
  · constructor
    · intro hmoves
      cases hbonus : tx.call.bonusFor with
      | none => rfl
      | some p =>
        have hmove := hmoves p
        rw [if_pos hbonus] at hmove
        omega
    · intro hnone p
      simp [hnone]

/-- The bonus that is mined is the one that the loop waits for. -/
theorem mines_match {todo : List String} {address : String} {p : Address} (h : BonusesMatch env s hist)
    (hr : s.runs[i]? = some ⟨todo, some (address, .sent)⟩) (hparse : env.parseAddress address = some p)
    (hs' : s' = (s.mine env a.now p).2.1.setRun i ⟨todo, some (address, .mined (s.mine env a.now p).1)⟩)
    (hlogs : logs = (s.mine env a.now p).2.2) : BonusesMatch env s' (hist ++ [⟨s, a, logs, s'⟩]) := by
  rcases minesBonus_cases env s a.now p with ⟨network, mined, hok, hmine⟩ | ⟨-, hmine⟩
  · rw [hmine] at hs' hlogs
    subst hs' hlogs
    refine (match_iff_of_moves (fun q => if p = q then 1 else 0) (fun _ => 0) (fun _ => 0)
      (fun q => if p = q then 1 else 0) h (bonusesIn_paysBonus hok) ?_ ?_).mpr ?_
    · exact fun _ => rfl
    · intro q
      have hset := countP_set_add (f := BonusRun.owes env q) (y := ⟨todo, some (address, .mined true)⟩) hr
      simpa [BonusRun.owes, hparse, unrecorded, BonusProcessor.setRun] using hset
    · intro q
      omega
  · rw [hmine] at hs' hlogs
    subst hs' hlogs
    exact match_of_setRun h hr rfl rfl fun _ => rfl

/-- A bonus that the loop has given up is one too many exactly if its transaction goes through. -/
theorem minesAbandoned_match_iff {p : Address} {rest : List Address} (h : BonusesMatch env s hist)
    (hs' : s' = { (s.mine env a.now p).2.1 with abandoned := rest })
    (hlogs : logs = (s.mine env a.now p).2.2) :
    BonusesMatch env s' (hist ++ [⟨s, a, logs, s'⟩]) ↔
      ∀ r, s.network.step sites (env.wallet.paysBonus a.now p) ≠ .ok r := by
  rcases minesBonus_cases env s a.now p with ⟨network, mined, hok, hmine⟩ | ⟨hfails, hmine⟩
  · rw [hmine] at hs' hlogs
    subst hs' hlogs
    refine (match_iff_of_moves (fun q => if p = q then 1 else 0) (fun _ => 0) (fun _ => 0) (fun _ => 0) h
      (bonusesIn_paysBonus hok) ?_ ?_).trans ?_
    · exact fun _ => rfl
    · exact fun _ => rfl
    apply iff_of_false
    · intro hmoves
      have hmove := hmoves p
      rw [if_pos rfl] at hmove
      omega
    · intro hnone
      exact hnone _ hok
  · rw [hmine] at hs' hlogs
    subst hs' hlogs
    exact iff_of_true (match_of_quiet h (fun _ => rfl) fun _ => rfl) hfails

/-- A run that was about to record a bonus leaves its row: an update has to have marked one row for it. -/
theorem leaves_match_iff {todo : List String} {address : String} {p : Address} {phase : Phase} {table : List ProofRow}
    {k : Nat} (h : BonusesMatch env s hist) (hr : s.runs[i]? = some ⟨todo, some (address, phase)⟩)
    (hparse : env.parseAddress address = some p) (howes : phase = .mined true ∨ phase = .confirmed)
    (htable : ∀ q, table.countP (ProofRow.marked env q) =
      s.proofSubmissions.countP (ProofRow.marked env q) + if env.parseAddress address = some q then k else 0) :
    BonusesMatch env { s.setRun i ⟨todo, none⟩ with proofSubmissions := table }
        (hist ++ [⟨s, a, [], { s.setRun i ⟨todo, none⟩ with proofSubmissions := table }⟩]) ↔ k = 1 := by
  refine (match_iff_of_moves (fun _ => 0) (fun q => if env.parseAddress address = some q then k else 0)
    (fun q => if env.parseAddress address = some q then 1 else 0) (fun _ => 0) h ?_ ?_ ?_).trans ?_
  · exact fun _ => rfl
  · exact htable
  · intro q
    have hset := unrecorded_setRun env q ⟨todo, none⟩ hr
    have hone : (⟨todo, some (address, phase)⟩ : BonusRun).owes env q = decide (env.parseAddress address = some q) := by
      rcases howes with rfl | rfl <;> rfl
    rw [hone] at hset
    show unrecorded env q (s.setRun i ⟨todo, none⟩) + _ = _
    simpa [BonusRun.owes] using hset
  · constructor
    · intro hmoves
      have hmove := hmoves p
      rw [if_pos hparse, if_pos hparse] at hmove
      omega
    · rintro rfl q
      omega

theorem Readable.setRun (h : Readable env s) (hr : s.runs[i]? = some r)
    (hcurrent : ∀ address phase, r'.current = some (address, phase) →
      (∃ phase', r.current = some (address, phase')) ∨ ∃ p, env.parseAddress address = some p) :
    Readable env (s.setRun i r') := by
  intro q hq address phase hphase
  rcases List.mem_or_eq_of_mem_set hq with hq | rfl
  · exact h q hq address phase hphase
  · rcases hcurrent address phase hphase with ⟨phase', hold⟩ | hparse
    · exact h r (List.mem_of_getElem? hr) address phase' hold
    · exact hparse

/-- Every address that the loop has in hand can be read, since it comes from the table of pledges. -/
theorem readable_step (h : Readable env s) (hstep : s.step env a = .ok (s', logs)) : Readable env s' := by
  obtain ⟨now, event⟩ := a
  -- mining changes the network and not the runs
  have hmine : ∀ p, (s.mine env now p).2.1.runs = s.runs := by
    intro p
    rcases minesBonus_cases env s now p with ⟨network, mined, -, hmine⟩ | ⟨-, hmine⟩ <;> rw [hmine]
  have leaves : ∀ {i todo current}, s.runs[i]? = some ⟨todo, current⟩ →
      ∀ todo', Readable env (s.setRun i ⟨todo', none⟩) :=
    fun hr todo' => h.setRun hr nofun
  cases event with
  | transaction tx =>
    simp only [BonusProcessor.step, bind_eq_ok, pure_eq_ok, Prod.exists, Prod.mk.injEq] at hstep
    obtain ⟨network, mined, -, rfl, -⟩ := hstep
    exact h
  | submitted address submittedAt =>
    obtain ⟨rfl, -⟩ := Prod.mk.inj (Except.ok.inj hstep)
    exact h
  | runStarts rows =>
    simp only [BonusProcessor.step, bind_eq_ok, pure_eq_ok, Prod.mk.injEq] at hstep
    obtain ⟨_, -, rfl, -⟩ := hstep
    -- a run that starts has no address in hand yet
    intro r hr address phase hphase
    rcases List.mem_append.mp hr with hr | hr
    · exact h r hr address phase hphase
    · obtain rfl := List.mem_singleton.mp hr
      cases hphase
  | sends i =>
    simp only [BonusProcessor.step] at hstep
    split at hstep
    · next address todo hr =>
      split at hstep
      · next hparse =>
        obtain ⟨rfl, -⟩ := Prod.mk.inj (Except.ok.inj hstep)
        -- ethers has read the address, or nothing would have been sent
        apply h.setRun hr
        rintro _ _ ⟨⟩
        exact Or.inr (Option.isSome_iff_exists.mp hparse)
      · cases hstep
    · cases hstep
  | sendFails i | sendsUnseen i | updates i | updateFails i =>
    simp only [BonusProcessor.step] at hstep
    split at hstep
    · next hr =>
      obtain ⟨rfl, -⟩ := Prod.mk.inj (Except.ok.inj hstep)
      exact leaves hr _
    · cases hstep
  | mines i =>
    simp only [BonusProcessor.step] at hstep
    split at hstep
    · next todo address hr =>
      split at hstep
      · next p hparse =>
        obtain ⟨rfl, -⟩ := Prod.mk.inj (Except.ok.inj hstep)
        -- the address of the run is the one that was read for this transaction
        intro q hq address' phase hphase
        unfold BonusProcessor.setRun at hq
        rw [hmine] at hq
        rcases List.mem_or_eq_of_mem_set hq with hq | rfl
        · exact h q hq address' phase hphase
        · cases hphase
          exact ⟨p, hparse⟩
      · cases hstep
    · cases hstep
  | minesAbandoned i =>
    simp only [BonusProcessor.step] at hstep
    split at hstep
    · next p hp =>
      obtain ⟨rfl, -⟩ := Prod.mk.inj (Except.ok.inj hstep)
      unfold Readable
      dsimp only
      rw [hmine]
      exact h
    · cases hstep
  | waitReturns i =>
    simp only [BonusProcessor.step] at hstep
    split at hstep
    · next todo address hr =>
      obtain ⟨rfl, -⟩ := Prod.mk.inj (Except.ok.inj hstep)
      apply h.setRun hr
      -- the phase is another one, the address is the same
      rintro _ _ ⟨⟩
      exact Or.inl ⟨_, rfl⟩
    · cases hstep
  -- it does not matter for the addresses whether the receipt is there
  | waitFails i =>
    simp only [BonusProcessor.step] at hstep
    split at hstep
    · next hr =>
      obtain ⟨rfl, -⟩ := Prod.mk.inj (Except.ok.inj hstep)
      exact leaves hr _
    · next hr =>
      obtain ⟨rfl, -⟩ := Prod.mk.inj (Except.ok.inj hstep)
      exact leaves hr _
    · cases hstep

/-- **A step keeps payments and marked rows in step exactly if it is one for one.** -/
theorem match_step_iff (hreadable : Readable env s) (h : BonusesMatch env s hist)
    (hstep : s.step env a = .ok (s', logs)) :
    BonusesMatch env s' (hist ++ [⟨s, a, logs, s'⟩]) ↔ OneForOne env s a := by
  obtain ⟨now, event⟩ := a
  -- what `OneForOne` looks at is the address and the phase of the run
  have current : ∀ {i : Nat} {todo : List String} {c : Option (String × Phase)},
      s.runs[i]? = some ⟨todo, c⟩ → s.currentOf i = c := by
    intro i todo c hr
    simp [BonusProcessor.currentOf, hr]
  have readable : ∀ {i : Nat} {todo : List String} {address : String} {phase : Phase},
      s.runs[i]? = some ⟨todo, some (address, phase)⟩ → ∃ p, env.parseAddress address = some p :=
    fun hr => hreadable _ (List.mem_of_getElem? hr) _ _ rfl
  cases event with
  | transaction tx =>
    simp only [BonusProcessor.step, bind_eq_ok, pure_eq_ok, Prod.exists, Prod.mk.injEq] at hstep
    obtain ⟨network, mined, hok, rfl, rfl⟩ := hstep
    exact transaction_match_iff h hok
  | submitted address submittedAt =>
    obtain ⟨rfl, rfl⟩ := Prod.mk.inj (Except.ok.inj hstep)
    refine iff_of_true (match_of_quiet h ?_ fun _ => rfl) trivial
    -- a row for a new proof is not marked yet
    intro p
    simp [markedRows, List.countP_append, ProofRow.marked]
  | runStarts rows =>
    simp only [BonusProcessor.step, bind_eq_ok, pure_eq_ok, Prod.mk.injEq] at hstep
    obtain ⟨_, -, rfl, rfl⟩ := hstep
    refine iff_of_true (match_of_quiet h (fun _ => rfl) ?_) trivial
    -- a new run owes no row
    intro p
    simp [unrecorded, List.countP_append, BonusRun.owes]
  | sends i =>
    simp only [BonusProcessor.step] at hstep
    split at hstep
    · next address todo hr =>
      split at hstep
      · obtain ⟨rfl, rfl⟩ := Prod.mk.inj (Except.ok.inj hstep)
        exact iff_of_true (match_of_setRun h hr rfl rfl fun _ => rfl) trivial
      · cases hstep
    · cases hstep
  | sendFails i | sendsUnseen i =>
    simp only [BonusProcessor.step] at hstep
    split at hstep
    · next hr =>
      obtain ⟨rfl, rfl⟩ := Prod.mk.inj (Except.ok.inj hstep)
      exact iff_of_true (match_of_setRun h hr rfl rfl fun _ => rfl) trivial
    · cases hstep
  | mines i =>
    simp only [BonusProcessor.step] at hstep
    split at hstep
    · next todo address hr =>
      split at hstep
      · next p hparse =>
        -- the bonus is paid, and the run owes its row
        obtain ⟨rfl, rfl⟩ := Prod.mk.inj (Except.ok.inj hstep)
        exact iff_of_true (mines_match h hr hparse rfl rfl) trivial
      · cases hstep
    · cases hstep
  | minesAbandoned i =>
    simp only [BonusProcessor.step] at hstep
    split at hstep
    · next p hp =>
      obtain ⟨rfl, rfl⟩ := Prod.mk.inj (Except.ok.inj hstep)
      -- nobody owes a row for this bonus
      refine (minesAbandoned_match_iff (p := p) h rfl rfl).trans ?_
      simp [OneForOne, hp]
    · cases hstep
  | waitReturns i =>
    simp only [BonusProcessor.step] at hstep
    split at hstep
    · next todo address hr =>
      obtain ⟨rfl, rfl⟩ := Prod.mk.inj (Except.ok.inj hstep)
      exact iff_of_true (match_of_setRun h hr rfl rfl fun _ => rfl) trivial
    · cases hstep
  | waitFails i =>
    simp only [BonusProcessor.step] at hstep
    split at hstep
    · next todo address hr =>
      obtain ⟨rfl, rfl⟩ := Prod.mk.inj (Except.ok.inj hstep)
      refine iff_of_true (match_of_setRun h hr rfl rfl fun _ => rfl) ?_
      simp [OneForOne, current hr]
    -- the wait fails although the transaction is mined: the row is owed and will not be marked
    · next todo address ok hr =>
      obtain ⟨rfl, rfl⟩ := Prod.mk.inj (Except.ok.inj hstep)
      obtain ⟨p, hparse⟩ := readable hr
      cases ok with
      | false =>
        refine iff_of_true (match_of_setRun h hr rfl rfl fun _ => rfl) ?_
        simp [OneForOne, current hr]
      | true =>
        refine (leaves_match_iff (k := 0) h hr hparse (Or.inl rfl) (fun _ => by simp)).trans ?_
        simp [OneForOne, current hr]
    · cases hstep
  | updates i =>
    simp only [BonusProcessor.step] at hstep
    split at hstep
    · next todo address hr =>
      obtain ⟨rfl, rfl⟩ := Prod.mk.inj (Except.ok.inj hstep)
      -- the UPDATE marks the rows of the provider, as many as there are
      obtain ⟨p, hparse⟩ := readable hr
      refine (leaves_match_iff h hr hparse (Or.inr rfl) (fun q => marked_recordBonuses now address _)).trans ?_
      simp [OneForOne, current hr]
    · cases hstep
  | updateFails i =>
    simp only [BonusProcessor.step] at hstep
    split at hstep
    · next todo address hr =>
      obtain ⟨rfl, rfl⟩ := Prod.mk.inj (Except.ok.inj hstep)
      -- the run gives up the row that it owes
      obtain ⟨p, hparse⟩ := readable hr
      refine (leaves_match_iff (k := 0) h hr hparse (Or.inr rfl) (fun _ => by simp)).trans ?_
      simp [OneForOne]
    · cases hstep

end Steps

/-! ## Runs -/

section Runs

variable {sites : Sites} (env : BonusEnv sites)

/-- **A bonus for every proof, exactly.** In a run from any state of the network payments and marked rows agree all
along if and only if all its steps are one for one; and then they are the same number for every provider wherever no
update is about to come. -/
theorem bonusesMatch_iff (n : Network) (as : List (BonusAction sites)) :
    ((∀ bs, bs <+: as → BonusesMatch env (run (BonusProcessor.step env) { network := n } bs)
        (history (BonusProcessor.step env) { network := n } bs)) ↔
      Meets (BonusProcessor.step env) (OneForOne env) { network := n } as) ∧
    (Meets (BonusProcessor.step env) (OneForOne env) { network := n } as → ∀ bs, bs <+: as → ∀ p,
      unrecorded env p (run (BonusProcessor.step env) { network := n } bs) = 0 →
        bonusesPaid p (history (BonusProcessor.step env) { network := n } bs) =
          markedRows env p (run (BonusProcessor.step env) { network := n } bs)) := by
  have hexact : (∀ bs, bs <+: as → BonusesMatch env (run (BonusProcessor.step env) { network := n } bs)
      (history (BonusProcessor.step env) { network := n } bs)) ↔
        Meets (BonusProcessor.step env) (OneForOne env) { network := n } as := by
    rw [meets_iff_before]
    apply lookback_iff (I := fun s _ => Readable env s) (P := fun s hist => BonusesMatch env s hist)
      (C := fun s _ a => OneForOne env s a)
    · exact fun _ => rfl
    · exact nofun
    · exact fun s hist a s' logs hreadable hstep => readable_step hreadable hstep
    · exact fun s hist a s' logs hreadable h hstep => match_step_iff hreadable h hstep
  refine ⟨hexact, ?_⟩
  intro hmeets bs hbs p hnone
  have hmatch := hexact.mpr hmeets bs hbs p
  omega

end Runs

namespace SmallNetwork

/-- The processor pays from the account of the owner, and `p` is how the account at 10 is written. -/
def bonusEnv : BonusEnv sites where
  wallet
  parseAddress address := if address = "p" then some 10 else none

/-- The provider submits two proofs, and the run that follows goes through undisturbed. -/
def submittedTwice : List (BonusAction sites) :=
  [⟨0, .transaction (account 9 0 (.base (.registry (.registerProvider "peer" "ep" "na" 5000))))⟩,
    ⟨0, .submitted "p" 0⟩, ⟨1, .submitted "p" 1⟩, ⟨2, .runStarts ["p"]⟩, ⟨2, .sends 0⟩, ⟨2, .mines 0⟩,
    ⟨2, .waitReturns 0⟩, ⟨2, .updates 0⟩]

/-- One bonus is paid, and both rows are marked. -/
theorem submittedTwice_paidOnce :
    bonusesPaid 10 (history (BonusProcessor.step bonusEnv) { network := deployed } submittedTwice) = 1 ∧
      markedRows bonusEnv 10 (run (BonusProcessor.step bonusEnv) { network := deployed } submittedTwice) = 2 ∧
      ¬ BonusesMatch bonusEnv (run (BonusProcessor.step bonusEnv) { network := deployed } submittedTwice)
        (history (BonusProcessor.step bonusEnv) { network := deployed } submittedTwice) := by
  refine ⟨by decide +kernel, by decide +kernel, ?_⟩
  intro hmatch
  exact absurd (hmatch 10) (by decide +kernel)

end SmallNetwork

end Kyneto
