import Kyneto.PaymentDistributor.Basic

/-!
# `PaymentProcessor`: capacity rewards

The service that pays capacity rewards month by month. A run of `processCapacityRewards` selects the pledges whose
last payment is more than 30 days old, sends a transaction for each, waits for it, and writes the time of the
payment into the table. An error on the way is logged, and the run goes on with the next row. A new run starts
every day, whether the last one is done or not.

Runs, the network and the listener that fills the table take turns in any order. What one run does is cut where it
waits for somebody else: at its queries, at sending a transaction and at its return. A transaction that nobody waits
for any more can still be mined. All clocks show the same time, which is the time of the block as well.

The other two parts of `processPayments` send transactions that credit no pledge; here they are transactions like
those of anybody else.
-/

namespace Kyneto

open Evm

/-- 30 days. The distributor has the constant and does not use it; the processor's query spells it out. -/
def DISTRIBUTION_INTERVAL : Nat := 30 * DAY

/-- The most rows a run selects. -/
def BATCH_LIMIT : Nat := 50

/-! ## The table -/

/-- A provider and one of its pledges: the primary key of `capacity_pledges`. -/
abbrev PledgeKey := Address × Nat

/-- A row of `capacity_pledges`, with the columns that the processor reads. No service writes `active` after the
`INSERT`, so a row stays active when its pledge has ended. -/
structure PledgeRow where
  key : PledgeKey
  active : Bool := true
  lastPaymentAt : Option Nat := none
  deriving DecidableEq, Repr

/-- `active = true AND (last_payment_at IS NULL OR last_payment_at < NOW() - INTERVAL '30 days')` -/
def PledgeRow.due (now : Nat) (row : PledgeRow) : Bool :=
  row.active && match row.lastPaymentAt with
    | none => true
    | some paid => paid + DISTRIBUTION_INTERVAL < now

def dueKeys (now : Nat) (table : List PledgeRow) : List PledgeKey :=
  (table.filter (PledgeRow.due now)).map PledgeRow.key

/-- What the query may return: due rows, as many as there are up to the limit. It fixes no order. -/
def Selects (now : Nat) (table : List PledgeRow) (rows : List PledgeKey) : Prop :=
  rows.Nodup ∧ (∀ key ∈ rows, key ∈ dueKeys now table) ∧
    rows.length = min BATCH_LIMIT (dueKeys now table).length

instance (now : Nat) (table : List PledgeRow) (rows : List PledgeKey) : Decidable (Selects now table rows) :=
  inferInstanceAs (Decidable (_ ∧ _ ∧ _))

/-- `UPDATE capacity_pledges SET last_payment_at = NOW() WHERE …` -/
def recordPayment (now : Nat) (key : PledgeKey) (table : List PledgeRow) : List PledgeRow :=
  table.map fun row => if row.key = key then { row with lastPaymentAt := some now } else row

/-! ## Runs -/

/-- How far a run is with its current row. -/
inductive Phase where
  | sent                -- the transaction is out, `tx.wait()` is pending
  | mined (ok : Bool)   -- it is in a block, went through or reverted; `tx.wait()` is pending
  | confirmed           -- `tx.wait()` returned, the update is next
  deriving DecidableEq, Repr

/-- A run of `processCapacityRewards`, after its query. -/
structure PaymentRun where
  todo : List PledgeKey
  current : Option (PledgeKey × Phase) := none
  deriving DecidableEq, Repr

/-- The account whose key the processor holds. -/
structure Wallet (sites : Sites) where
  addr : Address
  ne_zero : addr ≠ 0
  ne_marketplace : addr ≠ sites.marketplace
  ne_pledges : addr ≠ sites.pledges
  ne_distributor : addr ≠ sites.distributor

/-- The transaction for one row. -/
def Wallet.pays {sites : Sites} (wallet : Wallet sites) (now : Nat) (key : PledgeKey) : NetworkAction sites where
  msg := ⟨wallet.addr, now⟩
  call := .distributor (.distributeCapacityRewards key.1 key.2)
  sender_ne_zero := wallet.ne_zero
  sender_ne_marketplace := wallet.ne_marketplace
  sender_ne_pledges := wallet.ne_pledges
  sender_ne_distributor := wallet.ne_distributor

/-- The network, the table and the runs of the processor. -/
structure PaymentProcessor where
  network : Network
  capacityPledges : List PledgeRow := []
  runs : List PaymentRun := []
  abandoned : List PledgeKey := []   -- transactions that are out and nobody waits for

/-- A transaction that went through, with the logs it emitted. -/
structure Mined (sites : Sites) where
  act : NetworkAction sites
  logs : List NetworkLog

inductive ProcessorEvent (sites : Sites) where
  | transaction (a : NetworkAction sites)
  | pledgeListed (key : PledgeKey)          -- the listener's `handlePledgeCreated`
  | runStarts (rows : List PledgeKey)
  | sends (i : Nat)
  | sendFails (i : Nat)
  | mines (i : Nat)
  | minesAbandoned (i : Nat)
  | waitReturns (i : Nat)
  | waitFails (i : Nat)
  | updates (i : Nat)
  | updateFails (i : Nat)

structure ProcessorAction (sites : Sites) where
  now : Nat
  event : ProcessorEvent sites

namespace PaymentProcessor

variable {sites : Sites} (wallet : Wallet sites)

def setRun (s : PaymentProcessor) (i : Nat) (r : PaymentRun) : PaymentProcessor :=
  { s with runs := s.runs.set i r }

/-- The transaction for `key` is mined: if it reverts, the network stays as it is. -/
def mine (s : PaymentProcessor) (now : Nat) (key : PledgeKey) :
    Bool × PaymentProcessor × List (Mined sites) :=
  match s.network.step sites (wallet.pays now key) with
  | .ok (network, logs) => (true, { s with network }, [⟨wallet.pays now key, logs⟩])
  | .error _ => (false, s, [])

def disabled {α : Type} : Tx α := .error (.reason "event not enabled")

def step (s : PaymentProcessor) (a : ProcessorAction sites) :
    Tx (PaymentProcessor × List (Mined sites)) :=
  match a.event with
  | .transaction tx => do
    require (tx.msg.timestamp = a.now) "block of another time"
    let (network, logs) ← s.network.step sites tx
    return ({ s with network }, [⟨tx, logs⟩])
  | .pledgeListed key => do
    require (∀ row ∈ s.capacityPledges, row.key ≠ key) "duplicate key value violates unique constraint"
    return ({ s with capacityPledges := s.capacityPledges ++ [{ key }] }, [])
  | .runStarts rows => do
    require (Selects a.now s.capacityPledges rows) "not an answer to the query"
    return ({ s with runs := s.runs ++ [{ todo := rows }] }, [])
  | .sends i =>
    match s.runs[i]? with
    | some ⟨key :: todo, none⟩ => .ok (s.setRun i ⟨todo, some (key, .sent)⟩, [])
    | _ => disabled
  | .sendFails i =>
    match s.runs[i]? with
    | some ⟨_ :: todo, none⟩ => .ok (s.setRun i ⟨todo, none⟩, [])
    | _ => disabled
  | .mines i =>
    match s.runs[i]? with
    | some ⟨todo, some (key, .sent)⟩ =>
      let (ok, s, logs) := s.mine wallet a.now key
      .ok (s.setRun i ⟨todo, some (key, .mined ok)⟩, logs)
    | _ => disabled
  | .minesAbandoned i =>
    match s.abandoned[i]? with
    | some key =>
      let (_, s, logs) := s.mine wallet a.now key
      .ok ({ s with abandoned := s.abandoned.eraseIdx i }, logs)
    | none => disabled
  | .waitReturns i =>
    match s.runs[i]? with
    | some ⟨todo, some (key, .mined true)⟩ => .ok (s.setRun i ⟨todo, some (key, .confirmed)⟩, [])
    | _ => disabled
  | .waitFails i =>
    match s.runs[i]? with
    | some ⟨todo, some (key, .sent)⟩ =>
      .ok ({ s.setRun i ⟨todo, none⟩ with abandoned := s.abandoned ++ [key] }, [])
    | some ⟨todo, some (_, .mined _)⟩ => .ok (s.setRun i ⟨todo, none⟩, [])
    | _ => disabled
  | .updates i =>
    match s.runs[i]? with
    | some ⟨todo, some (key, .confirmed)⟩ =>
      .ok ({ s.setRun i ⟨todo, none⟩ with
        capacityPledges := recordPayment a.now key s.capacityPledges }, [])
    | _ => disabled
  | .updateFails i =>
    match s.runs[i]? with
    | some ⟨todo, some (_, .confirmed)⟩ => .ok (s.setRun i ⟨todo, none⟩, [])
    | _ => disabled

end PaymentProcessor

namespace SmallNetwork

/-- The processor pays from the account of the owner. -/
def wallet : Wallet sites :=
  ⟨1, firstAccount_ne_zero, by decide, by decide, by decide⟩

end SmallNetwork

end Kyneto
