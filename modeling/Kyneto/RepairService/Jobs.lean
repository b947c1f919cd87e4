import Kyneto.RepairService.Basic
import Kyneto.StorageMarketplace.Shards

/-!
# Entries in the hands of runs

An entry is in hand while a run has it on its list or works on it, and while its transaction is out. `RepairEffect`
lists, once for all, what a step can do to the entries in hand, to the table of entries and to the chain, and
`repair_effect` proves that every step does one of these. What is proved about whole runs starts from here.

`CarefulRepair` is the condition under which an entry stays in one hand and the contract agrees with it.
-/

namespace Kyneto

open Evm Sql

/-! ## Shard indices in the contract -/

/-- The index of a provider's shard, as the contract has it. -/
def StorageMarketplace.indexOf (m : StorageMarketplace) (dealId : Nat) (p : Address) : Nat :=
  ((m.deals dealId).shardAllocations p).shardIndex

/-- The calls that write the index of a provider's shard. -/
def Rewrites (m : StorageMarketplace) (dealId : Nat) (p : Address) : Call → Prop
  | .market (.createDeal params) => dealId = m.dealCount ∧ p ∈ params.selectedProviders
  | .market (.repairShard id oldProvider newProvider _) => dealId = id ∧ (p = oldProvider ∨ p = newProvider)
  | _ => False

section Chain

variable {this : Address} {s s' : System} {msg : Msg} {call : Call} {logs : List Log} {dealId : Nat} {p : Address}

theorem indexOf_of_wrote {m m' : StorageMarketplace} {id n fees : Nat} {deal : Deal} {pd : Address → List Nat}
    (w : Wrote m m' id deal n fees pd)
    (h : dealId = id → (deal.shardAllocations p).shardIndex = ((m.deals id).shardAllocations p).shardIndex) :
    m'.indexOf dealId p = m.indexOf dealId p := by
  unfold StorageMarketplace.indexOf
  by_cases hid : dealId = id
  · subst hid
    rw [w.deal_self]
    exact h rfl
  · rw [w.deal_of_ne hid]

theorem Deal.cleared_shardIndex (deal : Deal) (l : List Address) (p : Address) :
    (deal.cleared l p).shardIndex = (deal.shardAllocations p).shardIndex := by
  unfold Deal.cleared
  split
  · rfl
  · rfl

theorem Deal.without_shardIndex (deal : Deal) (provider p : Address) :
    (deal.without provider p).shardIndex = (deal.shardAllocations p).shardIndex := by
  unfold Deal.without
  by_cases hp : p = provider
  · subst hp
    rw [Function.update_self]
  · rw [Function.update_of_ne hp]

/-- The place of a provider in a deal only changes by a call that rewrites it. -/
theorem indexOf_effect (e : Effect this s msg call s' logs) (h : ¬ Rewrites s.market dealId p call) :
    s'.market.indexOf dealId p = s.market.indexOf dealId p := by
  cases e with
  | idle _ books =>
    unfold StorageMarketplace.indexOf
    rw [books.deals]
  | @created params price cost endTime _ _ hproviders hcids hsizes _ _ _ _ wrote =>
    refine indexOf_of_wrote wrote fun hid => ?_
    have hp : p ∉ params.shards.map Prod.fst := by
      rw [DealParams.shards_map_fst hproviders hcids hsizes]
      exact fun hmem => h ⟨hid, hmem⟩
    rw [createdDeal, Deal.assignShards_eq]
    exact congrArg ShardAllocation.shardIndex (assigned_of_notMem _ 0 hp)
  | renewed deal_eq _ _ _ wrote =>
    refine indexOf_of_wrote wrote fun _ => ?_
    rw [deal_eq]
  | completed deal_eq _ _ _ _ wrote | cancelled deal_eq _ _ _ wrote =>
    refine indexOf_of_wrote wrote fun _ => ?_
    rw [deal_eq]
    exact Deal.cleared_shardIndex _ _ _
  | lost deal_eq _ _ _ _ wrote | failed deal_eq _ _ _ _ _ wrote =>
    refine indexOf_of_wrote wrote fun _ => ?_
    rw [deal_eq]
    exact Deal.without_shardIndex _ _ _
  | repaired deal_eq _ _ _ _ wrote =>
    refine indexOf_of_wrote wrote fun hid => ?_
    have hother := not_or.mp fun hp => h ⟨hid, hp⟩
    rw [deal_eq, repairedDeal_other hother.2 hother.1]
  | retrieving _ _ market | claimed _ _ market | withdrawn _ market =>
    simp [StorageMarketplace.indexOf, market, StorageMarketplace.setRetrieval]

/-- The index of a shard stays, unless the call writes it. -/
theorem indexOf_step {a : Action this} (hstep : s.step this a = .ok (s', logs))
    (h : ¬ Rewrites s.market dealId p a.call) : s'.market.indexOf dealId p = s.market.indexOf dealId p := by
  unfold System.step at hstep
  cases hcall : a.call with
  | market c =>
    rw [hcall] at hstep h
    exact indexOf_effect (marketStep_effect a.sender_ne_this hstep).1 h
  | token c | registry c =>
    rw [hcall] at hstep
    simp only [bind_eq_ok, pure_eq_ok, Prod.exists, Prod.mk.injEq] at hstep
    obtain ⟨_, _, -, rfl, -⟩ := hstep
    rfl

/-- The deal after a repair that goes through. -/
theorem repairedDeal_of_step {a : Account this} {now : Nat} {oldProvider newProvider : Address} {newShardCID : String}
    (h : s.step this (a.calls now (.repairShard dealId oldProvider newProvider newShardCID)) = .ok (s', logs)) :
    ((s.market.deals dealId).shardAllocations oldProvider).active = false ∧
      s'.market.deals dealId = repairedDeal (s.market.deals dealId) oldProvider newProvider newShardCID := by
  have hmarket : s.marketStep this (a.calls now (.repairShard dealId oldProvider newProvider newShardCID)).msg
      (.repairShard dealId oldProvider newProvider newShardCID) = .ok (s', logs) := h
  cases (marketStep_effect a.ne_this hmarket).1 with
  | idle noDeal => cases noDeal
  | repaired deal_eq _ _ oldShard _ wrote =>
    subst deal_eq
    exact ⟨oldShard, wrote.deal_self⟩

end Chain

/-! ## Entries in the hands of runs -/

/-- What has been done for an entry. -/
inductive RepairStage where
  | listed | working | placed | sent | repaired
  deriving DecidableEq, Repr

/-- The entry has been taken up, and its transaction has not been mined. -/
def RepairStage.underWay : RepairStage → Bool
  | .working | .placed | .sent => true
  | .listed | .repaired => false

/-- The stage of the current entry. After an error or a revert nothing more is done for it. -/
def RepairPhase.stage : RepairPhase → Option RepairStage
  | .started | .collected | .reconstructed _ | .excluded _ _ | .chosen _ _ | .uploaded _ _ _ => some .working
  | .placed _ _ => some .placed
  | .sent _ _ => some .sent
  | .mined true _ _ | .confirmed _ _ => some .repaired
  | .mined false _ _ | .failing => none

/-- The entry that a step did something for. -/
def RepairLog.entry : RepairLog → RepairRow
  | .begun row | .placed row | .completed row => row
  | .sent tx | .repaired tx => tx.entry

abbrev RepairJob := RepairRow × RepairStage

def RepairRun.jobs (r : RepairRun) : List RepairJob :=
  (r.current.bind fun c => c.2.stage.map fun stage => (c.1, stage)).toList ++ r.todo.map fun row => (row, .listed)

def RepairTx.job (tx : RepairTx) : RepairJob := (tx.entry, .sent)

namespace RepairService

/-- The entries for which somebody may still do something. -/
def jobs (s : RepairService) : List RepairJob := s.runs.flatMap RepairRun.jobs ++ s.abandoned.map RepairTx.job

def underWay (s : RepairService) : List RepairRow := (s.jobs.filter fun j => j.2.underWay).map Prod.fst

/-- The transaction that a run waits for and that is not mined. -/
def sentBy (s : RepairService) (i : Nat) : Option RepairTx :=
  match s.runs[i]? with
  | some ⟨_, some (row, .sent newProvider newShardCID)⟩ => some ⟨row, newProvider, newShardCID⟩
  | _ => none

end RepairService

/-! ## When it is kept -/

section Careful

variable {this : Address} (env : RepairEnv this)

/-- The contract has the index of the entry for its old provider. -/
def Agrees (m : StorageMarketplace) (row : RepairRow) : Prop :=
  ∀ dealId ∈ env.readNumber row.dealId, ∀ p ∈ env.readAddress row.oldProvider, m.indexOf dealId p = row.shardIndex

/-- The call does not write the index that the entry goes by. -/
def Spares (m : StorageMarketplace) (call : Call) (row : RepairRow) : Prop :=
  ∀ dealId ∈ env.readNumber row.dealId, ∀ p ∈ env.readAddress row.oldProvider, ¬ Rewrites m dealId p call

/-- If the transaction goes through, it spares the other entries that are under way. -/
def SparesOthers (s : RepairService) (now : Nat) (tx : RepairTx) : Prop :=
  ∀ args ∈ env.args tx, revertOf (s.chain.step this (env.sends now args tx.newShardCID)) = none →
    ∀ row ∈ s.underWay, row.id ≠ tx.entry.id →
      Spares env s.chain.market (env.sends now args tx.newShardCID).call row

/-- A run selects no entry that another run has still on its list. When a run takes up an entry, the contract has
the entry's index for the old provider, and no transaction writes that index until the entry's own is mined. -/
def CarefulRepair (s : RepairService) (a : RepairAction this) : Prop :=
  match a.event with
  | .runStarts rows => ∀ row ∈ rows, ∀ r ∈ s.runs, ∀ row' ∈ r.todo, row'.id ≠ row.id
  | .begins i => ∀ r ∈ s.runs[i]?, ∀ row ∈ r.todo.head?, Agrees env s.chain.market row
  | .transaction tx => ∀ row ∈ s.underWay, Spares env s.chain.market tx.call row
  | .mines i => ∀ tx ∈ s.sentBy i, SparesOthers env s a.now tx
  | .minesAbandoned i => ∀ tx ∈ s.abandoned[i]?, SparesOthers env s a.now tx
  | _ => True

/-- The query of `selectNewProvider` runs. -/
def RepairEnv.HasColumns : Prop := ∀ name ∈ selectedColumns, name ∈ env.pledgeColumns

instance (m : StorageMarketplace) (dealId : Nat) (p : Address) (call : Call) : Decidable (Rewrites m dealId p call) :=
  match call with
  | .market (.createDeal _) | .market (.repairShard _ _ _ _) => inferInstanceAs (Decidable (_ ∧ _))
  | .market (.completeDeal _) | .market (.cancelDeal _) | .market (.renewDeal _ _) | .market (.reportLostShard _ _)
  | .market (.initiateRetrieval _ _ _) | .market (.claimRetrievalPayment _) | .market (.setProtocolFee _)
  | .market (.setTreasury _) | .market (.updateKynPrice _) | .market (.setPaymentDistributor _)
  | .market .withdrawFees | .market (.transferOwnership _) | .market .renounceOwnership | .token _
  | .registry _ => inferInstanceAs (Decidable False)

-- the instance for options has to be named: there is one for all addresses as well
instance (m : StorageMarketplace) (row : RepairRow) : Decidable (Agrees env m row) :=
  @Option.decidableForallMem _ _ (fun _ => @Option.decidableForallMem _ _ (fun _ => inferInstance) _) _

instance (m : StorageMarketplace) (call : Call) (row : RepairRow) : Decidable (Spares env m call row) :=
  @Option.decidableForallMem _ _ (fun _ => @Option.decidableForallMem _ _ (fun _ => inferInstance) _) _

instance (s : RepairService) (now : Nat) (tx : RepairTx) : Decidable (SparesOthers env s now tx) :=
  inferInstanceAs (Decidable (∀ args ∈ env.args tx, _ → ∀ row ∈ s.underWay, _ → _))

instance (s : RepairService) (a : RepairAction this) : Decidable (CarefulRepair env s a) :=
  match a with
  | ⟨_, .runStarts rows⟩ => inferInstanceAs (Decidable (∀ row ∈ rows, ∀ r ∈ s.runs, ∀ row' ∈ r.todo, _))
  | ⟨_, .begins i⟩ => inferInstanceAs (Decidable (∀ r ∈ s.runs[i]?, ∀ row ∈ r.todo.head?, _))
  | ⟨_, .transaction tx⟩ => inferInstanceAs (Decidable (∀ row ∈ s.underWay, Spares env s.chain.market tx.call row))
  | ⟨now, .mines i⟩ => inferInstanceAs (Decidable (∀ tx ∈ s.sentBy i, SparesOthers env s now tx))
  | ⟨now, .minesAbandoned i⟩ => inferInstanceAs (Decidable (∀ tx ∈ s.abandoned[i]?, SparesOthers env s now tx))
  | ⟨_, .queued _⟩ | ⟨_, .othersWrite _ _⟩ | ⟨_, .collects _⟩ | ⟨_, .reconstructs _ _⟩ | ⟨_, .excludes _⟩
  | ⟨_, .chooses _ _⟩ | ⟨_, .uploads _ _⟩ | ⟨_, .places _⟩ | ⟨_, .sends _⟩ | ⟨_, .waitReturns _⟩
  | ⟨_, .waitFails _⟩ | ⟨_, .completes _⟩ | ⟨_, .throws _⟩ | ⟨_, .marksFailed _⟩
  | ⟨_, .marksNot _⟩ => inferInstanceAs (Decidable True)

end Careful

/-! ## What a step does -/

/-- One element of a list changes: what the others contribute stays. -/
theorem perm_flatMap_set {α β : Type} {f : α → List β} {l : List α} {i : Nat} {a : α} (h : l[i]? = some a) :
    ∃ rest, (l.flatMap f).Perm (f a ++ rest) ∧ ∀ b, ((l.set i b).flatMap f).Perm (f b ++ rest) := by
  induction l generalizing i with
  | nil => cases h
  | cons x l ih =>
    cases i with
    | zero =>
      obtain rfl : x = a := by simpa using h
      refine ⟨l.flatMap f, ?_, fun b => ?_⟩
      · rw [List.flatMap_cons]
      · rw [List.set_cons_zero, List.flatMap_cons]
    | succ i =>
      obtain ⟨rest, hbefore, hafter⟩ := ih (by simpa using h)
      refine ⟨f x ++ rest, ?_, fun b => ?_⟩
      · rw [List.flatMap_cons]
        exact (hbefore.append_left (f x)).trans (List.perm_append_comm_assoc _ _ _)
      · rw [List.set_cons_succ, List.flatMap_cons]
        exact ((hafter b).append_left (f x)).trans (List.perm_append_comm_assoc _ _ _)

/-- The entry is in the table and no longer pending. -/
def Marked (db : Database) (id : Nat) : Prop :=
  (∃ q ∈ db.repairQueue, q.id = id) ∧ ∀ q ∈ db.repairQueue, q.id = id → q.status ≠ .pending

/-- Entries stay in the table, and marked ones stay marked. -/
structure KeepsQueue (db db' : Database) : Prop where
  rows : ∀ q ∈ db.repairQueue, ∃ q' ∈ db'.repairQueue, q'.id = q.id
  marks : ∀ id, Marked db id → Marked db' id

section Steps

variable {this : Address} {env : RepairEnv this} {s s' : RepairService} {a : RepairAction this} {logs : List RepairLog}
  {db db' : Database} {i : Nat}

theorem KeepsQueue.of_eq (h : db'.repairQueue = db.repairQueue) : KeepsQueue db db' where
  rows := fun q hq => ⟨q, h ▸ hq, rfl⟩
  marks := fun id hid => by
    unfold Marked
    rw [h]
    exact hid

theorem insertShard_repairQueue {row : ShardRow} (h : db.insertShard row = .ok db') :
    db'.repairQueue = db.repairQueue := by
  simp only [Database.insertShard, bind_eq_ok, pure_eq_ok] at h
  obtain ⟨_, -, _, -, _, -, _, -, _, -, _, -, _, -, rfl⟩ := h
  rfl

/-- The statements that set the status of an entry. -/
theorem keepsQueue_updateRepair {id : Nat} {set : RepairRow → RepairRow}
    (hset : ∀ r, (set r).id = r.id ∧ (set r).status ≠ .pending) :
    KeepsQueue db (RepairService.updateRepair id set db) := by
  have hrow : ∀ q : RepairRow, (if decide (q.id = id) = true then set q else q).id = q.id := by
    intro q
    split
    · exact (hset q).1
    · rfl
  refine ⟨fun q hq => ⟨_, mem_update.mpr ⟨q, hq, rfl⟩, hrow q⟩, ?_⟩
  rintro id' ⟨⟨q, hq, hid⟩, hall⟩
  refine ⟨⟨_, mem_update.mpr ⟨q, hq, rfl⟩, (hrow q).trans hid⟩, fun q' hq' hid' => ?_⟩
  obtain ⟨q₀, hq₀, rfl⟩ := mem_update.mp hq'
  split
  · exact (hset q₀).2
  · exact hall q₀ hq₀ ((hrow q₀).symm.trans hid')

/-- An entry whose status is set is marked. -/
theorem marked_updateRepair {id : Nat} {set : RepairRow → RepairRow}
    (hset : ∀ r, (set r).id = r.id ∧ (set r).status ≠ .pending) (h : ∃ q ∈ db.repairQueue, q.id = id) :
    Marked (RepairService.updateRepair id set db) id := by
  obtain ⟨q, hq, hid⟩ := h
  refine ⟨⟨_, mem_update.mpr ⟨q, hq, if_pos (decide_eq_true hid)⟩, (hset q).1.trans hid⟩, fun q' hq' hid' => ?_⟩
  obtain ⟨q₀, -, rfl⟩ := mem_update.mp hq'
  by_cases hid₀ : q₀.id = id
  · rw [if_pos (decide_eq_true hid₀)]
    exact (hset q₀).2
  · rw [if_neg (by simpa using hid₀)] at hid'
    exact absurd hid' hid₀

/-- A run moves on. -/
theorem jobs_setRun {r : RepairRun} (h : s.runs[i]? = some r) :
    ∃ rest, s.jobs.Perm (r.jobs ++ rest) ∧ ∀ r', (s.setRun i r').jobs.Perm (r'.jobs ++ rest) := by
  obtain ⟨rest, hbefore, hafter⟩ := perm_flatMap_set (f := RepairRun.jobs) h
  refine ⟨rest ++ s.abandoned.map RepairTx.job, ?_, fun r' => ?_⟩
  · rw [← List.append_assoc]
    exact hbefore.append_right _
  · rw [← List.append_assoc]
    exact (hafter r').append_right _

/-- What is done for an entry on its way, from one stage to the next. -/
inductive RepairTurn : RepairStage → RepairLog → RepairStage → Prop
  | placed (row : RepairRow) : RepairTurn .working (.placed row) .placed
  | sent (tx : RepairTx) : RepairTurn .placed (.sent tx) .sent
  | completed (row : RepairRow) : RepairTurn .repaired (.completed row) .repaired

/-- What a step can do to the entries in the hands of runs, to the table of entries and to the chain. -/
inductive RepairEffect (env : RepairEnv this) (s : RepairService) (a : RepairAction this) (logs : List RepairLog)
    (s' : RepairService) : Prop
  | rests (nothing : logs = []) (jobs : s'.jobs.Subperm s.jobs) (queue : KeepsQueue s.db s'.db)
      (chain : s'.chain = s.chain)
  | transacts (tx : Action this) (event : a.event = .transaction tx) (nothing : logs = []) (jobs : s'.jobs = s.jobs)
      (db : s'.db = s.db) (done : ∃ l, s.chain.step this tx = .ok (s'.chain, l))
  | starts (rows : List RepairRow) (event : a.event = .runStarts rows) (nothing : logs = [])
      (selects : SelectsRepairs s.db rows) (jobs : s'.jobs.Perm (rows.map (fun row => (row, .listed)) ++ s.jobs))
      (db : s'.db = s.db) (chain : s'.chain = s.chain)
  | begins (row : RepairRow) (rest : List RepairJob) (logged : logs = [.begun row])
      (before : s.jobs.Perm ((row, .listed) :: rest)) (after : s'.jobs.Perm ((row, .working) :: rest))
      (agrees : CarefulRepair env s a → Agrees env s.chain.market row)
      (db : s'.db = RepairService.updateRepair row.id (fun r => { r with status := .in_progress }) s.db)
      (chain : s'.chain = s.chain)
  | advances (l : RepairLog) (stage stage' : RepairStage) (rest : List RepairJob) (turn : RepairTurn stage l stage')
      (logged : logs = [l]) (before : s.jobs.Perm ((l.entry, stage) :: rest))
      (after : s'.jobs.Subperm ((l.entry, stage') :: rest)) (queue : KeepsQueue s.db s'.db) (chain : s'.chain = s.chain)
  | repairs (tx : RepairTx) (args : RepairArgs) (rest : List RepairJob) (logged : logs = [.repaired tx])
      (before : s.jobs.Perm ((tx.entry, .sent) :: rest)) (after : s'.jobs.Subperm ((tx.entry, .repaired) :: rest))
      (read : env.args tx = some args)
      (done : ∃ l, s.chain.step this (env.sends a.now args tx.newShardCID) = .ok (s'.chain, l))
      (others : CarefulRepair env s a → SparesOthers env s a.now tx) (db : s'.db = s.db)

/-- A run moves on, with what it had in hand or less. -/
theorem RepairEffect.of_run {r : RepairRun} (h : s.runs[i]? = some r) (r' : RepairRun)
    (hjobs : r'.jobs.Subperm r.jobs) (hs' : s'.jobs = (s.setRun i r').jobs) (hqueue : KeepsQueue s.db s'.db)
    (hchain : s'.chain = s.chain) : RepairEffect env s a [] s' := by
  obtain ⟨rest, hbefore, hafter⟩ := jobs_setRun h
  refine .rests rfl ?_ hqueue hchain
  rw [hs']
  exact ((hafter r').subperm.trans (hjobs.append (List.Subperm.refl rest))).trans hbefore.symm.subperm

theorem subperm_todo (row : RepairRow) (phase : RepairPhase) (todo : List RepairRow) :
    (RepairRun.jobs ⟨todo, none⟩).Subperm (RepairRun.jobs ⟨todo, some (row, phase)⟩) :=
  (List.sublist_append_right _ _).subperm

/-- A run goes on to another phase of the same stage, or to one where it does nothing more for the entry. -/
theorem RepairEffect.of_phase {row : RepairRow} {phase : RepairPhase} {todo : List RepairRow}
    (h : s.runs[i]? = some ⟨todo, some (row, phase)⟩) (phase' : RepairPhase)
    (hstage : ∀ stage ∈ phase'.stage, phase.stage = some stage) :
    RepairEffect env s a [] (s.setRun i ⟨todo, some (row, phase')⟩) := by
  refine .of_run h ⟨todo, some (row, phase')⟩ ?_ rfl (.of_eq rfl) rfl
  cases hphase : phase'.stage with
  | none =>
    have hjobs : RepairRun.jobs ⟨todo, some (row, phase')⟩ = RepairRun.jobs ⟨todo, none⟩ := by
      simp [RepairRun.jobs, hphase]
    rw [hjobs]
    exact subperm_todo row phase todo
  | some stage =>
    simp only [RepairRun.jobs, Option.bind_some, hphase, hstage stage hphase]
    exact List.Subperm.refl _

/-- A run takes a turn with its entry. -/
theorem RepairEffect.of_turn {r : RepairRun} {l : RepairLog} {stage stage' : RepairStage} {todo : List RepairJob}
    (h : s.runs[i]? = some r) (r' : RepairRun) (turn : RepairTurn stage l stage')
    (hr : r.jobs = (l.entry, stage) :: todo) (hr' : r'.jobs.Subperm ((l.entry, stage') :: todo))
    (hs' : s'.jobs = (s.setRun i r').jobs) (hqueue : KeepsQueue s.db s'.db) (hchain : s'.chain = s.chain) :
    RepairEffect env s a [l] s' := by
  obtain ⟨rest, hbefore, hafter⟩ := jobs_setRun h
  refine .advances l stage stage' (todo ++ rest) turn rfl ?_ ?_ hqueue hchain
  · rw [hr] at hbefore
    exact hbefore
  · rw [hs']
    exact (hafter r').subperm.trans (hr'.append (List.Subperm.refl rest))

/-- A transaction is mined, and goes through or not. -/
theorem mine_cases {now : Nat} {tx : RepairTx} {args : RepairArgs} {ok : Bool} {s₁ : RepairService}
    (h : s.mine env now tx args = (ok, s₁, logs)) :
    (∃ chain l, s.chain.step this (env.sends now args tx.newShardCID) = .ok (chain, l) ∧ ok = true ∧
        s₁ = { s with chain } ∧ logs = [.repaired tx]) ∨
      (ok = false ∧ s₁ = s ∧ logs = []) := by
  unfold RepairService.mine at h
  split at h
  · next chain l hstep =>
    obtain ⟨rfl, rfl, rfl⟩ := h
    exact .inl ⟨chain, l, hstep, rfl, rfl, rfl⟩
  · obtain ⟨rfl, rfl, rfl⟩ := h
    exact .inr ⟨rfl, rfl, rfl⟩

/-- An abandoned transaction is in no other hand. -/
theorem jobs_abandoned {tx : RepairTx} (h : s.abandoned[i]? = some tx) :
    s.jobs.Perm (tx.job :: { s with abandoned := s.abandoned.eraseIdx i }.jobs) := by
  have hmem := List.getElem?_eq_some_iff.mp h
  obtain ⟨hlt, hget⟩ := hmem
  have hperm : (s.abandoned.map RepairTx.job).Perm (tx.job :: (s.abandoned.eraseIdx i).map RepairTx.job) := by
    rw [← List.map_cons, ← hget]
    exact (List.getElem_cons_eraseIdx_perm hlt).symm.map RepairTx.job
  exact (hperm.append_left _).trans List.perm_middle

/-- The transaction of a run passes into nobody's hand. -/
theorem jobs_abandon {row : RepairRow} {newProvider newShardCID : String} {todo : List RepairRow}
    (h : s.runs[i]? = some ⟨todo, some (row, .sent newProvider newShardCID)⟩) :
    ({ s.setRun i ⟨todo, some (row, .failing)⟩ with
      abandoned := s.abandoned ++ [⟨row, newProvider, newShardCID⟩] } : RepairService).jobs.Perm s.jobs := by
  obtain ⟨rest, hbefore, hafter⟩ := perm_flatMap_set (f := RepairRun.jobs) h
  have hthen : s.jobs.Perm ((row, .sent) :: (RepairRun.jobs ⟨todo, none⟩ ++ rest ++ s.abandoned.map RepairTx.job)) :=
    hbefore.append_right _
  refine List.Perm.trans ?_ hthen.symm
  unfold RepairService.jobs
  rw [List.map_append, ← List.append_assoc]
  refine List.Perm.trans (List.perm_append_singleton _ _) (List.Perm.cons _ ?_)
  exact (hafter _).append_right _

/-- What a step of the service can do to the queue and to the contract, one case for each step. -/
theorem repair_effect (h : s.step env a = .ok (s', logs)) : RepairEffect env s a logs s' := by
  cases hevent : a.event with
  | transaction tx =>
    simp only [RepairService.step, hevent, bind_eq_ok, require_eq_ok, pure_eq_ok, Prod.exists, Prod.mk.injEq,
      exists_const] at h
    obtain ⟨-, chain, l, hstep, rfl, rfl⟩ := h
    exact .transacts tx hevent rfl rfl rfl ⟨l, hstep⟩
  | queued row =>
    simp only [RepairService.step, hevent, bind_eq_ok, require_eq_ok, pure_eq_ok, Prod.mk.injEq, exists_const] at h
    obtain ⟨hnew, rfl, rfl⟩ := h
    refine .rests rfl (List.Subperm.refl _) ⟨?_, ?_⟩ rfl
    -- a row that is queued has an identifier of its own, so that no marked entry loses its mark
    · exact fun q hq => ⟨q, List.mem_append_left _ hq, rfl⟩
    · rintro id ⟨⟨q, hq, hid⟩, hall⟩
      refine ⟨⟨q, List.mem_append_left _ hq, hid⟩, fun q' hq' hid' => ?_⟩
      rcases List.mem_append.mp hq' with hq' | hq'
      · exact hall q' hq' hid'
      · obtain rfl := List.mem_singleton.mp hq'
        exact absurd (hid.trans hid'.symm) (hnew q hq)
  | othersWrite db pledges =>
    simp only [RepairService.step, hevent, bind_eq_ok, require_eq_ok, pure_eq_ok, Prod.mk.injEq, exists_const] at h
    obtain ⟨hqueue, rfl, rfl⟩ := h
    exact .rests rfl (List.Subperm.refl _) (.of_eq hqueue) rfl
  | runStarts rows =>
    simp only [RepairService.step, hevent, bind_eq_ok, require_eq_ok, pure_eq_ok, Prod.mk.injEq, exists_const] at h
    obtain ⟨hselects, rfl, rfl⟩ := h
    refine .starts rows hevent rfl hselects ?_ rfl rfl
    -- the rows of the new run come into hand, all of them as listed
    have hjobs : (s.runs ++ [(⟨rows, none⟩ : RepairRun)]).flatMap RepairRun.jobs =
        s.runs.flatMap RepairRun.jobs ++ rows.map fun row => (row, RepairStage.listed) := by
      rw [List.flatMap_append, List.flatMap_singleton]
      rfl
    unfold RepairService.jobs
    rw [hjobs, List.append_assoc]
    exact List.perm_append_comm_assoc _ _ _
  | begins i =>
    simp only [RepairService.step, hevent] at h
    split at h
    · next row todo hrun =>
      obtain ⟨rfl, rfl⟩ := Prod.mk.inj (Except.ok.inj h)
      obtain ⟨rest, hbefore, hafter⟩ := jobs_setRun hrun
      -- the first row of the run passes from listed to started
      have hbefore' : s.jobs.Perm ((row, .listed) :: (todo.map (fun row => (row, .listed)) ++ rest)) := hbefore
      refine .begins row _ rfl hbefore' (hafter ⟨todo, some (row, .started)⟩) ?_ rfl rfl
      intro hcareful
      simp only [CarefulRepair, hevent] at hcareful
      exact hcareful _ hrun row rfl
    · cases h
  | collects i =>
    simp only [RepairService.step, hevent] at h
    split at h
    · next todo row hrun =>
      split at h
      · obtain ⟨rfl, rfl⟩ := Prod.mk.inj (Except.ok.inj h)
        -- a `catch` further down, or the next `await`: the stage is the same, or the job is lost to the loop
        exact .of_phase hrun _ fun _ h => h
      · obtain ⟨rfl, rfl⟩ := Prod.mk.inj (Except.ok.inj h)
        exact .of_phase hrun .failing fun _ h => by cases h
    · cases h
  | reconstructs i size | excludes i | uploads i newShardCID | waitReturns i =>
    simp only [RepairService.step, hevent] at h
    split at h
    · next hrun =>
      obtain ⟨rfl, rfl⟩ := Prod.mk.inj (Except.ok.inj h)
      exact .of_phase hrun _ fun _ h => h
    · cases h
  | chooses i answer =>
    simp only [RepairService.step, hevent] at h
    -- `reselectProvider` has answered, with a provider or with none
    split at h
    · next todo row size addresses hrun =>
      simp only [bind_eq_ok, require_eq_ok, exists_const] at h
      obtain ⟨-, -, h⟩ := h
      split at h
      · obtain ⟨rfl, rfl⟩ := Prod.mk.inj (Except.ok.inj h)
        exact .of_phase hrun _ fun _ h => h
      · obtain ⟨rfl, rfl⟩ := Prod.mk.inj (Except.ok.inj h)
        exact .of_phase hrun .failing fun _ h => by cases h
    · cases h
  | places i =>
    simp only [RepairService.step, hevent] at h
    split at h
    · next todo row size newProvider newShardCID hrun =>
      split at h
      -- the INSERT of the new shard, which may fail on its key
      · next db hinsert =>
        obtain ⟨rfl, rfl⟩ := Prod.mk.inj (Except.ok.inj h)
        exact .of_turn hrun ⟨todo, some (row, .placed newProvider newShardCID)⟩ (.placed row) rfl
          (List.Subperm.refl _) rfl (.of_eq (insertShard_repairQueue hinsert)) rfl
      · obtain ⟨rfl, rfl⟩ := Prod.mk.inj (Except.ok.inj h)
        exact .of_phase hrun .failing fun _ h => by cases h
    · cases h
  | sends i =>
    simp only [RepairService.step, hevent] at h
    split at h
    · next todo row newProvider newShardCID hrun =>
      split at h
      · obtain ⟨rfl, rfl⟩ := Prod.mk.inj (Except.ok.inj h)
        exact .of_turn hrun ⟨todo, some (row, .sent newProvider newShardCID)⟩
          (.sent ⟨row, newProvider, newShardCID⟩) rfl (List.Subperm.refl _) rfl (.of_eq rfl) rfl
      · obtain ⟨rfl, rfl⟩ := Prod.mk.inj (Except.ok.inj h)
        exact .of_phase hrun .failing fun _ h => by cases h
    · cases h
  | mines i =>
    simp only [RepairService.step, hevent] at h
    split at h
    · next todo row newProvider newShardCID hrun =>
      split at h
      · next args hargs =>
        -- only a careful step knows that the transaction takes no shard from another entry
        have hothers : CarefulRepair env s a → SparesOthers env s a.now ⟨row, newProvider, newShardCID⟩ := by
          intro hcareful
          simp only [CarefulRepair, hevent] at hcareful
          exact hcareful _ (by simp [RepairService.sentBy, hrun])
        cases hmine : s.mine env a.now ⟨row, newProvider, newShardCID⟩ args with
        | mk ok result =>
          obtain ⟨s₁, l₁⟩ := result
          rw [hmine] at h
          obtain ⟨rfl, rfl⟩ := Prod.mk.inj (Except.ok.inj h)
          obtain ⟨chain, l, hstep, rfl, rfl, rfl⟩ | ⟨rfl, rfl, rfl⟩ := mine_cases hmine
          · obtain ⟨rest, hbefore, hafter⟩ := jobs_setRun hrun
            have hbefore' : s.jobs.Perm ((row, .sent) :: (todo.map (fun row => (row, .listed)) ++ rest)) := hbefore
            exact .repairs ⟨row, newProvider, newShardCID⟩ args _ rfl hbefore'
              -- the receipt says that the contract has rewritten the deal
              (hafter ⟨todo, some (row, .mined true newProvider newShardCID)⟩).subperm hargs ⟨l, hstep⟩ hothers rfl
          · exact .of_phase hrun (.mined false newProvider newShardCID) fun _ h => by cases h
      · cases h
    · cases h
  | minesAbandoned i =>
    simp only [RepairService.step, hevent] at h
    split at h
    · next tx htx =>
      split at h
      · next args hargs =>
        have hothers : CarefulRepair env s a → SparesOthers env s a.now tx := by
          intro hcareful
          simp only [CarefulRepair, hevent] at hcareful
          exact hcareful tx htx
        cases hmine : s.mine env a.now tx args with
        | mk ok result =>
          obtain ⟨s₁, l₁⟩ := result
          rw [hmine] at h
          obtain ⟨rfl, rfl⟩ := Prod.mk.inj (Except.ok.inj h)
          obtain ⟨chain, l, hstep, rfl, rfl, rfl⟩ | ⟨rfl, rfl, rfl⟩ := mine_cases hmine
          -- nobody waits for the transaction any more, but it may still rewrite the deal
          · exact .repairs tx args _ rfl (jobs_abandoned htx) (List.sublist_cons_self _ _).subperm hargs
              ⟨l, hstep⟩ hothers rfl
          · refine .rests rfl ?_ (.of_eq rfl) rfl
            exact (List.sublist_cons_self _ _).subperm.trans (jobs_abandoned htx).symm.subperm
      · cases h
    · cases h
  | waitFails i =>
    simp only [RepairService.step, hevent] at h
    split at h
    · next todo row newProvider newShardCID hrun =>
      obtain ⟨rfl, rfl⟩ := Prod.mk.inj (Except.ok.inj h)
      -- the transaction is on its way while its run goes to the `catch` block
      exact .rests rfl (jobs_abandon hrun).subperm (.of_eq rfl) rfl
    · next hrun =>
      obtain ⟨rfl, rfl⟩ := Prod.mk.inj (Except.ok.inj h)
      exact .of_phase hrun .failing fun _ h => by cases h
    · cases h
  | completes i =>
    simp only [RepairService.step, hevent] at h
    split at h
    · next todo row newProvider newShardCID hrun =>
      obtain ⟨rfl, rfl⟩ := Prod.mk.inj (Except.ok.inj h)
      -- the entry is completed in the queue, and the loop goes on with the rest
      exact .of_turn hrun ⟨todo, none⟩ (.completed row) rfl
        (subperm_todo row (.confirmed newProvider newShardCID) todo) rfl
        (keepsQueue_updateRepair fun r => ⟨rfl, by simp⟩) rfl
    · cases h
  | throws i =>
    simp only [RepairService.step, hevent] at h
    -- `throws`: before the first phase, or in a phase that has no transaction under way
    split at h
    · next row todo hrun =>
      obtain ⟨rfl, rfl⟩ := Prod.mk.inj (Except.ok.inj h)
      exact .of_run hrun ⟨todo, some (row, .failing)⟩ (List.sublist_cons_self _ _).subperm rfl (.of_eq rfl) rfl
    · cases h
    · cases h
    · cases h
    · next hrun =>
      obtain ⟨rfl, rfl⟩ := Prod.mk.inj (Except.ok.inj h)
      exact .of_phase hrun .failing fun _ h => by cases h
    · cases h
  | marksFailed i =>
    simp only [RepairService.step, hevent] at h
    split at h
    · next todo row hrun =>
      obtain ⟨rfl, rfl⟩ := Prod.mk.inj (Except.ok.inj h)
      exact .of_run hrun ⟨todo, none⟩ (subperm_todo row .failing todo) rfl
        (keepsQueue_updateRepair fun r => ⟨rfl, by simp⟩) rfl
    · cases h
  | marksNot i =>
    simp only [RepairService.step, hevent] at h
    split at h
    · next hrun =>
      obtain ⟨rfl, rfl⟩ := Prod.mk.inj (Except.ok.inj h)
      -- if the last UPDATE fails as well, the whole run ends
      exact .of_run hrun ⟨[], none⟩ List.nil_subperm rfl (.of_eq rfl) rfl
    · cases h

end Steps

end Kyneto
