import Kyneto.Evm.Checksum
import Kyneto.RepairService.Jobs

/-!
# Is every entry repaired at most once?

A run marks its entries one at a time, when it comes to them, and never looks at their status again. So an entry that
waits on the list of one run is still pending, and the next run selects it as well: both repair it. And the contract
does not ask whose shard a repair replaces: an old provider that was replaced before counts as one with shard 0.

`once_run` says that without these an entry causes at most one row and one transaction, and a completed entry exactly
one repair, of its own shard. The invariant is `SingleHanded`: an entry is in one hand at a time, and what has happened
to it is what the hand that holds it has done.
-/

namespace Kyneto

open Evm Sql

/-! ## What is promised -/

abbrev RepairEntry (this : Address) := Entry RepairService (RepairAction this) RepairLog

namespace RepairLog

/-- The step inserted a row for the entry. -/
def places (id : Nat) : RepairLog → Bool
  | .placed row => row.id = id
  | _ => false

/-- The step sent a transaction for the entry. -/
def sends (id : Nat) : RepairLog → Bool
  | .sent tx => tx.entry.id = id
  | _ => false

/-- A transaction for the entry went through. -/
def repairs (id : Nat) : RepairLog → Bool
  | .repaired tx => tx.entry.id = id
  | _ => false

end RepairLog

section Promise

variable {this : Address} (env : RepairEnv this)

def happened (hist : List (RepairEntry this)) : List RepairLog := hist.flatMap Entry.logs

/-- The rows of `shards` that the entry has caused. -/
def placements (id : Nat) (hist : List (RepairEntry this)) : Nat := (happened hist).countP (RepairLog.places id)

/-- The transactions that the entry has caused. -/
def transactions (id : Nat) (hist : List (RepairEntry this)) : Nat := (happened hist).countP (RepairLog.sends id)

/-- The steps in which a transaction for the entry went through. -/
def repairsOf (id : Nat) (hist : List (RepairEntry this)) : List (RepairEntry this) :=
  hist.filter fun e => e.logs.any (RepairLog.repairs id)

/-- The step adds one active shard to the deal of the entry, with the index of the entry. -/
def AddsShard (row : RepairRow) (e : RepairEntry this) : Prop :=
  ∃ tx args, .repaired tx ∈ e.logs ∧ tx.entry = row ∧ env.args tx = some args ∧
    (e.post.chain.market.deals args.dealId).activeShards =
      (e.pre.chain.market.deals args.dealId).activeShards + 1 ∧
    ((e.post.chain.market.deals args.dealId).shardAllocations args.newProvider).active = true ∧
    e.post.chain.market.indexOf args.dealId args.newProvider = row.shardIndex

/-- **Each repair runs at most once**: an entry causes at most one row and at most one transaction, and a completed
entry exactly one repair, of its own shard. -/
structure OncePerEntry (hist : List (RepairEntry this)) : Prop where
  rows : ∀ id, placements id hist ≤ 1
  sent : ∀ id, transactions id hist ≤ 1
  completed : ∀ row, .completed row ∈ happened hist → ∃ e, repairsOf row.id hist = [e] ∧ AddsShard env row e

end Promise

/-! ## What has happened to an entry -/

section Histories

variable {this : Address} {env : RepairEnv this} {hist : List (RepairEntry this)} {e : RepairEntry this} {l : RepairLog}
  {row : RepairRow} {id : Nat}

/-- Something was done for the entry. -/
def Touched (hist : List (RepairEntry this)) (id : Nat) : Prop := ∃ l ∈ happened hist, l.entry.id = id

/-- What the stage of an entry says about the past. -/
def Reached (env : RepairEnv this) (hist : List (RepairEntry this)) (row : RepairRow) : RepairStage → Prop
  | .listed => ¬ Touched hist row.id
  | .working => Touched hist row.id ∧ placements row.id hist = 0 ∧ transactions row.id hist = 0 ∧
    repairsOf row.id hist = []
  | .placed => Touched hist row.id ∧ transactions row.id hist = 0 ∧ repairsOf row.id hist = []
  | .sent => Touched hist row.id ∧ repairsOf row.id hist = []
  | .repaired => Touched hist row.id ∧ ∃ e, repairsOf row.id hist = [e] ∧ AddsShard env row e

@[simp] theorem happened_snoc : happened (hist ++ [e]) = happened hist ++ e.logs := by
  simp [happened]

theorem placements_snoc : placements id (hist ++ [e]) = placements id hist + e.logs.countP (RepairLog.places id) := by
  simp [placements]

theorem transactions_snoc :
    transactions id (hist ++ [e]) = transactions id hist + e.logs.countP (RepairLog.sends id) := by
  simp [transactions]

theorem repairsOf_snoc_of_not (h : ∀ l ∈ e.logs, l.repairs id = false) :
    repairsOf id (hist ++ [e]) = repairsOf id hist := by
  have hnone : e.logs.any (RepairLog.repairs id) = false := by simpa using h
  simp [repairsOf, hnone]

theorem repairsOf_snoc (h : e.logs.any (RepairLog.repairs id) = true) :
    repairsOf id (hist ++ [e]) = repairsOf id hist ++ [e] := by
  simp [repairsOf, h]

theorem entry_of_places (h : l.places id = true) : l.entry.id = id := by
  cases l <;> simp_all [RepairLog.places, RepairLog.entry]

theorem entry_of_sends (h : l.sends id = true) : l.entry.id = id := by
  cases l <;> simp_all [RepairLog.sends, RepairLog.entry]

theorem entry_of_repairs (h : l.repairs id = true) : l.entry.id = id := by
  cases l <;> simp_all [RepairLog.repairs, RepairLog.entry]

theorem placements_of_not_touched (h : ¬ Touched hist id) : placements id hist = 0 :=
  List.countP_eq_zero.mpr fun l hl hp => h ⟨l, hl, entry_of_places hp⟩

theorem transactions_of_not_touched (h : ¬ Touched hist id) : transactions id hist = 0 :=
  List.countP_eq_zero.mpr fun l hl hs => h ⟨l, hl, entry_of_sends hs⟩

theorem repairsOf_of_not_touched (h : ¬ Touched hist id) : repairsOf id hist = [] := by
  apply List.filter_eq_nil_iff.mpr
  intro e he hany
  obtain ⟨l, hl, hr⟩ := List.any_eq_true.mp hany
  exact h ⟨l, List.mem_flatMap.mpr ⟨e, he, hl⟩, entry_of_repairs hr⟩

/-- An entry has been touched if it was before, or if the last step touches it. -/
theorem touched_snoc : Touched (hist ++ [e]) id ↔ Touched hist id ∨ ∃ l ∈ e.logs, l.entry.id = id := by
  unfold Touched
  rw [happened_snoc]
  constructor
  · rintro ⟨l, hl, hid⟩
    rcases List.mem_append.mp hl with hl | hl
    · exact .inl ⟨l, hl, hid⟩
    · exact .inr ⟨l, hl, hid⟩
  · rintro (⟨l, hl, hid⟩ | ⟨l, hl, hid⟩)
    · exact ⟨l, List.mem_append_left _ hl, hid⟩
    · exact ⟨l, List.mem_append_right _ hl, hid⟩

/-- What is done for other entries does not matter. -/
theorem reached_snoc_other (hother : ∀ l ∈ e.logs, l.entry.id ≠ row.id) (stage : RepairStage) :
    Reached env (hist ++ [e]) row stage ↔ Reached env hist row stage := by
  have htouched : Touched (hist ++ [e]) row.id ↔ Touched hist row.id := by
    rw [touched_snoc, or_iff_left]
    rintro ⟨l, hl, hid⟩
    exact hother l hl hid
  have hplaced : placements row.id (hist ++ [e]) = placements row.id hist := by
    rw [placements_snoc, List.countP_eq_zero.mpr, Nat.add_zero]
    exact fun l hl hp => hother l hl (entry_of_places hp)
  have hsent : transactions row.id (hist ++ [e]) = transactions row.id hist := by
    rw [transactions_snoc, List.countP_eq_zero.mpr, Nat.add_zero]
    exact fun l hl hs => hother l hl (entry_of_sends hs)
  have hrepairs : repairsOf row.id (hist ++ [e]) = repairsOf row.id hist := by
    apply repairsOf_snoc_of_not
    intro l hl
    by_contra hr
    exact hother l hl (entry_of_repairs (by simpa using hr))
  cases stage <;> simp only [Reached, htouched, hplaced, hsent, hrepairs]

/-- The promise after one more step, by what it logs. -/
theorem OncePerEntry.snoc (h : OncePerEntry env hist)
    (hplaced : ∀ id, ∀ l ∈ e.logs, l.places id = true → placements id hist = 0)
    (hsent : ∀ id, ∀ l ∈ e.logs, l.sends id = true → transactions id hist = 0)
    (hrepairs : ∀ id, ∀ l ∈ e.logs, l.repairs id = true → repairsOf id hist = [])
    (hcompleted : ∀ row, .completed row ∈ e.logs → ∃ e, repairsOf row.id hist = [e] ∧ AddsShard env row e)
    (hone : e.logs.length ≤ 1) : OncePerEntry env (hist ++ [e]) := by
  -- a count that was 0 grows by one at most, and one that was not stays
  have hcount : ∀ (n : Nat) (p : RepairLog → Bool), n ≤ 1 → (∀ l ∈ e.logs, p l = true → n = 0) →
      n + e.logs.countP p ≤ 1 := by
    intro n p hn hzero
    by_cases hex : ∃ l ∈ e.logs, p l = true
    · obtain ⟨l, hl, hp⟩ := hex
      have hle : e.logs.countP p ≤ e.logs.length := List.countP_le_length
      have hn := hzero l hl hp
      omega
    · rw [List.countP_eq_zero.mpr fun l hl hp => hex ⟨l, hl, hp⟩]
      exact hn
  -- rows and transactions are counted; a completed entry has its repair behind it
  refine ⟨fun id => ?_, fun id => ?_, fun row hrow => ?_⟩
  · rw [placements_snoc]
    exact hcount _ _ (h.rows id) (hplaced id)
  · rw [transactions_snoc]
    exact hcount _ _ (h.sent id) (hsent id)
  -- the repair was there before the entry was completed
  · have hbefore : ∃ e, repairsOf row.id hist = [e] ∧ AddsShard env row e := by
      rw [happened_snoc] at hrow
      rcases List.mem_append.mp hrow with hrow | hrow
      · exact h.completed row hrow
      · exact hcompleted row hrow
    obtain ⟨e₀, he₀, hadds⟩ := hbefore
    refine ⟨e₀, ?_, hadds⟩
    -- a second repair would have needed a history without one
    rw [repairsOf_snoc_of_not, he₀]
    intro l hl
    by_contra hr
    have hnone := hrepairs row.id l hl (by simpa using hr)
    rw [he₀] at hnone
    cases hnone

end Histories

/-! ## Runs -/

/-- What is true in every careful run. -/
structure SingleHanded {this : Address} (env : RepairEnv this) (s : RepairService) (hist : List (RepairEntry this)) :
    Prop where
  alone : (s.jobs.map fun j => j.1.id).Nodup
  known : ∀ j ∈ s.jobs, ∃ q ∈ s.db.repairQueue, q.id = j.1.id
  reached : ∀ j ∈ s.jobs, Reached env hist j.1 j.2
  agrees : ∀ j ∈ s.jobs, j.2.underWay = true → Agrees env s.chain.market j.1
  marked : ∀ id, Touched hist id → Marked s.db id
  once : OncePerEntry env hist

section Runs

variable {this : Address} {env : RepairEnv this} {s s' : RepairService} {a : RepairAction this} {logs : List RepairLog}
  {hist : List (RepairEntry this)}

theorem nodup_of_subperm {α β : Type} {f : α → β} {l₁ l₂ : List α} (h : l₁.Subperm l₂) (hn : (l₂.map f).Nodup) :
    (l₁.map f).Nodup := by
  obtain ⟨l, hperm, hsub⟩ := h
  exact (hperm.map f).nodup_iff.mp (hn.sublist (hsub.map f))

/-- A step without a trace in the logs: nothing new is in hand, and the chain still agrees. -/
theorem SingleHanded.silent (h : SingleHanded env s hist) (hjobs : s'.jobs.Subperm s.jobs)
    (hqueue : KeepsQueue s.db s'.db)
    (hagrees : ∀ row ∈ s.underWay, Agrees env s.chain.market row → Agrees env s'.chain.market row) :
    SingleHanded env s' (hist ++ [⟨s, a, [], s'⟩]) where
  alone := nodup_of_subperm hjobs h.alone
  known := by
    intro j hj
    obtain ⟨q, hq, hid⟩ := h.known j (hjobs.subset hj)
    obtain ⟨q', hq', hid'⟩ := hqueue.rows q hq
    exact ⟨q', hq', hid'.trans hid⟩
  reached := by
    intro j hj
    rw [reached_snoc_other (by simp)]
    exact h.reached j (hjobs.subset hj)
  agrees := by
    intro j hj hway
    have hj := hjobs.subset hj
    refine hagrees j.1 ?_ (h.agrees j hj hway)
    exact List.mem_map_of_mem (List.mem_filter.mpr ⟨hj, hway⟩)
  marked := by
    intro id hid
    rcases touched_snoc.mp hid with hid | ⟨l, hl, -⟩
    · exact hqueue.marks id (h.marked id hid)
    · cases hl
  once := h.once.snoc (by simp) (by simp) (by simp) (by simp) (by simp)

/-- A step that does something for one entry, which was in one hand and still is, or is in none. -/
theorem SingleHanded.turn {l : RepairLog} {stage stage' : RepairStage} {rest : List RepairJob}
    (h : SingleHanded env s hist)
    (hbefore : s.jobs.Perm ((l.entry, stage) :: rest)) (hafter : s'.jobs.Subperm ((l.entry, stage') :: rest))
    (hqueue : KeepsQueue s.db s'.db) (hmarked : Marked s'.db l.entry.id)
    (hreached : Reached env (hist ++ [⟨s, a, [l], s'⟩]) l.entry stage')
    (hagrees : ∀ row ∈ s.underWay, row.id ≠ l.entry.id → Agrees env s.chain.market row →
      Agrees env s'.chain.market row)
    (hagrees' : stage'.underWay = true → Agrees env s'.chain.market l.entry)
    (honce : OncePerEntry env (hist ++ [⟨s, a, [l], s'⟩])) :
    SingleHanded env s' (hist ++ [⟨s, a, [l], s'⟩]) := by
  -- nobody else has the entry in hand
  have hids : (l.entry.id :: rest.map fun j => j.1.id).Nodup := (hbefore.map _).nodup_iff.mp h.alone
  have hmem : ∀ j ∈ s'.jobs, j = (l.entry, stage') ∨ j ∈ s.jobs ∧ j.1.id ≠ l.entry.id := by
    intro j hj
    rcases List.mem_cons.mp (hafter.subset hj) with rfl | hj
    · exact .inl rfl
    · refine .inr ⟨hbefore.mem_iff.mpr (List.mem_cons_of_mem _ hj), fun hid => ?_⟩
      exact (List.nodup_cons.mp hids).1 (hid ▸ List.mem_map_of_mem hj)
  -- the entry itself, and then all others
  refine ⟨nodup_of_subperm hafter hids, ?_, ?_, ?_, ?_, honce⟩
  · intro j hj
    rcases hmem j hj with rfl | ⟨hj, -⟩
    · exact hmarked.1
    · obtain ⟨q, hq, hid⟩ := h.known j hj
      obtain ⟨q', hq', hid'⟩ := hqueue.rows q hq
      exact ⟨q', hq', hid'.trans hid⟩
  · intro j hj
    rcases hmem j hj with rfl | ⟨hj, hid⟩
    · exact hreached
    · rw [reached_snoc_other (by simpa using hid.symm)]
      exact h.reached j hj
  · intro j hj hway
    rcases hmem j hj with rfl | ⟨hj, hid⟩
    · exact hagrees' hway
    · refine hagrees j.1 ?_ hid (h.agrees j hj hway)
      exact List.mem_map_of_mem (List.mem_filter.mpr ⟨hj, hway⟩)
  · intro id hid
    rcases touched_snoc.mp hid with hpast | ⟨l', hl', hnow⟩
    · exact hqueue.marks id (h.marked id hpast)
    · obtain rfl := List.mem_singleton.mp hl'
      exact hnow ▸ hmarked

theorem agrees_of_spares {chain chain' : System} {tx : Action this} {l : List Log} {row : RepairRow}
    (hstep : chain.step this tx = .ok (chain', l)) (hspares : Spares env chain.market tx.call row)
    (h : Agrees env chain.market row) : Agrees env chain'.market row := by
  intro dealId hdeal p hp
  rw [indexOf_step hstep (hspares dealId hdeal p hp)]
  -- this job is the one that has taken the turn, or has another entry
  exact h dealId hdeal p hp

theorem args_eq_some {tx : RepairTx} {args : RepairArgs} (h : env.args tx = some args) :
    env.readNumber tx.entry.dealId = some args.dealId ∧
      env.readAddress tx.entry.oldProvider = some args.oldProvider := by
  simp only [RepairEnv.args, bind, Option.bind_eq_some_iff, pure, Option.some.injEq] at h
  obtain ⟨dealId, hdeal, oldProvider, hold, newProvider, -, rfl⟩ := h
  exact ⟨hdeal, hold⟩

/-- A repair that goes through adds a shard; its index is right if the contract agreed with the entry before. -/
theorem addsShard_of_step {now : Nat} {tx : RepairTx} {args : RepairArgs} {l : List Log}
    (hread : env.args tx = some args)
    (hstep : s.chain.step this (env.sends now args tx.newShardCID) = .ok (s'.chain, l))
    (hagrees : Agrees env s.chain.market tx.entry) :
    AddsShard env tx.entry ⟨s, a, [.repaired tx], s'⟩ := by
  obtain ⟨hdeal, hold⟩ := args_eq_some hread
  have hindex := hagrees args.dealId hdeal args.oldProvider hold
  refine ⟨tx, args, List.mem_singleton_self _, rfl, hread, ?_⟩
  obtain ⟨-, hrepaired⟩ := repairedDeal_of_step hstep
  unfold StorageMarketplace.indexOf at hindex ⊢
  rw [hrepaired, repairedDeal_new]
  exact ⟨rfl, rfl, hindex⟩

/-- What is listed is still to be done in one of the runs. -/
theorem mem_todo_of_listed {j : RepairJob} (hj : j ∈ s.jobs) (hlisted : j.2 = .listed) :
    ∃ r ∈ s.runs, j.1 ∈ r.todo := by
  rcases List.mem_append.mp hj with hj | hj
  · obtain ⟨r, hr, hj⟩ := List.mem_flatMap.mp hj
    rcases List.mem_append.mp hj with hj | hj
    · -- what a run is at has been taken up
      rw [Option.mem_toList] at hj
      obtain ⟨c, -, hc⟩ := Option.bind_eq_some_iff.mp hj
      obtain ⟨stage, hstage, rfl⟩ := Option.map_eq_some_iff.mp hc
      obtain rfl : stage = .listed := hlisted
      obtain ⟨row, phase⟩ := c
      cases phase with
      | mined ok _ _ => cases ok <;> cases hstage
      | _ => cases hstage
    · obtain ⟨row, hrow, rfl⟩ := List.mem_map.mp hj
      exact ⟨r, hr, hrow⟩
  · obtain ⟨tx, -, rfl⟩ := List.mem_map.mp hj
    cases hlisted

/-- A run starts with entries that nobody has in hand. -/
theorem SingleHanded.start {rows : List RepairRow} (h : SingleHanded env s hist) (hselects : SelectsRepairs s.db rows)
    (hnew : ∀ row ∈ rows, ∀ r ∈ s.runs, ∀ row' ∈ r.todo, row'.id ≠ row.id)
    (hjobs : s'.jobs.Perm (rows.map (fun row => (row, .listed)) ++ s.jobs)) (hdb : s'.db = s.db)
    (hchain : s'.chain = s.chain) : SingleHanded env s' (hist ++ [⟨s, a, [], s'⟩]) := by
  obtain ⟨hnodup, hpending, -⟩ := hselects
  -- what has been touched is marked in the queue, so the query leaves it out
  have hfree : ∀ row ∈ rows, ¬ Touched hist row.id := by
    intro row hrow htouched
    obtain ⟨hq, hstatus⟩ := List.mem_filter.mp (hpending row hrow)
    exact (h.marked row.id htouched).2 row hq rfl (by simpa using hstatus)
  -- an entry in hand is on a list or has been touched
  have hother : ∀ row ∈ rows, ∀ j ∈ s.jobs, j.1.id ≠ row.id := by
    intro row hrow j hj hid
    have hreached := h.reached j hj
    have hnot := hfree row hrow
    rw [← hid] at hnot
    cases hstage : j.2 with
    | listed =>
      obtain ⟨r, hr, hlist⟩ := mem_todo_of_listed hj hstage
      exact hnew row hrow r hr j.1 hlist hid
    | working | placed | sent | repaired =>
      rw [hstage] at hreached
      exact hnot hreached.1
  have hmem : ∀ j ∈ s'.jobs, (∃ row ∈ rows, j = (row, .listed)) ∨ j ∈ s.jobs := by
    intro j hj
    rcases List.mem_append.mp (hjobs.mem_iff.mp hj) with hj | hj
    · obtain ⟨row, hrow, rfl⟩ := List.mem_map.mp hj
      exact .inl ⟨row, hrow, rfl⟩
    · exact .inr hj
  -- the rows are listed and nothing more, and their entries are pending
  refine ⟨?_, ?_, ?_, ?_, ?_, h.once.snoc (by simp) (by simp) (by simp) (by simp) (by simp)⟩
  · rw [(hjobs.map _).nodup_iff, List.map_append, List.map_map]
    refine List.nodup_append.mpr ⟨hnodup, h.alone, ?_⟩
    intro id hid id' hid' heq
    obtain ⟨row, hrow, rfl⟩ := List.mem_map.mp hid
    obtain ⟨j, hj, rfl⟩ := List.mem_map.mp hid'
    exact hother row hrow j hj heq.symm
  · intro j hj
    rw [hdb]
    rcases hmem j hj with ⟨row, hrow, rfl⟩ | hj
    · exact ⟨row, (List.mem_filter.mp (hpending row hrow)).1, rfl⟩
    · exact h.known j hj
  · intro j hj
    rw [reached_snoc_other (by simp)]
    rcases hmem j hj with ⟨row, hrow, rfl⟩ | hj
    · exact hfree row hrow
    · exact h.reached j hj
  · intro j hj hway
    rw [hchain]
    rcases hmem j hj with ⟨row, hrow, rfl⟩ | hj
    · cases hway
    · exact h.agrees j hj hway
  · intro id hid
    rw [hdb]
    rcases touched_snoc.mp hid with hid | ⟨l, hl, -⟩
    · exact h.marked id hid
    · cases hl

/-- A turn with an entry leaves it where the next one expects it. -/
theorem RepairTurn.reached {l : RepairLog} {stage stage' : RepairStage} (turn : RepairTurn stage l stage')
    (h : Reached env hist l.entry stage) : Reached env (hist ++ [⟨s, a, [l], s'⟩]) l.entry stage' := by
  have htouched : Touched (hist ++ [⟨s, a, [l], s'⟩]) l.entry.id :=
    touched_snoc.mpr (.inr ⟨l, List.mem_singleton_self l, rfl⟩)
  have hrepairs : repairsOf l.entry.id (hist ++ [⟨s, a, [l], s'⟩]) = repairsOf l.entry.id hist := by
    apply repairsOf_snoc_of_not
    cases turn <;> simp [RepairLog.repairs]
  -- which counts are zero at each stage is what `Reached` says
  cases turn with
  | placed row =>
    obtain ⟨-, -, hsent, hnone⟩ := h
    refine ⟨htouched, ?_, hrepairs.trans hnone⟩
    rw [transactions_snoc]
    simpa [RepairLog.sends] using hsent
  | sent tx => exact ⟨htouched, hrepairs.trans h.2.2⟩
  | completed row =>
    refine ⟨htouched, ?_⟩
    rw [hrepairs]
    exact h.2

/-- A turn with an entry keeps the promise. -/
theorem RepairTurn.once {l : RepairLog} {stage stage' : RepairStage} (turn : RepairTurn stage l stage')
    (hreached : Reached env hist l.entry stage) (h : OncePerEntry env hist) :
    OncePerEntry env (hist ++ [⟨s, a, [l], s'⟩]) := by
  refine h.snoc ?_ ?_ ?_ ?_ (by simp)
  · intro id l' hl' hplaces
    obtain rfl := List.mem_singleton.mp hl'
    obtain rfl := entry_of_places hplaces
    -- the logs of a turn are of one kind, so only one of the counts is at stake
    cases turn with
    | placed row => exact hreached.2.1
    | sent tx | completed row => cases hplaces
  · intro id l' hl' hsends
    obtain rfl := List.mem_singleton.mp hl'
    obtain rfl := entry_of_sends hsends
    cases turn with
    | sent tx => exact hreached.2.1
    | placed row | completed row => cases hsends
  · intro id l' hl' hrepairs
    obtain rfl := List.mem_singleton.mp hl'
    cases turn <;> cases hrepairs
  · intro row hrow
    obtain rfl := List.mem_singleton.mp hrow
    cases turn with
    | completed row => exact hreached.2

/-- A careful step keeps all that is true in careful runs. -/
theorem singleHanded_step (h : SingleHanded env s hist) (hcareful : CarefulRepair env s a)
    (hstep : s.step env a = .ok (s', logs)) : SingleHanded env s' (hist ++ [⟨s, a, logs, s'⟩]) := by
  -- one case for each effect that a step can have
  cases repair_effect hstep with
  | rests nothing jobs queue chain =>
    subst nothing
    exact h.silent jobs queue (by rw [chain]; exact fun _ _ hagrees => hagrees)
  | transacts tx event nothing jobs db done =>
    subst nothing
    obtain ⟨l, hdone⟩ := done
    simp only [CarefulRepair, event] at hcareful
    refine h.silent ?_ (.of_eq (by rw [db])) fun row hrow => agrees_of_spares hdone (hcareful row hrow)
    rw [jobs]
  | starts rows event nothing selects jobs db chain =>
    subst nothing
    simp only [CarefulRepair, event] at hcareful
    exact h.start selects hcareful jobs db chain
  -- the entry is taken from the list, and marked as in progress
  | begins row rest logged before after agrees db chain =>
    subst logged
    have hin : (row, .listed) ∈ s.jobs := before.mem_iff.mpr List.mem_cons_self
    have hfree : ¬ Touched hist row.id := h.reached _ hin
    have hset : ∀ r : RepairRow, { r with status := RepairStatus.in_progress }.id = r.id ∧
        { r with status := RepairStatus.in_progress }.status ≠ .pending := fun r => ⟨rfl, by simp⟩
    refine h.turn (l := .begun row) before after.subperm ?_ ?_ ?_ ?_ ?_ ?_
    · rw [db]
      exact keepsQueue_updateRepair hset
    · rw [db]
      exact marked_updateRepair hset (h.known _ hin)
    -- nothing has been done for an entry that has not been touched
    · refine ⟨touched_snoc.mpr (.inr ⟨_, List.mem_singleton_self _, rfl⟩), ?_, ?_, ?_⟩
      · rw [placements_snoc]
        exact placements_of_not_touched hfree
      · rw [transactions_snoc]
        exact transactions_of_not_touched hfree
      · rw [repairsOf_snoc_of_not (by simp [RepairLog.repairs])]
        exact repairsOf_of_not_touched hfree
    · rw [chain]
      exact fun _ _ _ hagrees => hagrees
    -- a careful step begins only what agrees with the contract
    · rw [chain]
      exact fun _ => agrees hcareful
    · exact h.once.snoc (by simp [RepairLog.places]) (by simp [RepairLog.sends]) (by simp [RepairLog.repairs])
        (by simp) (by simp)
  -- a row, a transaction, or the UPDATE that completes the entry
  | advances l stage stage' rest turn logged before after queue chain =>
    subst logged
    have hin : (l.entry, stage) ∈ s.jobs := before.mem_iff.mpr List.mem_cons_self
    have hreached : Reached env hist l.entry stage := h.reached _ hin
    have htouched : Touched hist l.entry.id := by cases turn <;> exact hreached.1
    refine h.turn before after queue (queue.marks _ (h.marked _ htouched)) (turn.reached hreached) ?_ ?_
      (turn.once hreached h.once)
    · rw [chain]
      exact fun _ _ _ hagrees => hagrees
    · rw [chain]
      intro hway
      cases turn with
      | placed row | sent tx => exact h.agrees _ hin rfl
      | completed row => cases hway
  -- the transaction goes through: this is the one repair of the entry
  | repairs tx args rest logged before after read done others db =>
    subst logged
    obtain ⟨l, hdone⟩ := done
    have hin : (tx.entry, .sent) ∈ s.jobs := before.mem_iff.mpr List.mem_cons_self
    obtain ⟨htouched, hnone⟩ : Reached env hist tx.entry .sent := h.reached _ hin
    refine h.turn (l := .repaired tx) before after (.of_eq (by rw [db])) ?_ ?_ ?_ ?_ ?_
    · rw [db]
      exact h.marked _ htouched
    -- the contract has rewritten the index that the entry names, since the entry agrees with it
    · refine ⟨touched_snoc.mpr (.inl htouched), _, ?_, addsShard_of_step (a := a) read hdone (h.agrees _ hin rfl)⟩
      rw [repairsOf_snoc (by simp [RepairLog.repairs, RepairLog.entry])]
      exact congrArg (· ++ _) hnone
    -- a careful step leaves the indices of the other entries alone
    · intro row hrow hother hagrees
      have hok : revertOf (s.chain.step this (env.sends a.now args tx.newShardCID)) = none := by
        rw [hdone]
        rfl
      exact agrees_of_spares hdone (others hcareful args read hok row hrow hother) hagrees
    · intro hway
      cases hway
    · refine h.once.snoc (by simp [RepairLog.places]) (by simp [RepairLog.sends]) ?_ (by simp) (by simp)
      intro id l' hl' hrepairs
      obtain rfl := List.mem_singleton.mp hl'
      obtain rfl := entry_of_repairs hrepairs
      exact hnone

/-! ### Without the column -/

/-- The phases up to the query of `selectNewProvider`. -/
def RepairPhase.early : RepairPhase → Bool
  | .started | .collected | .reconstructed _ | .excluded _ _ | .failing => true
  | _ => false

/-- No run has got past the query, and entries have been taken up and nothing more. -/
structure Stuck (s : RepairService) (hist : List (RepairEntry this)) : Prop where
  early : ∀ r ∈ s.runs, ∀ c ∈ r.current, c.2.early = true
  noneOut : s.abandoned = []
  begunOnly : ∀ l ∈ happened hist, ∃ row, l = .begun row

/-- Where entries are only taken up, none is finished twice. -/
theorem Stuck.once (h : Stuck s hist) : OncePerEntry env hist := by
  have hnone : ∀ (id : Nat) (p : RepairLog → Bool), (∀ row, p (.begun row) = false) → (happened hist).countP p = 0 := by
    intro id p hp
    apply List.countP_eq_zero.mpr
    intro l hl
    obtain ⟨row, rfl⟩ := h.begunOnly l hl
    simp [hp row]
  refine ⟨fun id => ?_, fun id => ?_, fun row hrow => ?_⟩
  · exact (hnone id _ fun _ => rfl).le.trans (Nat.zero_le 1)
  · exact (hnone id _ fun _ => rfl).le.trans (Nat.zero_le 1)
  · obtain ⟨_, hbegun⟩ := h.begunOnly _ hrow
    cases hbegun

section Stuck

variable (h : Stuck s hist)

include h

/-- A run moves on, and is not past the query. -/
theorem Stuck.set {i : Nat} {r' : RepairRun} (hruns : s'.runs = s.runs.set i r') (hout : s'.abandoned = s.abandoned)
    (hearly : ∀ c ∈ r'.current, c.2.early = true) (hlogs : ∀ l ∈ logs, ∃ row, l = .begun row) :
    Stuck s' (hist ++ [⟨s, a, logs, s'⟩]) := by
  refine ⟨?_, hout.trans h.noneOut, ?_⟩
  · intro r hr
    rw [hruns] at hr
    rcases List.mem_or_eq_of_mem_set hr with hr | rfl
    · exact h.early r hr
    · exact hearly
  · intro l hl
    rw [happened_snoc] at hl
    rcases List.mem_append.mp hl with hl | hl
    · exact h.begunOnly l hl
    · exact hlogs l hl

theorem Stuck.silent (hruns : s'.runs = s.runs) (hout : s'.abandoned = s.abandoned) :
    Stuck s' (hist ++ [⟨s, a, [], s'⟩]) := by
  refine ⟨hruns ▸ h.early, hout.trans h.noneOut, ?_⟩
  rw [happened_snoc, List.append_nil]
  exact h.begunOnly

theorem Stuck.phase {i : Nat} {todo : List RepairRow} {row : RepairRow} {phase : RepairPhase}
    (hrun : s.runs[i]? = some ⟨todo, some (row, phase)⟩) : phase.early = true :=
  h.early _ (List.mem_of_getElem? hrun) _ rfl

end Stuck

/-- Without the columns of the table, every attempt to finish an entry fails. -/
theorem stuck_step (hcolumns : ¬ env.HasColumns) (h : Stuck s hist) (hstep : s.step env a = .ok (s', logs)) :
    Stuck s' (hist ++ [⟨s, a, logs, s'⟩]) := by
  have hearly : ∀ {row : RepairRow} {phase : RepairPhase}, phase.early = true →
      ∀ c ∈ some (row, phase), c.2.early = true := by
    intro row phase hphase c hc
    cases hc
    exact hphase
  cases hevent : a.event with
  | transaction tx =>
    simp only [RepairService.step, hevent, bind_eq_ok, pure_eq_ok, Prod.exists, Prod.mk.injEq] at hstep
    -- steps of others touch no run
    obtain ⟨_, -, chain, l, -, rfl, rfl⟩ := hstep
    exact h.silent rfl rfl
  | queued row | othersWrite db pledges =>
    simp only [RepairService.step, hevent, bind_eq_ok, pure_eq_ok, Prod.mk.injEq] at hstep
    obtain ⟨_, -, rfl, rfl⟩ := hstep
    exact h.silent rfl rfl
  | runStarts rows =>
    simp only [RepairService.step, hevent, bind_eq_ok, pure_eq_ok, Prod.mk.injEq] at hstep
    obtain ⟨_, -, rfl, rfl⟩ := hstep
    refine ⟨?_, h.noneOut, ?_⟩
    · intro r hr c hc
      rcases List.mem_append.mp hr with hr | hr
      · exact h.early r hr c hc
      · obtain rfl := List.mem_singleton.mp hr
        cases hc
    · rw [happened_snoc, List.append_nil]
      exact h.begunOnly
  | begins i =>
    simp only [RepairService.step, hevent] at hstep
    split at hstep
    · next row todo hrun =>
      -- taking up an entry is the only thing that is logged
      obtain ⟨rfl, rfl⟩ := Prod.mk.inj (Except.ok.inj hstep)
      exact h.set rfl rfl (hearly rfl) fun l hl => ⟨row, List.mem_singleton.mp hl⟩
    · cases hstep
  | collects i =>
    simp only [RepairService.step, hevent] at hstep
    split at hstep
    · split at hstep
      · obtain ⟨rfl, rfl⟩ := Prod.mk.inj (Except.ok.inj hstep)
        exact h.set rfl rfl (hearly rfl) (by simp)
      · obtain ⟨rfl, rfl⟩ := Prod.mk.inj (Except.ok.inj hstep)
        exact h.set rfl rfl (hearly rfl) (by simp)
    · cases hstep
  | reconstructs i size | excludes i =>
    simp only [RepairService.step, hevent] at hstep
    split at hstep
    · obtain ⟨rfl, rfl⟩ := Prod.mk.inj (Except.ok.inj hstep)
      exact h.set rfl rfl (hearly rfl) (by simp)
    · cases hstep
  | chooses i answer =>
    simp only [RepairService.step, hevent] at hstep
    split at hstep
    · simp only [bind_eq_ok, require_eq_ok, exists_const] at hstep
      -- the query names a column that the table does not have
      exact absurd hstep.1 hcolumns
    · cases hstep
  | uploads i newShardCID | places i | sends i | mines i | waitReturns i | completes i =>
    -- these come after the query
    simp only [RepairService.step, hevent] at hstep
    split at hstep
    · next hrun => cases h.phase hrun
    · cases hstep
  | minesAbandoned i =>
    -- no transaction is ever sent, so none is abandoned
    simp only [RepairService.step, hevent, h.noneOut, List.getElem?_nil] at hstep
    cases hstep
  | waitFails i =>
    simp only [RepairService.step, hevent] at hstep
    split at hstep
    · next hrun => cases h.phase hrun
    · next hrun => cases h.phase hrun
    · cases hstep
  | throws i =>
    simp only [RepairService.step, hevent] at hstep
    split at hstep
    · obtain ⟨rfl, rfl⟩ := Prod.mk.inj (Except.ok.inj hstep)
      exact h.set rfl rfl (hearly rfl) (by simp)
    · cases hstep
    · cases hstep
    · cases hstep
    · obtain ⟨rfl, rfl⟩ := Prod.mk.inj (Except.ok.inj hstep)
      exact h.set rfl rfl (hearly rfl) (by simp)
    · cases hstep
  | marksFailed i | marksNot i =>
    simp only [RepairService.step, hevent] at hstep
    split at hstep
    · obtain ⟨rfl, rfl⟩ := Prod.mk.inj (Except.ok.inj hstep)
      exact h.set rfl rfl (by simp) (by simp)
    · cases hstep

/-- **Each repair runs at most once**, in every interleaving of runs, transactions and other services, from tables and
contracts of any content, whose steps are careful, and in every one at all if `capacity_pledges` lacks a column that
`selectNewProvider` reads. -/
theorem once_run (env : RepairEnv this) (chain : System) (db : Database) (capacityPledges : List CapacityRow)
    (as : List (RepairAction this))
    (hcareful : env.HasColumns →
      Meets (RepairService.step env) (CarefulRepair env) { chain, db, capacityPledges } as) :
    OncePerEntry env (history (RepairService.step env) { chain, db, capacityPledges } as) := by
  by_cases hcolumns : env.HasColumns
  · refine (run_induction (P := SingleHanded env) ?_ ?_ as (hcareful hcolumns)).once
    · refine ⟨List.nodup_nil, ?_, ?_, ?_, ?_, ⟨?_, ?_, ?_⟩⟩
      all_goals simp [RepairService.jobs, Touched, happened, placements, transactions]
    · intro s hist a s' logs h ha hstep
      exact singleHanded_step h ha hstep
  · refine (run_induction (P := Stuck) ?_ ?_ as (meets_true _ as)).once
    · exact ⟨by simp, rfl, by simp [happened]⟩
    · intro s hist a s' logs h _ hstep
      exact stuck_step hcolumns h hstep

end Runs

/-! ### One run and two runs -/

namespace SmallRepair

open SmallMarket

def otherSpare : Account this := ⟨51, by decide, by decide⟩

/-- A deal that has lost its first two shards. -/
def chain : System :=
  after [otherSpare.callsRegistry 0 (.registerProvider "spare" "ep" "na" 5000), client.calls 0 (.createDeal params),
    owner.calls 0 (.reportLostShard 0 (provider 0).addr), owner.calls 0 (.reportLostShard 0 (provider 1).addr)]

def shards : List ShardRow :=
  (List.finRange 15).map fun i =>
    { dealId := "0", providerAddress := hexAddress (provider i).addr, shardIndex := i, shardCid := "QmShard",
      active := decide (2 ≤ i.val) }

/-- The entry for the `i`-th shard. -/
def lost (i : Fin 15) : RepairRow :=
  { id := i, dealId := "0", oldProvider := hexAddress (provider i).addr, shardIndex := i, shardCid := "QmShard",
    createdAt := 0 }

def db : Database :=
  { providers := [{ address := hexAddress spare.addr }, { address := hexAddress otherSpare.addr }]
    deals := [{ dealId := "0", clientAddress := hexAddress client.addr, fileCid := "QmTestFile", fileSizeGb := 10,
                totalCost := 1, providerPayment := 1, protocolFee := 0 }]
    shards
    repairQueue := [lost 0, lost 1] }

def capacityPledges : List CapacityRow :=
  [{ providerAddress := hexAddress spare.addr, availableCapacity := 1 },
    { providerAddress := hexAddress otherSpare.addr, availableCapacity := 1 }]

def start : RepairService := { chain, db, capacityPledges }

def env : RepairEnv this where
  wallet := owner
  pledgeColumns := capacityPledgeColumns ++ ["available_capacity"]
  readNumber t := if t = "0" then some 0 else none
  readAddress t := (spare.addr :: otherSpare.addr :: params.selectedProviders).find? fun a => hexAddress a = t

/-- The `i`-th run repairs its next entry. -/
def repairs (i : Nat) (newProvider : Account this) : List (RepairEvent this) :=
  [.begins i, .collects i, .reconstructs i 1, .excludes i, .chooses i (some (hexAddress newProvider.addr)),
    .uploads i "QmNew", .places i, .sends i, .mines i, .waitReturns i, .completes i]

def at0 (events : List (RepairEvent this)) : List (RepairAction this) := events.map fun event => ⟨0, event⟩

def oneRun : List (RepairAction this) :=
  at0 (.runStarts [lost 0, lost 1] :: (repairs 0 spare ++ repairs 0 otherSpare))

/-- While the first run is busy with the first entry, a second one selects and repairs the second. The first run fails
with its entry and goes on to the next on its list. -/
def twoRuns : List (RepairAction this) :=
  at0 ([.runStarts [lost 0, lost 1], .begins 0, .runStarts [lost 1]] ++ repairs 1 spare ++
    [.throws 0, .marksFailed 0] ++ repairs 0 otherSpare)

theorem once_oneRun :
    (run (RepairService.step env) start oneRun).db.repairQueue.map RepairRow.status = [.completed, .completed] ∧
      OncePerEntry env (history (RepairService.step env) start oneRun) := by
  obtain ⟨hstatus, hcareful⟩ :
      (run (RepairService.step env) start oneRun).db.repairQueue.map RepairRow.status = [.completed, .completed] ∧
        ∀ e ∈ history (RepairService.step env) start oneRun, CarefulRepair env e.pre e.act := by
    decide +kernel
  refine ⟨hstatus, once_run env chain db capacityPledges oneRun fun _ => ?_⟩
  exact (meets_iff_history _ _).mpr hcareful

/-- The second entry gets two rows and two transactions. -/
theorem twoRuns_not_once :
    placements 1 (history (RepairService.step env) start twoRuns) = 2 ∧
      transactions 1 (history (RepairService.step env) start twoRuns) = 2 ∧
      ((run (RepairService.step env) start twoRuns).chain.market.deals 0).activeShards = 15 ∧
      ¬ OncePerEntry env (history (RepairService.step env) start twoRuns) := by
  obtain ⟨hrows, hrest⟩ :
      placements 1 (history (RepairService.step env) start twoRuns) = 2 ∧
        transactions 1 (history (RepairService.step env) start twoRuns) = 2 ∧
        ((run (RepairService.step env) start twoRuns).chain.market.deals 0).activeShards = 15 := by
    decide +kernel
  refine ⟨hrows, hrest.1, hrest.2, fun honce => ?_⟩
  have hle := honce.rows 1
  rw [hrows] at hle
  exact absurd hle (by decide)

end SmallRepair

end Kyneto
