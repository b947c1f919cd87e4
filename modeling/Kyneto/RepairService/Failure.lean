import Kyneto.BlockchainListener.Mirror
import Kyneto.RepairService.Once

/-!
# Do failed repairs leave the mirror intact?

`repairShard` inserts the new row into `shards` before it calls the contract, and its `catch` only marks the entry. So
an error between the two leaves a row for a shard that the contract does not have. `failedRepair_iff` goes through one
run of `repairShard` with every statement that can throw, and says exactly which errors are harmless.

A run by itself is a list of steps of one run of the service, from the point where it takes up the entry to the
statement that marks it as failed.
-/

namespace Kyneto

open Evm Sql

/-! ## What is promised -/

section Promise

variable {this : Address} (env : RepairEnv this)

/-- The contract has the shard, as `ethers` reads the texts of its row. -/
def RepairEnv.Holds (m : StorageMarketplace) (dealId providerAddress : String) (i : Nat) (cid : String) : Prop :=
  ∃ id ∈ env.readNumber dealId, ∃ p ∈ env.readAddress providerAddress, (m.deals id).allots p i cid

def RepairEnv.HoldsRow (m : StorageMarketplace) (r : ShardRow) : Prop :=
  env.Holds m r.dealId r.providerAddress r.shardIndex r.shardCid

/-- The contract has the shard that a repair places. -/
def RepairEnv.HoldsNew (m : StorageMarketplace) (tx : RepairTx) : Prop :=
  env.Holds m tx.entry.dealId tx.newProvider tx.entry.shardIndex tx.newShardCID

/-- **The mirror is intact**: the deal has the same active rows as before, or the contract has those that are new;
and what the contract had of the others it still has. -/
structure MirrorIntact (s s' : RepairService) (dealId : String) : Prop where
  rows : activeShardsOf s'.db dealId = activeShardsOf s.db dealId ∨
    ∀ r ∈ activeShardsOf s'.db dealId, r ∉ activeShardsOf s.db dealId → env.HoldsRow s'.chain.market r
  held : ∀ r ∈ activeShardsOf s'.db dealId, r ∈ activeShardsOf s.db dealId → env.HoldsRow s.chain.market r →
    env.HoldsRow s'.chain.market r

end Promise

/-! ## Which errors are harmless -/

/-- The steps of the `i`-th run before its entry is marked as completed or failed. -/
def RepairEvent.isStepOf {this : Address} (i : Nat) : RepairEvent this → Bool
  | .begins j | .collects j | .reconstructs j _ | .excludes j | .chooses j _ | .uploads j _ | .places j | .sends j
  | .mines j | .waitReturns j | .waitFails j | .throws j => j = i
  | .transaction _ | .queued _ | .othersWrite _ _ | .runStarts _ | .minesAbandoned _ | .completes _ | .marksFailed _
  | .marksNot _ => false

/-- The row that a run has inserted, until its transaction goes through. -/
def RepairService.unrepaired (s : RepairService) (i : Nat) : Option RepairTx :=
  match s.runs[i]? with
  | some ⟨_, some (row, .placed newProvider newShardCID)⟩ | some ⟨_, some (row, .sent newProvider newShardCID)⟩
  | some ⟨_, some (row, .mined false newProvider newShardCID)⟩ => some ⟨row, newProvider, newShardCID⟩
  | _ => none

section Conditions

variable {this : Address} (env : RepairEnv this)

/-- The new provider has no other active row of the deal in another spelling, unless for the same shard. -/
def DisplacesNone (s : RepairService) (tx : RepairTx) (newProvider : Address) : Prop :=
  ∀ r ∈ activeShardsOf s.db tx.entry.dealId, env.HoldsRow s.chain.market r →
    env.readAddress r.providerAddress = some newProvider →
      r.shardIndex = tx.entry.shardIndex ∧ r.shardCid = tx.newShardCID

/-- Between the insertion of the row and the repair on the chain there is no error, unless the contract has the shard
already. When the repair goes through, the contract has the entry's index for the old provider, and no shard of the
new one that the database counts as active. -/
def FailsSafely (s : RepairService) (a : RepairAction this) : Prop :=
  match a.event with
  | .sends i => ∀ tx ∈ s.unrepaired i, env.args tx = none → env.HoldsNew s.chain.market tx
  | .throws i | .waitFails i => ∀ tx ∈ s.unrepaired i, env.HoldsNew s.chain.market tx
  | .mines i => ∀ tx ∈ s.sentBy i, ∀ args ∈ env.args tx,
    revertOf (s.chain.step this (env.sends a.now args tx.newShardCID)) = none →
      Agrees env s.chain.market tx.entry ∧ DisplacesNone env s tx args.newProvider
  | _ => True

end Conditions

/-! ## What a run leaves behind -/

section Rows

variable {this : Address} {env : RepairEnv this} {s₀ s s' : RepairService} {tx : RepairTx} {dealId : String}

/-- The run has written nothing that the mirror is made of. -/
def Unwritten (s₀ s : RepairService) : Prop := s.db.shards = s₀.db.shards ∧ s.chain = s₀.chain

/-- The run has inserted the row of the new shard. -/
def Placed (s₀ s : RepairService) (tx : RepairTx) : Prop :=
  ∃ size, s.db.shards =
      s₀.db.shards ++ [RepairService.newShard tx.entry size tx.newProvider tx.newShardCID] ∧
    ∀ r ∈ s₀.db.shards, r.key ≠ (tx.entry.dealId, tx.newProvider)

theorem activeShardsOf_congr (h : s'.db.shards = s.db.shards) :
    activeShardsOf s'.db dealId = activeShardsOf s.db dealId := by
  unfold activeShardsOf
  rw [h]

/-- The row is active and new. -/
theorem Placed.active (env : RepairEnv this) (h : Placed s₀ s tx) :
    ∃ r, activeShardsOf s.db tx.entry.dealId = activeShardsOf s₀.db tx.entry.dealId ++ [r] ∧
      r ∉ activeShardsOf s₀.db tx.entry.dealId ∧ r.providerAddress = tx.newProvider ∧
      r.shardIndex = tx.entry.shardIndex ∧ r.shardCid = tx.newShardCID ∧
      ∀ m, env.HoldsRow m r ↔ env.HoldsNew m tx := by
  obtain ⟨size, hshards, hfresh⟩ := h
  refine ⟨RepairService.newShard tx.entry size tx.newProvider tx.newShardCID, ?_, ?_, rfl, rfl, rfl, fun _ => Iff.rfl⟩
  · unfold activeShardsOf
    rw [hshards, List.filter_append]
    congr 1
    simp [RepairService.newShard]
  · intro hmem
    exact hfresh _ (List.mem_filter.mp hmem).1 rfl

theorem MirrorIntact.congr (hshards : s'.db.shards = s.db.shards) (hchain : s'.chain = s.chain) :
    MirrorIntact env s₀ s' dealId ↔ MirrorIntact env s₀ s dealId := by
  constructor
  · rintro ⟨hrows, hheld⟩
    rw [activeShardsOf_congr hshards, hchain] at hrows hheld
    exact ⟨hrows, hheld⟩
  · rintro ⟨hrows, hheld⟩
    rw [← activeShardsOf_congr hshards, ← hchain] at hrows hheld
    exact ⟨hrows, hheld⟩

theorem Unwritten.mirrorIntact (h : Unwritten s₀ s) : MirrorIntact env s₀ s dealId where
  rows := Or.inl (activeShardsOf_congr h.1)
  held := fun _ _ _ hheld => h.2 ▸ hheld

/-- A row without a repair: the mirror is intact only if the contract has the shard anyway. -/
theorem Placed.mirrorIntact_iff (h : Placed s₀ s tx) (hchain : s.chain = s₀.chain) :
    MirrorIntact env s₀ s tx.entry.dealId ↔ env.HoldsNew s.chain.market tx := by
  obtain ⟨r, hactive, hnew, -, -, -, hholds⟩ := h.active env
  have hmem : r ∈ activeShardsOf s.db tx.entry.dealId := by
    rw [hactive]
    exact List.mem_append_right _ (List.mem_singleton_self r)
  constructor
  · rintro ⟨hsame | hrows, -⟩
    · rw [hsame] at hmem
      exact absurd hmem hnew
    · exact (hholds _).mp (hrows r hmem hnew)
  · intro hhas
    refine ⟨Or.inr fun r' hr' hother => ?_, fun _ _ _ hheld => hchain ▸ hheld⟩
    rw [hactive] at hr'
    rcases List.mem_append.mp hr' with hr' | hr'
    · exact absurd hr' hother
    · obtain rfl := List.mem_singleton.mp hr'
      exact (hholds _).mpr hhas

/-- The rows that a repair could displace are those from before the run. -/
theorem Placed.displacesNone_iff (h : Placed s₀ s tx) (hchain : s.chain = s₀.chain) {newProvider : Address} :
    DisplacesNone env s tx newProvider ↔ DisplacesNone env s₀ tx newProvider := by
  obtain ⟨r, hactive, -, -, hindex, hcid, -⟩ := h.active env
  unfold DisplacesNone
  rw [hactive, hchain]
  constructor
  · intro hall r' hr'
    exact hall r' (List.mem_append_left _ hr')
  · intro hall r' hr' hheld hread
    rcases List.mem_append.mp hr' with hr' | hr'
    · exact hall r' hr' hheld hread
    · obtain rfl := List.mem_singleton.mp hr'
      exact ⟨hindex, hcid⟩

/-- What the contract has after a repair: the new provider's shard in place of what it had, and the others. -/
theorem repairedDeal_allots {deal : Deal} {oldProvider newProvider p : Address} {newShardCID cid : String} {i : Nat}
    (hold : (deal.shardAllocations oldProvider).active = false) :
    (repairedDeal deal oldProvider newProvider newShardCID).allots p i cid ↔
      if p = newProvider then (deal.shardAllocations oldProvider).shardIndex = i ∧ newShardCID = cid
      else deal.allots p i cid := by
  unfold Deal.allots
  split
  · next hp =>
    subst hp
    rw [repairedDeal_new]
    simp
  · next hp =>
    by_cases hp' : p = oldProvider
    · subst hp'
      simp [repairedDeal, hp, hold]
    · rw [repairedDeal_other hp hp']

theorem newProvider_of_args {args : RepairArgs} (h : env.args tx = some args) :
    env.readAddress tx.newProvider = some args.newProvider := by
  simp only [RepairEnv.args, bind, Option.bind_eq_some_iff, pure, Option.some.injEq] at h
  obtain ⟨_, -, _, -, _, hnew, rfl⟩ := h
  exact hnew

/-- What the contract has of a deal after its repair went through, by the texts of a row. -/
theorem holds_repaired {now : Nat} {args : RepairArgs} {chain chain' : System} {l : List Log}
    (hread : env.args tx = some args)
    (hstep : chain.step this (env.sends now args tx.newShardCID) = .ok (chain', l)) {provider cid : String} {i : Nat} :
    env.Holds chain'.market tx.entry.dealId provider i cid ↔
      ∃ p ∈ env.readAddress provider,
        if p = args.newProvider then
          chain.market.indexOf args.dealId args.oldProvider = i ∧ tx.newShardCID = cid
        else (chain.market.deals args.dealId).allots p i cid := by
  have hdeal := (args_eq_some hread).1
  obtain ⟨hold, hrepaired⟩ := repairedDeal_of_step hstep
  have hallots : ∀ p, (chain'.market.deals args.dealId).allots p i cid ↔
      if p = args.newProvider then
        chain.market.indexOf args.dealId args.oldProvider = i ∧ tx.newShardCID = cid
      else (chain.market.deals args.dealId).allots p i cid := by
    intro p
    rw [hrepaired]
    exact repairedDeal_allots hold
  unfold RepairEnv.Holds
  rw [hdeal]
  simp only [Option.mem_def, Option.some.injEq, exists_eq_left', hallots]

/-- A row with its repair: the mirror is intact if the contract agreed with the entry and the repair displaced no
other row. -/
theorem Placed.mirrorIntact_repaired_iff {now : Nat} {args : RepairArgs} {l : List Log} (h : Placed s₀ s tx)
    (hread : env.args tx = some args)
    (hstep : s₀.chain.step this (env.sends now args tx.newShardCID) = .ok (s.chain, l)) :
    MirrorIntact env s₀ s tx.entry.dealId ↔
      Agrees env s₀.chain.market tx.entry ∧ DisplacesNone env s₀ tx args.newProvider := by
  obtain ⟨hdeal, hold⟩ := args_eq_some hread
  have hnewProvider := newProvider_of_args hread
  obtain ⟨r, hactive, hnew, -, -, -, hholds⟩ := h.active env
  have hagrees : Agrees env s₀.chain.market tx.entry ↔
      s₀.chain.market.indexOf args.dealId args.oldProvider = tx.entry.shardIndex := by
    unfold Agrees
    rw [hdeal, hold]
    simp
  -- the new row is right if the contract has written the index of the entry
  have hplaced : env.HoldsRow s.chain.market r ↔ Agrees env s₀.chain.market tx.entry := by
    rw [hholds, hagrees]
    refine Iff.trans (holds_repaired hread hstep) ?_
    rw [hnewProvider]
    simp
  -- another row stays right unless it names the new provider
  have hother : ∀ r' ∈ activeShardsOf s₀.db tx.entry.dealId, env.HoldsRow s₀.chain.market r' →
      (env.HoldsRow s.chain.market r' ↔ (env.readAddress r'.providerAddress = some args.newProvider →
        s₀.chain.market.indexOf args.dealId args.oldProvider = r'.shardIndex ∧ tx.newShardCID = r'.shardCid)) := by
    intro r' hr' hheld
    have hid : r'.dealId = tx.entry.dealId := by
      have hcond := (List.mem_filter.mp hr').2
      simp only [Bool.decide_and, Bool.and_eq_true, decide_eq_true_eq] at hcond
      exact hcond.1
    unfold RepairEnv.HoldsRow at hheld ⊢
    rw [hid] at hheld ⊢
    refine Iff.trans (holds_repaired hread hstep) ?_
    obtain ⟨id, hidRead, p, hp, hallots⟩ := hheld
    rw [hdeal] at hidRead
    obtain rfl := Option.some.inj hidRead
    rw [Option.mem_def] at hp
    rw [hp]
    by_cases hpNew : p = args.newProvider
    · simp [hpNew]
    · simp [hpNew, hallots]
  constructor
  -- the mirror is intact: read off the new row, and then row by row
  · rintro ⟨hsame | hrows, hheld⟩
    · rw [hactive] at hsame
      exact absurd hsame (by simp)
    · have hmem : ∀ r' ∈ activeShardsOf s₀.db tx.entry.dealId, r' ∈ activeShardsOf s.db tx.entry.dealId := by
        intro r' hr'
        rw [hactive]
        exact List.mem_append_left _ hr'
      have hr : r ∈ activeShardsOf s.db tx.entry.dealId := by
        rw [hactive]
        exact List.mem_append_right _ (List.mem_singleton_self r)
      have hagree := hplaced.mp (hrows r hr hnew)
      refine ⟨hagree, fun r' hr' hheld' hreads => ?_⟩
      obtain ⟨hindex, hcid⟩ := (hother r' hr' hheld').mp (hheld r' (hmem r' hr') hr' hheld') hreads
      exact ⟨hindex.symm.trans (hagrees.mp hagree), hcid.symm⟩
  -- conversely, each row is the new one or one of those that were there
  · rintro ⟨hagree, hdisplaces⟩
    refine ⟨Or.inr fun r' hr' hout => ?_, fun r' _ hr' hheld' => ?_⟩
    · rw [hactive] at hr'
      rcases List.mem_append.mp hr' with hr' | hr'
      · exact absurd hr' hout
      · obtain rfl := List.mem_singleton.mp hr'
        exact hplaced.mpr hagree
    · refine (hother r' hr' hheld').mpr fun hreads => ?_
      obtain ⟨hindex, hcid⟩ := hdisplaces r' hr' hheld' hreads
      exact ⟨(hagrees.mp hagree).trans hindex.symm, hcid.symm⟩

end Rows

/-! ## One run of `repairShard` -/

section Attempts

variable {this : Address} {env : RepairEnv this} {s₀ s s' : RepairService} {i : Nat} {row : RepairRow}
  {todo : List RepairRow} {a : RepairAction this} {logs : List RepairLog} {safe : Prop}

/-- What the run has left behind when it is at a phase; `safe` says that it met `FailsSafely` so far. Once the
transaction went through or an error was thrown, the mirror is decided. -/
def LeftAt (env : RepairEnv this) (s₀ s : RepairService) (row : RepairRow) (safe : Prop) : RepairPhase → Prop
  | .started | .collected | .reconstructed _ | .excluded _ _ | .chosen _ _ | .uploaded _ _ _ => Unwritten s₀ s ∧ safe
  | .placed newProvider newShardCID | .sent newProvider newShardCID | .mined false newProvider newShardCID =>
    Placed s₀ s ⟨row, newProvider, newShardCID⟩ ∧ s.chain = s₀.chain ∧ safe
  | .mined true _ _ | .confirmed _ _ | .failing => MirrorIntact env s₀ s row.dealId ↔ safe

/-- The run is at the entry, or about to take it up. -/
inductive Attempt (env : RepairEnv this) (s₀ : RepairService) (i : Nat) (row : RepairRow) (todo : List RepairRow)
    (s : RepairService) (safe : Prop) : Prop
  | waiting (run : s.runs[i]? = some ⟨row :: todo, none⟩) (unwritten : Unwritten s₀ s) (safe : safe)
  | working (phase : RepairPhase) (run : s.runs[i]? = some ⟨todo, some (row, phase)⟩)
      (left : LeftAt env s₀ s row safe phase)

theorem setRun_getElem? {r r' : RepairRun} (h : s.runs[i]? = some r) : (s.setRun i r').runs[i]? = some r' := by
  unfold RepairService.setRun
  rw [List.getElem?_set_self (List.getElem?_eq_some_iff.mp h).1]

/-- The run is where the step found it. -/
theorem Attempt.left {row' : RepairRow} {todo' : List RepairRow} {phase : RepairPhase}
    (h : Attempt env s₀ i row todo s safe) (hrun : s.runs[i]? = some ⟨todo', some (row', phase)⟩) :
    row' = row ∧ todo' = todo ∧ LeftAt env s₀ s row safe phase := by
  cases h with
  | waiting run =>
    rw [run] at hrun
    cases hrun
  | working phase' run left =>
    rw [run] at hrun
    cases hrun
    exact ⟨rfl, rfl, left⟩

/-- Before its first statement an attempt has written nothing. -/
theorem Attempt.unwritten {row' : RepairRow} {todo' : List RepairRow}
    (h : Attempt env s₀ i row todo s safe) (hrun : s.runs[i]? = some ⟨row' :: todo', none⟩) :
    row' = row ∧ todo' = todo ∧ Unwritten s₀ s ∧ safe := by
  cases h with
  | waiting run unwritten safe =>
    rw [run] at hrun
    cases hrun
    exact ⟨rfl, rfl, unwritten, safe⟩
  | working phase' run left =>
    rw [run] at hrun
    cases hrun

/-- The mirror after a step that writes neither the rows nor the chain. -/
theorem mirrorIntact_step (h : MirrorIntact env s₀ s row.dealId ↔ safe) (hshards : s'.db.shards = s.db.shards)
    (hchain : s'.chain = s.chain) (hnow : FailsSafely env s a) :
    MirrorIntact env s₀ s' row.dealId ↔ safe ∧ FailsSafely env s a := by
  rw [MirrorIntact.congr hshards hchain, h, and_iff_left hnow]

/-- An error before anything was written. -/
theorem Attempt.fails_early (hrun : s'.runs[i]? = some ⟨todo, some (row, .failing)⟩) (h : Unwritten s₀ s')
    (hsafe : safe) : Attempt env s₀ i row todo s' safe :=
  .working .failing hrun (iff_of_true h.mirrorIntact hsafe)

/-- An error after the row was inserted. -/
theorem Attempt.fails_late {newProvider newShardCID : String}
    (hrun : s'.runs[i]? = some ⟨todo, some (row, .failing)⟩) (hshards : s'.db.shards = s.db.shards)
    (hchain : s'.chain = s.chain) (h : Placed s₀ s ⟨row, newProvider, newShardCID⟩) (hsame : s.chain = s₀.chain)
    (hsafe : safe)
    (hnow : FailsSafely env s a ↔ env.HoldsNew s.chain.market ⟨row, newProvider, newShardCID⟩) :
    Attempt env s₀ i row todo s' (safe ∧ FailsSafely env s a) := by
  refine .working .failing hrun ?_
  show MirrorIntact env s₀ s' row.dealId ↔ safe ∧ FailsSafely env s a
  rw [and_iff_right hsafe, hnow, MirrorIntact.congr hshards hchain]
  exact h.mirrorIntact_iff hsame

theorem mine_reverts {now : Nat} {tx : RepairTx} {args : RepairArgs} (h : s.mine env now tx args = (false, s', logs)) :
    revertOf (s.chain.step this (env.sends now args tx.newShardCID)) ≠ none := by
  unfold RepairService.mine at h
  split at h
  · cases h
  · next hrevert =>
    rw [hrevert]
    exact Option.some_ne_none _

/-- The transaction is mined. -/
theorem Attempt.mined {newProvider newShardCID : String} {args : RepairArgs} {ok : Bool} {s₁ : RepairService}
    (hrun : s.runs[i]? = some ⟨todo, some (row, .sent newProvider newShardCID)⟩)
    (hargs : env.args ⟨row, newProvider, newShardCID⟩ = some args)
    (hplaced : Placed s₀ s ⟨row, newProvider, newShardCID⟩) (hsame : s.chain = s₀.chain) (hsafe : safe)
    (hevent : a.event = .mines i)
    (hmine : s.mine env a.now ⟨row, newProvider, newShardCID⟩ args = (ok, s₁, logs)) :
    Attempt env s₀ i row todo (s₁.setRun i ⟨todo, some (row, .mined ok newProvider newShardCID)⟩)
      (safe ∧ FailsSafely env s a) := by
  have hnow : FailsSafely env s a ↔
      (revertOf (s.chain.step this (env.sends a.now args newShardCID)) = none →
        Agrees env s.chain.market row ∧ DisplacesNone env s ⟨row, newProvider, newShardCID⟩ args.newProvider) := by
    simp [FailsSafely, hevent, RepairService.sentBy, hrun, hargs]
  cases ok with
  | false =>
    have hreverts := mine_reverts hmine
    obtain ⟨_, _, _, hok, -⟩ | ⟨-, rfl, -⟩ := mine_cases hmine
    · cases hok
    · refine .working _ (setRun_getElem? hrun) ⟨hplaced, hsame, hsafe, hnow.mpr fun hok => ?_⟩
      exact absurd hok hreverts
  | true =>
    obtain ⟨chain, l, hchain, -, rfl, -⟩ | ⟨hok, -⟩ := mine_cases hmine
    · have hok : revertOf (s.chain.step this (env.sends a.now args newShardCID)) = none := by
        rw [hchain]
        rfl
      refine .working (.mined true newProvider newShardCID) (setRun_getElem? (s := { s with chain }) hrun) ?_
      show MirrorIntact env s₀ _ row.dealId ↔ safe ∧ FailsSafely env s a
      rw [and_iff_right hsafe, hnow, forall_prop_of_true hok, hplaced.displacesNone_iff hsame, hsame]
      rw [hsame] at hchain
      refine Iff.trans (MirrorIntact.congr (s := { s with chain }) rfl rfl) ?_
      exact Placed.mirrorIntact_repaired_iff (s := { s with chain }) hplaced hargs hchain
    · cases hok

/-- A step of the attempt keeps the record of what it has done, one case for each place in the handler. -/
theorem attempt_step (h : Attempt env s₀ i row todo s safe) (hown : a.event.isStepOf i = true)
    (hstep : s.step env a = .ok (s', logs)) :
    Attempt env s₀ i row todo s' (safe ∧ FailsSafely env s a) := by
  cases hevent : a.event with
  -- the first group are steps of others, or steps after the attempt
  | transaction _ | queued _ | othersWrite _ _ | runStarts _ | minesAbandoned _ | completes _ | marksFailed _
  | marksNot _ =>
    rw [hevent] at hown
    cases hown
  | begins j =>
    obtain rfl : j = i := by simpa [hevent, RepairEvent.isStepOf] using hown
    have hnow : FailsSafely env s a := by simp [FailsSafely, hevent]
    simp only [RepairService.step, hevent] at hstep
    split at hstep
    · next hrun =>
      obtain ⟨rfl, -⟩ := Prod.mk.inj (Except.ok.inj hstep)
      -- nothing has been written before `started`, so the attempt begins with the state `s₀`
      obtain ⟨rfl, rfl, hunwritten, hsafe⟩ := h.unwritten hrun
      exact .working .started (setRun_getElem? hrun) ⟨hunwritten, hsafe, hnow⟩
    · cases hstep
  | collects j =>
    obtain rfl : j = i := by simpa [hevent, RepairEvent.isStepOf] using hown
    have hnow : FailsSafely env s a := by simp [FailsSafely, hevent]
    simp only [RepairService.step, hevent] at hstep
    split at hstep
    · next hrun =>
      -- `left` reads off the phase what has been done so far
      obtain ⟨rfl, rfl, hunwritten, hsafe⟩ := h.left hrun
      split at hstep
      · obtain ⟨rfl, -⟩ := Prod.mk.inj (Except.ok.inj hstep)
        exact .working .collected (setRun_getElem? hrun) ⟨hunwritten, hsafe, hnow⟩
      · obtain ⟨rfl, -⟩ := Prod.mk.inj (Except.ok.inj hstep)
        exact .fails_early (setRun_getElem? hrun) hunwritten ⟨hsafe, hnow⟩
    · cases hstep
  | reconstructs j size | excludes j | uploads j newShardCID =>
    obtain rfl : j = i := by simpa [hevent, RepairEvent.isStepOf] using hown
    have hnow : FailsSafely env s a := by simp [FailsSafely, hevent]
    simp only [RepairService.step, hevent] at hstep
    split at hstep
    · next hrun =>
      obtain ⟨rfl, -⟩ := Prod.mk.inj (Except.ok.inj hstep)
      obtain ⟨rfl, rfl, hunwritten, hsafe⟩ := h.left hrun
      exact .working _ (setRun_getElem? hrun) ⟨hunwritten, hsafe, hnow⟩
    · cases hstep
  | chooses j answer =>
    obtain rfl : j = i := by simpa [hevent, RepairEvent.isStepOf] using hown
    have hnow : FailsSafely env s a := by simp [FailsSafely, hevent]
    simp only [RepairService.step, hevent] at hstep
    split at hstep
    · next hrun =>
      obtain ⟨rfl, rfl, hunwritten, hsafe⟩ := h.left hrun
      simp only [bind_eq_ok, require_eq_ok, exists_const] at hstep
      obtain ⟨-, -, hstep⟩ := hstep
      split at hstep
      · obtain ⟨rfl, -⟩ := Prod.mk.inj (Except.ok.inj hstep)
        exact .working (.chosen _ _) (setRun_getElem? hrun) ⟨hunwritten, hsafe, hnow⟩
      · obtain ⟨rfl, -⟩ := Prod.mk.inj (Except.ok.inj hstep)
        exact .fails_early (setRun_getElem? hrun) hunwritten ⟨hsafe, hnow⟩
    · cases hstep
  | places j =>
    obtain rfl : j = i := by simpa [hevent, RepairEvent.isStepOf] using hown
    have hnow : FailsSafely env s a := by simp [FailsSafely, hevent]
    simp only [RepairService.step, hevent] at hstep
    split at hstep
    · next todo row size newProvider newShardCID hrun =>
      obtain ⟨rfl, rfl, hunwritten, hsafe⟩ := h.left hrun
      split at hstep
      · next db hinsert =>
        obtain ⟨rfl, -⟩ := Prod.mk.inj (Except.ok.inj hstep)
        -- from here on the row of the new shard is in the database
        obtain ⟨hstorable, rfl⟩ := insertShard_eq_ok.mp hinsert
        refine .working (.placed newProvider newShardCID) (setRun_getElem? hrun)
          ⟨⟨size, ?_, ?_⟩, hunwritten.2, hsafe, hnow⟩
        · rw [← hunwritten.1]
        · rw [← hunwritten.1]
          exact hstorable.fresh
      · obtain ⟨rfl, -⟩ := Prod.mk.inj (Except.ok.inj hstep)
        exact .fails_early (setRun_getElem? hrun) hunwritten ⟨hsafe, hnow⟩
    · cases hstep
  | sends j =>
    obtain rfl : j = i := by simpa [hevent, RepairEvent.isStepOf] using hown
    simp only [RepairService.step, hevent] at hstep
    split at hstep
    · next todo row newProvider newShardCID hrun =>
      obtain ⟨rfl, rfl, hplaced, hsame, hsafe⟩ := h.left hrun
      -- the only steps that can fail unsafely are those between the INSERT and the receipt
      have hnow : FailsSafely env s a ↔ (env.args ⟨row, newProvider, newShardCID⟩ = none →
          env.HoldsNew s.chain.market ⟨row, newProvider, newShardCID⟩) := by
        simp [FailsSafely, hevent, RepairService.unrepaired, hrun]
      split at hstep
      · next hread =>
        obtain ⟨rfl, -⟩ := Prod.mk.inj (Except.ok.inj hstep)
        refine .working (.sent newProvider newShardCID) (setRun_getElem? hrun) ⟨hplaced, hsame, hsafe, hnow.mpr ?_⟩
        -- the arguments could be read, so there is nothing to be safe about
        intro hnone
        rw [hnone] at hread
        cases hread
      · next hread =>
        obtain ⟨rfl, -⟩ := Prod.mk.inj (Except.ok.inj hstep)
        refine .fails_late (setRun_getElem? hrun) rfl rfl hplaced hsame hsafe ?_
        rw [hnow]
        exact forall_prop_of_true (by simpa using hread)
    · cases hstep
  | mines j =>
    obtain rfl : j = i := by simpa [hevent, RepairEvent.isStepOf] using hown
    simp only [RepairService.step, hevent] at hstep
    split at hstep
    · next todo row newProvider newShardCID hrun =>
      obtain ⟨rfl, rfl, hplaced, hsame, hsafe⟩ := h.left hrun
      split at hstep
      · next args hargs =>
        -- the transaction is mined; `Attempt.mined` compares both rewritings
        cases hmine : s.mine env a.now ⟨row, newProvider, newShardCID⟩ args with
        | mk ok result =>
          obtain ⟨s₁, l₁⟩ := result
          rw [hmine] at hstep
          obtain ⟨rfl, -⟩ := Prod.mk.inj (Except.ok.inj hstep)
          exact .mined hrun hargs hplaced hsame hsafe hevent hmine
      · cases hstep
    · cases hstep
  | waitReturns j =>
    obtain rfl : j = i := by simpa [hevent, RepairEvent.isStepOf] using hown
    have hnow : FailsSafely env s a := by simp [FailsSafely, hevent]
    simp only [RepairService.step, hevent] at hstep
    split at hstep
    · next hrun =>
      obtain ⟨rfl, -⟩ := Prod.mk.inj (Except.ok.inj hstep)
      obtain ⟨rfl, rfl, hleft⟩ := h.left hrun
      exact .working (.confirmed _ _) (setRun_getElem? hrun) (mirrorIntact_step hleft rfl rfl hnow)
    · cases hstep
  | waitFails j =>
    obtain rfl : j = i := by simpa [hevent, RepairEvent.isStepOf] using hown
    simp only [RepairService.step, hevent] at hstep
    split at hstep
    · next todo row newProvider newShardCID hrun =>
      obtain ⟨rfl, -⟩ := Prod.mk.inj (Except.ok.inj hstep)
      obtain ⟨rfl, rfl, hplaced, hsame, hsafe⟩ := h.left hrun
      refine .fails_late (setRun_getElem? hrun) rfl rfl hplaced hsame hsafe ?_
      simp [FailsSafely, hevent, RepairService.unrepaired, hrun]
    · next todo row ok newProvider newShardCID hrun =>
      obtain ⟨rfl, -⟩ := Prod.mk.inj (Except.ok.inj hstep)
      obtain ⟨rfl, rfl, hleft⟩ := h.left hrun
      -- the wait fails with the receipt of a transaction that was reverted, or with one that went through
      cases ok with
      | false =>
        obtain ⟨hplaced, hsame, hsafe⟩ := hleft
        refine .fails_late (setRun_getElem? hrun) rfl rfl hplaced hsame hsafe ?_
        simp [FailsSafely, hevent, RepairService.unrepaired, hrun]
      | true =>
        refine .working .failing (setRun_getElem? hrun) (mirrorIntact_step hleft rfl rfl ?_)
        simp [FailsSafely, hevent, RepairService.unrepaired, hrun]
    · cases hstep
  | throws j =>
    obtain rfl : j = i := by simpa [hevent, RepairEvent.isStepOf] using hown
    simp only [RepairService.step, hevent] at hstep
    split at hstep
    · next hrun =>
      obtain ⟨rfl, -⟩ := Prod.mk.inj (Except.ok.inj hstep)
      obtain ⟨rfl, rfl, hunwritten, hsafe⟩ := h.unwritten hrun
      refine .fails_early (setRun_getElem? hrun) hunwritten ⟨hsafe, ?_⟩
      simp [FailsSafely, hevent, RepairService.unrepaired, hrun]
    · cases hstep
    · cases hstep
    · cases hstep
    · next todo row phase hsent hmined hfailing hrun =>
      obtain ⟨rfl, -⟩ := Prod.mk.inj (Except.ok.inj hstep)
      obtain ⟨rfl, rfl, hleft⟩ := h.left hrun
      -- an exception before the INSERT has nothing to undo, and one after it leaves the row there
      cases phase with
      | started | collected | reconstructed _ | excluded _ _ | chosen _ _ | uploaded _ _ _ =>
        refine .fails_early (setRun_getElem? hrun) hleft.1 ⟨hleft.2, ?_⟩
        simp [FailsSafely, hevent, RepairService.unrepaired, hrun]
      | placed newProvider newShardCID =>
        obtain ⟨hplaced, hsame, hsafe⟩ := hleft
        refine .fails_late (setRun_getElem? hrun) rfl rfl hplaced hsame hsafe ?_
        simp [FailsSafely, hevent, RepairService.unrepaired, hrun]
      | confirmed newProvider newShardCID =>
        refine .working .failing (setRun_getElem? hrun) (mirrorIntact_step hleft rfl rfl ?_)
        simp [FailsSafely, hevent, RepairService.unrepaired, hrun]
      -- in these phases the handler awaits the transaction, or has thrown already
      | sent _ _ => exact (hsent _ _ rfl).elim
      | mined _ _ _ => exact (hmined _ _ _ rfl).elim
      | failing => exact (hfailing rfl).elim
    · cases hstep

theorem marksFailed_eq (env : RepairEnv this) {n : Nat} (h : s.runs[i]? = some ⟨todo, some (row, .failing)⟩) :
    s.step env ⟨n, .marksFailed i⟩ = .ok ({ s.setRun i ⟨todo, none⟩ with
      db := RepairService.updateRepair row.id (fun r => { r with status := .failed }) s.db }, []) := by
  simp only [RepairService.step, h]

/-- **Failed repairs leave the mirror intact** exactly if they fail safely: for every run of `repairShard` by itself,
from tables and contracts of any content, with any of its statements failing, that ends with its entry marked as
failed. -/
theorem failedRepair_iff (env : RepairEnv this) {s s' : RepairService} {i : Nat} {row : RepairRow}
    {todo : List RepairRow} {logs : List RepairLog} {now : Nat} (as : List (RepairAction this))
    (hrun : s.runs[i]? = some ⟨row :: todo, none⟩) (hown : ∀ a ∈ as, a.event.isStepOf i = true)
    (hfailed : (run (RepairService.step env) s as).step env ⟨now, .marksFailed i⟩ = .ok (s', logs)) :
    MirrorIntact env s s' row.dealId ↔ Meets (RepairService.step env) (FailsSafely env) s as := by
  have hattempt : Attempt env s i row todo (run (RepairService.step env) s as)
      (∀ e ∈ history (RepairService.step env) s as, FailsSafely env e.pre e.act) := by
    refine run_induction
      (P := fun s' hist => Attempt env s i row todo s' (∀ e ∈ hist, FailsSafely env e.pre e.act))
      (C := fun _ a => a.event.isStepOf i = true) (.waiting hrun ⟨rfl, rfl⟩ (by simp)) ?_ as
      (meets_of_forall s fun a ha _ => hown a ha)
    intro s₁ hist a s₂ logs h ha hstep
    have hsnoc : (∀ e ∈ hist ++ [(⟨s₁, a, logs, s₂⟩ : RepairEntry this)], FailsSafely env e.pre e.act) ↔
        (∀ e ∈ hist, FailsSafely env e.pre e.act) ∧ FailsSafely env s₁ a := by
      rw [List.forall_mem_append, List.forall_mem_singleton]
    rw [hsnoc]
    exact attempt_step h ha hstep
  simp only [RepairService.step] at hfailed
  split at hfailed
  · next hphase =>
    obtain ⟨rfl, -⟩ := Prod.mk.inj (Except.ok.inj hfailed)
    obtain ⟨-, -, hleft⟩ := hattempt.left hphase
    rw [meets_iff_history]
    exact Iff.trans (MirrorIntact.congr (s := run (RepairService.step env) s as) rfl rfl) hleft
  · cases hfailed

end Attempts

section Decidable

variable {this : Address} (env : RepairEnv this)

instance (deal : Deal) (p : Address) (i : Nat) (cid : String) : Decidable (deal.allots p i cid) :=
  inferInstanceAs (Decidable (_ ∧ _ ∧ _))

-- the instance for options has to be named: there is one for all addresses as well
instance (m : StorageMarketplace) (dealId provider : String) (i : Nat) (cid : String) :
    Decidable (env.Holds m dealId provider i cid) :=
  @Option.decidableExistsMem _ _ (fun _ => @Option.decidableExistsMem _ _ (fun _ => inferInstance) _) _

instance (m : StorageMarketplace) (r : ShardRow) : Decidable (env.HoldsRow m r) :=
  inferInstanceAs (Decidable (env.Holds _ _ _ _ _))

instance (s : RepairService) (tx : RepairTx) (newProvider : Address) :
    Decidable (DisplacesNone env s tx newProvider) :=
  inferInstanceAs (Decidable (∀ r ∈ activeShardsOf s.db tx.entry.dealId, _ → _ → _))

instance (s : RepairService) (a : RepairAction this) : Decidable (FailsSafely env s a) :=
  match a with
  | ⟨_, .sends i⟩ => inferInstanceAs (Decidable (∀ tx ∈ s.unrepaired i, env.args tx = none →
      env.Holds s.chain.market tx.entry.dealId tx.newProvider tx.entry.shardIndex tx.newShardCID))
  | ⟨_, .throws i⟩ | ⟨_, .waitFails i⟩ => inferInstanceAs (Decidable (∀ tx ∈ s.unrepaired i,
      env.Holds s.chain.market tx.entry.dealId tx.newProvider tx.entry.shardIndex tx.newShardCID))
  | ⟨now, .mines i⟩ => inferInstanceAs (Decidable (∀ tx ∈ s.sentBy i, ∀ args ∈ env.args tx,
      revertOf (s.chain.step this (env.sends now args tx.newShardCID)) = none →
        Agrees env s.chain.market tx.entry ∧ DisplacesNone env s tx args.newProvider))
  | ⟨_, .transaction _⟩ | ⟨_, .queued _⟩ | ⟨_, .othersWrite _ _⟩ | ⟨_, .runStarts _⟩ | ⟨_, .begins _⟩
  | ⟨_, .collects _⟩ | ⟨_, .reconstructs _ _⟩ | ⟨_, .excludes _⟩ | ⟨_, .chooses _ _⟩ | ⟨_, .uploads _ _⟩
  | ⟨_, .places _⟩ | ⟨_, .minesAbandoned _⟩ | ⟨_, .waitReturns _⟩ | ⟨_, .completes _⟩ | ⟨_, .marksFailed _⟩
  | ⟨_, .marksNot _⟩ => inferInstanceAs (Decidable True)

instance (s s' : RepairService) (dealId : String) : Decidable (MirrorIntact env s s' dealId) :=
  decidable_of_iff
    ((activeShardsOf s'.db dealId = activeShardsOf s.db dealId ∨
      ∀ r ∈ activeShardsOf s'.db dealId, r ∉ activeShardsOf s.db dealId → env.HoldsRow s'.chain.market r) ∧
      ∀ r ∈ activeShardsOf s'.db dealId, r ∈ activeShardsOf s.db dealId → env.HoldsRow s.chain.market r →
        env.HoldsRow s'.chain.market r)
    ⟨fun h => ⟨h.1, h.2⟩, fun h => ⟨h.rows, h.held⟩⟩

end Decidable

/-! ### An error before and after the insertion -/

namespace SmallRepair

open SmallMarket

/-- A run has selected the two entries. -/
def selected : RepairService := { start with runs := [⟨[lost 0, lost 1], none⟩] }

def chooses : List (RepairEvent this) :=
  [.begins 0, .collects 0, .reconstructs 0 1, .excludes 0, .chooses 0 (some (hexAddress spare.addr))]

/-- The upload fails. -/
def failedUpload : List (RepairAction this) := at0 (chooses ++ [.throws 0])

/-- The row is inserted, and then the blockchain configuration is missing. -/
def missingConfig : List (RepairAction this) := at0 (chooses ++ [.uploads 0 "QmNew", .places 0, .throws 0])

/-- The state after the entry is marked as failed. -/
def marked (as : List (RepairAction this)) : RepairService :=
  run (RepairService.step env) selected (as ++ at0 [.marksFailed 0])

/-- In the example, an upload that fails leaves everything as it was. -/
theorem failedUpload_intact :
    ∃ s', (run (RepairService.step env) selected failedUpload).step env ⟨0, .marksFailed 0⟩ = .ok (s', []) ∧
      MirrorIntact env selected s' "0" := by
  have hselected : selected.runs[0]? = some ⟨lost 0 :: [lost 1], none⟩ := rfl
  obtain ⟨hfailing, hsafe⟩ :
      (run (RepairService.step env) selected failedUpload).runs[0]? = some ⟨[lost 1], some (lost 0, .failing)⟩ ∧
        ∀ e ∈ history (RepairService.step env) selected failedUpload, FailsSafely env e.pre e.act := by
    decide +kernel
  have hmarked := marksFailed_eq env (n := 0) hfailing
  refine ⟨_, hmarked, ?_⟩
  exact (failedRepair_iff env failedUpload hselected (by decide) hmarked).mpr ((meets_iff_history _ _).mpr hsafe)

/-- The database has one active shard more, of which the contract knows nothing. -/
theorem missingConfig_not_intact :
    (marked missingConfig).db.repairQueue.map RepairRow.status = [.failed, .pending] ∧
      (activeShardsOf (marked missingConfig).db "0").length = (activeShardsOf selected.db "0").length + 1 ∧
      ¬ MirrorIntact env selected (marked missingConfig) "0" := by
  decide +kernel

end SmallRepair

end Kyneto
