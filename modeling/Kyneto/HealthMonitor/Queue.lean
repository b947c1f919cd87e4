import Kyneto.HealthMonitor.Silence

/-!
# Does every lost shard get one entry in the repair queue?

A confirmed loss is three statements: the insertion into `repair_queue`, the update of `shards`, the deletion of the
report. `triggerRepair` catches the error of the first, and the second runs all the same: the shard is given up and
nobody will repair it. If the second fails, the report stays, and the next pass inserts another entry. And two passes
can go by the same report.

`queued_run` says that without these every shard that is marked as lost has been put into the queue, and only once
while it was active. The invariant is `QueuedOnce`: a shard with an entry is active only as long as the pass that
inserted it is about to mark it.
-/

namespace Kyneto

open Evm Sql

/-! ## What is promised -/

/-- A deal, a provider and a shard index. -/
abbrev ShardId := String × String × Nat

def Candidate.shard (c : Candidate) : ShardId := (c.dealId, c.providerAddress, c.shardIndex)
def ShardRow.shard (r : ShardRow) : ShardId := (r.dealId, r.providerAddress, r.shardIndex)

/-- The loss that a pass has confirmed, and whether it is past `triggerRepair`. -/
def MonitorPass.loss : MonitorPass → Option (Candidate × Bool)
  | .checking _ (some (c, .queueing _)) => some (c, false)
  | .checking _ (some (c, .marking _)) => some (c, true)
  | _ => none

namespace HealthMonitor

def activeShard (s : HealthMonitor) (t : ShardId) : Prop := ∃ r ∈ s.db.shards, r.shard = t ∧ r.active = true

instance (s : HealthMonitor) (t : ShardId) : Decidable (s.activeShard t) :=
  inferInstanceAs (Decidable (∃ r ∈ s.db.shards, _))

def loss (s : HealthMonitor) (i : Nat) : Option (Candidate × Bool) := s.passes[i]?.bind MonitorPass.loss

end HealthMonitor

/-- The step inserts an entry for the shard. -/
def Queues (t : ShardId) (e : MonitorEntry) : Prop := ∃ c, .queued c ∈ e.logs ∧ c.shard = t

/-- The step sets the row inactive, as a loss. -/
def MarksLost (r : ShardRow) (e : MonitorEntry) : Prop :=
  r ∈ e.pre.db.shards ∧ r.active = true ∧
    ∃ c, .marked c ∈ e.logs ∧ c.dealId = r.dealId ∧ c.providerAddress = r.providerAddress

def Reactivates (t : ShardId) (e : MonitorEntry) : Prop := ¬ e.pre.activeShard t ∧ e.post.activeShard t

/-- Since every entry for the shard, it has been activated again. -/
def Renewed (t : ShardId) (hist : List MonitorEntry) : Prop :=
  ∀ early e late, hist = early ++ e :: late → Queues t e → ∃ e' ∈ late, Reactivates t e'

/-- **No lost shard without a repair**: a row is set inactive only if an entry for its shard has been inserted, a pass
that has confirmed a loss inserts an entry before it goes on, and between two entries for a shard it was activated
again. -/
structure OneEntryPerLoss (hist : List MonitorEntry) : Prop where
  inserted : ∀ before e, before ++ [e] <+: hist → ∀ r, MarksLost r e → ∃ e' ∈ before, Queues r.shard e'
  every : ∀ e ∈ hist, ∀ i c, e.pre.loss i = some (c, false) → e.post.loss i ≠ some (c, false) → .queued c ∈ e.logs
  once : ∀ before e, before ++ [e] <+: hist → ∀ t, Queues t e → Renewed t before

/-! ## When it is kept -/

/-- The insertion into the queue and the update of the shards do not fail. When a pass confirms a loss, the shard is
active, and no pass is at a confirmed loss of the same shard. When the shards are updated, the row of the provider still
has the index of the loss. -/
def CarefulQueue (s : HealthMonitor) (a : MonitorAction) : Prop :=
  match a.event with
  | .queuesNot _ => False
  | .fails i => s.loss i = none
  | .decides i => ∀ p ∈ s.passes[i]?, ∀ x ∈ p.lookedUp, x.2.reportedAt + LOSS_COOLDOWN < a.now →
    s.activeShard x.1.shard ∧ ∀ q ∈ s.passes, ∀ y ∈ q.loss, y.1.shard ≠ x.1.shard
  | .marks i => ∀ x ∈ s.loss i, ∀ r ∈ s.db.shards, r.dealId = x.1.dealId → r.providerAddress = x.1.providerAddress →
    r.active = true → r.shardIndex = x.1.shardIndex
  | _ => True

instance (s : HealthMonitor) (a : MonitorAction) : Decidable (CarefulQueue s a) :=
  match a with
  | ⟨_, .queuesNot _⟩ => inferInstanceAs (Decidable False)
  | ⟨_, .fails i⟩ => inferInstanceAs (Decidable (s.loss i = none))
  | ⟨now, .decides i⟩ => inferInstanceAs (Decidable
      (∀ p ∈ s.passes[i]?, ∀ x ∈ p.lookedUp, x.2.reportedAt + LOSS_COOLDOWN < now →
        s.activeShard x.1.shard ∧ ∀ q ∈ s.passes, ∀ y ∈ q.loss, y.1.shard ≠ x.1.shard))
  | ⟨_, .marks i⟩ => inferInstanceAs (Decidable
      (∀ x ∈ s.loss i, ∀ r ∈ s.db.shards, r.dealId = x.1.dealId → r.providerAddress = x.1.providerAddress →
        r.active = true → r.shardIndex = x.1.shardIndex))
  | ⟨_, .posts _⟩ | ⟨_, .records _⟩ | ⟨_, .clears _⟩ | ⟨_, .clearsNot _⟩ | ⟨_, .passStarts⟩ | ⟨_, .passResumes _⟩
  | ⟨_, .looksUp _⟩ | ⟨_, .reports _⟩ | ⟨_, .queues _⟩ | ⟨_, .clearsReport _⟩
  | ⟨_, .othersWrite _⟩ => inferInstanceAs (Decidable True)

/-! ## What a step does -/

section Steps

variable {s s' : HealthMonitor} {a : MonitorAction} {logs : List MonitorLog} {i : Nat}

/-- What a careful step can do to confirmed losses. -/
inductive QueueEffect (s : HealthMonitor) (logs : List MonitorLog) (s' : HealthMonitor) : Prop
  | rests (heartbeats : ∀ l ∈ logs, ∃ address, l = .heartbeat address) (losses : ∀ j, s'.loss j = s.loss j)
  | confirms (i : Nat) (c : Candidate) (nothing : logs = []) (active : s.activeShard c.shard)
      (alone : ∀ j x, s.loss j = some x → x.1.shard ≠ c.shard)
      (losses : ∀ j, s'.loss j = if j = i then some (c, false) else s.loss j) (before : s.loss i = none)
      (shards : s'.db.shards = s.db.shards)
  | queues (i : Nat) (c : Candidate) (logged : logs = [.queued c]) (before : s.loss i = some (c, false))
      (losses : ∀ j, s'.loss j = if j = i then some (c, true) else s.loss j) (shards : s'.db.shards = s.db.shards)
  | marks (i : Nat) (c : Candidate) (logged : logs = [.marked c]) (before : s.loss i = some (c, true))
      (losses : ∀ j, s'.loss j = if j = i then none else s.loss j)
      (row : ∀ r ∈ s.db.shards, r.dealId = c.dealId → r.providerAddress = c.providerAddress → r.active = true →
        r.shard = c.shard)
      (shards : ∀ t, s'.activeShard t → s.activeShard t ∧ t ≠ c.shard)

/-- Only the pass that moves on changes what it has to report. -/
theorem loss_setPass {p p' : MonitorPass} {passes : List MonitorPass} (h : s.passes[i]? = some p)
    (hpasses : passes = s.passes.set i p') (j : Nat) :
    (passes[j]?.bind MonitorPass.loss) = if j = i then p'.loss else s.loss j := by
  subst hpasses
  split
  · next hj =>
    subst hj
    rw [List.getElem?_set_self (List.getElem?_eq_some_iff.mp h).1]
    rfl
  · next hj =>
    rw [List.getElem?_set_ne (Ne.symm hj)]
    rfl

/-- A pass moves on without a confirmed loss, before and after. -/
theorem QueueEffect.of_pass {p p' : MonitorPass} (h : s.passes[i]? = some p)
    (hpasses : s'.passes = s.passes.set i p') (hp : p.loss = none) (hp' : p'.loss = none) :
    QueueEffect s [] s' := by
  refine .rests (by simp) fun j => ?_
  have hj := loss_setPass h hpasses j
  unfold HealthMonitor.loss at hj ⊢
  rw [hj]
  split
  · next hj =>
    subst hj
    rw [h, hp']
    exact hp.symm
  · rfl

theorem QueueEffect.of_passes (hlogs : ∀ l ∈ logs, ∃ address, l = .heartbeat address)
    (hpasses : s'.passes = s.passes) : QueueEffect s logs s' := by
  refine .rests hlogs fun j => ?_
  unfold HealthMonitor.loss
  rw [hpasses]

/-- The shards after an update of all rows of a deal and a provider. -/
theorem activeShard_markLost {c : Candidate} {now : Nat} {t : ShardId}
    (hs' : s'.db.shards = (HealthMonitor.markLost s.db now c.dealId c.providerAddress).shards)
    (h : s'.activeShard t) : s.activeShard t ∧ t ≠ c.shard := by
  obtain ⟨r, hr, hshard, hactive⟩ := h
  rw [hs'] at hr
  obtain ⟨r₀, hr₀, hset⟩ := mem_update.mp hr
  split at hset
  · next hcond =>
    subst hset
    cases hactive
  · next hcond =>
    subst hset
    refine ⟨⟨r₀, hr₀, hshard, hactive⟩, fun ht => hcond ?_⟩
    have heq : r₀.shard = c.shard := hshard.trans ht
    simp only [ShardRow.shard, Candidate.shard, Prod.mk.injEq] at heq
    simp [heq.1, heq.2.1]

/-- What a careful step does to the queue, one case for each step. -/
theorem queue_effect (hcareful : CarefulQueue s a) (h : s.step a = .ok (s', logs)) : QueueEffect s logs s' := by
  cases hevent : a.event with
  | posts address =>
    simp only [HealthMonitor.step, hevent, Except.ok.injEq, Prod.mk.injEq] at h
    obtain ⟨rfl, rfl⟩ := h
    exact .of_passes (by simp) rfl
  | records address =>
    simp only [HealthMonitor.step, hevent, Except.ok.injEq, Prod.mk.injEq] at h
    obtain ⟨rfl, rfl⟩ := h
    refine .of_passes (fun l hl => ?_) rfl
    -- only a heartbeat of a provider with a row is worth a record
    split at hl
    · exact ⟨address, List.mem_singleton.mp hl⟩
    · cases hl
  | clears j =>
    simp only [HealthMonitor.step, hevent] at h
    split at h
    · obtain ⟨rfl, rfl⟩ := Prod.mk.inj (Except.ok.inj h)
      exact .of_passes (by simp) rfl
    · cases h
  | clearsNot j =>
    simp only [HealthMonitor.step, hevent, Except.ok.injEq, Prod.mk.injEq] at h
    obtain ⟨rfl, rfl⟩ := h
    exact .of_passes (by simp) rfl
  | passStarts =>
    simp only [HealthMonitor.step, hevent, Except.ok.injEq, Prod.mk.injEq] at h
    obtain ⟨rfl, rfl⟩ := h
    refine .rests (by simp) fun j => ?_
    show ((s.passes ++ [MonitorPass.selected (candidates s.db)])[j]?.bind MonitorPass.loss) = s.loss j
    rcases lt_or_ge j s.passes.length with hj | hj
    · rw [List.getElem?_append_left hj]
      rfl
    · -- the new pass has confirmed nothing
      unfold HealthMonitor.loss
      rw [List.getElem?_append_right hj, List.getElem?_eq_none hj]
      cases j - s.passes.length with
      | zero => rfl
      | succ n => rfl
  | passResumes i | looksUp i | reports i | clearsReport i =>
    simp only [HealthMonitor.step, hevent] at h
    split at h
    · next hpass =>
      obtain ⟨rfl, rfl⟩ := Prod.mk.inj (Except.ok.inj h)
      exact .of_pass hpass rfl rfl rfl
    · cases h
  | decides i =>
    simp only [HealthMonitor.step, hevent] at h
    split at h
    · next todo c r hpass =>
      split at h
      · next hlate =>
        obtain ⟨rfl, rfl⟩ := Prod.mk.inj (Except.ok.inj h)
        simp only [CarefulQueue, hevent] at hcareful
        -- careful: the shard is still active, and no other pass has its loss
        obtain ⟨hactive, halone⟩ := hcareful _ hpass (c, r) rfl hlate
        refine .confirms i c rfl hactive ?_ (loss_setPass hpass rfl) ?_ rfl
        · intro j x hx
          obtain ⟨q, hq, hloss⟩ := Option.bind_eq_some_iff.mp hx
          exact halone q (List.mem_of_getElem? hq) x hloss
        · unfold HealthMonitor.loss
          rw [hpass]
          rfl
      · obtain ⟨rfl, rfl⟩ := Prod.mk.inj (Except.ok.inj h)
        exact .of_pass hpass rfl rfl rfl
    · next hpass =>
      obtain ⟨rfl, rfl⟩ := Prod.mk.inj (Except.ok.inj h)
      exact .of_pass hpass rfl rfl rfl
    · cases h
  | queues i =>
    simp only [HealthMonitor.step, hevent] at h
    split at h
    · next todo c r hpass =>
      obtain ⟨rfl, rfl⟩ := Prod.mk.inj (Except.ok.inj h)
      refine .queues i c rfl ?_ (loss_setPass hpass rfl) rfl
      unfold HealthMonitor.loss
      rw [hpass]
      rfl
    · cases h
  | queuesNot i =>
    -- a careful pass does not lose the entry
    simp only [CarefulQueue, hevent] at hcareful
  | marks i =>
    simp only [HealthMonitor.step, hevent] at h
    split at h
    · next todo c r hpass =>
      obtain ⟨rfl, rfl⟩ := Prod.mk.inj (Except.ok.inj h)
      have hloss : s.loss i = some (c, true) := by
        unfold HealthMonitor.loss
        rw [hpass]
        rfl
      refine .marks i c rfl hloss (loss_setPass hpass rfl) ?_ fun t => activeShard_markLost rfl
      -- careful: there is no other active shard of the provider in the deal, so only this one is marked
      intro row hrow hdeal hprovider hactive
      simp only [CarefulQueue, hevent] at hcareful
      have hindex := hcareful _ hloss row hrow hdeal hprovider hactive
      simp only [ShardRow.shard, Candidate.shard, hdeal, hprovider, hindex]
    · cases h
  | fails i =>
    simp only [CarefulQueue, hevent] at hcareful
    simp only [HealthMonitor.step, hevent] at h
    split at h
    · next hpass =>
      obtain ⟨rfl, rfl⟩ := Prod.mk.inj (Except.ok.inj h)
      exact .of_pass hpass rfl rfl rfl
    · next hpass =>
      obtain ⟨rfl, rfl⟩ := Prod.mk.inj (Except.ok.inj h)
      exact .of_pass hpass rfl rfl rfl
    · next hpass =>
      -- a failure while marking would leave the loss confirmed, which a careful step excludes
      unfold HealthMonitor.loss at hcareful
      rw [hpass] at hcareful
      cases hcareful
    · next hpass =>
      obtain ⟨rfl, rfl⟩ := Prod.mk.inj (Except.ok.inj h)
      exact .of_pass hpass rfl rfl rfl
    · cases h
  | othersWrite db =>
    simp only [HealthMonitor.step, hevent, bind_eq_ok, pure_eq_ok, Prod.mk.injEq] at h
    obtain ⟨_, -, rfl, rfl⟩ := h
    exact .of_passes (by simp) rfl

end Steps

/-! ## Runs -/

section Histories

variable {hist : List MonitorEntry} {e : MonitorEntry} {t : ShardId}

theorem renewed_iff : Renewed t hist ↔ ¬ Since (Queues t) (Reactivates t) hist := by
  unfold Renewed Since
  push Not
  rfl

theorem renewedShard_snoc : Renewed t (hist ++ [e]) ↔ ¬ Queues t e ∧ (Reactivates t e ∨ Renewed t hist) := by
  rw [renewed_iff, renewed_iff, since_snoc]
  tauto

theorem OneEntryPerLoss.snoc (h : OneEntryPerLoss hist)
    (hinserted : ∀ r, MarksLost r e → ∃ e' ∈ hist, Queues r.shard e')
    (hevery : ∀ i c, e.pre.loss i = some (c, false) → e.post.loss i ≠ some (c, false) → .queued c ∈ e.logs)
    (honce : ∀ t, Queues t e → Renewed t hist) : OneEntryPerLoss (hist ++ [e]) := by
  refine ⟨forall_prefix_snoc.mpr ⟨h.inserted, hinserted⟩, fun x hx => ?_, forall_prefix_snoc.mpr ⟨h.once, honce⟩⟩
  rcases List.mem_append.mp hx with hx | hx
  · exact h.every x hx
  · obtain rfl := List.mem_singleton.mp hx
    exact hevery

end Histories

/-- What is true in every careful run. -/
structure QueuedOnce (s : HealthMonitor) (hist : List MonitorEntry) : Prop where
  promise : OneEntryPerLoss hist
  queued : ∀ i c, s.loss i = some (c, true) → ∃ e ∈ hist, Queues c.shard e
  renewed : ∀ i c, s.loss i = some (c, false) → Renewed c.shard hist
  alone : ∀ i j x y, s.loss i = some x → s.loss j = some y → x.1.shard = y.1.shard → i = j
  active : ∀ t, s.activeShard t → (∀ i c, s.loss i = some (c, true) → c.shard ≠ t) → Renewed t hist

section Runs

variable {s s' : HealthMonitor} {a : MonitorAction} {logs : List MonitorLog} {hist : List MonitorEntry}

/-- The entries of a step that inserts none. -/
theorem not_queues (h : ∀ c, .queued c ∉ logs) (t : ShardId) : ¬ Queues t ⟨s, a, logs, s'⟩ := by
  rintro ⟨c, hc, -⟩
  exact h c hc

theorem not_marksLost (h : ∀ c, .marked c ∉ logs) (r : ShardRow) : ¬ MarksLost r ⟨s, a, logs, s'⟩ := by
  rintro ⟨-, -, c, hc, -⟩
  exact h c hc

/-- An active shard was active before, or has been activated. -/
theorem renewed_of_active {t : ShardId} (hnot : ¬ Queues t ⟨s, a, logs, s'⟩) (hactive : s'.activeShard t)
    (h : s.activeShard t → Renewed t hist) : Renewed t (hist ++ [⟨s, a, logs, s'⟩]) := by
  refine renewedShard_snoc.mpr ⟨hnot, ?_⟩
  by_cases hbefore : s.activeShard t
  · exact Or.inr (h hbefore)
  · exact Or.inl ⟨hbefore, hactive⟩

theorem Renewed.snoc {t : ShardId} (h : Renewed t hist) (hnot : ¬ Queues t ⟨s, a, logs, s'⟩) :
    Renewed t (hist ++ [⟨s, a, logs, s'⟩]) := renewedShard_snoc.mpr ⟨hnot, Or.inr h⟩

/-- Nothing happens to a confirmed loss. -/
theorem QueuedOnce.rests (h : QueuedOnce s hist) (heartbeats : ∀ l ∈ logs, ∃ address, l = .heartbeat address)
    (losses : ∀ j, s'.loss j = s.loss j) : QueuedOnce s' (hist ++ [⟨s, a, logs, s'⟩]) := by
  have hqueued : ∀ c, .queued c ∉ logs := by
    intro c hc
    obtain ⟨_, heq⟩ := heartbeats _ hc
    cases heq
  have hmarked : ∀ c, .marked c ∉ logs := by
    intro c hc
    obtain ⟨_, heq⟩ := heartbeats _ hc
    cases heq
  refine ⟨h.promise.snoc ?_ ?_ ?_, ?_, ?_, ?_, ?_⟩
  · exact fun r hr => absurd hr (not_marksLost hmarked r)
  · exact fun i c hbefore hafter => absurd ((losses i).trans hbefore) hafter
  · exact fun t ht => absurd ht (not_queues hqueued t)
  · intro i c hi
    obtain ⟨e, he, hq⟩ := h.queued i c (by rw [← losses]; exact hi)
    exact ⟨e, List.mem_append_left _ he, hq⟩
  · intro i c hi
    exact (h.renewed i c (by rw [← losses]; exact hi)).snoc (not_queues hqueued _)
  · intro i j x y hx hy
    rw [losses] at hx hy
    exact h.alone i j x y hx hy
  · intro t hactive hnone
    refine renewed_of_active (not_queues hqueued t) hactive fun hbefore => h.active t hbefore fun i c hi => ?_
    exact hnone i c (by rw [losses]; exact hi)

/-- A pass confirms a loss of an active shard that no other pass is at. -/
theorem QueuedOnce.confirms {i : Nat} {c : Candidate} (h : QueuedOnce s hist) (active : s.activeShard c.shard)
    (alone : ∀ j x, s.loss j = some x → x.1.shard ≠ c.shard)
    (losses : ∀ j, s'.loss j = if j = i then some (c, false) else s.loss j) (before : s.loss i = none)
    (shards : s'.db.shards = s.db.shards) : QueuedOnce s' (hist ++ [⟨s, a, [], s'⟩]) := by
  have hsame : ∀ t, s'.activeShard t ↔ s.activeShard t := by
    intro t
    unfold HealthMonitor.activeShard
    rw [shards]
  have hmarking : ∀ j c', s'.loss j = some (c', true) ↔ s.loss j = some (c', true) := by
    intro j c'
    rw [losses]
    split
    · next hj => simp [hj, before]
    · exact Iff.rfl
  refine ⟨h.promise.snoc ?_ ?_ ?_, ?_, ?_, ?_, ?_⟩
  · exact fun r hr => absurd hr (not_marksLost (by simp) r)
  · intro j c' hbefore hafter
    refine absurd ?_ hafter
    show s'.loss j = some (c', false)
    rw [losses, if_neg, hbefore]
    rintro rfl
    rw [before] at hbefore
    cases hbefore
  · exact fun t ht => absurd ht (not_queues (by simp) t)
  · intro j c' hj
    obtain ⟨e, he, hq⟩ := h.queued j c' ((hmarking j c').mp hj)
    exact ⟨e, List.mem_append_left _ he, hq⟩
  · intro j c' hj
    refine Renewed.snoc ?_ (not_queues (by simp) _)
    rw [losses] at hj
    split at hj
    · -- nobody else is at the shard, so it has been activated since its last entry
      obtain rfl : c = c' := congrArg Prod.fst (Option.some.inj hj)
      exact h.active _ active fun k c'' hk => alone k _ hk
    · exact h.renewed j c' hj
  · intro j k x y hx hy hxy
    rw [losses] at hx hy
    split at hx
    · next hj =>
      obtain rfl := Option.some.inj hx
      split at hy
      · next hk => exact hj.trans hk.symm
      · exact absurd hxy.symm (alone k y hy)
    · split at hy
      · obtain rfl := Option.some.inj hy
        exact absurd hxy (alone j x hx)
      · exact h.alone j k x y hx hy hxy
  · intro t hactive hnone
    refine (h.active t ((hsame t).mp hactive) fun j c' hj => ?_).snoc (not_queues (by simp) t)
    exact hnone j c' ((hmarking j c').mpr hj)

/-- The entry for a confirmed loss is inserted. -/
theorem QueuedOnce.queues {i : Nat} {c : Candidate} (h : QueuedOnce s hist) (before : s.loss i = some (c, false))
    (losses : ∀ j, s'.loss j = if j = i then some (c, true) else s.loss j) (shards : s'.db.shards = s.db.shards) :
    QueuedOnce s' (hist ++ [⟨s, a, [.queued c], s'⟩]) := by
  have hrenewed := h.renewed i c before
  -- one entry is written, for this loss
  have hother : ∀ t, t ≠ c.shard → ¬ Queues t ⟨s, a, [.queued c], s'⟩ := by
    rintro t ht ⟨c', hc', rfl⟩
    obtain rfl := MonitorLog.queued.inj (List.mem_singleton.mp hc')
    exact ht rfl
  have hsame : ∀ t, s'.activeShard t ↔ s.activeShard t := by
    intro t
    unfold HealthMonitor.activeShard
    rw [shards]
  refine ⟨h.promise.snoc ?_ ?_ ?_, ?_, ?_, ?_, ?_⟩
  · exact fun r hr => absurd hr (not_marksLost (by simp) r)
  -- the pass has the loss still in hand, now as queued
  · intro j c' hbefore hafter
    by_cases hj : j = i
    · subst hj
      rw [show s.loss j = some (c', false) from hbefore] at before
      obtain rfl : c' = c := congrArg Prod.fst (Option.some.inj before)
      exact List.mem_singleton_self _
    · refine absurd ?_ hafter
      show s'.loss j = some (c', false)
      rw [losses, if_neg hj]
      exact hbefore
  -- the shard has been active again since its last entry
  · rintro t ⟨c', hc', rfl⟩
    obtain rfl := MonitorLog.queued.inj (List.mem_singleton.mp hc')
    exact hrenewed
  · intro j c' hj
    rw [losses] at hj
    split at hj
    · obtain rfl : c = c' := congrArg Prod.fst (Option.some.inj hj)
      exact ⟨_, List.mem_append_right _ (List.mem_singleton_self _), c, List.mem_singleton_self _, rfl⟩
    · obtain ⟨e, he, hq⟩ := h.queued j c' hj
      exact ⟨e, List.mem_append_left _ he, hq⟩
  -- other losses that are confirmed are of other shards
  · intro j c' hj
    rw [losses] at hj
    split at hj
    · cases hj
    · next hne =>
      refine (h.renewed j c' hj).snoc (hother _ fun hshard => hne ?_)
      exact h.alone j i _ _ hj before hshard
  · intro j k x y hx hy hxy
    -- the pass at `i` had the same shard before
    have hback : ∀ j x, s'.loss j = some x → ∃ x', s.loss j = some x' ∧ x'.1 = x.1 := by
      intro j x hx
      rw [losses] at hx
      split at hx
      · next hj =>
        subst hj
        obtain rfl := Option.some.inj hx
        exact ⟨_, before, rfl⟩
      · exact ⟨x, hx, rfl⟩
    obtain ⟨x', hx', hxx'⟩ := hback j x hx
    obtain ⟨y', hy', hyy'⟩ := hback k y hy
    exact h.alone j k x' y' hx' hy' (by rw [hxx', hyy', hxy])
  -- as long as some pass has the loss, nothing is asked of its shard
  · intro t hactive hnone
    have hne : t ≠ c.shard := fun ht => hnone i c (by rw [losses, if_pos rfl]) ht.symm
    refine (h.active t ((hsame t).mp hactive) fun j c' hj => ?_).snoc (hother t hne)
    by_cases hji : j = i
    · subst hji
      rw [before] at hj
      cases hj
    · exact hnone j c' (by rw [losses, if_neg hji]; exact hj)

/-- The shards of a confirmed loss are set inactive. -/
theorem QueuedOnce.marks {i : Nat} {c : Candidate} (h : QueuedOnce s hist) (before : s.loss i = some (c, true))
    (losses : ∀ j, s'.loss j = if j = i then none else s.loss j)
    (row : ∀ r ∈ s.db.shards, r.dealId = c.dealId → r.providerAddress = c.providerAddress → r.active = true →
      r.shard = c.shard)
    (shards : ∀ t, s'.activeShard t → s.activeShard t ∧ t ≠ c.shard) :
    QueuedOnce s' (hist ++ [⟨s, a, [.marked c], s'⟩]) := by
  have hkept : ∀ j x, s'.loss j = some x → s.loss j = some x := by
    intro j x hx
    rw [losses] at hx
    split at hx
    · cases hx
    · exact hx
  refine ⟨h.promise.snoc ?_ ?_ ?_, ?_, ?_, ?_, ?_⟩
  · rintro r ⟨hr, hactive, c', hc', hdeal, hprovider⟩
    obtain rfl := MonitorLog.marked.inj (List.mem_singleton.mp hc')
    rw [row r hr hdeal.symm hprovider.symm hactive]
    exact h.queued i c' before
  · intro j c' hbefore hafter
    refine absurd ?_ hafter
    show s'.loss j = some (c', false)
    rw [losses, if_neg]
    · exact hbefore
    · rintro rfl
      rw [show s.loss j = some (c', false) from hbefore] at before
      cases before
  · exact fun t ht => absurd ht (not_queues (by simp) t)
  · intro j c' hj
    obtain ⟨e, he, hq⟩ := h.queued j c' (hkept j _ hj)
    exact ⟨e, List.mem_append_left _ he, hq⟩
  · exact fun j c' hj => (h.renewed j c' (hkept j _ hj)).snoc (not_queues (by simp) _)
  · exact fun j k x y hx hy => h.alone j k x y (hkept j x hx) (hkept k y hy)
  · intro t hactive hnone
    obtain ⟨hbefore, hne⟩ := shards t hactive
    refine (h.active t hbefore fun j c' hj => ?_).snoc (not_queues (by simp) t)
    by_cases hji : j = i
    · subst hji
      rw [before] at hj
      obtain rfl : c = c' := congrArg Prod.fst (Option.some.inj hj)
      exact fun ht => hne ht.symm
    · exact hnone j c' (by rw [losses, if_neg hji]; exact hj)

/-- A careful step queues a loss at most once. -/
theorem queuedOnce_step (h : QueuedOnce s hist) (hcareful : CarefulQueue s a) (hstep : s.step a = .ok (s', logs)) :
    QueuedOnce s' (hist ++ [⟨s, a, logs, s'⟩]) := by
  cases queue_effect hcareful hstep with
  | rests heartbeats losses => exact h.rests heartbeats losses
  | confirms i c nothing active alone losses before shards =>
    subst nothing
    exact h.confirms active alone losses before shards
  | queues i c logged before losses shards =>
    subst logged
    exact h.queues before losses shards
  | marks i c logged before losses row shards =>
    subst logged
    exact h.marks before losses row shards

/-- **No lost shard without a repair**, in every interleaving of passes, heartbeats and other services, from a database
of any content and with any statement failing, whose steps are careful. -/
theorem queued_run (db : Database) (as : List MonitorAction)
    (hcareful : Meets HealthMonitor.step CarefulQueue { db } as) :
    OneEntryPerLoss (history HealthMonitor.step { db } as) := by
  refine (run_induction (P := QueuedOnce) ?_ ?_ as hcareful).promise
  · refine ⟨⟨forall_prefix_nil, ?_, forall_prefix_nil⟩, ?_, ?_, ?_, ?_⟩
    · simp
    · simp [HealthMonitor.loss]
    · simp [HealthMonitor.loss]
    · simp [HealthMonitor.loss]
    · intro t _ _ early e late heq
      exact absurd heq (by simp)
  · intro s hist a s' logs h ha hstep
    exact queuedOnce_step h ha hstep

end Runs

/-! ### An insertion that fails -/

namespace SmallMonitor

/-- As in `longOutage`, but the insertion into the queue fails. -/
def notQueued : List MonitorAction :=
  [⟨10000, .posts "0xAB"⟩] ++ looks 0 80000 ++ [⟨80000, .reports 0⟩] ++ looks 1 410000 ++
    [⟨410000, .queuesNot 1⟩, ⟨410000, .marks 1⟩, ⟨410000, .clearsReport 1⟩]

theorem longOutage_queued :
    (run HealthMonitor.step { db } longOutage).db.repairQueue.length = 1 ∧
      OneEntryPerLoss (history HealthMonitor.step { db } longOutage) :=
  ⟨by decide +kernel, queued_run db longOutage ((meets_iff_history _ _).mpr (by decide +kernel))⟩

/-- The shard is given up without an entry. -/
theorem notQueued_lost :
    (run HealthMonitor.step { db } notQueued).db.shards = [{ shard with active := false, lostAt := some 410000 }] ∧
      (run HealthMonitor.step { db } notQueued).db.repairQueue = [] ∧
      ¬ OneEntryPerLoss (history HealthMonitor.step { db } notQueued) := by
  refine ⟨by decide +kernel, by decide +kernel, fun hone => ?_⟩
  have hevery := fun e he => hone.every e he 1 ⟨"0xab", "0", 0, "QmShard", some 10000⟩
  exact absurd hevery (by decide +kernel)

end SmallMonitor

end Kyneto
