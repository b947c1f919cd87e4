import Kyneto.HealthMonitor.Basic

/-!
# Are shards only given up after five minutes of silence?

A pass goes by the report it has looked up. `POST /api/heartbeat` leaves the reports of a provider in place, so after
a recovery the old report is still there, and the next short outage confirms it at once. And whatever arrives after
the look-up is not seen any more. `silence_run` says that without these two a shard is given up only if its provider
has been silent for five minutes.

The invariant is `Watched`: the last heartbeats in the table are at least as late as those received, and a pass that
has confirmed a loss goes by a report that no heartbeat is later than.
-/

namespace Kyneto

open Evm Sql

/-! ## What is promised, and when -/

abbrev MonitorEntry := Entry HealthMonitor MonitorAction MonitorLog

/-- The shard that a statement gives up. -/
def MonitorLog.givesUp : MonitorLog → Option Candidate
  | .queued c | .marked c => some c
  | .heartbeat _ => none

/-- If the second statement gives up a shard, and the first recorded a heartbeat of its provider, that was more than
five minutes ago. -/
def Silent (e' e : MonitorEntry) : Prop :=
  ∀ l ∈ e.logs, ∀ c ∈ l.givesUp, .heartbeat c.providerAddress ∈ e'.logs → e'.act.now + LOSS_COOLDOWN < e.act.now

instance (e' e : MonitorEntry) : Decidable (Silent e' e) :=
  inferInstanceAs (Decidable (∀ l ∈ e.logs, ∀ c ∈ l.givesUp, _ → _))

/-- The loss that a pass has confirmed and is about to write down, with the report it goes by. -/
def MonitorPass.confirmed : MonitorPass → Option (Candidate × LossReport)
  | .checking _ (some (c, .queueing r)) | .checking _ (some (c, .marking r)) => some (c, r)
  | _ => none

/-- The report that a pass has looked up and not yet judged. -/
def MonitorPass.lookedUp : MonitorPass → Option (Candidate × LossReport)
  | .checking _ (some (c, .looked (some r))) => some (c, r)
  | _ => none

/-- No pass is about to write down a loss of the provider. -/
def NoneConfirmed (s : HealthMonitor) (address : String) : Prop :=
  ∀ p ∈ s.passes, ∀ x ∈ p.confirmed, x.1.providerAddress ≠ address

instance (s : HealthMonitor) (address : String) : Decidable (NoneConfirmed s address) :=
  inferInstanceAs (Decidable (∀ p ∈ s.passes, ∀ x ∈ p.confirmed, _))

/-- Heartbeats do not come between the confirmation of a loss and its statements, and a report that confirms a loss
is not older than the last heartbeat of the provider. -/
def UpToDate (s : HealthMonitor) (a : MonitorAction) : Prop :=
  match a.event with
  | .posts address => NoneConfirmed s address.toLower
  | .records address => NoneConfirmed s address
  | .decides i => ∀ p ∈ s.passes[i]?, ∀ x ∈ p.lookedUp, x.2.reportedAt + LOSS_COOLDOWN < a.now →
    ∀ row ∈ s.db.providers, row.address = x.1.providerAddress → ∀ h ∈ row.lastHeartbeat, h ≤ x.2.reportedAt
  | _ => True

instance (s : HealthMonitor) (a : MonitorAction) : Decidable (UpToDate s a) :=
  match a with
  | ⟨_, .posts address⟩ => inferInstanceAs (Decidable (NoneConfirmed s address.toLower))
  | ⟨_, .records address⟩ => inferInstanceAs (Decidable (NoneConfirmed s address))
  | ⟨now, .decides i⟩ => inferInstanceAs (Decidable
      (∀ p ∈ s.passes[i]?, ∀ x ∈ p.lookedUp, x.2.reportedAt + LOSS_COOLDOWN < now →
        ∀ row ∈ s.db.providers, row.address = x.1.providerAddress → ∀ h ∈ row.lastHeartbeat, h ≤ x.2.reportedAt))
  | ⟨_, .clears _⟩ | ⟨_, .clearsNot _⟩ | ⟨_, .passStarts⟩ | ⟨_, .passResumes _⟩ | ⟨_, .looksUp _⟩ | ⟨_, .reports _⟩
  | ⟨_, .queues _⟩ | ⟨_, .queuesNot _⟩ | ⟨_, .marks _⟩ | ⟨_, .clearsReport _⟩ | ⟨_, .fails _⟩
  | ⟨_, .othersWrite _⟩ => inferInstanceAs (Decidable True)

/-! ## What a step does -/

/-- Rows of providers stay, with their heartbeat or a new one. -/
def KeepsProviders (now : Nat) (db db' : Database) : Prop :=
  ∀ p ∈ db.providers, ∃ p' ∈ db'.providers, p'.address = p.address ∧
    (p'.lastHeartbeat = p.lastHeartbeat ∨ p'.lastHeartbeat = some now)

theorem KeepsProviders.of_eq {now : Nat} {db db' : Database} (h : db'.providers = db.providers) :
    KeepsProviders now db db' := by
  intro p hp
  exact ⟨p, h ▸ hp, rfl, Or.inl rfl⟩

/-- Every confirmed loss of `s'` is one of `s`. -/
def NoNewLoss (s s' : HealthMonitor) : Prop :=
  ∀ p' ∈ s'.passes, ∀ x ∈ p'.confirmed, ∃ p ∈ s.passes, x ∈ p.confirmed

theorem NoNewLoss.of_eq {s s' : HealthMonitor} (h : s'.passes = s.passes) : NoNewLoss s s' := by
  intro p' hp' x hx
  exact ⟨p', h ▸ hp', hx⟩

/-- A pass moves on, with the loss it had or none. -/
theorem NoNewLoss.of_set {s s' : HealthMonitor} {i : Nat} {p p' : MonitorPass}
    (hpasses : s'.passes = s.passes.set i p') (hp : s.passes[i]? = some p)
    (hconfirmed : ∀ x ∈ p'.confirmed, x ∈ p.confirmed) : NoNewLoss s s' := by
  intro q hq x hx
  rw [hpasses] at hq
  rcases List.mem_or_eq_of_mem_set hq with hq | rfl
  · exact ⟨q, hq, hx⟩
  · exact ⟨p, List.mem_of_getElem? hp, hconfirmed x hx⟩

/-- What a step can do to heartbeats and confirmed losses. -/
inductive MonitorEffect (s : HealthMonitor) (a : MonitorAction) (logs : List MonitorLog) (s' : HealthMonitor) : Prop
  | quiet (nothing : logs = []) (kept : KeepsProviders a.now s.db s'.db) (losses : NoNewLoss s s')
  | beats (address : String) (logged : logs = [.heartbeat address])
      (undisturbed : UpToDate s a → NoneConfirmed s address)
      (kept : KeepsProviders a.now s.db s'.db)
      (recorded : ∃ p ∈ s'.db.providers, p.address = address ∧ p.lastHeartbeat = some a.now)
      (losses : NoNewLoss s s')
  | confirms (c : Candidate) (r : LossReport) (nothing : logs = []) (late : r.reportedAt + LOSS_COOLDOWN < a.now)
      (fresh : UpToDate s a → ∀ row ∈ s.db.providers, row.address = c.providerAddress →
        ∀ h ∈ row.lastHeartbeat, h ≤ r.reportedAt)
      (kept : s'.db = s.db)
      (losses : ∀ p' ∈ s'.passes, ∀ x ∈ p'.confirmed, x = (c, r) ∨ ∃ p ∈ s.passes, x ∈ p.confirmed)
  | givesUp (c : Candidate) (r : LossReport) (logged : logs = [.queued c] ∨ logs = [.marked c])
      (confirmed : ∃ p ∈ s.passes, (c, r) ∈ p.confirmed)
      (kept : KeepsProviders a.now s.db s'.db) (losses : NoNewLoss s s')

section Steps

variable {s s' : HealthMonitor} {a : MonitorAction} {logs : List MonitorLog}

/-- A pass moves on to a point where it has confirmed no loss. -/
theorem MonitorEffect.of_idle {i : Nat} {p p' : MonitorPass} (hp : s.passes[i]? = some p)
    (hpasses : s'.passes = s.passes.set i p') (hproviders : s'.db.providers = s.db.providers)
    (hnone : p'.confirmed = none) : MonitorEffect s a [] s' := by
  refine .quiet rfl (.of_eq hproviders) (.of_set hpasses hp ?_)
  intro x hx
  rw [hnone] at hx
  cases hx

theorem keepsProviders_update {now : Nat} {db : Database} {cond : ProviderRow → Bool} {set : ProviderRow → ProviderRow}
    {db' : Database} (hdb : db'.providers = update cond set db.providers)
    (hset : ∀ p, (set p).address = p.address ∧ (set p).lastHeartbeat = some now) : KeepsProviders now db db' := by
  intro p hp
  refine ⟨if cond p then set p else p, ?_, ?_⟩
  · rw [hdb]
    exact mem_update.mpr ⟨p, hp, rfl⟩
  · split
    · exact ⟨(hset p).1, Or.inr (hset p).2⟩
    · exact ⟨rfl, Or.inl rfl⟩

/-- A heartbeat sets the time of its own row, and keeps all others. -/
theorem postHeartbeat_effect (db : Database) (now : Nat) (address : String) :
    KeepsProviders now db (HealthMonitor.postHeartbeat db now address) ∧
      ∃ p ∈ (HealthMonitor.postHeartbeat db now address).providers,
        p.address = address.toLower ∧ p.lastHeartbeat = some now := by
  -- the UPSERT inserts a row, or updates the one with the address in small letters
  by_cases hnew : ∀ p ∈ db.providers, p.address ≠ address.toLower
  · have hrows : (HealthMonitor.postHeartbeat db now address).providers = db.providers ++
        [{ address := address.toLower, peerId := "pending", lastHeartbeat := some now }] := if_pos hnew
    constructor
    · intro p hp
      exact ⟨p, by rw [hrows]; exact List.mem_append_left _ hp, rfl, Or.inl rfl⟩
    · exact ⟨_, by rw [hrows]; exact List.mem_append_right _ (List.mem_singleton_self _), rfl, rfl⟩
  · have hrows : (HealthMonitor.postHeartbeat db now address).providers =
        update (fun p => p.address = address.toLower)
          (fun p => { p with lastHeartbeat := some now, active := true, peerId := "pending" }) db.providers :=
      if_neg hnew
    constructor
    · exact keepsProviders_update hrows fun p => ⟨rfl, rfl⟩
    · push Not at hnew
      obtain ⟨p, hp, haddress⟩ := hnew
      refine ⟨{ p with lastHeartbeat := some now, active := true, peerId := "pending" }, ?_, haddress, rfl⟩
      rw [hrows]
      exact mem_update.mpr ⟨p, hp, by simp [haddress]⟩

/-- What a step of the monitor can do, one case for each step. -/
theorem monitor_effect (h : s.step a = .ok (s', logs)) : MonitorEffect s a logs s' := by
  cases hevent : a.event with
  | posts address =>
    simp only [HealthMonitor.step, hevent, Except.ok.injEq, Prod.mk.injEq] at h
    obtain ⟨rfl, rfl⟩ := h
    obtain ⟨hkept, hrecorded⟩ := postHeartbeat_effect s.db a.now address
    exact .beats address.toLower rfl (fun hup => by simpa [UpToDate, hevent] using hup) hkept hrecorded (.of_eq rfl)
  | records address =>
    simp only [HealthMonitor.step, hevent, Except.ok.injEq, Prod.mk.injEq] at h
    obtain ⟨rfl, rfl⟩ := h
    have hkept : KeepsProviders a.now s.db (HealthMonitor.recordHeartbeat s.db a.now address) :=
      keepsProviders_update rfl fun p => ⟨rfl, rfl⟩
    -- the other route updates only the rows that are there already
    split
    · next hrow =>
      obtain ⟨p, hp, haddress⟩ := hrow
      refine .beats address rfl (fun hup => by simpa [UpToDate, hevent] using hup) hkept ?_ (.of_eq rfl)
      exact ⟨{ p with lastHeartbeat := some a.now }, mem_update.mpr ⟨p, hp, by simp [haddress]⟩, haddress, rfl⟩
    · exact .quiet rfl hkept (.of_eq rfl)
  | clears i =>
    simp only [HealthMonitor.step, hevent] at h
    split at h
    · obtain ⟨rfl, rfl⟩ := Prod.mk.inj (Except.ok.inj h)
      exact .quiet rfl (.of_eq rfl) (.of_eq rfl)
    · cases h
  | clearsNot i =>
    simp only [HealthMonitor.step, hevent, Except.ok.injEq, Prod.mk.injEq] at h
    obtain ⟨rfl, rfl⟩ := h
    exact .quiet rfl (.of_eq rfl) (.of_eq rfl)
  | passStarts =>
    simp only [HealthMonitor.step, hevent, Except.ok.injEq, Prod.mk.injEq] at h
    obtain ⟨rfl, rfl⟩ := h
    refine .quiet rfl (.of_eq rfl) ?_
    -- a pass that starts has confirmed nothing
    intro p hp x hx
    rcases List.mem_append.mp hp with hp | hp
    · exact ⟨p, hp, hx⟩
    · obtain rfl := List.mem_singleton.mp hp
      cases hx
  | passResumes i =>
    simp only [HealthMonitor.step, hevent] at h
    split at h
    · next hpass =>
      obtain ⟨rfl, rfl⟩ := Prod.mk.inj (Except.ok.inj h)
      exact .of_idle hpass rfl rfl rfl
    · cases h
  | looksUp i =>
    simp only [HealthMonitor.step, hevent] at h
    split at h
    · next hpass =>
      obtain ⟨rfl, rfl⟩ := Prod.mk.inj (Except.ok.inj h)
      exact .of_idle hpass rfl rfl rfl
    · cases h
  | decides i =>
    simp only [HealthMonitor.step, hevent] at h
    split at h
    -- there is a report, and it is old enough for the loss to be confirmed
    · next todo c r hpass =>
      split at h
      · next hlate =>
        obtain ⟨rfl, rfl⟩ := Prod.mk.inj (Except.ok.inj h)
        refine .confirms c r rfl hlate ?_ rfl ?_
        · intro hup
          simp only [UpToDate, hevent] at hup
          exact hup _ hpass (c, r) rfl hlate
        · intro p hp x hx
          -- the pass now holds the loss that it has just confirmed
          rcases List.mem_or_eq_of_mem_set hp with hp | rfl
          · exact Or.inr ⟨p, hp, hx⟩
          · exact Or.inl (Option.some.inj hx).symm
      · obtain ⟨rfl, rfl⟩ := Prod.mk.inj (Except.ok.inj h)
        exact .of_idle hpass rfl rfl rfl
    · next hpass =>
      obtain ⟨rfl, rfl⟩ := Prod.mk.inj (Except.ok.inj h)
      exact .of_idle hpass rfl rfl rfl
    · cases h
  | reports i =>
    simp only [HealthMonitor.step, hevent] at h
    split at h
    · next hpass =>
      obtain ⟨rfl, rfl⟩ := Prod.mk.inj (Except.ok.inj h)
      exact .of_idle hpass rfl rfl rfl
    · cases h
  | queues i =>
    simp only [HealthMonitor.step, hevent] at h
    split at h
    · next todo c r hpass =>
      obtain ⟨rfl, rfl⟩ := Prod.mk.inj (Except.ok.inj h)
      -- the entry of the queue is written once the loss has been confirmed
      exact .givesUp c r (Or.inl rfl) ⟨_, List.mem_of_getElem? hpass, rfl⟩ (.of_eq rfl)
        (.of_set rfl hpass fun x hx => hx)
    · cases h
  | queuesNot i =>
    simp only [HealthMonitor.step, hevent] at h
    split at h
    · next hpass =>
      obtain ⟨rfl, rfl⟩ := Prod.mk.inj (Except.ok.inj h)
      exact .quiet rfl (.of_eq rfl) (.of_set rfl hpass fun x hx => hx)
    · cases h
  | marks i =>
    simp only [HealthMonitor.step, hevent] at h
    split at h
    · next todo c r hpass =>
      obtain ⟨rfl, rfl⟩ := Prod.mk.inj (Except.ok.inj h)
      -- marking the shard as lost ends the business with the loss
      exact .givesUp c r (Or.inr rfl) ⟨_, List.mem_of_getElem? hpass, rfl⟩ (.of_eq rfl)
        (.of_set rfl hpass fun x hx => by cases hx)
    · cases h
  | clearsReport i =>
    simp only [HealthMonitor.step, hevent] at h
    split at h
    · next hpass =>
      obtain ⟨rfl, rfl⟩ := Prod.mk.inj (Except.ok.inj h)
      exact .of_idle hpass rfl rfl rfl
    · cases h
  | fails i =>
    simp only [HealthMonitor.step, hevent] at h
    split at h
    -- a failure in any of the four phases sends the pass to its next row
    · next hpass =>
      obtain ⟨rfl, rfl⟩ := Prod.mk.inj (Except.ok.inj h)
      exact .of_idle hpass rfl rfl rfl
    · next hpass =>
      obtain ⟨rfl, rfl⟩ := Prod.mk.inj (Except.ok.inj h)
      exact .of_idle hpass rfl rfl rfl
    · next hpass =>
      obtain ⟨rfl, rfl⟩ := Prod.mk.inj (Except.ok.inj h)
      exact .of_idle hpass rfl rfl rfl
    · next hpass =>
      obtain ⟨rfl, rfl⟩ := Prod.mk.inj (Except.ok.inj h)
      exact .of_idle hpass rfl rfl rfl
    · cases h
  | othersWrite db =>
    simp only [HealthMonitor.step, hevent, bind_eq_ok, require_eq_ok, pure_eq_ok, Prod.mk.injEq, exists_const] at h
    obtain ⟨⟨-, hkept⟩, rfl, rfl⟩ := h
    refine .quiet rfl ?_ (.of_eq rfl)
    intro p hp
    obtain ⟨p', hp', haddress, hsame⟩ := hkept p hp
    exact ⟨p', hp', haddress, Or.inl hsame⟩

end Steps

/-! ## Runs -/

/-- What is true in every run whose steps are up to date. -/
structure Watched (s : HealthMonitor) (hist : List MonitorEntry) (now : Nat) : Prop where
  past : ∀ e ∈ hist, e.act.now ≤ now
  heartbeats : ∀ e ∈ hist, ∀ address, .heartbeat address ∈ e.logs →
    ∃ p ∈ s.db.providers, p.address = address ∧ ∃ t ∈ p.lastHeartbeat, e.act.now ≤ t
  confirmed : ∀ p ∈ s.passes, ∀ x ∈ p.confirmed, x.2.reportedAt + LOSS_COOLDOWN < now ∧
    ∀ e ∈ hist, .heartbeat x.1.providerAddress ∈ e.logs → e.act.now ≤ x.2.reportedAt
  silent : hist.Pairwise Silent

section Runs

variable {s s' : HealthMonitor} {a : MonitorAction} {logs : List MonitorLog} {hist : List MonitorEntry}

theorem heartbeats_kept (h : Watched s hist a.now) (hkept : KeepsProviders a.now s.db s'.db) :
    ∀ e ∈ hist, ∀ address, .heartbeat address ∈ e.logs →
      ∃ p ∈ s'.db.providers, p.address = address ∧ ∃ t ∈ p.lastHeartbeat, e.act.now ≤ t := by
  intro e he address hlog
  obtain ⟨p, hp, haddress, t, ht, hle⟩ := h.heartbeats e he address hlog
  obtain ⟨p', hp', haddress', hsame | hnew⟩ := hkept p hp
  · exact ⟨p', hp', haddress'.trans haddress, t, hsame ▸ ht, hle⟩
  · exact ⟨p', hp', haddress'.trans haddress, a.now, hnew, h.past e he⟩

/-- One more step: `hlast` is what its heartbeat asks for, and `hsilent` what giving up a shard asks for. -/
theorem Watched.snoc (h : Watched s hist a.now) (hkept : KeepsProviders a.now s.db s'.db)
    (hlast : ∀ address, .heartbeat address ∈ logs →
      ∃ p ∈ s'.db.providers, p.address = address ∧ ∃ t ∈ p.lastHeartbeat, a.now ≤ t)
    (hconfirmed : ∀ p ∈ s'.passes, ∀ x ∈ p.confirmed, x.2.reportedAt + LOSS_COOLDOWN < a.now ∧
      (∀ e ∈ hist, .heartbeat x.1.providerAddress ∈ e.logs → e.act.now ≤ x.2.reportedAt) ∧
      .heartbeat x.1.providerAddress ∉ logs)
    (hsilent : ∀ e ∈ hist, Silent e ⟨s, a, logs, s'⟩) : Watched s' (hist ++ [⟨s, a, logs, s'⟩]) a.now := by
  have hsnoc : ∀ {P : MonitorEntry → Prop}, (∀ e ∈ hist, P e) → P ⟨s, a, logs, s'⟩ →
      ∀ e ∈ hist ++ [(⟨s, a, logs, s'⟩ : MonitorEntry)], P e := by
    intro P hold hnew e he
    rcases List.mem_append.mp he with he | he
    · exact hold e he
    · obtain rfl := List.mem_singleton.mp he
      exact hnew
  refine ⟨hsnoc h.past (Nat.le_refl _), hsnoc (heartbeats_kept h hkept) hlast, ?_, ?_⟩
  · intro p hp x hx
    obtain ⟨hlate, hbefore, hnow⟩ := hconfirmed p hp x hx
    exact ⟨hlate, hsnoc hbefore fun hlog => absurd hlog hnow⟩
  · refine List.pairwise_append.mpr ⟨h.silent, List.pairwise_singleton _ _, ?_⟩
    intro e he e' he'
    obtain rfl := List.mem_singleton.mp he'
    exact hsilent e he

/-- The confirmed losses of a step that confirms none. -/
theorem Watched.confirmed_of_noNewLoss (h : Watched s hist a.now) (hlosses : NoNewLoss s s') {p' : MonitorPass}
    (hp' : p' ∈ s'.passes) {x : Candidate × LossReport} (hx : x ∈ p'.confirmed) :
    x.2.reportedAt + LOSS_COOLDOWN < a.now ∧
      ∀ e ∈ hist, .heartbeat x.1.providerAddress ∈ e.logs → e.act.now ≤ x.2.reportedAt := by
  obtain ⟨p, hp, hxp⟩ := hlosses p' hp' x hx
  exact h.confirmed p hp x hxp

/-- The invariant of the monitor: what it knows of a provider is at most one step behind. -/
theorem watched_step (hstep : s.step a = .ok (s', logs)) (hup : UpToDate s a) (h : Watched s hist a.now) :
    Watched s' (hist ++ [⟨s, a, logs, s'⟩]) a.now := by
  cases monitor_effect hstep with
  | quiet nothing kept losses =>
    subst nothing
    refine h.snoc kept (by simp) ?_ (by simp [Silent])
    intro p' hp' x hx
    obtain ⟨hlate, hbefore⟩ := h.confirmed_of_noNewLoss losses hp' hx
    exact ⟨hlate, hbefore, by simp⟩
  | beats address logged undisturbed kept recorded losses =>
    subst logged
    refine h.snoc kept ?_ ?_ (by simp [Silent, MonitorLog.givesUp])
    · intro address' hlog
      simp only [List.mem_singleton, MonitorLog.heartbeat.injEq] at hlog
      obtain ⟨p, hp, haddress, ht⟩ := recorded
      exact ⟨p, hp, haddress.trans hlog.symm, a.now, ht, Nat.le_refl _⟩
    · intro p' hp' x hx
      obtain ⟨hlate, hbefore⟩ := h.confirmed_of_noNewLoss losses hp' hx
      obtain ⟨p, hp, hxp⟩ := losses p' hp' x hx
      refine ⟨hlate, hbefore, ?_⟩
      simpa using undisturbed hup p hp x hxp
  | confirms c r nothing late fresh kept losses =>
    subst nothing
    refine h.snoc (.of_eq (by rw [kept])) (by simp) ?_ (by simp [Silent])
    intro p' hp' x hx
    rcases losses p' hp' x hx with rfl | ⟨p, hp, hxp⟩
    · refine ⟨late, ?_, by simp⟩
      intro e he hlog
      obtain ⟨p, hp, haddress, t, ht, hle⟩ := h.heartbeats e he _ hlog
      exact hle.trans (fresh hup p hp haddress t ht)
    · obtain ⟨hlate, hbefore⟩ := h.confirmed p hp x hxp
      exact ⟨hlate, hbefore, by simp⟩
  | givesUp c r logged confirmed kept losses =>
    have hgives : ∀ l ∈ logs, l.givesUp = some c := by
      rcases logged with rfl | rfl <;> simp [MonitorLog.givesUp]
    refine h.snoc kept ?_ ?_ ?_
    · intro address hlog
      cases hgives _ hlog
    · intro p' hp' x hx
      obtain ⟨hlate, hbefore⟩ := h.confirmed_of_noNewLoss losses hp' hx
      exact ⟨hlate, hbefore, fun hlog => by cases hgives _ hlog⟩
    · intro e he l hl c' hc' hlog
      obtain rfl : c = c' := Option.some.inj ((hgives l hl).symm.trans hc')
      obtain ⟨p, hp, hx⟩ := confirmed
      obtain ⟨hlate, hbefore⟩ := h.confirmed p hp (c, r) hx
      exact lt_of_le_of_lt (Nat.add_le_add_right (hbefore e he hlog) _) hlate

/-- **Shards are given up in silence**: in every run from a database of any content, with any interleaving of
heartbeats, passes and other services, whose steps are up to date, a shard is put into the repair queue or marked as
lost only if its provider recorded no heartbeat in the five minutes before. -/
theorem silence_run (db : Database) (as : List MonitorAction) (hmono : as.Pairwise fun a b => a.now ≤ b.now)
    (hup : Meets HealthMonitor.step UpToDate { db } as) :
    (history HealthMonitor.step { db } as).Pairwise Silent := by
  have hwatched := @timed_induction _ _ _ HealthMonitor.step MonitorAction.now Watched UpToDate { db } ?_ ?_ ?_ as
    hmono hup
  · exact hwatched.silent
  · exact ⟨by simp, by simp, by simp, List.Pairwise.nil⟩
  · intro s hist now later hle h
    refine ⟨fun e he => (h.past e he).trans hle, h.heartbeats, ?_, h.silent⟩
    intro p hp x hx
    obtain ⟨hlate, hbefore⟩ := h.confirmed p hp x hx
    exact ⟨hlate.trans_le hle, hbefore⟩
  · intro s hist a s' logs h hup hstep
    exact watched_step hstep hup h

end Runs

/-! ### Two outages -/

namespace SmallMonitor

/-- A provider with one shard. -/
def shard : ShardRow := { dealId := "0", providerAddress := "0xab", shardIndex := 0, shardCid := "QmShard" }

def db : Database := { providers := [{ address := "0xab" }], shards := [shard] }

/-- The `i`-th pass looks up the report of the shard and decides. -/
def looks (i now : Nat) : List MonitorAction :=
  [⟨now, .passStarts⟩, ⟨now, .passResumes i⟩, ⟨now, .looksUp i⟩, ⟨now, .decides i⟩]

def lost (i now : Nat) : List MonitorAction := [⟨now, .queues i⟩, ⟨now, .marks i⟩, ⟨now, .clearsReport i⟩]

/-- One heartbeat, a report after 70 seconds, and nothing more for another 330 seconds. -/
def longOutage : List MonitorAction :=
  [⟨10000, .posts "0xAB"⟩] ++ looks 0 80000 ++ [⟨80000, .reports 0⟩] ++ looks 1 410000 ++ lost 1 410000

/-- The provider comes back after the report, is there until 400 seconds, and is out for 70 seconds again. -/
def twoOutages : List MonitorAction :=
  [⟨10000, .posts "0xAB"⟩] ++ looks 0 80000 ++ [⟨80000, .reports 0⟩, ⟨90000, .posts "0xAB"⟩, ⟨400000, .posts "0xAB"⟩] ++
    looks 1 470000 ++ lost 1 470000

theorem longOutage_silent :
    (run HealthMonitor.step { db } longOutage).db.shards = [{ shard with active := false, lostAt := some 410000 }] ∧
      (history HealthMonitor.step { db } longOutage).Pairwise Silent :=
  ⟨by decide +kernel, silence_run db longOutage (by decide) ((meets_iff_history _ _).mpr (by decide +kernel))⟩

/-- The shard is given up 70 seconds after a heartbeat. -/
theorem twoOutages_not_silent :
    (run HealthMonitor.step { db } twoOutages).db.shards = [{ shard with active := false, lostAt := some 470000 }] ∧
      ¬ (history HealthMonitor.step { db } twoOutages).Pairwise Silent :=
  ⟨by decide +kernel, by decide +kernel⟩

end SmallMonitor

end Kyneto
