import Kyneto.RestApi.Status
import Kyneto.Sql.Pool

/-!
# Is the job for expired deals atomic?

For every expired deal the job sends `BEGIN`, three statements and `COMMIT` or `ROLLBACK`, each with `db.query`. The
pool runs each of them on any of its idle connections, so the statements need not be on the connection of `BEGIN`, and
statements of others may be.

`expiry_run` says that the job is atomic if it happens to stay on the connection of its `BEGIN`, and the others stay
away from there. Any request can get lost, fail, or go through without an answer, and any connection can break. That a
statement waits for the locks of another transaction is not in the model: it runs when it has them.
-/

namespace Kyneto

open Evm Sql

/-! ## The job -/

/-- Who sends a statement: the job, for a deal, or somebody else. -/
inductive PoolUser where
  | job (dealId : String)
  | others
  deriving DecidableEq, Repr

/-- What the statements of the job write when they see `view`. -/
def ExpiryPhase.request (env : ApiEnv) (now : Nat) (dealId : String) : ExpiryPhase → Request Database
  | .updating => .query fun view => do
    let _ ← env.completeDeal now dealId view
    return fun db => { db with
      deals := update (fun r => r.dealId = dealId) (fun r => { r with status := "completed", completedAt := some now })
        db.deals }
  | .dropping => .query fun view => do
    let _ ← env.dropShards dealId view
    let keys := (view.shards.filter fun r => r.dealId = dealId ∧ r.active = true).map ShardRow.key
    return fun db => { db with
      shards := update (fun r => r.key ∈ keys) (fun r => { r with active := false }) db.shards }
  | .logging => .query fun view => do
    let _ ← ApiEnv.logEvent (expiredEvent dealId) view
    return fun db => { db with protocolEvents := db.protocolEvents ++ [expiredEvent dealId] }
  | .committing => .commits
  | .rollingBack => .rollsBack

/-- What comes next, if the request goes through and if it does not. -/
def ExpiryPhase.next : ExpiryPhase → Bool → Option ExpiryPhase
  | .updating, true => some .dropping
  | .dropping, true => some .logging
  | .logging, true => some .committing
  | .committing, true | .rollingBack, _ => none
  | _, false => some .rollingBack

structure ExpiryJob where
  pool : Pool Database PoolUser
  todo : List String
  current : Option (String × ExpiryPhase) := none

inductive ExpiryEvent where
  | jobRuns (connection : Nat) (fate : Fate)
  | othersRun (connection : Nat) (request : Request Database) (fate : Fate)
  | breaks (connection : Nat)

structure ExpiryAction where
  now : Nat
  event : ExpiryEvent

def ExpiryJob.step (env : ApiEnv) (s : ExpiryJob) (a : ExpiryAction) :
    Tx (ExpiryJob × List (Settlement Database PoolUser)) :=
  match a.event with
  | .jobRuns c fate =>
    match s.current, s.todo with
    | some (dealId, phase), _ =>
      let (pool, ok, settled) := s.pool.deliver c (.job dealId) (phase.request env a.now dealId) fate
      .ok ({ s with pool, current := (phase.next ok).map (dealId, ·) }, settled)
    | none, dealId :: todo =>
      let (pool, ok, settled) := s.pool.deliver c (.job dealId) .begins fate
      .ok ({ pool, todo, current := some (dealId, if ok then .updating else .rollingBack) }, settled)
    | none, [] => .error (.reason "the job is over")
  | .othersRun c request fate =>
    let (pool, _, settled) := s.pool.deliver c .others request fate
    .ok ({ s with pool }, settled)
  | .breaks c =>
    let (pool, settled) := s.pool.close c
    .ok ({ s with pool }, settled)

/-! ## All or nothing -/

/-- What the database has of a deal. -/
@[ext]
structure DealTrace where
  deals : List DealRow
  shards : List ShardRow
  events : Nat
  deriving DecidableEq, Repr

def dealTrace (d : String) (db : Database) : DealTrace where
  deals := db.deals.filter fun r => r.dealId = d
  shards := db.shards.filter fun r => r.dealId = d
  events := db.protocolEvents.count (expiredEvent d)

/-- The deal is completed, all its shards are inactive, and there is one more event. -/
def DealTrace.completed (now : Nat) (t : DealTrace) : DealTrace where
  deals := t.deals.map fun r => { r with status := "completed", completedAt := some now }
  shards := t.shards.map fun r => { r with active := false }
  events := t.events + 1

def AllOrNothing (d : String) (db db' : Database) : Prop :=
  dealTrace d db' = dealTrace d db ∨ ∃ now, dealTrace d db' = (dealTrace d db).completed now

/-- A request that leaves a deal alone. -/
def SparesDeal (d : String) (r : Request Database) : Prop :=
  ∀ statement, r = .query statement → ∀ view write, statement view = .ok write →
    ∀ db, dealTrace d (write db) = dealTrace d db

/-- `BEGIN` finds a connection without a transaction, the rest of the job runs in the transaction that it opened, and
the others do not run there. -/
def Exclusive (s : ExpiryJob) (a : ExpiryAction) : Prop :=
  match a.event, s.current with
  | .jobRuns c _, none => (s.pool.transaction c).isNone = true
  | .jobRuns c _, some (dealId, .rollingBack) => Apart s.pool c (.job dealId)
  | .jobRuns c _, some (dealId, _) => (s.pool.transaction c).any (·.opener = .job dealId) = true
  | .othersRun c _ _, _ => Apart s.pool c .others
  | .breaks _, _ => True

instance (s : ExpiryJob) (a : ExpiryAction) : Decidable (Exclusive s a) :=
  match a, s with
  | ⟨_, .jobRuns _ _⟩, ⟨_, _, none⟩ => inferInstanceAs (Decidable (_ = _))
  | ⟨_, .jobRuns c _⟩, ⟨p, _, some (dealId, .rollingBack)⟩ => inferInstanceAs (Decidable (Apart p c (.job dealId)))
  | ⟨_, .jobRuns _ _⟩, ⟨_, _, some (_, .updating)⟩ | ⟨_, .jobRuns _ _⟩, ⟨_, _, some (_, .dropping)⟩
  | ⟨_, .jobRuns _ _⟩, ⟨_, _, some (_, .logging)⟩ | ⟨_, .jobRuns _ _⟩, ⟨_, _, some (_, .committing)⟩ =>
    inferInstanceAs (Decidable (_ = _))
  | ⟨_, .othersRun c _ _⟩, ⟨p, _, _⟩ => inferInstanceAs (Decidable (Apart p c .others))
  | ⟨_, .breaks _⟩, _ => inferInstanceAs (Decidable True)

/-! ## What the statements of the job do to a deal -/

section Statements

variable {env : ApiEnv} {d d' : String} {now : Nat} {phase : ExpiryPhase} {statement : Statement Database}
  {view : Database} {write : Database → Database}

theorem expiredEvent_injective : Function.Injective expiredEvent := by
  intro d d' h
  have hdescription := congrArg (fun e => e.description.toList) h
  apply String.toList_injective
  simpa [expiredEvent, toString] using hdescription

/-- The statements for one deal spare the others. -/
theorem request_sparesDeal (hne : d' ≠ d) (phase : ExpiryPhase) : SparesDeal d (phase.request env now d') := by
  intro statement hstatement view write hwrite db
  cases phase with
  | updating =>
    cases hstatement
    simp only [bind_eq_ok, pure_eq_ok] at hwrite
    obtain ⟨_, -, rfl⟩ := hwrite
    refine DealTrace.ext ?_ rfl rfl
    show (update _ _ db.deals).filter _ = db.deals.filter _
    -- the UPDATE names the other deal, so it finds no row of this one
    rw [filter_update, update_of_none]
    · intro r hr
      obtain rfl : r.dealId = d := by simpa using (List.mem_filter.mp hr).2
      simpa using Ne.symm hne
    · exact fun _ => rfl
  | dropping =>
    cases hstatement
    simp only [bind_eq_ok, pure_eq_ok] at hwrite
    obtain ⟨_, -, rfl⟩ := hwrite
    refine DealTrace.ext rfl ?_ rfl
    show (update _ _ db.shards).filter _ = db.shards.filter _
    rw [filter_update, update_of_none]
    · intro r hr
      obtain rfl : r.dealId = d := by simpa using (List.mem_filter.mp hr).2
      -- a row that the statement saw is one of the other deal
      simp only [decide_eq_false_iff_not]
      intro hkey
      obtain ⟨r', hr', heq⟩ := List.mem_map.mp hkey
      have hd' : r'.dealId = d' := by
        have hcond := (List.mem_filter.mp hr').2
        simp only [Bool.decide_and, Bool.and_eq_true, decide_eq_true_eq] at hcond
        exact hcond.1
      exact hne (hd' ▸ (congrArg Prod.fst heq : r'.dealId = r.dealId))
    · exact fun _ => rfl
  | logging =>
    cases hstatement
    simp only [bind_eq_ok, pure_eq_ok] at hwrite
    obtain ⟨_, -, rfl⟩ := hwrite
    -- what counts are the events that name this deal
    refine DealTrace.ext rfl rfl ?_
    show (db.protocolEvents ++ [expiredEvent d']).count (expiredEvent d) = db.protocolEvents.count (expiredEvent d)
    have hnone : [expiredEvent d'].count (expiredEvent d) = 0 := by
      apply List.count_eq_zero_of_not_mem
      intro hmem
      exact hne (expiredEvent_injective (List.mem_singleton.mp hmem)).symm
    rw [List.count_append, hnone, Nat.add_zero]
  -- these are no statements
  | committing | rollingBack => cases hstatement

/-- How far the job is with a deal, in its transaction. -/
def GotTo (t₀ : DealTrace) : ExpiryPhase → DealTrace → Prop
  | .updating, t => t = t₀
  | .dropping, t => ∃ now, t = { t₀.completed now with shards := t₀.shards, events := t₀.events }
  | .logging, t => ∃ now, t = { t₀.completed now with events := t₀.events }
  | .committing, t => ∃ now, t = t₀.completed now
  | .rollingBack, _ => True

/-- A statement takes its transaction one step further. -/
theorem request_reaches {t₀ : DealTrace} (hstatement : phase.request env now d = .query statement)
    (hwrite : statement view = .ok write) (hview : GotTo t₀ phase (dealTrace d view)) :
    ∃ next, phase.next true = some next ∧
      ∀ db, GotTo t₀ phase (dealTrace d db) → GotTo t₀ next (dealTrace d (write db)) := by
  cases phase with
  | updating =>
    cases hstatement
    simp only [bind_eq_ok, pure_eq_ok] at hwrite
    obtain ⟨_, -, rfl⟩ := hwrite
    refine ⟨.dropping, rfl, fun db hdb => ⟨now, ?_⟩⟩
    rw [← (hdb : dealTrace d db = t₀)]
    -- the UPDATE of the deal: all its rows get the new status
    refine DealTrace.ext ?_ rfl rfl
    show (update _ _ db.deals).filter _ = (db.deals.filter _).map _
    rw [filter_update, update_of_forall]
    · exact fun r hr => (List.mem_filter.mp hr).2
    · exact fun _ => rfl
  | dropping =>
    cases hstatement
    simp only [bind_eq_ok, pure_eq_ok] at hwrite
    obtain ⟨_, -, rfl⟩ := hwrite
    refine ⟨.logging, rfl, ?_⟩
    rintro db ⟨now', hdb⟩
    obtain ⟨_, hview⟩ := hview
    -- the shards that it has seen are those that are there, since both traces are the same
    have hseen : db.shards.filter (fun r => r.dealId = d) = view.shards.filter fun r => r.dealId = d := by
      have hshards : (dealTrace d db).shards = (dealTrace d view).shards := by rw [hdb, hview]
      exact hshards
    obtain ⟨hdeals, hshards, hevents⟩ := DealTrace.ext_iff.mp hdb
    refine ⟨now', DealTrace.ext hdeals ?_ hevents⟩
    show (update _ _ db.shards).filter _ = t₀.shards.map _
    rw [filter_update, ← (hshards : db.shards.filter _ = t₀.shards)]
    · apply List.map_congr_left
      intro r hr
      split
      · rfl
      · next hkey =>
        -- a row of the deal that was not seen as active was inactive already
        rw [hseen] at hr
        obtain ⟨hmem, hid⟩ := List.mem_filter.mp hr
        have hactive : r.active = false := by
          by_contra hactive
          apply hkey
          rw [decide_eq_true_eq]
          refine List.mem_map.mpr ⟨r, List.mem_filter.mpr ⟨hmem, ?_⟩, rfl⟩
          simpa using ⟨of_decide_eq_true hid, Bool.not_eq_false _ ▸ hactive⟩
        rw [← hactive]
    · exact fun _ => rfl
  | logging =>
    cases hstatement
    simp only [bind_eq_ok, pure_eq_ok] at hwrite
    obtain ⟨_, -, rfl⟩ := hwrite
    refine ⟨.committing, rfl, ?_⟩
    rintro db ⟨now', hdb⟩
    -- the event is counted once more, and the trace is that of a completed deal
    obtain ⟨hdeals, hshards, hevents⟩ := DealTrace.ext_iff.mp hdb
    refine ⟨now', DealTrace.ext hdeals hshards ?_⟩
    show (db.protocolEvents ++ [expiredEvent d]).count (expiredEvent d) = t₀.events + 1
    rw [List.count_append, List.count_singleton_self]
    exact congrArg (· + 1) hevents
  | committing | rollingBack => cases hstatement

end Statements

/-! ## The invariant -/

section Runs

variable {env : ApiEnv} {d : String} {t₀ : DealTrace} {s s' : ExpiryJob} {a : ExpiryAction}
  {p p' : Pool Database PoolUser} {c : Nat} {user : PoolUser} {r : Request Database} {ok : Bool}
  {settled : List (Settlement Database PoolUser)}

def Harmless (d : String) (w : Write Database PoolUser) : Prop := ∀ db, dealTrace d (w.write db) = dealTrace d db

/-- What is true of an expired deal, which had the trace `t₀` when the job started. -/
structure Expiring (d : String) (t₀ : DealTrace) (s : ExpiryJob) : Prop where
  todo : s.todo.Nodup
  fresh : ∀ cur, s.current = some cur → cur.1 ∉ s.todo
  harmless : ∀ c t, s.pool.transaction c = some t → t.opener ≠ .job d → ∀ w ∈ t.writes, Harmless d w
  begun : ∀ c t, s.pool.transaction c = some t → t.opener = .job d → d ∉ s.todo
  same : ∀ c t, s.pool.transaction c = some t → t.opener = .job d →
    ∀ c' t', s.pool.transaction c' = some t' → t'.opener = .job d → c' = c
  reached : ∀ c t, s.pool.transaction c = some t → t.opener = .job d → t.aborted = false →
    ∀ phase, s.current = some (d, phase) → ∀ db, dealTrace d db = t₀ →
      GotTo t₀ phase (dealTrace d (applyWrites t.writes db))
  pending : (d ∈ s.todo ∨ ∃ phase, s.current = some (d, phase) ∧ phase ≠ .rollingBack) →
    dealTrace d s.pool.committed = t₀
  settled : dealTrace d s.pool.committed = t₀ ∨ ∃ now, dealTrace d s.pool.committed = t₀.completed now

/-- What a request of somebody else, or for another deal, changes: nothing that concerns the deal. -/
structure Elsewhere (d : String) (p p' : Pool Database PoolUser) : Prop where
  harmless : (∀ c t, p.transaction c = some t → t.opener ≠ .job d → ∀ w ∈ t.writes, Harmless d w) →
    ∀ c t, p'.transaction c = some t → t.opener ≠ .job d → ∀ w ∈ t.writes, Harmless d w
  own : ∀ c t, p'.transaction c = some t → t.opener = .job d → p.transaction c = some t
  committed : (∀ c t, p.transaction c = some t → t.opener ≠ .job d → ∀ w ∈ t.writes, Harmless d w) →
    dealTrace d p'.committed = dealTrace d p.committed

/-- A request of another client on another connection leaves the transaction of the job alone. -/
theorem effect_elsewhere (h : PoolEffect p c user r p' ok settled) (hapart : Apart p c user)
    (huser : user ≠ .job d) (hspares : SparesDeal d r) : Elsewhere d p p' := by
  cases h with
  | nothing => exact ⟨id, fun _ _ ht _ => ht, fun _ => rfl⟩
  | opens =>
    refine ⟨fun hharmless => forall_setTransaction hharmless ?_, forall_setTransaction (fun _ _ ht _ => ht) ?_,
      fun _ => rfl⟩
    · rintro t ⟨⟩ _
      exact nofun
    · rintro t ⟨⟩ hopener
      exact absurd hopener huser
  -- outside of a transaction the statement takes effect at once
  | commitsOne _ statement write hr _ hwrite =>
    exact ⟨id, fun _ _ ht _ => ht, fun _ => hspares statement hr _ write hwrite _⟩
  -- inside one it waits there, among the writes of that user
  | writes _ statement t write hr ht _ hwrite =>
    have hopener := hapart.opener ht
    refine ⟨fun hharmless => forall_setTransaction hharmless ?_, forall_setTransaction (fun _ _ ht _ => ht) ?_,
      fun _ => rfl⟩
    · rintro t' ⟨⟩ hne w hw
      rcases List.mem_append.mp hw with hw | hw
      · exact hharmless c t ht hne w hw
      · obtain rfl := List.mem_singleton.mp hw
        exact hspares statement hr _ write hwrite
    · rintro t' ⟨⟩ howner
      exact absurd (hopener.symm.trans howner) huser
  | aborts t ht =>
    have hopener := hapart.opener ht
    refine ⟨fun hharmless => forall_setTransaction hharmless ?_, forall_setTransaction (fun _ _ ht _ => ht) ?_,
      fun _ => rfl⟩
    · rintro t' ⟨⟩ hne w hw
      exact hharmless c t ht hne w hw
    · rintro t' ⟨⟩ howner
      exact absurd (hopener.symm.trans howner) huser
  -- a transaction of others brings writes that are harmless for the deal
  | commits _ t _ ht =>
    have hopener := hapart.opener ht
    refine ⟨fun hharmless => forall_setTransaction hharmless nofun, forall_setTransaction (fun _ _ ht _ => ht) nofun,
      fun hharmless => ?_⟩
    exact applyWrites_keeps (hharmless c t ht (hopener ▸ huser)) _
  | discards _ t _ ht =>
    exact ⟨fun hharmless => forall_setTransaction hharmless nofun, forall_setTransaction (fun _ _ ht _ => ht) nofun,
      fun _ => rfl⟩

theorem close_elsewhere (h : p.close c = (p', settled)) : Elsewhere d p p' := by
  unfold Pool.close at h
  split at h
  · cases h
    exact ⟨id, fun _ _ ht _ => ht, fun _ => rfl⟩
  · cases h
    exact ⟨fun hharmless => forall_setTransaction hharmless nofun, forall_setTransaction (fun _ _ ht _ => ht) nofun,
      fun _ => rfl⟩

/-- The job may go on with another deal. -/
theorem Expiring.elsewhere (h : Expiring d t₀ s) (he : Elsewhere d s.pool s'.pool) (htodo : s'.todo.Nodup)
    (hfresh : ∀ cur, s'.current = some cur → cur.1 ∉ s'.todo) (hsub : d ∈ s'.todo → d ∈ s.todo)
    (hcurrent : ∀ phase, s'.current = some (d, phase) → s.current = some (d, phase)) : Expiring d t₀ s' where
  todo := htodo
  fresh := hfresh
  harmless := he.harmless h.harmless
  begun := fun c t ht hopener hd => h.begun c t (he.own c t ht hopener) hopener (hsub hd)
  same := fun c t ht hopener c' t' ht' hopener' =>
    h.same c t (he.own c t ht hopener) hopener c' t' (he.own c' t' ht' hopener') hopener'
  reached := fun c t ht hopener hlive phase hphase =>
    h.reached c t (he.own c t ht hopener) hopener hlive phase (hcurrent phase hphase)
  pending := by
    intro hpending
    rw [he.committed h.harmless]
    refine h.pending ?_
    rcases hpending with hd | ⟨phase, hphase, hne⟩
    · exact Or.inl (hsub hd)
    · exact Or.inr ⟨phase, hcurrent phase hphase, hne⟩
  settled := by
    rw [he.committed h.harmless]
    exact h.settled

/-- `BEGIN` for the deal. -/
theorem Expiring.begins {todo : List String} (h : Expiring d t₀ s) (htodo : s.todo = d :: todo)
    (hfree : s.pool.transaction c = none) (he : PoolEffect s.pool c (.job d) .begins p' ok settled) :
    Expiring d t₀ { pool := p', todo, current := some (d, if ok then .updating else .rollingBack) } := by
  have hd : d ∈ s.todo := htodo ▸ List.mem_cons_self
  have hnodup := List.nodup_cons.mp (htodo ▸ h.todo)
  have hpending := h.pending (Or.inl hd)
  -- nothing has begun for a deal that is still on the list
  have hnone : ∀ c t, s.pool.transaction c = some t → t.opener ≠ .job d :=
    fun c t ht hopener => h.begun c t ht hopener hd
  have hfresh : ∀ cur, some (d, if ok then ExpiryPhase.updating else .rollingBack) = some cur → cur.1 ∉ todo := by
    rintro cur ⟨⟩
    exact hnodup.1
  cases he with
  -- `BEGIN` in a transaction is only a warning, and the connection has none
  | nothing _ hwarning =>
    exact
      { todo := hnodup.2, fresh := hfresh, harmless := h.harmless, pending := fun _ => hpending, settled := h.settled
        begun := fun c t ht hopener => absurd hopener (hnone c t ht)
        same := fun c t ht hopener => absurd hopener (hnone c t ht)
        reached := fun c t ht hopener => absurd hopener (hnone c t ht) }
  | opens =>
    -- the transaction of the deal is the one that has just been opened
    have honly : ∀ c' t, (s.pool.setTransaction c (some { opener := .job d })).transaction c' = some t →
        t.opener = .job d → c' = c ∧ t.writes = [] := by
      apply forall_setTransaction
      · exact fun c t ht hopener => absurd hopener (hnone c t ht)
      · rintro t ⟨⟩ _
        exact ⟨rfl, rfl⟩
    refine
      { todo := hnodup.2, fresh := hfresh, pending := fun _ => hpending, settled := h.settled
        harmless := forall_setTransaction h.harmless ?_
        begun := fun _ _ _ _ => hnodup.1
        same := fun c t ht hopener c' t' ht' hopener' =>
          (honly c' t' ht' hopener').1.trans (honly c t ht hopener).1.symm
        reached := ?_ }
    · rintro t ⟨⟩ hne
      exact absurd rfl hne
    · rintro c' t ht hopener _ phase hphase db hdb
      rw [(honly c' t ht hopener).2, applyWrites_nil, hdb]
      cases ok with
      | true =>
        cases hphase
        rfl
      | false =>
        cases hphase
        trivial
  -- the other effects are not those of a `BEGIN` on a free connection
  | commitsOne _ statement _ hr => cases hr
  | writes _ statement _ _ hr => cases hr
  | aborts t ht => exact absurd (hfree.symm.trans ht) (by simp)
  | commits _ t hr => cases hr
  | discards _ t hr =>
    rcases hr with ⟨hr, -⟩ | hr
    · cases hr
    · cases hr

/-- The transaction of the deal goes no further. -/
theorem Expiring.stops (h : Expiring d t₀ s) {phase : ExpiryPhase} {next : Option ExpiryPhase}
    (hcurrent : s.current = some (d, phase)) (hnext : ∀ phase', next = some phase' → phase' = .rollingBack)
    (hharmless : ∀ c t, p'.transaction c = some t → t.opener ≠ .job d → ∀ w ∈ t.writes, Harmless d w)
    (hopen : ∀ c t, p'.transaction c = some t → t.opener = .job d →
      ∃ t', s.pool.transaction c = some t' ∧ t'.opener = .job d)
    (hsettled : dealTrace d p'.committed = t₀ ∨ ∃ now, dealTrace d p'.committed = t₀.completed now) :
    Expiring d t₀ { s with pool := p', current := next.map (d, ·) } := by
  have hd : d ∉ s.todo := h.fresh _ hcurrent
  refine ⟨h.todo, ?_, hharmless, fun _ _ _ _ => hd, ?_, ?_, ?_, hsettled⟩
  · intro cur hcur
    obtain ⟨_, _, rfl⟩ := Option.map_eq_some_iff.mp hcur
    exact hd
  · intro c t ht hopener c' t' ht' hopener'
    obtain ⟨t₁, ht₁, hopener₁⟩ := hopen c t ht hopener
    obtain ⟨t₂, ht₂, hopener₂⟩ := hopen c' t' ht' hopener'
    exact h.same c t₁ ht₁ hopener₁ c' t₂ ht₂ hopener₂
  · intro c t _ _ _ phase' hphase' db _
    obtain ⟨phase'', hphase'', heq⟩ := Option.map_eq_some_iff.mp hphase'
    cases heq
    rw [hnext _ hphase'']
    trivial
  · rintro (hmem | ⟨phase', hphase', hne⟩)
    · exact absurd hmem hd
    · obtain ⟨phase'', hphase'', heq⟩ := Option.map_eq_some_iff.mp hphase'
      cases heq
      exact absurd (hnext _ hphase'') hne

theorem next_false (phase phase' : ExpiryPhase) (h : phase.next false = some phase') : phase' = .rollingBack := by
  cases phase <;> cases h <;> rfl

theorem next_of_end {phase : ExpiryPhase} {now : Nat}
    (h : phase.request env now d = .commits ∨ phase.request env now d = .rollsBack) (phase' : ExpiryPhase)
    (hnext : phase.next ok = some phase') : phase' = .rollingBack := by
  cases phase with
  | updating | dropping | logging => rcases h with h | h <;> cases h
  | committing | rollingBack => cases ok <;> cases hnext <;> rfl

/-- The other requests for the deal. -/
theorem Expiring.runs (h : Expiring d t₀ s) {phase : ExpiryPhase} {now : Nat} (hcurrent : s.current = some (d, phase))
    (hapart : Apart s.pool c (.job d))
    (hopen : phase ≠ .rollingBack → s.pool.transaction c ≠ none)
    (he : PoolEffect s.pool c (.job d) (phase.request env now d) p' ok settled) :
    Expiring d t₀ { s with pool := p', current := (phase.next ok).map (d, ·) } := by
  have hback : ∀ c t, s.pool.transaction c = some t → t.opener = .job d →
      ∃ t', s.pool.transaction c = some t' ∧ t'.opener = .job d := fun _ t ht hopener => ⟨t, ht, hopener⟩
  cases he with
  -- nothing happens: either the answer is a failure, or the transaction has ended before
  | nothing _ hwarning =>
    refine h.stops hcurrent ?_ h.harmless hback h.settled
    cases ok with
    | false => exact next_false phase
    | true =>
      rcases hwarning rfl with ⟨hr, -⟩ | ⟨hr, -⟩
      · cases phase <;> cases hr
      · exact next_of_end hr
  | opens _ hr => cases phase <;> cases hr
  | commitsOne _ statement write hr hfree =>
    -- excluded: a statement is never outside of the transaction
    refine absurd hfree (hopen ?_)
    rintro rfl
    cases hr
  | writes _ statement t write hr ht hlive hwrite =>
    have hopener := hapart.opener ht
    have hharmless : ∀ c' t',
        (s.pool.setTransaction c (some { t with writes := t.writes ++ [⟨.job d, write⟩] })).transaction c' = some t' →
          t'.opener ≠ .job d → ∀ w ∈ t'.writes, Harmless d w := by
      apply forall_setTransaction h.harmless
      rintro t' ⟨⟩ hne
      exact absurd hopener hne
    have hopens : ∀ c' t',
        (s.pool.setTransaction c (some { t with writes := t.writes ++ [⟨.job d, write⟩] })).transaction c' = some t' →
          t'.opener = .job d → ∃ t'', s.pool.transaction c' = some t'' ∧ t''.opener = .job d := by
      apply forall_setTransaction hback
      rintro t' ⟨⟩ _
      exact ⟨t, ht, hopener⟩
    -- the statement took effect and its answer was lost, so the job rolls back
    cases ok with
    | false => exact h.stops hcurrent (next_false phase) hharmless hopens h.settled
    | true =>
      have hne : phase ≠ .rollingBack := by
        rintro rfl
        cases hr
      have hpending := h.pending (Or.inr ⟨phase, hcurrent, hne⟩)
      have hview := h.reached c t ht hopener hlive phase hcurrent _ hpending
      -- it goes one step further, from what the transaction has seen
      obtain ⟨next, hnext, hreaches⟩ := request_reaches hr hwrite hview
      rw [hnext]
      have hd : d ∉ s.todo := h.fresh _ hcurrent
      refine ⟨h.todo, ?_, hharmless, fun _ _ _ _ => hd, ?_, ?_, fun _ => hpending, h.settled⟩
      · rintro cur ⟨⟩
        exact hd
      · intro c₁ t₁ ht₁ hopener₁ c₂ t₂ ht₂ hopener₂
        obtain ⟨t₃, ht₃, hopener₃⟩ := hopens c₁ t₁ ht₁ hopener₁
        obtain ⟨t₄, ht₄, hopener₄⟩ := hopens c₂ t₂ ht₂ hopener₂
        exact h.same c₁ t₃ ht₃ hopener₃ c₂ t₄ ht₄ hopener₄
      · rintro c' t' ht' hopener' _ phase' ⟨⟩ db hdb
        obtain ⟨t₁, ht₁, hopener₁⟩ := hopens c' t' ht' hopener'
        obtain rfl := h.same c t ht hopener c' t₁ ht₁ hopener₁
        rw [Pool.setTransaction_self] at ht'
        cases ht'
        rw [applyWrites_append]
        exact hreaches _ (h.reached c' t ht hopener hlive phase hcurrent db hdb)
  -- an aborted transaction is rolled back
  | aborts t ht =>
    have hopener := hapart.opener ht
    refine h.stops hcurrent (next_false phase) (forall_setTransaction h.harmless ?_) (forall_setTransaction hback ?_)
      h.settled
    · rintro t' ⟨⟩ hne
      exact absurd hopener hne
    · rintro t' ⟨⟩ _
      exact ⟨t, ht, hopener⟩
  | commits _ t hr ht hlive =>
    have hphase : phase = .committing := by
      cases phase <;> cases hr
      rfl
    refine h.stops hcurrent (next_of_end (Or.inl hr)) (forall_setTransaction h.harmless nofun)
      (forall_setTransaction hback nofun) (Or.inr ?_)
    -- everything up to `COMMIT` is in the transaction, and it is committed as a whole
    have hpending := h.pending (Or.inr ⟨phase, hcurrent, by rw [hphase]; nofun⟩)
    have hreached := h.reached c t ht (hapart.opener ht) hlive phase hcurrent _ hpending
    rw [hphase] at hreached
    exact hreached
  | discards _ t hr ht =>
    have hend : phase.request env now d = .commits ∨ phase.request env now d = .rollsBack := hr.imp And.left id
    exact h.stops hcurrent (next_of_end hend) (forall_setTransaction h.harmless nofun)
      (forall_setTransaction hback nofun) h.settled

/-! ## Runs -/

/-- What a step can do that keeps the job and the others apart. -/
inductive ExpiryEffect (env : ApiEnv) (s : ExpiryJob) (a : ExpiryAction) :
    ExpiryJob → List (Settlement Database PoolUser) → Prop
  | runs (c : Nat) (dealId : String) (phase : ExpiryPhase) (pool : Pool Database PoolUser) (ok : Bool)
      (settled : List (Settlement Database PoolUser)) (current : s.current = some (dealId, phase))
      (apart : Apart s.pool c (.job dealId)) (inside : phase ≠ .rollingBack → s.pool.transaction c ≠ none)
      (effect : PoolEffect s.pool c (.job dealId) (phase.request env a.now dealId) pool ok settled) :
      ExpiryEffect env s a { s with pool, current := (phase.next ok).map (dealId, ·) } settled
  | begins (c : Nat) (dealId : String) (todo : List String) (pool : Pool Database PoolUser) (ok : Bool)
      (settled : List (Settlement Database PoolUser)) (current : s.current = none) (next : s.todo = dealId :: todo)
      (free : s.pool.transaction c = none) (effect : PoolEffect s.pool c (.job dealId) .begins pool ok settled) :
      ExpiryEffect env s a { pool, todo, current := some (dealId, if ok then .updating else .rollingBack) } settled
  | others (c : Nat) (r : Request Database) (fate : Fate) (pool : Pool Database PoolUser) (ok : Bool)
      (settled : List (Settlement Database PoolUser)) (event : a.event = .othersRun c r fate)
      (apart : Apart s.pool c .others) (effect : PoolEffect s.pool c .others r pool ok settled) :
      ExpiryEffect env s a { s with pool } settled
  | breaks (c : Nat) (pool : Pool Database PoolUser) (settled : List (Settlement Database PoolUser))
      (close : s.pool.close c = (pool, settled)) : ExpiryEffect env s a { s with pool } settled

/-- What a step of the job does, with a connection to itself. -/
theorem expiry_effect (hstep : ExpiryJob.step env s a = .ok (s', settled)) (ha : Exclusive s a) :
    ExpiryEffect env s a s' settled := by
  unfold ExpiryJob.step at hstep
  split at hstep
  -- a request of the job: inside a deal, or the `BEGIN` of the next one
  · next c fate hevent =>
    unfold Exclusive at ha
    split at hstep
    · next dealId phase hcurrent =>
      cases hstep
      rw [hevent, hcurrent] at ha
      have hown : Apart s.pool c (.job dealId) ∧ (phase ≠ .rollingBack → s.pool.transaction c ≠ none) := by
        cases phase with
        | rollingBack => exact ⟨ha, fun hne => absurd rfl hne⟩
        | updating | dropping | logging | committing =>
          obtain ⟨t, ht, hopener⟩ := (Option.any_eq_true _ _).mp ha
          refine ⟨?_, by simp [ht]⟩
          unfold Apart
          rw [ht]
          exact hopener
      exact .runs c dealId phase _ _ _ hcurrent hown.1 hown.2 (deliver_effect rfl)
    · next dealId todo hcurrent htodo =>
      cases hstep
      rw [hevent, hcurrent] at ha
      exact .begins c dealId todo _ _ _ hcurrent htodo (Option.isNone_iff_eq_none.mp ha) (deliver_effect rfl)
    · cases hstep
  -- a request of somebody else, and a connection that breaks
  · next c r fate hevent =>
    cases hstep
    unfold Exclusive at ha
    rw [hevent] at ha
    exact .others c r fate _ _ _ hevent ha (deliver_effect rfl)
  · next c hevent =>
    cases hstep
    exact .breaks c _ _ rfl

/-- Such a step keeps the transactions apart. -/
theorem step_owned (hstep : ExpiryJob.step env s a = .ok (s', settled)) (ha : Exclusive s a) (h : Owned s.pool) :
    Owned s'.pool ∧ ∀ g ∈ settled, g.Unmixed := by
  cases expiry_effect hstep ha with
  | runs c dealId phase pool ok _ _ hapart _ heffect => exact heffect.owned hapart h
  | begins c dealId todo pool ok _ _ _ hfree heffect =>
    refine heffect.owned ?_ h
    unfold Apart
    rw [hfree]
    rfl
  | others c r fate pool ok _ _ hapart heffect => exact heffect.owned hapart h
  | breaks c pool _ hclose => exact close_owned hclose h

/-- As long as the others spare the deal, every step keeps what is true of an expired deal. -/
theorem expiring_step (hstep : ExpiryJob.step env s a = .ok (s', settled)) (ha : Exclusive s a)
    (hspares : ∀ c r fate, a.event = .othersRun c r fate → SparesDeal d r) (h : Expiring d t₀ s) :
    Expiring d t₀ s' := by
  cases expiry_effect hstep ha with
  | runs c dealId phase pool ok _ hcurrent hapart hinside heffect =>
    by_cases hd : dealId = d
    · subst hd
      exact h.runs hcurrent hapart hinside heffect
    -- the job is at another deal, for which it is a user of its own
    · have huser : PoolUser.job dealId ≠ .job d := fun heq => hd (PoolUser.job.inj heq)
      refine h.elsewhere (effect_elsewhere heffect hapart huser (request_sparesDeal hd phase)) h.todo ?_ id ?_
      · intro cur hcur
        obtain ⟨phase', _, rfl⟩ := Option.map_eq_some_iff.mp hcur
        exact h.fresh (dealId, phase) hcurrent
      · intro phase' hphase'
        obtain ⟨_, _, heq⟩ := Option.map_eq_some_iff.mp hphase'
        exact absurd (congrArg Prod.fst heq) hd
  | begins c dealId todo pool ok _ hcurrent htodo hfree heffect =>
    by_cases hd : dealId = d
    · subst hd
      exact h.begins htodo hfree heffect
    · have huser : PoolUser.job dealId ≠ .job d := fun heq => hd (PoolUser.job.inj heq)
      have hapart : Apart s.pool c (.job dealId) := by
        unfold Apart
        rw [hfree]
        rfl
      have hnodup := List.nodup_cons.mp (htodo ▸ h.todo)
      refine h.elsewhere (effect_elsewhere heffect hapart huser nofun) hnodup.2 ?_ ?_ ?_
      · rintro cur ⟨⟩
        exact hnodup.1
      · intro hmem
        rw [htodo]
        exact List.mem_cons_of_mem _ hmem
      · intro phase hphase
        exact absurd (congrArg Prod.fst (Option.some.inj hphase)) hd
  | others c r fate pool ok _ hevent hapart heffect =>
    exact h.elsewhere (effect_elsewhere heffect hapart nofun (hspares c r fate hevent)) h.todo h.fresh id fun _ => id
  | breaks c pool _ hclose =>
    exact h.elsewhere (close_elsewhere hclose) h.todo h.fresh id fun _ => id

/-- **Expiry is atomic**, whatever the expired deals are, whichever requests get lost or fail, and whichever
connections break, if the job stays on the connection of its `BEGIN` and the others stay away from there: at every
moment an expired deal that the others leave alone is as it was or fully completed, and what is committed or rolled
back together is of the job, for one deal, or of the others. -/
theorem expiry_run (env : ApiEnv) (now : Nat) (db : Database) (dealIds : List String) (as : List ExpiryAction)
    (hkeys : (db.deals.map DealRow.dealId).Nodup) (hselect : env.expiredDeals now db = .ok dealIds)
    (hexclusive : Meets (ExpiryJob.step env) Exclusive ⟨⟨db, fun _ => none⟩, dealIds, none⟩ as) :
    (∀ e ∈ history (ExpiryJob.step env) ⟨⟨db, fun _ => none⟩, dealIds, none⟩ as, ∀ g ∈ e.logs, g.Unmixed) ∧
      ∀ d ∈ dealIds, (∀ a ∈ as, ∀ c r fate, a.event = .othersRun c r fate → SparesDeal d r) →
        AllOrNothing d db (run (ExpiryJob.step env) ⟨⟨db, fun _ => none⟩, dealIds, none⟩ as).pool.committed := by
  constructor
  · have hinit : Owned (⟨db, fun _ => none⟩ : Pool Database PoolUser) := fun _ _ ht => by cases ht
    refine forall_history (I := fun s : ExpiryJob => Owned s.pool) hinit ?_ as hexclusive
    intro s a s' settled howned ha hstep
    exact step_owned hstep ha howned
  · intro d hd hspares
    have hinit : Expiring d (dealTrace d db) ⟨⟨db, fun _ => none⟩, dealIds, none⟩ :=
      { todo := (expiredDeals_active hkeys hselect).1, fresh := nofun, harmless := nofun, begun := nofun
        same := nofun, reached := nofun, pending := fun _ => rfl, settled := Or.inl rfl }
    have hmeets : Meets (ExpiryJob.step env)
        (fun s a => Exclusive s a ∧ ∀ c r fate, a.event = .othersRun c r fate → SparesDeal d r)
        ⟨⟨db, fun _ => none⟩, dealIds, none⟩ as := by
      rw [meets_iff_history] at hexclusive ⊢
      exact fun e he => ⟨hexclusive e he, hspares e.act (act_mem_of_history he)⟩
    exact (run_invariant hinit (fun s a s' settled h ha hstep => expiring_step hstep ha.1 ha.2 h) as hmeets).settled

end Runs

/-! ### A job on two connections -/

namespace SmallApi

/-- A heartbeat. -/
def heartbeat : Request Database := .query fun _ => .ok fun db =>
  { db with
    providers := update (fun r => r.address = "0xPat") (fun r => { r with lastHeartbeat := some 2000 }) db.providers }

/-- The job stays on connection 0, and the heartbeat is on another one. -/
def oneConnection : List ExpiryAction :=
  [.jobRuns 0 .arrives, .jobRuns 0 .arrives, .othersRun 1 heartbeat .arrives, .jobRuns 0 .arrives, .jobRuns 0 .arrives,
    .jobRuns 0 .arrives].map (⟨2000, ·⟩)

/-- The deal is completed. -/
theorem oneConnection_atomic :
    dealTrace "7" (run (ExpiryJob.step env) ⟨⟨db, fun _ => none⟩, ["7"], none⟩ oneConnection).pool.committed =
        (dealTrace "7" db).completed 2000 ∧
      (∀ e ∈ history (ExpiryJob.step env) ⟨⟨db, fun _ => none⟩, ["7"], none⟩ oneConnection, ∀ g ∈ e.logs, g.Unmixed) ∧
        AllOrNothing "7" db
          (run (ExpiryJob.step env) ⟨⟨db, fun _ => none⟩, ["7"], none⟩ oneConnection).pool.committed := by
  have h := expiry_run env 2000 db ["7"] oneConnection (by decide) (by decide +kernel)
    (by rw [meets_iff_history]; decide +kernel)
  refine ⟨by decide +kernel, h.1, h.2 "7" List.mem_cons_self ?_⟩
  intro a ha c r fate hevent statement hstatement view write hwrite db
  have hr : r = heartbeat := by
    simp only [oneConnection, List.map_cons, List.map_nil, List.mem_cons, List.not_mem_nil, or_false] at ha
    rcases ha with rfl | rfl | rfl | rfl | rfl | rfl <;> cases hevent
    rfl
  subst hr
  cases hstatement
  cases hwrite
  rfl

/-- `BEGIN` and `ROLLBACK` are on connection 0, and the statements on connection 1, where the second one fails. -/
def twoConnections : List ExpiryAction :=
  [.jobRuns 0 .arrives, .jobRuns 1 .arrives, .jobRuns 1 .fails, .jobRuns 0 .arrives].map (⟨2000, ·⟩)

/-- The deal is completed, its shard is active, and there is no event. -/
theorem twoConnections_not_atomic : env.expiredDeals 2000 db = .ok ["7"] ∧
    ¬ AllOrNothing "7" db
      (run (ExpiryJob.step env) ⟨⟨db, fun _ => none⟩, ["7"], none⟩ twoConnections).pool.committed := by
  have hresult : env.expiredDeals 2000 db = .ok ["7"] ∧
      dealTrace "7" (run (ExpiryJob.step env) ⟨⟨db, fun _ => none⟩, ["7"], none⟩ twoConnections).pool.committed =
        { (dealTrace "7" db).completed 2000 with shards := (dealTrace "7" db).shards, events := 0 } := by
    decide +kernel
  refine ⟨hresult.1, ?_⟩
  unfold AllOrNothing
  rw [hresult.2]
  rintro (h | ⟨now, h⟩)
  · exact absurd (congrArg DealTrace.deals h) (by decide)
  · exact absurd (congrArg DealTrace.events h) (by simp [DealTrace.completed])

end SmallApi

end Kyneto
