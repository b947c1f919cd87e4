import Kyneto.RestApi.Basic

/-!
# Is the end of a deal final?

Five writers set the status of a deal: `DELETE /api/deals/:id`, the job for expired deals, the handlers of the listener
for completed and cancelled deals, and `terminateDeal` after it has cancelled the deal on the chain. The first two look
at the status in an earlier statement than the one that sets it, the others not at all, and every update goes by the
id of the deal only.

A writer is cut at its statements, each of which is atomic, takes effect when it runs, and can fail. This goes for the
job as well, whose `BEGIN` is a statement of the pool: see `Kyneto.RestApi.Expiry`. `final_run` says
that a final status stays if no update comes between the look of another writer and its own update, and the writers
that do not look find a deal that has not ended. The invariant is `Reliable`: what a writer has seen is still true.
-/

namespace Kyneto

open Evm Sql

/-! ## Writers -/

/-- The body of `DELETE /api/deals/:id`. -/
structure CancelRequest where
  dealId : String
  clientAddress : Option String
  signature : Option String
  deriving DecidableEq, Repr

/-- The next statement of `DELETE /api/deals/:id`. -/
inductive DeletePhase where
  | checking
  | updating                                               -- the deal was active
  | reading
  | dropping (shardCIDs providerAddresses : List String)
  | logging (shardCIDs providerAddresses : List String)
  deriving DecidableEq, Repr

/-- The next statement of the job for a deal, after `BEGIN`. -/
inductive ExpiryPhase where
  | updating | dropping | logging | committing | rollingBack
  deriving DecidableEq, Repr

/-- The next statement of the writers that do not look at the status. -/
inductive EndPhase where
  | updating | dropping | logging
  deriving DecidableEq, Repr

inductive Writer where
  | deletes (request : CancelRequest) (phase : DeletePhase)
  | selects                                                                   -- the job, before its query
  | expires (todo : List String) (current : Option (String × ExpiryPhase))    -- and after it
  | completes (dealId : String) (phase : EndPhase)                            -- `handleDealCompleted`
  | cancels (dealId client : String) (phase : EndPhase)                       -- `handleDealCancelled`
  | terminates (dealId : String) (phase : EndPhase)                           -- `terminateDeal`, after `tx.wait()`
  | finished
  deriving DecidableEq, Repr

/-- A writer that starts. -/
def Writer.fresh : Writer → Bool
  | .deletes _ .checking | .selects | .completes _ .updating | .cancels _ _ .updating
  | .terminates _ .updating => true
  | _ => false

abbrev Written := Database × Writer × List ApiLog

/-- The row of a deal: `rows[0]`. -/
def findDeal (db : Database) (dealId : String) : Option DealRow := db.deals.find? fun r => r.dealId = dealId

def statusOf (db : Database) (dealId : String) : Option String := (findDeal db dealId).map DealRow.status

/-- A statement that writes, with what comes after it and what after an error. -/
def writes (db : Database) (statement : Database → Query Database) (next onError : Writer)
    (done failed : List ApiLog) : Written :=
  match statement db with
  | .ok db' => (db', next, done)
  | .error _ => (db, onError, failed)

def serverError : ApiLog := .responds 500 "Internal server error"

/-- The first statement of `DELETE /api/deals/:id`, and what it checks. -/
def checkRequest (env : ApiEnv) (db : Database) (r : CancelRequest) : Written :=
  match findDeal db r.dealId with
  | none => (db, .finished, [.responds 404 "Deal not found"])
  | some deal =>
    if deal.status ≠ "active" ∧ deal.status ≠ "in_grace_period" then
      (db, .finished, [.responds 400 s!"Deal is already {deal.status}"])
    else if r.clientAddress.getD "" = "" ∨ r.signature.getD "" = "" then
      (db, .finished, [.responds 400 "client_address and signature required"])
    else if env.verifySignature ("cancel-deal-" ++ r.dealId) (r.signature.getD "") deal.clientAddress = false then
      (db, .finished, [.responds 401 "Invalid signature"])
    else (db, .deletes r .updating, [])

def cancelledEvent (dealId : String) (shardCIDs providerAddresses : List String) : ProtocolEvent where
  eventType := "DEAL_CANCELLED"
  description := s!"Deal #{dealId} cancelled — {shardCIDs.length} shards marked for cleanup"
  data := "\x7b\"dealId\":" ++ jsonString dealId ++ ",\"shardCIDs\":" ++ jsonStrings shardCIDs ++
    ",\"providerAddresses\":" ++ jsonStrings providerAddresses ++ "\x7d"

/-- What `DELETE /api/deals/:id` emits in the end, to the rooms of the providers. -/
def cancelledMessages (dealId : String) (shardCIDs providerAddresses : List String) : List ApiLog :=
  providerAddresses.map fun address =>
    .emits (.room (providerRoom address)) { dealId, shardCIDs := some shardCIDs }

def completedEvent (dealId : String) : ProtocolEvent where
  eventType := "DEAL_COMPLETED"
  description := s!"Deal #{dealId} completed — shards marked for cleanup"
  data := jsonDealId dealId

def cancelledOnChain (dealId client : String) : ProtocolEvent where
  eventType := "DEAL_CANCELLED"
  description := s!"Deal #{dealId} cancelled by client {String.ofList (client.toList.take 10)}..."
  data := "\x7b\"dealId\":" ++ jsonString dealId ++ ",\"client\":" ++ jsonString client ++ "\x7d"

def terminatedEvent (dealId : String) : ProtocolEvent where
  eventType := "DEAL_TERMINATED"
  description := s!"Deal #{dealId} terminated via orchestrator"
  data := jsonDealId dealId

/-- The next statement runs. -/
def Writer.exec (env : ApiEnv) (now : Nat) (db : Database) : Writer → Written
  | .deletes r .checking => checkRequest env db r
  | .deletes r .updating =>
    writes db (env.cancelDeal r.dealId) (.deletes r .reading) .finished [] [serverError]
  | .deletes r .reading =>
    let rows := db.shards.filter fun s => s.dealId = r.dealId ∧ s.active = true
    (db, .deletes r (.dropping (rows.map ShardRow.shardCid) (rows.map ShardRow.providerAddress).eraseDups), [])
  | .deletes r (.dropping shardCIDs providerAddresses) =>
    writes db (env.dropShards r.dealId) (.deletes r (.logging shardCIDs providerAddresses)) .finished [] [serverError]
  | .deletes r (.logging shardCIDs providerAddresses) =>
    writes db (ApiEnv.logEvent (cancelledEvent r.dealId shardCIDs providerAddresses)) .finished .finished
      (cancelledMessages r.dealId shardCIDs providerAddresses ++
        [.responds 200 s!"Deal #{r.dealId} cancelled. {shardCIDs.length} shards queued for provider cleanup."])
      [serverError]
  | .selects =>
    match env.expiredDeals now db with
    | .ok dealIds => (db, .expires dealIds none, [])
    | .error _ => (db, .finished, [])
  | .expires [] none => (db, .finished, [])
  | .expires (dealId :: todo) none => (db, .expires todo (some (dealId, .updating)), [])
  | .expires todo (some (dealId, .updating)) =>
    writes db (env.completeDeal now dealId) (.expires todo (some (dealId, .dropping)))
      (.expires todo (some (dealId, .rollingBack))) [] []
  | .expires todo (some (dealId, .dropping)) =>
    writes db (env.dropShards dealId) (.expires todo (some (dealId, .logging)))
      (.expires todo (some (dealId, .rollingBack))) [] []
  | .expires todo (some (dealId, .logging)) =>
    writes db (ApiEnv.logEvent (expiredEvent dealId)) (.expires todo (some (dealId, .committing)))
      (.expires todo (some (dealId, .rollingBack))) [] []
  | .expires todo (some (dealId, .committing)) => (db, .expires todo none, [.emits .everybody { dealId }])
  | .expires todo (some (_, .rollingBack)) => (db, .expires todo none, [])
  | .completes dealId .updating => writes db (env.completeDeal now dealId) (.completes dealId .dropping) .finished [] []
  | .completes dealId .dropping => writes db (env.dropShards dealId) (.completes dealId .logging) .finished [] []
  | .completes dealId .logging => writes db (ApiEnv.logEvent (completedEvent dealId)) .finished .finished [] []
  | .cancels dealId client .updating =>
    writes db (env.cancelDeal dealId) (.cancels dealId client .dropping) .finished [] []
  | .cancels dealId client .dropping =>
    writes db (env.dropShards dealId) (.cancels dealId client .logging) .finished [] []
  | .cancels dealId client .logging =>
    writes db (ApiEnv.logEvent (cancelledOnChain dealId client)) .finished .finished [] []
  | .terminates dealId .updating => writes db (env.cancelDeal dealId) (.terminates dealId .dropping) .finished [] []
  | .terminates dealId .dropping => writes db (env.dropShards dealId) (.terminates dealId .logging) .finished [] []
  | .terminates dealId .logging => writes db (ApiEnv.logEvent (terminatedEvent dealId)) .finished .finished [] []
  | .finished => (db, .finished, [])

/-- The next statement fails by itself. -/
def Writer.fail : Writer → Writer × List ApiLog
  | .deletes _ _ => (.finished, [serverError])
  | .expires (dealId :: todo) none => (.expires todo (some (dealId, .rollingBack)), [])
  | .expires todo (some (_, .rollingBack)) => (.expires todo none, [])
  | .expires todo (some (dealId, _)) => (.expires todo (some (dealId, .rollingBack)), [])
  | .expires [] none | .selects | .completes _ _ | .cancels _ _ _ | .terminates _ _ | .finished => (.finished, [])

/-! ## The system -/

structure DealWriters where
  db : Database
  writers : List Writer := []
  deriving DecidableEq, Repr

inductive WriterEvent where
  | starts (w : Writer)
  | runs (i : Nat)
  | fails (i : Nat)
  | othersWrite (db : Database)
  deriving DecidableEq, Repr

structure WriterAction where
  now : Nat
  event : WriterEvent
  deriving DecidableEq, Repr

/-- What others do: they insert deals, and leave the statuses alone. -/
def OthersKeepStatuses (db db' : Database) : Prop :=
  (db'.deals.map DealRow.dealId).Nodup ∧ ∀ r ∈ db.deals, statusOf db' r.dealId = statusOf db r.dealId

instance (db db' : Database) : Decidable (OthersKeepStatuses db db') := inferInstanceAs (Decidable (_ ∧ _))

def DealWriters.step (env : ApiEnv) (s : DealWriters) (a : WriterAction) : Tx (DealWriters × List ApiLog) :=
  match a.event with
  | .starts w => do
    require (w.fresh = true) "not the start of a writer"
    return ({ s with writers := s.writers ++ [w] }, [])
  | .runs i =>
    match s.writers[i]? with
    | some w =>
      let (db, w', logs) := w.exec env a.now s.db
      .ok ({ db, writers := s.writers.set i w' }, logs)
    | none => .error (.reason "event not enabled")
  | .fails i =>
    match s.writers[i]? with
    | some w => .ok ({ s with writers := s.writers.set i w.fail.1 }, w.fail.2)
    | none => .error (.reason "event not enabled")
  | .othersWrite db => do
    require (OthersKeepStatuses s.db db) "not a statement of another service"
    return ({ s with db }, [])

/-! ## When a final status stays -/

def finalStatuses : List String := ["completed", "cancelled", "failed"]

/-- The deal that the next statement of a writer updates, and its new status. -/
def Writer.updates : Writer → Option (String × String)
  | .deletes r .updating => some (r.dealId, "cancelled")
  | .expires _ (some (dealId, .updating)) | .completes dealId .updating => some (dealId, "completed")
  | .cancels dealId _ .updating | .terminates dealId .updating => some (dealId, "cancelled")
  | _ => none

/-- The deals that a writer has seen as not ended, and has not updated yet. -/
def Writer.relies : Writer → List String
  | .deletes r .updating => [r.dealId]
  | .expires todo (some (dealId, .updating)) => dealId :: todo
  | .expires todo _ => todo
  | _ => []

/-- No update comes between the look of another writer and its own update, and a writer that has not looked finds a
deal that has not ended, or that has the same status. -/
def Undisturbed (s : DealWriters) (a : WriterAction) : Prop :=
  match a.event with
  | .runs i => ∀ w ∈ s.writers[i]?, ∀ u ∈ w.updates,
    (∀ j ∈ List.range s.writers.length, j ≠ i → ∀ w' ∈ s.writers[j]?, u.1 ∉ w'.relies) ∧
      (u.1 ∉ w.relies → ∀ status ∈ statusOf s.db u.1, status ∈ finalStatuses → status = u.2)
  | _ => True

instance (s : DealWriters) (a : WriterAction) : Decidable (Undisturbed s a) :=
  match a with
  | ⟨_, .runs i⟩ => inferInstanceAs (Decidable (∀ w ∈ s.writers[i]?, ∀ u ∈ w.updates,
      (∀ j ∈ List.range s.writers.length, j ≠ i → ∀ w' ∈ s.writers[j]?, u.1 ∉ w'.relies) ∧
        (u.1 ∉ w.relies → ∀ status ∈ statusOf s.db u.1, status ∈ finalStatuses → status = u.2)))
  | ⟨_, .starts _⟩ | ⟨_, .fails _⟩ | ⟨_, .othersWrite _⟩ => inferInstanceAs (Decidable True)

/-! ## What a statement does -/

section Statements

variable {env : ApiEnv} {db db' : Database} {now : Nat} {w w' : Writer} {logs : List ApiLog}

/-- The status after an update of one deal. -/
theorem statusOf_updateDeal {names : List String} {dealId status : String} {set : DealRow → DealRow}
    (hset : ∀ r, (set r).dealId = r.dealId ∧ (set r).status = status)
    (h : env.updateDeal names dealId set db = .ok db') :
    db'.deals.map DealRow.dealId = db.deals.map DealRow.dealId ∧
      ∀ d, statusOf db' d = if d = dealId then (statusOf db d).map fun _ => status else statusOf db d := by
  simp only [ApiEnv.updateDeal, bind_eq_ok, pure_eq_ok] at h
  obtain ⟨_, -, rfl⟩ := h
  have hid : ∀ r : DealRow, (if decide (r.dealId = dealId) = true then set r else r).dealId = r.dealId := by
    intro r
    split
    · exact (hset r).1
    · rfl
  refine ⟨map_update fun r => (hset r).1, fun d => ?_⟩
  unfold statusOf findDeal update
  rw [List.find?_map]
  have hsame : ((fun r : DealRow => decide (r.dealId = d)) ∘ fun r =>
      if decide (r.dealId = dealId) = true then set r else r) = fun r => decide (r.dealId = d) := by
    funext r
    show decide (_ = d) = _
    rw [hid]
  rw [hsame]
  cases hfind : db.deals.find? fun r => decide (r.dealId = d) with
  | none => simp
  | some r =>
    have hr : r.dealId = d := by simpa using List.find?_some hfind
    by_cases hd : d = dealId
    · simp [hd, hr, hset r]
    · simp [hd, hr]

/-- What the next statement of a writer can do: it looks, or writes something else, or updates a deal. -/
inductive WriteEffect (db : Database) (w : Writer) (db' : Database) (w' : Writer) : Prop
  | keeps (deals : db'.deals = db.deals)
      (relies : (db.deals.map DealRow.dealId).Nodup → w.relies.Nodup → w'.relies.Nodup ∧
        ∀ d ∈ w'.relies, d ∈ w.relies ∨ ∃ status, statusOf db d = some status ∧ status ∉ finalStatuses)
  | updates (u : String × String) (next : w.updates = some u)
      (ids : db'.deals.map DealRow.dealId = db.deals.map DealRow.dealId)
      (status : ∀ d, statusOf db' d = if d = u.1 then (statusOf db d).map fun _ => u.2 else statusOf db d)
      (relies : w.relies.Nodup → w'.relies.Nodup ∧ ∀ d ∈ w'.relies, d ∈ w.relies ∧ d ≠ u.1)

theorem WriteEffect.rests (hdeals : db'.deals = db.deals) (hrelies : w'.relies.Sublist w.relies) :
    WriteEffect db w db' w' :=
  .keeps hdeals fun _ hnodup => ⟨hnodup.sublist hrelies, fun _ hd => Or.inl (hrelies.subset hd)⟩

theorem writes_cases {statement : Database → Query Database} {next onError : Writer} {done failed : List ApiLog}
    (h : writes db statement next onError done failed = (db', w', logs)) :
    (statement db = .ok db' ∧ w' = next) ∨ (db' = db ∧ w' = onError) := by
  unfold writes at h
  split at h
  · next hok =>
    obtain ⟨rfl, rfl, -⟩ := h
    exact Or.inl ⟨hok, rfl⟩
  · obtain ⟨rfl, rfl, -⟩ := h
    exact Or.inr ⟨rfl, rfl⟩

theorem dropShards_deals {dealId : String} (h : env.dropShards dealId db = .ok db') : db'.deals = db.deals := by
  simp only [ApiEnv.dropShards, bind_eq_ok, pure_eq_ok] at h
  obtain ⟨_, -, rfl⟩ := h
  rfl

theorem logEvent_deals {event : ProtocolEvent} (h : ApiEnv.logEvent event db = .ok db') : db'.deals = db.deals := by
  cases h
  rfl

/-- A statement that leaves the deals alone. -/
theorem WriteEffect.of_writes {statement : Database → Query Database} {next onError : Writer}
    {done failed : List ApiLog} (h : writes db statement next onError done failed = (db', w', logs))
    (hdeals : ∀ db', statement db = .ok db' → db'.deals = db.deals) (hnext : next.relies.Sublist w.relies)
    (honError : onError.relies.Sublist w.relies) : WriteEffect db w db' w' := by
  obtain ⟨hok, rfl⟩ | ⟨rfl, rfl⟩ := writes_cases h
  · exact .rests (hdeals db' hok) hnext
  · exact .rests rfl honError

/-- A statement that updates a deal. -/
theorem WriteEffect.of_updates {names : List String} {dealId status : String} {set : DealRow → DealRow}
    {next onError : Writer} {done failed : List ApiLog}
    (h : writes db (env.updateDeal names dealId set) next onError done failed = (db', w', logs))
    (hset : ∀ r, (set r).dealId = r.dealId ∧ (set r).status = status) (hw : w.updates = some (dealId, status))
    (hnext : w.relies.Nodup → next.relies.Nodup ∧ ∀ d ∈ next.relies, d ∈ w.relies ∧ d ≠ dealId)
    (honError : onError.relies.Sublist w.relies) : WriteEffect db w db' w' := by
  obtain ⟨hok, rfl⟩ | ⟨rfl, rfl⟩ := writes_cases h
  · obtain ⟨hids, hstatus⟩ := statusOf_updateDeal hset hok
    exact .updates (dealId, status) hw hids hstatus hnext
  · exact .rests rfl honError

/-- What the query of the job returns are different deals, all of them active. -/
theorem expiredDeals_active {dealIds : List String} (hids : (db.deals.map DealRow.dealId).Nodup)
    (h : env.expiredDeals now db = .ok dealIds) :
    dealIds.Nodup ∧ ∀ d ∈ dealIds, statusOf db d = some "active" := by
  simp only [ApiEnv.expiredDeals, bind_eq_ok, pure_eq_ok] at h
  obtain ⟨_, -, rfl⟩ := h
  refine ⟨hids.sublist (List.filter_sublist.map _), fun d hd => ?_⟩
  obtain ⟨r, hr, rfl⟩ := List.mem_map.mp hd
  obtain ⟨hmem, hcond⟩ := List.mem_filter.mp hr
  simp only [Bool.decide_and, Bool.and_eq_true, decide_eq_true_eq] at hcond
  -- the row is the one that the id finds
  have hfind : findDeal db r.dealId = some r := by
    unfold findDeal
    cases hfound : db.deals.find? fun r' => decide (r'.dealId = r.dealId) with
    | none => simpa using List.find?_eq_none.mp hfound r hmem
    | some r' =>
      have hid : r'.dealId = r.dealId := by simpa using List.find?_some hfound
      rw [List.inj_on_of_nodup_map hids (List.mem_of_find?_eq_some hfound) hmem hid]
  unfold statusOf
  rw [hfind]
  exact congrArg some hcond.1

/-- What a statement of a writer does to the tables and to what the writer relies on, one case for each
statement. -/
theorem exec_effect (h : w.exec env now db = (db', w', logs)) : WriteEffect db w db' w' := by
  have hnil : ∀ {l : List String}, [].Sublist l := List.nil_sublist _
  cases w with
  | deletes r phase =>
    cases phase with
    | checking =>
      simp only [Writer.exec, checkRequest] at h
      split at h
      -- refused: no such deal, not active, or not signed by its client
      · obtain ⟨rfl, rfl, -⟩ := h
        exact .rests rfl hnil
      · next deal hdeal =>
        split at h
        · obtain ⟨rfl, rfl, -⟩ := h
          exact .rests rfl hnil
        · next hactive =>
          split at h
          · obtain ⟨rfl, rfl, -⟩ := h
            exact .rests rfl hnil
          · split at h
            · obtain ⟨rfl, rfl, -⟩ := h
              exact .rests rfl hnil
            · obtain ⟨rfl, rfl, -⟩ := h
              -- authorized: from now on the writer relies on the status that it has read, which is not final
              refine .keeps rfl fun _ _ => ⟨List.nodup_singleton _, fun d hd => Or.inr ⟨deal.status, ?_, ?_⟩⟩
              · obtain rfl := List.mem_singleton.mp hd
                unfold statusOf
                rw [hdeal]
                rfl
              · intro hfinal
                simp only [finalStatuses, List.mem_cons, List.not_mem_nil, or_false] at hfinal
                apply hactive
                rcases hfinal with hstatus | hstatus | hstatus <;> rw [hstatus] <;> decide
    -- the UPDATE ends the deal, and nothing is relied on any longer
    | updating =>
      exact .of_updates (w := .deletes r .updating) h (fun _ => ⟨rfl, rfl⟩) rfl
        (fun _ => ⟨List.nodup_nil, fun d hd => by cases hd⟩) hnil
    | reading =>
      obtain ⟨rfl, rfl, -⟩ := h
      exact .rests rfl hnil
    | dropping shardCIDs providerAddresses => exact .of_writes h (fun _ => dropShards_deals) hnil hnil
    | logging shardCIDs providerAddresses =>
      rw [Writer.exec] at h
      exact .of_writes h (fun _ => logEvent_deals) hnil hnil
  -- the SELECT of the job, whose deals are all active
  | selects =>
    simp only [Writer.exec] at h
    split at h
    · next dealIds hdealIds =>
      obtain ⟨rfl, rfl, -⟩ := h
      refine .keeps rfl fun hids _ => ?_
      obtain ⟨hnodup, hactive⟩ := expiredDeals_active hids hdealIds
      exact ⟨hnodup, fun d hd => Or.inr ⟨"active", hactive d hd, by decide⟩⟩
    · obtain ⟨rfl, rfl, -⟩ := h
      exact .rests rfl hnil
  | expires todo current =>
    cases current with
    | none =>
      cases todo with
      | nil =>
        obtain ⟨rfl, rfl, -⟩ := h
        exact .rests rfl hnil
      | cons dealId todo =>
        obtain ⟨rfl, rfl, -⟩ := h
        exact .rests rfl (List.Sublist.refl _)
    | some c =>
      obtain ⟨dealId, phase⟩ := c
      cases phase with
      | updating =>
        rw [Writer.exec] at h
        refine .of_updates (w := .expires todo (some (dealId, .updating))) h (fun _ => ⟨rfl, rfl⟩) rfl ?_
          (List.sublist_cons_self _ _)
        -- the identifiers are those of different deals, so that the others are still relied on
        intro hnodup
        obtain ⟨hnotMem, hnodup⟩ := List.nodup_cons.mp hnodup
        refine ⟨hnodup, fun d hd => ⟨List.mem_cons_of_mem _ hd, ?_⟩⟩
        rintro rfl
        exact hnotMem hd
      | dropping =>
        rw [Writer.exec] at h
        exact .of_writes (w := .expires todo (some (dealId, .dropping))) h (fun _ => dropShards_deals)
          (List.Sublist.refl todo) (List.Sublist.refl todo)
      | logging =>
        rw [Writer.exec] at h
        exact .of_writes (w := .expires todo (some (dealId, .logging))) h (fun _ => logEvent_deals)
          (List.Sublist.refl todo) (List.Sublist.refl todo)
      | committing | rollingBack =>
        rw [Writer.exec] at h
        obtain ⟨rfl, rfl, -⟩ := h
        exact .rests rfl (List.Sublist.refl todo)
  -- the remaining writers rely on nothing, as they look at no status before their UPDATE
  | completes dealId phase =>
    cases phase with
    | updating =>
      exact .of_updates (w := .completes dealId .updating) h (fun _ => ⟨rfl, rfl⟩) rfl
        (fun _ => ⟨List.nodup_nil, fun d hd => by cases hd⟩) hnil
    | dropping => exact .of_writes h (fun _ => dropShards_deals) hnil hnil
    | logging =>
      rw [Writer.exec] at h
      exact .of_writes h (fun _ => logEvent_deals) hnil hnil
  | cancels dealId client phase =>
    cases phase with
    | updating =>
      exact .of_updates (w := .cancels dealId client .updating) h (fun _ => ⟨rfl, rfl⟩) rfl
        (fun _ => ⟨List.nodup_nil, fun d hd => by cases hd⟩) hnil
    | dropping => exact .of_writes h (fun _ => dropShards_deals) hnil hnil
    | logging =>
      rw [Writer.exec] at h
      exact .of_writes h (fun _ => logEvent_deals) hnil hnil
  | terminates dealId phase =>
    cases phase with
    | updating =>
      exact .of_updates (w := .terminates dealId .updating) h (fun _ => ⟨rfl, rfl⟩) rfl
        (fun _ => ⟨List.nodup_nil, fun d hd => by cases hd⟩) hnil
    | dropping => exact .of_writes h (fun _ => dropShards_deals) hnil hnil
    | logging =>
      rw [Writer.exec] at h
      exact .of_writes h (fun _ => logEvent_deals) hnil hnil
  | finished =>
    obtain ⟨rfl, rfl, -⟩ := h
    exact .rests rfl hnil

/-- After a failure a writer relies on no more than before. -/
theorem fail_relies (w : Writer) : w.fail.1.relies.Sublist w.relies := by
  cases w with
  | expires todo current =>
    cases current with
    | none =>
      cases todo with
      | nil => exact List.nil_sublist _
      | cons dealId todo => exact List.sublist_cons_self _ _
    | some c =>
      obtain ⟨dealId, phase⟩ := c
      cases phase with
      | updating =>
        rw [Writer.fail]
        · exact List.sublist_cons_self _ _
        · nofun
      | dropping | logging | committing | rollingBack => simp [Writer.fail, Writer.relies]
  | deletes r phase | completes _ _ | cancels _ _ _ | terminates _ _ => exact List.nil_sublist _
  | selects | finished => exact List.nil_sublist _

end Statements

/-! ## What a writer has seen is still true -/

section Runs

variable {env : ApiEnv} {s s' : DealWriters} {a : WriterAction} {logs : List ApiLog}

/-- The deal is there and has not ended. -/
def Unended (db : Database) (d : String) : Prop := ∃ status, statusOf db d = some status ∧ status ∉ finalStatuses

structure Reliable (s : DealWriters) : Prop where
  keys : (s.db.deals.map DealRow.dealId).Nodup
  nodup : ∀ (j : Nat) (w : Writer), s.writers[j]? = some w → w.relies.Nodup
  seen : ∀ (j : Nat) (w : Writer), s.writers[j]? = some w → ∀ d ∈ w.relies, Unended s.db d

/-- A final status that is there stays. -/
def KeepsFinal (db db' : Database) : Prop :=
  ∀ d status, statusOf db d = some status → status ∈ finalStatuses → statusOf db' d = some status

/-- What a step can do. -/
inductive WritersEffect (env : ApiEnv) (s : DealWriters) (a : WriterAction) : DealWriters → Prop
  | starts (w : Writer) (fresh : w.fresh = true) : WritersEffect env s a { s with writers := s.writers ++ [w] }
  | runs (i : Nat) (w w' : Writer) (db : Database) (event : a.event = .runs i) (here : s.writers[i]? = some w)
      (effect : WriteEffect s.db w db w') : WritersEffect env s a { db, writers := s.writers.set i w' }
  | fails (i : Nat) (w : Writer) (here : s.writers[i]? = some w) :
      WritersEffect env s a { s with writers := s.writers.set i w.fail.1 }
  | others (db : Database) (keeps : OthersKeepStatuses s.db db) : WritersEffect env s a { s with db }

/-- The same for a step of any of the writers. -/
theorem writers_effect (h : DealWriters.step env s a = .ok (s', logs)) : WritersEffect env s a s' := by
  unfold DealWriters.step at h
  split at h
  · next w _ =>
    simp only [bind_eq_ok, require_eq_ok, pure_eq_ok] at h
    obtain ⟨_, hfresh, heq⟩ := h
    obtain ⟨rfl, -⟩ := Prod.ext_iff.mp heq
    exact .starts w hfresh
  · next i hevent =>
    split at h
    · next w hw =>
      obtain ⟨rfl, -⟩ := h
      exact .runs i w _ _ hevent hw (exec_effect rfl)
    · cases h
  · next i _ =>
    split at h
    · next w hw =>
      obtain ⟨rfl, -⟩ := h
      exact .fails i w hw
    · cases h
  · next db _ =>
    simp only [bind_eq_ok, require_eq_ok, pure_eq_ok] at h
    obtain ⟨_, hkeeps, heq⟩ := h
    obtain ⟨rfl, -⟩ := Prod.ext_iff.mp heq
    exact .others db hkeeps

theorem relies_of_fresh {w : Writer} (h : w.fresh = true) : w.relies = [] := by
  cases w with
  | deletes r phase => cases phase <;> first | rfl | cases h
  | expires todo current => cases h
  | selects | completes _ _ | cancels _ _ _ | terminates _ _ | finished => rfl

/-- One writer has moved, the others are where they were. -/
theorem Reliable.move {db : Database} {i : Nat} {w' : Writer} (h : Reliable s)
    (hkeys : (db.deals.map DealRow.dealId).Nodup) (hnodup : w'.relies.Nodup)
    (hself : ∀ d ∈ w'.relies, Unended db d)
    (hothers : ∀ (j : Nat) (w : Writer), j ≠ i → s.writers[j]? = some w → ∀ d ∈ w.relies,
      Unended s.db d → Unended db d) :
    Reliable { db, writers := s.writers.set i w' } := by
  refine ⟨hkeys, ?_, ?_⟩
  · intro j w hj
    simp only [List.getElem?_set] at hj
    split at hj
    · split at hj
      · cases hj
        exact hnodup
      · cases hj
    · exact h.nodup j w hj
  · intro j w hj
    simp only [List.getElem?_set] at hj
    split at hj
    · split at hj
      · cases hj
        exact hself
      · cases hj
    · next hne => exact fun d hd => hothers j w (Ne.symm hne) hj d hd (h.seen j w hj d hd)

theorem statusOf_of_deals {db db' : Database} (h : db'.deals = db.deals) (d : String) :
    statusOf db' d = statusOf db d := by
  unfold statusOf findDeal
  rw [h]

/-- The next statement of a writer, if it does not disturb another one. -/
theorem Reliable.runs {i : Nat} {w w' : Writer} {db : Database} (h : Reliable s) (ha : Undisturbed s a)
    (hevent : a.event = .runs i) (hi : s.writers[i]? = some w) (heffect : WriteEffect s.db w db w') :
    Reliable { db, writers := s.writers.set i w' } ∧ KeepsFinal s.db db := by
  cases heffect with
  | keeps hdeals hrelies =>
    have hsame := statusOf_of_deals hdeals
    obtain ⟨hnodup, hself⟩ := hrelies h.keys (h.nodup i w hi)
    have hkeeps : ∀ d, Unended s.db d → Unended db d := by
      intro d hd
      unfold Unended
      rw [hsame]
      exact hd
    constructor
    · refine h.move (hdeals ▸ h.keys) hnodup (fun d hd => hkeeps d ?_) fun _ _ _ _ d _ => hkeeps d
      rcases hself d hd with hmem | hunended
      · exact h.seen i w hi d hmem
      · exact hunended
    · intro d status hstatus _
      rw [hsame, hstatus]
  | updates u hnext hids hstatus hrelies =>
    unfold Undisturbed at ha
    simp only [hevent, hi, Option.mem_some_iff, forall_eq', hnext] at ha
    obtain ⟨halone, hlook⟩ := ha
    obtain ⟨hnodup, hself⟩ := hrelies (h.nodup i w hi)
    have helse : ∀ d, d ≠ u.1 → Unended s.db d → Unended db d := by
      intro d hne hd
      unfold Unended
      rw [hstatus, if_neg hne]
      exact hd
    constructor
    · refine h.move (hids ▸ h.keys) hnodup ?_ ?_
      · intro d hd
        obtain ⟨hmem, hne⟩ := hself d hd
        exact helse d hne (h.seen i w hi d hmem)
      · intro j w₁ hne hj d hd
        apply helse
        rintro rfl
        have hlt : j < s.writers.length := (List.getElem?_eq_some_iff.mp hj).1
        exact halone j (List.mem_range.mpr hlt) hne w₁ hj hd
    · intro d status hd hfinal
      rw [hstatus]
      split
      · next heq =>
        subst heq
        -- a deal that this writer has seen has not ended
        by_cases hmem : u.1 ∈ w.relies
        · obtain ⟨status', hstatus', hnot⟩ := h.seen i w hi u.1 hmem
          rw [hd] at hstatus'
          cases hstatus'
          exact absurd hfinal hnot
        · rw [hd, hlook hmem status hd hfinal]
          rfl
      · exact hd

/-- Undisturbed, a step keeps what the writers rely on, and every status that is final. -/
theorem reliable_step (h : Reliable s) (ha : Undisturbed s a) (hstep : DealWriters.step env s a = .ok (s', logs)) :
    Reliable s' ∧ KeepsFinal s.db s'.db := by
  cases writers_effect hstep with
  | starts w hfresh =>
    refine ⟨⟨h.keys, ?_, ?_⟩, fun _ _ hd _ => hd⟩
    all_goals
      intro j w₁ hj
      rcases Nat.lt_or_ge j s.writers.length with hlt | hge
      · rw [List.getElem?_append_left hlt] at hj
        first | exact h.nodup j w₁ hj | exact h.seen j w₁ hj
      · obtain rfl : w₁ = w := by
          rw [List.getElem?_append_right hge] at hj
          exact List.mem_singleton.mp (List.mem_of_getElem? hj)
        simp [relies_of_fresh hfresh]
  | runs i w w' db hevent hi heffect => exact h.runs ha hevent hi heffect
  | fails i w hi =>
    have hsub := fail_relies w
    refine ⟨h.move h.keys ((h.nodup i w hi).sublist hsub) (fun d hd => ?_) fun _ _ _ _ _ _ => id, fun _ _ hd _ => hd⟩
    exact h.seen i w hi d (hsub.subset hd)
  | others db hkeeps =>
    obtain ⟨hkeys, hsame⟩ := hkeeps
    have hstatus : ∀ d status, statusOf s.db d = some status → statusOf db d = some status := by
      intro d status hd
      obtain ⟨r, hr, -⟩ := Option.map_eq_some_iff.mp hd
      obtain rfl : r.dealId = d := by simpa using List.find?_some hr
      rw [hsame r (List.mem_of_find?_eq_some hr), hd]
    refine ⟨⟨hkeys, h.nodup, ?_⟩, fun d status hd _ => hstatus d status hd⟩
    intro j w hj d hd
    obtain ⟨status, hseen, hnot⟩ := h.seen j w hj d hd
    exact ⟨status, hstatus d status hseen, hnot⟩

/-- **A final status stays**, in every interleaving of the writers, with any statement failing, in which no update
comes between the look of another writer and its own update, and the writers that do not look find a deal that has not
ended, or has the same status. -/
theorem final_run (env : ApiEnv) (db : Database) (as bs : List WriterAction)
    (hkeys : (db.deals.map DealRow.dealId).Nodup)
    (hundisturbed : Meets (DealWriters.step env) Undisturbed { db } (as ++ bs)) :
    ∀ d status, statusOf (run (DealWriters.step env) { db } as).db d = some status → status ∈ finalStatuses →
      statusOf (run (DealWriters.step env) { db } (as ++ bs)).db d = some status := by
  obtain ⟨has, hbs⟩ := (meets_append _ as bs).mp hundisturbed
  have hinit : Reliable { db } := ⟨hkeys, fun _ _ hj => by simp at hj, fun _ _ hj => by simp at hj⟩
  have hreliable := run_invariant hinit (fun _ _ _ _ h ha hstep => (reliable_step h ha hstep).1) as has
  intro d status hd hfinal
  rw [run_append]
  refine (run_invariant (I := fun s => Reliable s ∧ statusOf s.db d = some status) ⟨hreliable, hd⟩ ?_ bs hbs).2
  rintro s a s' logs ⟨h, hd⟩ ha hstep
  obtain ⟨h', hkeeps⟩ := reliable_step h ha hstep
  exact ⟨h', hkeeps d status hd hfinal⟩

end Runs

/-! ### A race for the status -/

namespace SmallApi

def env : ApiEnv := .full (fun _ => some 1000) fun message signature address => signature = address ++ ":" ++ message

/-- One active deal, which expires at the time 1000, with one shard. -/
def db : Database where
  providers := [{ address := "0xPat" }]
  deals := [
    { dealId := "7", clientAddress := "0xAlice", fileCid := "Qm7", fileSizeGb := 1, totalCost := 100,
      providerPayment := 90, protocolFee := 10 }]
  shards := [{ dealId := "7", providerAddress := "0xPat", shardIndex := 0, shardCid := "bafy0" }]

def cancelRequest : Writer :=
  .deletes { dealId := "7", clientAddress := some "0xAlice", signature := some "0xAlice:cancel-deal-7" } .checking

/-- The request of the client runs to its end, then the job. -/
def inTurn : List WriterAction :=
  [.starts cancelRequest, .runs 0, .runs 0, .runs 0, .runs 0, .runs 0, .starts .selects, .runs 1, .runs 1].map
    (⟨2000, ·⟩)

/-- The deal stays cancelled. -/
theorem inTurn_final : Meets (DealWriters.step env) Undisturbed { db } (inTurn.take 3 ++ inTurn.drop 3) ∧
    statusOf (run (DealWriters.step env) { db } (inTurn.take 3)).db "7" = some "cancelled" ∧
      ∀ d status, statusOf (run (DealWriters.step env) { db } (inTurn.take 3)).db d = some status →
        status ∈ finalStatuses →
          statusOf (run (DealWriters.step env) { db } (inTurn.take 3 ++ inTurn.drop 3)).db d = some status := by
  have h : Meets (DealWriters.step env) Undisturbed { db } (inTurn.take 3 ++ inTurn.drop 3) := by
    rw [meets_iff_history]
    decide +kernel
  exact ⟨h, by decide +kernel, final_run env db (inTurn.take 3) (inTurn.drop 3) (by decide) h⟩

/-- The request has found the deal active when the job completes it, and cancels it all the same. -/
def race : List WriterAction :=
  [.starts cancelRequest, .runs 0, .starts .selects, .runs 1, .runs 1, .runs 1, .runs 0].map (⟨2000, ·⟩)

/-- The deal was completed and is cancelled. -/
theorem race_not_final : ¬ ∀ d status,
    statusOf (run (DealWriters.step env) { db } (race.take 6)).db d = some status → status ∈ finalStatuses →
      statusOf (run (DealWriters.step env) { db } race).db d = some status := by
  have hrace : statusOf (run (DealWriters.step env) { db } (race.take 6)).db "7" = some "completed" ∧
      statusOf (run (DealWriters.step env) { db } race).db "7" ≠ some "completed" := by
    decide +kernel
  intro h
  exact hrace.2 (h "7" "completed" hrace.1 (by decide))

end SmallApi

end Kyneto
