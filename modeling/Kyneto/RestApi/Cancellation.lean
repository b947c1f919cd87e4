import Kyneto.RestApi.Keys
import Kyneto.RestApi.Status

/-!
# Who can cancel a deal with the API?

`server.ts` has two handlers for `DELETE /api/deals/:id`. The first one asks for a signature of the client, the second
one only looks at a header. A request gets to the second one if the first one passes it on (`After.nexts`), and it never
does: every way through it ends with an answer (`FirstEffect`).

Requests are cut at their statements, as in `Kyneto.RestApi.Status`, and others may write to the database in between.
For requests whose fields are texts, the first handler is the writer of that module (`exec_deletes`).
-/

namespace Kyneto

open Evm Sql

/-! ## Requests -/

structure CancelBody where
  clientAddress : BodyValue
  signature : BodyValue
  deriving DecidableEq, Repr

/-- `DELETE /api/deals/:id`, with the header `x-client-address`. Without a body there may be no object at all. -/
structure DeleteRequest where
  dealId : String
  clientHeader : Option String := none
  body : Option CancelBody := none
  deriving DecidableEq, Repr

structure ServerEnv extends KeyEnv where
  api : ApiEnv

/-- What is sent out, to clients and to the sockets. -/
inductive ServerLog where
  | api (log : ApiLog)
  | protocolEvent (eventType description dealId : String)
  deriving DecidableEq, Repr

/-- What a handler does after a statement: it waits for the next one, answers, or calls `next()`. -/
inductive After (φ : Type) where
  | awaits (phase : φ)
  | answers
  | nexts
  deriving DecidableEq, Repr

/-- A statement that writes, with what comes after it. Errors are caught, and answered. -/
def tries {φ ε : Type} (db : Database) (statement : Database → Query Database) (next : After φ)
    (done failed : List ε) : Database × After φ × List ε :=
  match statement db with
  | .ok db' => (db', next, done)
  | .error _ => (db, .answers, failed)

/-! ## The first handler -/

def cancelMessage (dealId : String) : String := "cancel-deal-" ++ dealId

/-- Its first statement, and what it checks. -/
def checkFirst (env : ServerEnv) (db : Database) (r : DeleteRequest) : After DeletePhase × List ApiLog :=
  match findDeal db r.dealId with
  | none => (.answers, [.responds 404 "Deal not found"])
  | some deal =>
    if deal.status ≠ "active" ∧ deal.status ≠ "in_grace_period" then
      (.answers, [.responds 400 s!"Deal is already {deal.status}"])
    else
      match r.body with
      | none => (.answers, [serverError])
      | some body =>
        if ¬ body.clientAddress.truthy ∨ ¬ body.signature.truthy then
          (.answers, [.responds 400 "client_address and signature required"])
        else if ¬ verifySignature env.toKeyEnv (cancelMessage r.dealId) body.signature (.text deal.clientAddress) then
          (.answers, [.responds 401 "Invalid signature"])
        else (.awaits .updating, [])

def firstHandler (env : ServerEnv) (db : Database) (r : DeleteRequest) :
    DeletePhase → Database × After DeletePhase × List ApiLog
  | .checking => (db, checkFirst env db r)
  | .updating => tries db (env.api.cancelDeal r.dealId) (.awaits .reading) [] [serverError]
  | .reading =>
    let rows := db.shards.filter fun s => s.dealId = r.dealId ∧ s.active = true
    (db, .awaits (.dropping (rows.map ShardRow.shardCid) (rows.map ShardRow.providerAddress).eraseDups), [])
  | .dropping shardCIDs providerAddresses =>
    tries db (env.api.dropShards r.dealId) (.awaits (.logging shardCIDs providerAddresses)) [] [serverError]
  | .logging shardCIDs providerAddresses =>
    tries db (ApiEnv.logEvent (cancelledEvent r.dealId shardCIDs providerAddresses)) .answers
      (cancelledMessages r.dealId shardCIDs providerAddresses ++
        [.responds 200 s!"Deal #{r.dealId} cancelled. {shardCIDs.length} shards queued for provider cleanup."])
      [serverError]

/-! ## The second handler -/

inductive SecondPhase where
  | checking | updating | dropping | logging
  deriving DecidableEq, Repr

def cancelFailed : ServerLog := .api (.responds 500 "Failed to cancel deal")

/-- A header that is not there, or empty, is not compared. -/
def checkSecond (db : Database) (r : DeleteRequest) : After SecondPhase × List ServerLog :=
  match findDeal db r.dealId with
  | none => (.answers, [.api (.responds 404 "Deal not found")])
  | some deal =>
    if r.clientHeader.getD "" ≠ "" ∧ deal.clientAddress.toLower ≠ (r.clientHeader.getD "").toLower then
      (.answers, [.api (.responds 403 "Not authorized to cancel this deal")])
    else if deal.status ≠ "active" then
      (.answers, [.api (.responds 400 s!"Cannot cancel deal in status: {deal.status}")])
    else (.awaits .updating, [])

def cancelledByClient (r : DeleteRequest) : ProtocolEvent where
  eventType := "DEAL_CANCELLED"
  description := s!"Deal {r.dealId} cancelled by client"
  data := "\x7b\"dealId\":" ++ jsonString r.dealId ++
    (r.clientHeader.map fun header => ",\"clientAddress\":" ++ jsonString header).getD "" ++ "\x7d"

def secondHandler (env : ServerEnv) (db : Database) (r : DeleteRequest) :
    SecondPhase → Database × After SecondPhase × List ServerLog
  | .checking => (db, checkSecond db r)
  | .updating => tries db (env.api.cancelDeal r.dealId) (.awaits .dropping) [] [cancelFailed]
  | .dropping => tries db (env.api.dropShards r.dealId) (.awaits .logging) [] [cancelFailed]
  | .logging =>
    tries db (ApiEnv.logEvent (cancelledByClient r)) .answers
      [.protocolEvent "DEAL_CANCELLED" s!"Storage deal cancelled: {r.dealId}" r.dealId,
        .api (.emits .everybody { dealId := r.dealId }), .api (.responds 200 "Deal cancelled successfully")]
      [cancelFailed]

/-! ## The server -/

/-- How far a request has got. -/
inductive Progress where
  | first (phase : DeletePhase)
  | second (phase : SecondPhase)
  | ended
  deriving DecidableEq, Repr

/-- The handlers of the route, in the order in which they are registered. -/
def Progress.exec (env : ServerEnv) (db : Database) (r : DeleteRequest) :
    Progress → Database × Progress × List ServerLog
  | .first phase =>
    match firstHandler env db r phase with
    | (db', .awaits phase, logs) => (db', .first phase, logs.map .api)
    | (db', .answers, logs) => (db', .ended, logs.map .api)
    | (db', .nexts, logs) => (db', .second .checking, logs.map .api)
  | .second phase =>
    match secondHandler env db r phase with
    | (db', .awaits phase, logs) => (db', .second phase, logs)
    | (db', .answers, logs) => (db', .ended, logs)
    | (db', .nexts, logs) => (db', .ended, logs ++ [.api (.responds 404 "Cannot DELETE")])
  | .ended => (db, .ended, [])

/-- The next statement fails by itself. -/
def Progress.fail : Progress → List ServerLog
  | .first _ => [.api serverError]
  | .second _ => [cancelFailed]
  | .ended => []

structure CancelServer where
  db : Database
  requests : List (DeleteRequest × Progress) := []

inductive CancelAction where
  | arrives (r : DeleteRequest)
  | runs (i : Nat)
  | fails (i : Nat)
  | othersWrite (db : Database)

def CancelServer.step (env : ServerEnv) (s : CancelServer) : CancelAction → Tx (CancelServer × List ServerLog)
  | .arrives r => .ok ({ s with requests := s.requests ++ [(r, .first .checking)] }, [])
  | .runs i =>
    match s.requests[i]? with
    | some (r, progress) =>
      let (db, progress, logs) := progress.exec env s.db r
      .ok ({ db, requests := s.requests.set i (r, progress) }, logs)
    | none => .error (.reason "event not enabled")
  | .fails i =>
    match s.requests[i]? with
    | some (r, progress) => .ok ({ s with requests := s.requests.set i (r, .ended) }, progress.fail)
    | none => .error (.reason "event not enabled")
  | .othersWrite db => .ok ({ s with db }, [])

/-! ## What a request may do -/

def activeRows (db : Database) (dealId : String) : List ShardRow :=
  db.shards.filter fun r => r.dealId = dealId ∧ r.active = true

/-- The deal gets another status, or other active shards. -/
def Ends (db db' : Database) (dealId : String) : Prop :=
  statusOf db' dealId ≠ statusOf db dealId ∨ activeRows db' dealId ≠ activeRows db dealId

/-- The deal is open, and the request has a signature that recovers to the address of its client. -/
def Authorized (env : ServerEnv) (db : Database) (r : DeleteRequest) : Prop :=
  ∃ deal body account, findDeal db r.dealId = some deal ∧
    (deal.status = "active" ∨ deal.status = "in_grace_period") ∧ r.body = some body ∧
      env.verifyMessage (cancelMessage r.dealId) body.signature = some account ∧
        deal.clientAddress.toLower = hexAddress account

section Statements

variable {env : ServerEnv} {db db' : Database} {r : DeleteRequest} {d : String}

theorem not_ends_of_eq (hdeals : db'.deals = db.deals) (hshards : db'.shards = db.shards) : ¬ Ends db db' d := by
  rintro (hstatus | hactive)
  · exact hstatus (statusOf_of_deals hdeals d)
  · apply hactive
    unfold activeRows
    rw [hshards]

/-- Cancelling a deal ends no other. -/
theorem not_ends_cancelDeal (h : env.api.cancelDeal r.dealId db = .ok db') (hne : d ≠ r.dealId) : ¬ Ends db db' d := by
  have hset : ∀ x : DealRow, ({ x with status := "cancelled" } : DealRow).dealId = x.dealId ∧
      ({ x with status := "cancelled" } : DealRow).status = "cancelled" := fun _ => ⟨rfl, rfl⟩
  obtain ⟨-, hstatus⟩ := statusOf_updateDeal hset h
  simp only [ApiEnv.cancelDeal, ApiEnv.updateDeal, bind_eq_ok, pure_eq_ok] at h
  obtain ⟨_, -, rfl⟩ := h
  rintro (hends | hends)
  · apply hends
    rw [hstatus, if_neg hne]
  · exact hends rfl

/-- An update of rows that are not selected, before or after it. -/
theorem filter_update_of_forall {ρ : Type} {cond q : ρ → Bool} {set : ρ → ρ} {t : List ρ}
    (h : ∀ x, cond x = true → q x = false ∧ q (set x) = false) : (update cond set t).filter q = t.filter q := by
  induction t with
  | nil => rfl
  | cons x t ih =>
    have hrest : ((x :: t).map fun y => if cond y then set y else y).filter q =
        ([if cond x then set x else x].filter q) ++ (update cond set t).filter q := by
      rw [List.map_cons, ← List.singleton_append, List.filter_append]
      rfl
    show ((x :: t).map fun y => if cond y then set y else y).filter q = _
    rw [hrest, ih]
    by_cases hx : cond x = true
    · obtain ⟨hold, hnew⟩ := h x hx
      simp [hx, hold, hnew]
    · simp only [hx, Bool.false_eq_true, if_false]
      rw [← List.filter_append, List.singleton_append]

/-- Nor does dropping its shards. -/
theorem not_ends_dropShards (h : env.api.dropShards r.dealId db = .ok db') (hne : d ≠ r.dealId) : ¬ Ends db db' d := by
  have hdeals := dropShards_deals h
  simp only [ApiEnv.dropShards, bind_eq_ok, pure_eq_ok] at h
  obtain ⟨_, -, rfl⟩ := h
  rintro (hends | hends)
  · exact hends (statusOf_of_deals hdeals d)
  · apply hends
    apply filter_update_of_forall
    intro x hx
    have hid : x.dealId = r.dealId := by
      rw [decide_eq_true_eq] at hx
      exact hx.1
    simp [hid, Ne.symm hne]

/-- What the first handler does with a statement. It looks, writes to the rows of its deal after it has looked, or
answers. It never calls `next()`. -/
inductive FirstEffect (env : ServerEnv) (db : Database) (r : DeleteRequest) :
    DeletePhase → Database → After DeletePhase → Prop
  | looks (h : Authorized env db r) : FirstEffect env db r .checking db (.awaits .updating)
  | refuses : FirstEffect env db r .checking db .answers
  | writes {phase next : DeletePhase} {db' : Database} (hphase : phase ≠ .checking)
      (hothers : ∀ d, d ≠ r.dealId → ¬ Ends db db' d) : FirstEffect env db r phase db' (.awaits next)
  | finishes {phase : DeletePhase} {db' : Database} (hsame : ∀ d, ¬ Ends db db' d) :
      FirstEffect env db r phase db' .answers

/-- The checks look, or refuse. -/
theorem checkFirst_effect (env : ServerEnv) (db : Database) (r : DeleteRequest) :
    FirstEffect env db r .checking db (checkFirst env db r).1 := by
  unfold checkFirst
  split
  · exact .refuses
  · next deal hdeal =>
    split
    · exact .refuses
    · next hstatus =>
      split
      · exact .refuses
      · next body hbody =>
        split
        · exact .refuses
        · split
          · exact .refuses
          · next hsigned =>
            apply FirstEffect.looks
            obtain ⟨account, text, hrecovers, htext, haddress⟩ := verifySignature_eq_true.mp (not_not.mp hsigned)
            obtain rfl := BodyValue.text.inj htext
            exact ⟨deal, body, account, hdeal, by tauto, hbody, hrecovers, haddress⟩

theorem checkFirst_of_signed {deal : DealRow} {body : CancelBody} (hfind : findDeal db r.dealId = some deal)
    (hstatus : deal.status = "active" ∨ deal.status = "in_grace_period") (hbody : r.body = some body)
    (hfields : body.clientAddress.truthy = true ∧ body.signature.truthy = true)
    (hsigned : verifySignature env.toKeyEnv (cancelMessage r.dealId) body.signature (.text deal.clientAddress) = true) :
    checkFirst env db r = (.awaits .updating, []) := by
  unfold checkFirst
  rw [hfind, hbody]
  dsimp only
  rw [if_neg (by tauto), if_neg (by tauto), if_neg (not_not.mpr hsigned)]

theorem FirstEffect.of_tries {statement : Database → Query Database} {phase next : DeletePhase}
    {done failed : List ApiLog} (hphase : phase ≠ .checking)
    (hothers : ∀ db', statement db = .ok db' → ∀ d, d ≠ r.dealId → ¬ Ends db db' d) :
    FirstEffect env db r phase (tries db statement (.awaits next) done failed).1
      (tries db statement (.awaits next) done failed).2.1 := by
  unfold tries
  split
  · next db' hok => exact .writes hphase (hothers db' hok)
  · exact .finishes fun d => not_ends_of_eq rfl rfl

/-- The first handler looks, writes to the rows of its deal, or answers. -/
theorem firstHandler_effect (env : ServerEnv) (db : Database) (r : DeleteRequest) (phase : DeletePhase) :
    FirstEffect env db r phase (firstHandler env db r phase).1 (firstHandler env db r phase).2.1 := by
  cases phase with
  | checking => exact checkFirst_effect env db r
  | updating =>
    apply FirstEffect.of_tries
    · nofun
    · intro db' hok d hne
      exact not_ends_cancelDeal hok hne
  | reading =>
    apply FirstEffect.writes
    · nofun
    · intro d _
      exact not_ends_of_eq rfl rfl
  | dropping shardCIDs providerAddresses =>
    apply FirstEffect.of_tries
    · nofun
    · intro db' hok d hne
      exact not_ends_dropShards hok hne
  | logging shardCIDs providerAddresses =>
    apply FirstEffect.finishes
    intro d
    exact not_ends_of_eq rfl rfl

end Statements

/-! ### Requests with texts -/

/-- A field of a body that is a text, or left out. -/
def BodyValue.ofOption : Option String → BodyValue
  | some s => .text s
  | none => .missing

def CancelRequest.toDelete (r : CancelRequest) (clientHeader : Option String) : DeleteRequest where
  dealId := r.dealId
  clientHeader
  body := some { clientAddress := .ofOption r.clientAddress, signature := .ofOption r.signature }

def After.writer (r : CancelRequest) : After DeletePhase → Writer
  | .awaits phase => .deletes r phase
  | .answers | .nexts => .finished

theorem truthy_ofOption (o : Option String) : (BodyValue.ofOption o).truthy = true ↔ o.getD "" ≠ "" := by
  cases o with
  | none => simp [BodyValue.ofOption, BodyValue.truthy]
  | some s => simp [BodyValue.ofOption, BodyValue.truthy]

theorem writes_eq_tries (r : CancelRequest) (db : Database) (statement : Database → Query Database)
    (next : After DeletePhase) (done failed : List ApiLog) :
    writes db statement (next.writer r) .finished done failed =
      ((tries db statement next done failed).1, (tries db statement next done failed).2.1.writer r,
        (tries db statement next done failed).2.2) := by
  unfold writes tries
  cases statement db with
  | ok db' => rfl
  | error e => rfl

/-- The check of a request is the one at the head of the first handler. -/
theorem checkRequest_eq {env : ServerEnv} {r : CancelRequest} {db : Database}
    (hverify : ∀ message signature address, env.api.verifySignature message signature address =
      verifySignature env.toKeyEnv message (.text signature) (.text address)) (clientHeader : Option String) :
    checkRequest env.api db r =
      (db, (checkFirst env db (r.toDelete clientHeader)).1.writer r,
        (checkFirst env db (r.toDelete clientHeader)).2) := by
  have hfields_iff : (¬ (BodyValue.ofOption r.clientAddress).truthy = true ∨
      ¬ (BodyValue.ofOption r.signature).truthy = true) ↔ r.clientAddress.getD "" = "" ∨ r.signature.getD "" = "" := by
    rw [truthy_ofOption, truthy_ofOption, not_not, not_not]
  unfold checkRequest checkFirst
  dsimp only [CancelRequest.toDelete]
  cases findDeal db r.dealId with
  | none => rfl
  | some deal =>
    dsimp only
    by_cases hstatus : deal.status ≠ "active" ∧ deal.status ≠ "in_grace_period"
    · simp only [if_pos hstatus]
      rfl
    · simp only [if_neg hstatus]
      by_cases hfields : r.clientAddress.getD "" = "" ∨ r.signature.getD "" = ""
      · simp only [if_pos hfields, if_pos (hfields_iff.mpr hfields)]
        rfl
      · simp only [if_neg hfields, if_neg (mt hfields_iff.mp hfields), hverify]
        have hsignature : BodyValue.ofOption r.signature = .text (r.signature.getD "") := by
          cases hsome : r.signature with
          | none => simp [hsome] at hfields
          | some s => rfl
        rw [hsignature, show "cancel-deal-" ++ r.dealId = cancelMessage r.dealId from rfl]
        by_cases hsigned : verifySignature env.toKeyEnv (cancelMessage r.dealId) (.text (r.signature.getD ""))
          (.text deal.clientAddress) = true
        · simp only [hsigned]
          rfl
        · simp only [hsigned]
          rfl

/-- The first handler is the writer that cancels deals. -/
theorem exec_deletes {env : ServerEnv} {r : CancelRequest} {db : Database}
    (hverify : ∀ message signature address, env.api.verifySignature message signature address =
      verifySignature env.toKeyEnv message (.text signature) (.text address)) (now : Nat)
    (clientHeader : Option String) (phase : DeletePhase) :
    (Writer.deletes r phase).exec env.api now db =
      ((firstHandler env db (r.toDelete clientHeader) phase).1,
        (firstHandler env db (r.toDelete clientHeader) phase).2.1.writer r,
        (firstHandler env db (r.toDelete clientHeader) phase).2.2) := by
  cases phase with
  | checking => exact checkRequest_eq hverify clientHeader
  | updating => exact writes_eq_tries r db _ (.awaits .reading) _ _
  | reading => rfl
  | dropping shardCIDs providerAddresses =>
    exact writes_eq_tries r db _ (.awaits (.logging shardCIDs providerAddresses)) _ _
  | logging shardCIDs providerAddresses => rfl

/-! ## What a run may do -/

section Runs

variable {env : ServerEnv} {s s' : CancelServer} {hist : List (Entry CancelServer CancelAction ServerLog)}
  {a : CancelAction} {logs : List ServerLog}

/-- The request has looked at its deal, and was authorized to cancel it. -/
def Looked (env : ServerEnv) (hist : List (Entry CancelServer CancelAction ServerLog)) (i : Nat) (r : DeleteRequest) :
    Prop :=
  ∃ e ∈ hist, e.act = .runs i ∧ Authorized env e.pre.db r

theorem Looked.mono {i : Nat} {r : DeleteRequest} (h : Looked env hist i r)
    (e : Entry CancelServer CancelAction ServerLog) : Looked env (hist ++ [e]) i r := by
  obtain ⟨e₀, he₀, hlooked⟩ := h
  exact ⟨e₀, List.mem_append_left _ he₀, hlooked⟩

/-- The request is with the first handler, and has looked if it is past its first statement. -/
def Progress.Sound (looked : Prop) : Progress → Prop
  | .first .checking | .ended => True
  | .first _ => looked
  | .second _ => False

/-- The invariant: this is so for every request. -/
def Sound (env : ServerEnv) (s : CancelServer) (hist : List (Entry CancelServer CancelAction ServerLog)) : Prop :=
  ∀ (i : Nat) (r : DeleteRequest) (progress : Progress), s.requests[i]? = some (r, progress) →
    progress.Sound (Looked env hist i r)

theorem Progress.Sound.mono {looked looked' : Prop} {progress : Progress} (h : progress.Sound looked)
    (hmono : looked → looked') : progress.Sound looked' := by
  cases progress with
  | first phase =>
    cases phase with
    | checking => trivial
    | _ => exact hmono h
  | second phase => exact h
  | ended => trivial

theorem Progress.sound_of_looked {looked : Prop} {phase : DeletePhase} (h : looked) :
    (Progress.first phase).Sound looked := by
  cases phase with
  | checking => trivial
  | _ => exact h

/-- A statement of a request that is sound. -/
theorem exec_sound {i : Nat} {r : DeleteRequest} {progress : Progress} (hsound : progress.Sound (Looked env hist i r)) :
    (progress.exec env s.db r).2.1.Sound (Looked env hist i r ∨ Authorized env s.db r) ∧
      ∀ d, Ends s.db (progress.exec env s.db r).1 d → d = r.dealId ∧ Looked env hist i r := by
  cases progress with
  | second phase => exact hsound.elim
  | ended => exact ⟨trivial, fun d hends => absurd hends (not_ends_of_eq rfl rfl)⟩
  | first phase =>
    have heffect := firstHandler_effect env s.db r phase
    dsimp only [Progress.exec]
    generalize firstHandler env s.db r phase = result at heffect ⊢
    obtain ⟨db', after, logs⟩ := result
    dsimp only at heffect
    cases heffect with
    | looks h => exact ⟨Or.inr h, fun d hends => absurd hends (not_ends_of_eq rfl rfl)⟩
    | refuses => exact ⟨trivial, fun d hends => absurd hends (not_ends_of_eq rfl rfl)⟩
    | finishes hsame => exact ⟨trivial, fun d hends => absurd hends (hsame d)⟩
    | writes hphase hothers =>
      have hlooked : Looked env hist i r := by
        cases phase with
        | checking => exact absurd rfl hphase
        | _ => exact hsound
      refine ⟨Progress.sound_of_looked (Or.inl hlooked), fun d hends => ⟨?_, hlooked⟩⟩
      by_contra hne
      exact hothers d hne hends

/-- What the step of a request does. -/
theorem runs_effect {i : Nat} (h : s.step env (.runs i) = .ok (s', logs)) : ∃ r progress,
    s.requests[i]? = some (r, progress) ∧
      s' = { db := (progress.exec env s.db r).1,
             requests := s.requests.set i (r, (progress.exec env s.db r).2.1) } := by
  unfold CancelServer.step at h
  dsimp only at h
  split at h
  · next r progress hi =>
    obtain ⟨rfl, -⟩ := Prod.mk.inj (Except.ok.inj h)
    exact ⟨r, progress, hi, rfl⟩
  · cases h

theorem step_of_request {i : Nat} {r : DeleteRequest} {progress : Progress}
    (hi : s.requests[i]? = some (r, progress)) : s.step env (.runs i) =
      .ok ({ db := (progress.exec env s.db r).1, requests := s.requests.set i (r, (progress.exec env s.db r).2.1) },
        (progress.exec env s.db r).2.2) := by
  simp only [CancelServer.step, hi]

/-- The first statement of a request that is authorized. -/
theorem step_of_check {i : Nat} {r : DeleteRequest} (hi : s.requests[i]? = some (r, .first .checking))
    (hcheck : checkFirst env s.db r = (.awaits .updating, [])) :
    s.step env (.runs i) = .ok ({ s with requests := s.requests.set i (r, .first .updating) }, []) := by
  have hexec : Progress.exec env s.db r (.first .checking) = (s.db, .first .updating, []) := by
    simp only [Progress.exec, firstHandler, hcheck, List.map_nil]
  simp only [CancelServer.step, hi, hexec]

/-- The requests that have not moved. -/
theorem Sound.set {i : Nat} {r : DeleteRequest} {progress : Progress} {db : Database}
    {e : Entry CancelServer CancelAction ServerLog} (h : Sound env s hist)
    (hi : progress.Sound (Looked env (hist ++ [e]) i r)) :
    Sound env { db, requests := s.requests.set i (r, progress) } (hist ++ [e]) := by
  intro j r' progress' hj
  simp only [List.getElem?_set] at hj
  split at hj
  · next heq =>
    subst heq
    split at hj
    · obtain ⟨rfl, rfl⟩ := Prod.mk.inj (Option.some.inj hj)
      exact hi
    · cases hj
  · exact (h j r' progress' hj).mono fun hlooked => hlooked.mono e

/-- Every step keeps the invariant: who writes has looked. -/
theorem sound_step (h : Sound env s hist) (hstep : s.step env a = .ok (s', logs)) :
    Sound env s' (hist ++ [⟨s, a, logs, s'⟩]) := by
  cases a with
  | arrives r =>
    obtain ⟨rfl, -⟩ := Prod.mk.inj (Except.ok.inj hstep)
    intro j r' progress' hj
    rcases Nat.lt_or_ge j s.requests.length with hlt | hge
    · rw [List.getElem?_append_left hlt] at hj
      exact (h j r' progress' hj).mono fun hlooked => hlooked.mono _
    · rw [List.getElem?_append_right hge] at hj
      obtain ⟨rfl, rfl⟩ := Prod.mk.inj (List.mem_singleton.mp (List.mem_of_getElem? hj))
      trivial
  | runs i =>
    obtain ⟨r, progress, hi, rfl⟩ := runs_effect hstep
    apply h.set
    apply (exec_sound (h i r progress hi)).1.mono
    rintro (hlooked | hauthorized)
    · exact hlooked.mono _
    · exact ⟨_, List.mem_append_right _ (List.mem_singleton_self _), rfl, hauthorized⟩
  | fails i =>
    unfold CancelServer.step at hstep
    dsimp only at hstep
    split at hstep
    · obtain ⟨rfl, -⟩ := Prod.mk.inj (Except.ok.inj hstep)
      exact h.set trivial
    · cases hstep
  | othersWrite db =>
    obtain ⟨rfl, -⟩ := Prod.mk.inj (Except.ok.inj hstep)
    intro j r' progress' hj
    exact (h j r' progress' hj).mono fun hlooked => hlooked.mono _

/-- A statement of a request that ends a deal. -/
def Justified (env : ServerEnv) (early : List (Entry CancelServer CancelAction ServerLog))
    (e : Entry CancelServer CancelAction ServerLog) : Prop :=
  ∀ i, e.act = .runs i → ∀ dealId, Ends e.pre.db e.post.db dealId →
    ∃ r progress, e.pre.requests[i]? = some (r, progress) ∧ dealId = r.dealId ∧ Looked env early i r

theorem justified_step (h : Sound env s hist) (hstep : s.step env a = .ok (s', logs)) :
    Justified env hist ⟨s, a, logs, s'⟩ := by
  rintro i rfl dealId hends
  obtain ⟨r, progress, hi, rfl⟩ := runs_effect hstep
  obtain ⟨hid, hlooked⟩ := (exec_sound (h i r progress hi)).2 dealId hends
  exact ⟨r, progress, hi, hid, hlooked⟩

/-- **Only the client cancels a deal with the API.** In every run of requests, whatever they have in their headers and
bodies, with statements that fail, and with any writes of others in between: where a request gives a deal another
status or drops its shards, it has the signature of the client for this deal, and found the deal open when it
looked. No request gets to the second handler. -/
theorem cancelled_authorized (env : ServerEnv) (db : Database) (as : List CancelAction) :
    (∀ early e, early ++ [e] <+: history (CancelServer.step env) { db } as → Justified env early e) ∧
      ∀ r phase, (r, Progress.second phase) ∉ (run (CancelServer.step env) { db } as).requests := by
  have hrun : Sound env (run (CancelServer.step env) { db } as) (history (CancelServer.step env) { db } as) ∧
      ∀ early e, early ++ [e] <+: history (CancelServer.step env) { db } as → Justified env early e := by
    refine run_induction (C := fun _ _ => True)
      (P := fun s hist => Sound env s hist ∧ ∀ early e, early ++ [e] <+: hist → Justified env early e) ?_ ?_ as
      (meets_true _ as)
    · exact ⟨fun i r progress hi => by simp at hi, forall_prefix_nil⟩
    · rintro s hist a s' logs ⟨hsound, hall⟩ - hstep
      exact ⟨sound_step hsound hstep, forall_prefix_snoc.mpr ⟨hall, justified_step hsound hstep⟩⟩
  refine ⟨hrun.2, fun r phase hmem => ?_⟩
  obtain ⟨i, hi⟩ := List.getElem?_of_mem hmem
  exact hrun.1 i r _ hi

end Runs

namespace SmallServer

def env : ServerEnv where
  toKeyEnv := SmallKeys.env (.shipped fun _ => "")
  api := SmallApi.env

/-- The account has a deal. -/
def deal : DealRow where
  dealId := "7"
  clientAddress := hexAddress 10
  fileCid := "Qm7"
  fileSizeGb := 1
  totalCost := 100
  providerPayment := 90
  protocolFee := 10

def db : Database := { SmallApi.db with deals := [deal] }

/-- Whatever the header says. -/
def request : DeleteRequest where
  dealId := "7"
  clientHeader := some "0xBob"
  body := some { clientAddress := .text (hexAddress 10), signature := .text "0x7e11" }

def arrived : CancelServer where
  db
  requests := [(request, .first .checking)]

def looked : CancelServer where
  db
  requests := [(request, .first .updating)]

theorem step_looked : CancelServer.step env arrived (.runs 0) = .ok (looked, []) := by
  have hfind : findDeal db request.dealId = some deal := by decide +kernel
  have hsigned : verifySignature env.toKeyEnv (cancelMessage request.dealId) (.text "0x7e11")
      (.text deal.clientAddress) = true :=
    verifySignature_eq_true.mpr ⟨10, deal.clientAddress, rfl, rfl, toLower_hexAddress 10⟩
  have hcheck : checkFirst env db request = (.awaits .updating, []) :=
    checkFirst_of_signed hfind (Or.inl rfl) rfl (by decide +kernel) hsigned
  exact step_of_check rfl hcheck

/-- The request has the signature of the client, and its second statement cancels the deal. -/
theorem request_cancels : ∃ early e,
    early ++ [e] <+: history (CancelServer.step env) { db } [.arrives request, .runs 0, .runs 0] ∧
      e.act = .runs 0 ∧ Ends e.pre.db e.post.db "7" ∧ Justified env early e := by
  have harrives : CancelServer.step env { db } (.arrives request) = .ok (arrived, []) := rfl
  have hi : looked.requests[0]? = some (request, .first .updating) := rfl
  have hupdates : CancelServer.step env looked (.runs 0) = _ := step_of_request hi
  have hstatus : statusOf (Progress.exec env looked.db request (.first .updating)).1 "7" ≠ statusOf looked.db "7" := by
    decide +kernel
  generalize Progress.exec env looked.db request (.first .updating) = result at hupdates hstatus
  generalize looked.requests.set 0 (request, result.2.1) = requests at hupdates
  have hhistory : history (CancelServer.step env) { db } [.arrives request, .runs 0, .runs 0] =
      [⟨{ db }, .arrives request, [], arrived⟩, ⟨arrived, .runs 0, [], looked⟩] ++
        [⟨looked, .runs 0, result.2.2, ⟨result.1, requests⟩⟩] := by
    rw [history_cons_ok harrives, history_cons_ok step_looked, history_cons_ok hupdates]
    rfl
  have hjustified := (cancelled_authorized env db [.arrives request, .runs 0, .runs 0]).1
  rw [hhistory] at hjustified ⊢
  exact ⟨_, _, List.prefix_refl _, rfl, Or.inl hstatus, hjustified _ _ (List.prefix_refl _)⟩

end SmallServer

end Kyneto
