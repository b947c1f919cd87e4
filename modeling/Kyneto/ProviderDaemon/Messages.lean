import Kyneto.ProviderDaemon.Pins
import Kyneto.RestApi.Status

/-!
# The messages about ended deals

The server tells the daemons of ended deals with `deal:cancelled`: `DELETE /api/deals/:id` in the rooms of the providers
that had shards, with the content identifiers of all of them, and the job for expired deals to everybody, with the id
only. The handler of the daemon reads `providerAddresses`, a field that no message has.

Both copies of the daemon have the same handler. So no daemon can process any message, and `cancelled_run` says that
the protocol works out exactly where no message reaches a daemon.
-/

namespace Kyneto

open Evm Sql

namespace ProviderDaemon

/-! ## Delivery -/

/-- The socket of the daemon is in the room of its provider. -/
def hears (address : String) : Audience → Bool
  | .everybody => true
  | .room name => name = providerRoom address

/-- What a daemon unpins on a message. An exception ends the handler. -/
def unpins (address : String) : ApiLog → List String
  | .emits audience data =>
    if hears address audience then
      match cancelledCIDs address data with
      | .ok shardCIDs => shardCIDs
      | .error _ => []
    else []
  | .responds _ _ => []

/-- The active shards of a deal. -/
def activeShards (db : Database) (dealId : String) : List ShardRow :=
  db.shards.filter fun s => s.dealId = dealId ∧ s.active = true

/-- The connected daemons process all messages, and each unpins its own shards of the deal and nothing else. -/
structure Delivered (connected : List String) (shards : List ShardRow) (logs : List ApiLog) : Prop where
  processed : ∀ audience data, .emits audience data ∈ logs → ∀ address ∈ connected, hears address audience = true →
    ∃ shardCIDs, cancelledCIDs address data = .ok shardCIDs
  exact : ∀ address ∈ connected, ∀ cid, cid ∈ logs.flatMap (unpins address) ↔
    ∃ s ∈ shards, s.providerAddress.toLower = address.toLower ∧ s.shardCid = cid

/-! ## What the server emits -/

section Emits

variable {env : ApiEnv} {db db' : Database} {now : Nat} {w w' : Writer} {logs : List ApiLog}

/-- No message about the deal has the addresses of the providers. -/
def Anonymous (logs : List ApiLog) : Prop :=
  ∀ audience data, .emits audience data ∈ logs → data.providerAddresses = none

theorem anonymous_nil : Anonymous [] := nofun

theorem anonymous_responds (status : Nat) (text : String) : Anonymous [.responds status text] := by
  intro audience data h
  cases List.mem_singleton.mp h

theorem anonymous_cancelled (dealId : String) (shardCIDs providerAddresses : List String) (status : Nat)
    (text : String) : Anonymous (cancelledMessages dealId shardCIDs providerAddresses ++ [.responds status text]) := by
  intro audience data h
  rcases List.mem_append.mp h with h | h
  · obtain ⟨_, -, heq⟩ := List.mem_map.mp h
    cases heq
    rfl
  · exact anonymous_responds status text audience data h

theorem writes_anonymous {statement : Database → Query Database} {next onError : Writer} {done failed : List ApiLog}
    (hdone : Anonymous done) (hfailed : Anonymous failed) :
    Anonymous (writes db statement next onError done failed).2.2 := by
  unfold writes
  split
  · exact hdone
  · exact hfailed

/-- No message of the writer has a shard or a provider in it. -/
theorem exec_anonymous (w : Writer) : Anonymous (w.exec env now db).2.2 := by
  have hnil := anonymous_nil
  have herror : Anonymous [serverError] := anonymous_responds _ _
  cases w with
  | deletes r phase =>
    cases phase with
    | checking =>
      simp only [Writer.exec, checkRequest]
      split
      · exact anonymous_responds _ _
      · split
        · exact anonymous_responds _ _
        · split
          · exact anonymous_responds _ _
          · split
            · exact anonymous_responds _ _
            · exact hnil
    | updating => exact writes_anonymous hnil herror
    | reading => exact hnil
    | dropping shardCIDs providerAddresses => exact writes_anonymous hnil herror
    | logging shardCIDs providerAddresses => exact writes_anonymous (anonymous_cancelled _ _ _ _ _) herror
  | selects =>
    simp only [Writer.exec]
    split <;> exact hnil
  | expires todo current =>
    cases current with
    | none => cases todo <;> exact hnil
    | some c =>
      obtain ⟨dealId, phase⟩ := c
      cases phase with
      | updating | dropping | logging =>
        rw [Writer.exec]
        exact writes_anonymous hnil hnil
      | committing =>
        rw [Writer.exec]
        intro audience data h
        cases List.mem_singleton.mp h
        rfl
      | rollingBack =>
        rw [Writer.exec]
        exact hnil
  | completes dealId phase | terminates dealId phase => cases phase <;> exact writes_anonymous hnil hnil
  | cancels dealId client phase => cases phase <;> exact writes_anonymous hnil hnil
  | finished => exact hnil

/-- Neither has one after a failure. -/
theorem fail_anonymous (w : Writer) : Anonymous w.fail.2 := by
  cases w with
  | deletes r phase => exact anonymous_responds _ _
  | expires todo current =>
    cases current with
    | none => cases todo <;> exact anonymous_nil
    | some c =>
      obtain ⟨dealId, phase⟩ := c
      cases phase <;> simp [Writer.fail, anonymous_nil]
  | selects | completes _ _ | cancels _ _ _ | terminates _ _ | finished => exact anonymous_nil

/-- The handler does not get past a message without addresses. -/
theorem cancelledCIDs_anonymous {data : CancelledMessage} (h : data.providerAddresses = none) (address : String) :
    cancelledCIDs address data = .error "Cannot read properties of undefined (reading 'some')" := by
  unfold cancelledCIDs
  rw [h]
  rfl

end Emits

/-! ## Where the fields come from -/

section Reading

variable {env : ApiEnv} {s s' : DealWriters} {a : WriterAction} {logs : List ApiLog} {r : CancelRequest}
  {shardCIDs providerAddresses : List String}

/-- What a request has read, between the query for the shards and the end. -/
def HasRead (r : CancelRequest) (shardCIDs providerAddresses : List String) (w : Writer) : Prop :=
  w = .deletes r (.dropping shardCIDs providerAddresses) ∨ w = .deletes r (.logging shardCIDs providerAddresses)

/-- The query that read it. -/
def ReadIn (i : Nat) (r : CancelRequest) (shardCIDs providerAddresses : List String)
    (e : Entry DealWriters WriterAction ApiLog) : Prop :=
  e.act.event = .runs i ∧ e.pre.writers[i]? = some (.deletes r .reading) ∧
    shardCIDs = (activeShards e.pre.db r.dealId).map ShardRow.shardCid ∧
      providerAddresses = ((activeShards e.pre.db r.dealId).map ShardRow.providerAddress).eraseDups

theorem not_hasRead_finished : ¬ HasRead r shardCIDs providerAddresses .finished := by
  rintro (h | h) <;> cases h

theorem hasRead_of_writes {db : Database} {statement : Database → Query Database} {next : Writer}
    {done failed : List ApiLog}
    (h : HasRead r shardCIDs providerAddresses (writes db statement next .finished done failed).2.1) :
    HasRead r shardCIDs providerAddresses next := by
  unfold writes at h
  split at h
  · exact h
  · exact absurd h not_hasRead_finished

/-- What a statement leaves in the hands of a writer, the writer has read before or reads now. -/
theorem exec_hasRead {db : Database} {now : Nat} {w : Writer}
    (h : HasRead r shardCIDs providerAddresses (w.exec env now db).2.1) :
    HasRead r shardCIDs providerAddresses w ∨ w = .deletes r .reading ∧
      shardCIDs = (activeShards db r.dealId).map ShardRow.shardCid ∧
        providerAddresses = ((activeShards db r.dealId).map ShardRow.providerAddress).eraseDups := by
  cases w with
  | deletes r' phase =>
    cases phase with
    | checking =>
      exfalso
      -- the first statement reads the deal only
      simp only [Writer.exec, checkRequest] at h
      split at h
      · exact not_hasRead_finished h
      · split at h
        · exact not_hasRead_finished h
        · split at h
          · exact not_hasRead_finished h
          · split at h
            · exact not_hasRead_finished h
            · rcases h with h | h <;> cases h
    | updating => rcases hasRead_of_writes h with h | h <;> cases h
    | reading =>
      rcases h with h | h
      -- `SELECT` of the shards: the writer has them in its hands
      · cases h
        exact Or.inr ⟨rfl, rfl, rfl⟩
      · cases h
    | dropping c p =>
      rcases hasRead_of_writes h with h | h
      · cases h
      · cases h
        exact Or.inl (Or.inl rfl)
    | logging c p => exact absurd (hasRead_of_writes h) not_hasRead_finished
  | selects =>
    simp only [Writer.exec] at h
    -- the other writers read other things
    split at h <;> rcases h with h | h <;> cases h
  | expires todo current =>
    -- the job goes on as the job
    obtain ⟨todo', current', heq⟩ | heq : (∃ todo' current', ((Writer.expires todo current).exec env now db).2.1 =
        .expires todo' current') ∨ ((Writer.expires todo current).exec env now db).2.1 = .finished := by
      cases current with
      | none =>
        cases todo with
        | nil => exact Or.inr rfl
        | cons dealId todo => exact Or.inl ⟨_, _, rfl⟩
      | some c =>
        obtain ⟨dealId, phase⟩ := c
        left
        cases phase with
        | updating | dropping | logging =>
          rw [Writer.exec]
          unfold writes
          split <;> exact ⟨_, _, rfl⟩
        | committing | rollingBack =>
          rw [Writer.exec]
          exact ⟨_, _, rfl⟩
    · rw [heq] at h
      rcases h with h | h <;> cases h
    · rw [heq] at h
      exact absurd h not_hasRead_finished
  | completes dealId phase | terminates dealId phase =>
    cases phase <;> rcases hasRead_of_writes h with h | h <;> cases h
  | cancels dealId client phase => cases phase <;> rcases hasRead_of_writes h with h | h <;> cases h
  | finished => exact absurd h not_hasRead_finished

/-- After a failure the writer has nothing in its hands. -/
theorem fail_not_hasRead {w : Writer} : ¬ HasRead r shardCIDs providerAddresses w.fail.1 := by
  cases w with
  | expires todo current =>
    cases current with
    | none => cases todo <;> rintro (h | h) <;> cases h
    | some c =>
      obtain ⟨dealId, phase⟩ := c
      cases phase <;> simp [Writer.fail, HasRead]
  | deletes _ _ | selects | completes _ _ | cancels _ _ _ | terminates _ _ | finished => exact not_hasRead_finished

/-- What a writer has read, it has read at a step of its own. -/
theorem hasRead_step (hstep : DealWriters.step env s a = .ok (s', logs)) {i : Nat} {w : Writer}
    (hw : s'.writers[i]? = some w) (h : HasRead r shardCIDs providerAddresses w) :
    (∃ w₀, s.writers[i]? = some w₀ ∧ HasRead r shardCIDs providerAddresses w₀) ∨
      ReadIn i r shardCIDs providerAddresses ⟨s, a, logs, s'⟩ := by
  unfold DealWriters.step at hstep
  split at hstep
  · next w₁ _ =>
    simp only [bind_eq_ok, require_eq_ok, pure_eq_ok] at hstep
    obtain ⟨_, hfresh, heq⟩ := hstep
    -- a writer that starts has read nothing
    obtain ⟨rfl, -⟩ := Prod.ext_iff.mp heq
    left
    rcases Nat.lt_or_ge i s.writers.length with hlt | hge
    · rw [List.getElem?_append_left hlt] at hw
      exact ⟨w, hw, h⟩
    · rw [List.getElem?_append_right hge] at hw
      obtain rfl := List.mem_singleton.mp (List.mem_of_getElem? hw)
      exfalso
      rcases h with rfl | rfl <;> cases hfresh
  · next j hevent =>
    split at hstep
    · next w₁ hw₁ =>
      cases hstep
      rw [List.getElem?_set] at hw
      -- the writer itself has moved on, or another one
      split at hw
      · next heq =>
        subst heq
        split at hw
        · cases hw
          rcases exec_hasRead h with h | ⟨rfl, hcids, haddresses⟩
          · exact Or.inl ⟨w₁, hw₁, h⟩
          · exact Or.inr ⟨hevent, hw₁, hcids, haddresses⟩
        · cases hw
      · exact Or.inl ⟨w, hw, h⟩
    · cases hstep
  · next j _ =>
    -- a statement that fails leaves nothing in hand
    split at hstep
    · next w₁ _ =>
      cases hstep
      rw [List.getElem?_set] at hw
      split at hw
      · split at hw
        · cases hw
          exact absurd h fail_not_hasRead
        · cases hw
      · exact Or.inl ⟨w, hw, h⟩
    · cases hstep
  · simp only [bind_eq_ok, require_eq_ok, pure_eq_ok] at hstep
    obtain ⟨_, -, heq⟩ := hstep
    obtain ⟨rfl, -⟩ := Prod.ext_iff.mp heq
    exact Or.inl ⟨w, hw, h⟩

end Reading

/-! ## When the protocol works out -/

section Protocol

variable {env : ApiEnv} {connected : List String} {shards : List ShardRow} {logs : List ApiLog}

theorem providerRoom_eq_iff {a b : String} : providerRoom a = providerRoom b ↔ a.toLower = b.toLower := by
  unfold providerRoom
  rw [← String.toList_inj, String.toList_append, String.toList_append, List.append_cancel_left_eq, String.toList_inj]

/-- No daemon unpins anything on a message without addresses. -/
theorem unpins_anonymous (h : Anonymous logs) (address cid : String) : cid ∉ logs.flatMap (unpins address) := by
  intro hmem
  obtain ⟨log, hlog, hcid⟩ := List.mem_flatMap.mp hmem
  cases log with
  | responds status text => cases hcid
  | emits audience data =>
    simp only [unpins, cancelledCIDs_anonymous (h audience data hlog), ite_self, List.not_mem_nil] at hcid

/-- Without addresses, the protocol works out only where nobody hears and nobody has to unpin. -/
theorem delivered_iff (h : Anonymous logs) :
    Delivered connected shards logs ↔
      (∀ audience data, .emits audience data ∈ logs → ∀ address ∈ connected, hears address audience = false) ∧
        ∀ address ∈ connected, ∀ s ∈ shards, s.providerAddress.toLower ≠ address.toLower := by
  constructor
  · intro hdelivered
    constructor
    · intro audience data hlog address haddress
      by_contra hhears
      obtain ⟨cids, hcids⟩ := hdelivered.processed audience data hlog address haddress (by simpa using hhears)
      rw [cancelledCIDs_anonymous (h audience data hlog)] at hcids
      cases hcids
    · intro address haddress s hs heq
      exact unpins_anonymous h address _ ((hdelivered.exact address haddress s.shardCid).mpr ⟨s, hs, heq, rfl⟩)
  · rintro ⟨hdeaf, hnone⟩
    refine ⟨fun audience data hlog address haddress hhears => ?_, fun address haddress cid => ?_⟩
    · rw [hdeaf audience data hlog address haddress] at hhears
      cases hhears
    · constructor
      · exact fun hmem => absurd hmem (unpins_anonymous h address cid)
      · rintro ⟨s, hs, heq, -⟩
        exact absurd heq (hnone address haddress s hs)

/-- The end of a request, with what it has read. -/
theorem delivered_deletes_iff {db : Database} {now : Nat} {r : CancelRequest} :
    Delivered connected shards ((Writer.deletes r (.logging (shards.map ShardRow.shardCid)
        (shards.map ShardRow.providerAddress).eraseDups)).exec env now db).2.2 ↔
      ∀ address ∈ connected, ∀ s ∈ shards, s.providerAddress.toLower ≠ address.toLower := by
  rw [delivered_iff (exec_anonymous _)]
  refine ⟨And.right, fun hnone => ⟨?_, hnone⟩⟩
  intro audience data hlog address haddress
  rcases List.mem_append.mp hlog with hlog | hlog
  · obtain ⟨provider, hprovider, heq⟩ := List.mem_map.mp hlog
    obtain ⟨s, hs, rfl⟩ := List.mem_map.mp (List.mem_eraseDups.mp hprovider)
    cases heq
    unfold hears
    rw [decide_eq_false_iff_not, providerRoom_eq_iff]
    exact hnone address haddress s hs
  · cases List.mem_singleton.mp hlog

/-- The end of the job for a deal. -/
theorem delivered_expires_iff {db : Database} {now : Nat} {todo : List String} {dealId : String} :
    Delivered connected shards ((Writer.expires todo (some (dealId, .committing))).exec env now db).2.2 ↔
      connected = [] := by
  rw [delivered_iff (exec_anonymous _)]
  constructor
  · rintro ⟨hdeaf, -⟩
    rw [Writer.exec] at hdeaf
    apply List.eq_nil_iff_forall_not_mem.mpr
    intro address haddress
    have hfalse := hdeaf .everybody { dealId } (List.mem_singleton_self _) address haddress
    cases hfalse
  · rintro rfl
    exact ⟨fun _ _ _ => List.forall_mem_nil _, List.forall_mem_nil _⟩

theorem logs_of_runs {s s' : DealWriters} {a : WriterAction} {i : Nat} {w : Writer}
    (h : DealWriters.step env s a = .ok (s', logs)) (hevent : a.event = .runs i) (hw : s.writers[i]? = some w) :
    logs = (w.exec env a.now s.db).2.2 := by
  unfold DealWriters.step at h
  rw [hevent] at h
  simp only [hw] at h
  cases h
  rfl

/-- So no step sends a message with a shard or a provider in it. -/
theorem step_anonymous {s s' : DealWriters} {a : WriterAction} (h : DealWriters.step env s a = .ok (s', logs)) :
    Anonymous logs := by
  unfold DealWriters.step at h
  split at h
  · simp only [bind_eq_ok, require_eq_ok, pure_eq_ok] at h
    obtain ⟨_, -, heq⟩ := h
    obtain ⟨-, rfl⟩ := Prod.ext_iff.mp heq
    exact anonymous_nil
  · split at h
    · cases h
      exact exec_anonymous _
    · cases h
  · split at h
    · cases h
      exact fail_anonymous _
    · cases h
  · simp only [bind_eq_ok, require_eq_ok, pure_eq_ok] at h
    obtain ⟨_, -, heq⟩ := h
    obtain ⟨-, rfl⟩ := Prod.ext_iff.mp heq
    exact anonymous_nil

/-- What a request has read it has read in the run. -/
theorem hasRead_run (env : ApiEnv) (db : Database) (as : List WriterAction) :
    ∀ e ∈ history (DealWriters.step env) { db } as, ∀ i r shardCIDs providerAddresses w,
      e.pre.writers[i]? = some w → HasRead r shardCIDs providerAddresses w →
        ∃ e₀ ∈ history (DealWriters.step env) { db } as, ReadIn i r shardCIDs providerAddresses e₀ := by
  refine (run_induction
    (P := fun (s : DealWriters) (hist : List (Entry DealWriters WriterAction ApiLog)) =>
      (∀ (i : Nat) (r : CancelRequest) (shardCIDs providerAddresses : List String) (w : Writer),
        s.writers[i]? = some w → HasRead r shardCIDs providerAddresses w →
          ∃ e₀ ∈ hist, ReadIn i r shardCIDs providerAddresses e₀) ∧
      ∀ e ∈ hist, ∀ (i : Nat) (r : CancelRequest) (shardCIDs providerAddresses : List String) (w : Writer),
        e.pre.writers[i]? = some w → HasRead r shardCIDs providerAddresses w →
          ∃ e₀ ∈ hist, ReadIn i r shardCIDs providerAddresses e₀) ?_ ?_ as (meets_true _ as)).2
  · exact ⟨fun i _ _ _ w hw => by simp at hw, nofun⟩
  · rintro s hist a s' logs ⟨hnow, hpast⟩ _ hstep
    have hgrows : ∀ {i r shardCIDs providerAddresses}, (∃ e₀ ∈ hist, ReadIn i r shardCIDs providerAddresses e₀) →
        ∃ e₀ ∈ hist ++ [⟨s, a, logs, s'⟩], ReadIn i r shardCIDs providerAddresses e₀ := by
      rintro i r shardCIDs providerAddresses ⟨e₀, he₀, hread⟩
      exact ⟨e₀, List.mem_append_left _ he₀, hread⟩
    constructor
    · intro i r shardCIDs providerAddresses w hw h
      rcases hasRead_step hstep hw h with ⟨w₀, hw₀, h₀⟩ | hread
      · exact hgrows (hnow i r shardCIDs providerAddresses w₀ hw₀ h₀)
      · exact ⟨_, List.mem_append_right _ (List.mem_singleton_self _), hread⟩
    · intro e he i r shardCIDs providerAddresses w hw h
      rcases List.mem_append.mp he with he | he
      · exact hgrows (hpast e he i r shardCIDs providerAddresses w hw h)
      · obtain rfl := List.mem_singleton.mp he
        exact hgrows (hnow i r shardCIDs providerAddresses w hw h)

/-- **The cancellation messages** in every run of the writers: no daemon processes any of them, and they do what they
should exactly if no connected provider had active shards of the deal when `DELETE /api/deals/:id` read them, and for
an expired deal exactly if no provider is connected. -/
theorem cancelled_run (env : ApiEnv) (db : Database) (as : List WriterAction) (connected : List String) :
    ∀ e ∈ history (DealWriters.step env) { db } as,
      (∀ audience data, .emits audience data ∈ e.logs → ∀ address, ∃ error, cancelledCIDs address data = .error error) ∧
      (∀ i r shardCIDs providerAddresses, e.act.event = .runs i →
        e.pre.writers[i]? = some (.deletes r (.logging shardCIDs providerAddresses)) →
          ∃ e₀ ∈ history (DealWriters.step env) { db } as, ReadIn i r shardCIDs providerAddresses e₀ ∧
            (Delivered connected (activeShards e₀.pre.db r.dealId) e.logs ↔
              ∀ address ∈ connected, ∀ s ∈ activeShards e₀.pre.db r.dealId,
                s.providerAddress.toLower ≠ address.toLower)) ∧
      ∀ i todo dealId, e.act.event = .runs i →
        e.pre.writers[i]? = some (.expires todo (some (dealId, .committing))) →
          ∀ shards, Delivered connected shards e.logs ↔ connected = [] := by
  intro e he
  have hstep := history_ok he
  refine ⟨?_, ?_, ?_⟩
  · intro audience data hlog address
    exact ⟨_, cancelledCIDs_anonymous (step_anonymous hstep audience data hlog) address⟩
  · intro i r shardCIDs providerAddresses hevent hw
    obtain ⟨e₀, he₀, hread⟩ := hasRead_run env db as e he i r shardCIDs providerAddresses _ hw (Or.inr rfl)
    refine ⟨e₀, he₀, hread, ?_⟩
    obtain ⟨-, -, rfl, rfl⟩ := hread
    rw [logs_of_runs hstep hevent hw]
    exact delivered_deletes_iff
  · intro i todo dealId hevent hw shards
    rw [logs_of_runs hstep hevent hw]
    exact delivered_expires_iff

end Protocol

/-! ### One provider, connected or not -/

namespace SmallDaemon

/-- The deal expires. -/
def expiry : List WriterAction :=
  [.starts .selects, .runs 0, .runs 0, .runs 0, .runs 0, .runs 0, .runs 0].map (⟨2000, ·⟩)

/-- Nobody is connected, and nothing goes wrong. -/
theorem expiry_delivered : ∃ e ∈ history (DealWriters.step SmallApi.env) { db := SmallApi.db } expiry,
    e.logs = [.emits .everybody { dealId := "7" }] ∧ Delivered [] (activeShards SmallApi.db "7") e.logs := by
  obtain ⟨e, he, hevent, hw, hlogs⟩ :
      ∃ e ∈ history (DealWriters.step SmallApi.env) { db := SmallApi.db } expiry, e.act.event = .runs 0 ∧
        e.pre.writers[0]? = some (.expires [] (some ("7", .committing))) ∧
          e.logs = [.emits .everybody { dealId := "7" }] := by
    decide +kernel
  exact ⟨e, he, hlogs, ((cancelled_run SmallApi.env SmallApi.db expiry [] e he).2.2 0 [] "7" hevent hw _).mpr rfl⟩

/-- The client cancels a deal of a provider that is connected: the provider keeps its shard. -/
theorem cancellation_not_delivered :
    ∃ e ∈ history (DealWriters.step SmallApi.env) { db := SmallApi.db } SmallApi.inTurn,
      ApiLog.emits (.room "provider-rpc:0xpat") { dealId := "7", shardCIDs := some ["bafy0"] } ∈ e.logs ∧
        ¬ Delivered ["0xPat"] (activeShards SmallApi.db "7") e.logs := by
  obtain ⟨e, he, hlog, hunpins⟩ :
      ∃ e ∈ history (DealWriters.step SmallApi.env) { db := SmallApi.db } SmallApi.inTurn,
        ApiLog.emits (.room "provider-rpc:0xpat") { dealId := "7", shardCIDs := some ["bafy0"] } ∈ e.logs ∧
          "bafy0" ∉ e.logs.flatMap (unpins "0xPat") := by
    decide +kernel
  refine ⟨e, he, hlog, fun h => hunpins ?_⟩
  rw [h.exact "0xPat" (List.mem_singleton_self _)]
  decide +kernel

end SmallDaemon

end ProviderDaemon

end Kyneto
