import Kyneto.BlockchainListener.Reputation
import Kyneto.CapacityPledge.Collateral
import Kyneto.HealthMonitor.Basic

/-!
# Does the database know the pledges?

`handlePledgeCreated` stores a pledge under the address of its provider in the spelling with a checksum, and a foreign
key asks for a provider of that spelling. The two statements that store providers write small letters. So it is with
missed proofs, slashings and withdrawals. That a pledge ends, or how much of it is used, nobody hears.

`pledges_along_iff` says in which runs `capacity_pledges` is right about the active pledges. `records_run` says what
the other three tables have after a run, and which providers are known.
-/

namespace Kyneto

open Evm Sql FollowedRegistry

/-! ## The tables and their handlers -/

/-- A row of `capacity_pledges`. -/
structure PledgeRecord where
  providerAddress : String
  pledgeId : Nat
  capacityGb : Nat
  durationSeconds : Nat
  collateral : Nat
  utilizationGb : Nat := 0
  active : Bool := true
  deriving DecidableEq, Repr

def PledgeRecord.key (r : PledgeRecord) : String × Nat := (r.providerAddress, r.pledgeId)

/-- A row of `proof_misses`. -/
structure MissRecord where
  providerAddress : String
  challengeId : String
  deriving DecidableEq, Repr

/-- A row of `slashing_events`. -/
structure SlashedRecord where
  providerAddress : String
  amount : Nat
  reason : String
  deriving DecidableEq, Repr

/-- A row of `withdrawals`. -/
structure WithdrawalRecord where
  providerAddress : String
  amount : Nat
  deriving DecidableEq, Repr

/-- The tables whose rows refer to a provider, beside that of the shards. -/
structure ProviderRecords where
  db : Database := {}
  capacityPledges : List PledgeRecord := []
  proofMisses : List MissRecord := []
  slashingEvents : List SlashedRecord := []
  withdrawals : List WithdrawalRecord := []

/-- The foreign key is met. -/
def ProviderRecords.Knows (r : ProviderRecords) (provider : Address) : Prop :=
  ∃ p ∈ r.db.providers, p.address = toChecksum provider

instance (r : ProviderRecords) (provider : Address) : Decidable (r.Knows provider) :=
  inferInstanceAs (Decidable (∃ p ∈ r.db.providers, p.address = toChecksum provider))

def ProviderRecords.checkProvider (r : ProviderRecords) (provider : Address) : Query Unit := do
  checkText "provider_address" 42 (toChecksum provider)
  check (r.Knows provider) (.foreignKey "provider_address")

namespace BlockchainListener

def handlePledgeCreated (provider : Address) (pledgeId capacityGB duration collateral : Nat)
    (r : ProviderRecords) : ProviderRecords :=
  attempt
    [fun r => do
      checkInteger "pledge_id" pledgeId
      checkInteger "duration_seconds" duration
      r.checkProvider provider
      let capacityPledges ← insert PledgeRecord.key
        { providerAddress := toChecksum provider, pledgeId, capacityGb := capacityGB, durationSeconds := duration,
          collateral } r.capacityPledges
      return { r with capacityPledges }] r

def handlePoStMissed (challengeId : Nat) (provider : Address) (r : ProviderRecords) : ProviderRecords :=
  attempt
    [fun r => do
      checkText "challenge_id" 20 (toString challengeId)
      r.checkProvider provider
      return { r with proofMisses := r.proofMisses ++ [⟨toChecksum provider, toString challengeId⟩] }] r

def handleProviderSlashed (provider : Address) (amount : Nat) (reason : String) (r : ProviderRecords) :
    ProviderRecords :=
  attempt
    [fun r => do
      check ('\x00' ∉ reason.toList) (.invalidText "reason")
      r.checkProvider provider
      return { r with slashingEvents := r.slashingEvents ++ [⟨toChecksum provider, amount, reason⟩] }] r

def handleRewardsWithdrawn (provider : Address) (amount : Nat) (r : ProviderRecords) : ProviderRecords :=
  attempt
    [fun r => do
      r.checkProvider provider
      return { r with withdrawals := r.withdrawals ++ [⟨toChecksum provider, amount⟩] }] r

/-- Of the events of the pledges, the listener hears one. -/
def handlePledge (r : ProviderRecords) : PledgeEvent → ProviderRecords
  | .pledge (.PledgeCreated provider pledgeId capacityGB duration collateral) =>
    handlePledgeCreated provider pledgeId capacityGB duration collateral r
  | _ => r

end BlockchainListener

open BlockchainListener

/-! ## The pledges and what is recorded -/

structure FollowedPledges where
  system : PledgeSystem
  records : ProviderRecords := {}

/-- What happens to the pledges, and what the database hears of. -/
inductive RecordedEvent (this : Address) where
  | calls (a : PledgeAction this)
  | registers (provider : Address) (peerId region : String)
  | beats (now : Nat) (providerAddress : String)
  | misses (challengeId : Nat) (provider : Address)
  | slashes (provider : Address) (amount : Nat) (reason : String)
  | withdraws (provider : Address) (amount : Nat)

namespace FollowedPledges

variable {this : Address}

def step (s : FollowedPledges) : RecordedEvent this → Tx (FollowedPledges × List PledgeEvent)
  | .calls a => do
    let (system, logs) ← s.system.step this a
    return ({ system, records := logs.foldl handlePledge s.records }, logs)
  | .registers provider peerId region =>
    .ok ({ s with records.db := handleProviderRegistered provider peerId region s.records.db }, [])
  | .beats now providerAddress =>
    .ok ({ s with records.db := HealthMonitor.postHeartbeat s.records.db now providerAddress }, [])
  | .misses challengeId provider => .ok ({ s with records := handlePoStMissed challengeId provider s.records }, [])
  | .slashes provider amount reason =>
    .ok ({ s with records := handleProviderSlashed provider amount reason s.records }, [])
  | .withdraws provider amount => .ok ({ s with records := handleRewardsWithdrawn provider amount s.records }, [])

def deploy (token : StorageToken) (msg : Msg) : FollowedPledges where
  system := ⟨token, .deploy msg⟩

end FollowedPledges

def Pledge.record (p : Pledge) (provider : Address) (id : Nat) : PledgeRecord where
  providerAddress := toChecksum provider
  pledgeId := id
  capacityGb := p.capacityGB
  durationSeconds := p.duration
  collateral := p.collateral
  utilizationGb := p.utilizationGB
  active := p.active

/-- An active row is there exactly if it is the record of a pledge. -/
def PledgesMirrored (c : CapacityPledge) (rows : List PledgeRecord) : Prop :=
  ∀ row : PledgeRecord, row.active = true → (row ∈ rows ↔ ∃ p id, row = (c.pledges p id).record p id)

namespace FollowedPledges

variable {this : Address}

def Mirrored (s : FollowedPledges) : Prop := PledgesMirrored s.system.pledges s.records.capacityPledges

/-- The events after which the database is right about the pledges. -/
def Told (s : FollowedPledges) : RecordedEvent this → Prop
  | .calls a =>
    match a.call with
    | .pledge (.createPledge _ _ _) =>
      s.records.Knows a.msg.sender ∧ s.system.pledges.pledgeCount a.msg.sender < 2 ^ 31
    | .pledge (.completePledge _) | .pledge (.exitPledgeEarly _) => False
    | .pledge (.updateUtilization provider id newUtilizationGB) =>
      newUtilizationGB = (s.system.pledges.pledges provider id).utilizationGB
    | _ => True
  | _ => True

end FollowedPledges

/-! ## What a call does to the mirror -/

section Mirrors

variable {this provider : Address} {id : Nat} {p q : Pledge} {c c' : CapacityPledge} {rows : List PledgeRecord}

theorem record_inj {provider' : Address} {id' : Nat} (h : p.record provider id = q.record provider' id') :
    provider = provider' ∧ id = id' := by
  have hkey : (toChecksum provider, id) = (toChecksum provider', id') := congrArg PledgeRecord.key h
  obtain ⟨hprovider, hid⟩ := Prod.mk.inj hkey
  exact ⟨toChecksum_inj hprovider, hid⟩

theorem mirrored_congr (h : ∀ p id, (c'.pledges p id).record p id = (c.pledges p id).record p id) :
    PledgesMirrored c' rows ↔ PledgesMirrored c rows := by
  unfold PledgesMirrored
  simp only [h]

/-- A pledge that changes on the chain alone. -/
theorem mirrored_write (hmirrored : PledgesMirrored c rows) (hactive : (c.pledges provider id).active = true)
    (hpledges : c'.pledges = Function.update c.pledges provider (Function.update (c.pledges provider) id p)) :
    PledgesMirrored c' rows ↔ p.record provider id = (c.pledges provider id).record provider id := by
  have hwritten : c'.pledges provider id = p := by
    rw [hpledges, update_update_apply, if_pos ⟨rfl, rfl⟩]
  constructor
  · intro h
    have hrow := (hmirrored ((c.pledges provider id).record provider id) hactive).mpr ⟨provider, id, rfl⟩
    obtain ⟨provider', id', heq⟩ := (h _ hactive).mp hrow
    obtain ⟨rfl, rfl⟩ := record_inj heq
    rw [heq, hwritten]
  · intro hsame
    refine (mirrored_congr ?_).mpr hmirrored
    intro provider' id'
    rw [hpledges, update_update_apply]
    split
    · next hwhere =>
      obtain ⟨rfl, rfl⟩ := hwhere
      exact hsame
    · rfl

/-- A new pledge whose record is stored. -/
theorem mirrored_stored (hmirrored : PledgesMirrored c rows) (hfree : c.pledges provider id = {})
    (hpledges : c'.pledges = Function.update c.pledges provider (Function.update (c.pledges provider) id p)) :
    PledgesMirrored c' (rows ++ [p.record provider id]) := by
  intro row hrow
  rw [List.mem_append, List.mem_singleton, hmirrored row hrow]
  constructor
  · rintro (⟨provider', id', rfl⟩ | rfl)
    · refine ⟨provider', id', ?_⟩
      rw [hpledges, update_update_apply, if_neg]
      rintro ⟨rfl, rfl⟩
      rw [hfree] at hrow
      cases hrow
    · refine ⟨provider, id, ?_⟩
      rw [hpledges, update_update_apply, if_pos ⟨rfl, rfl⟩]
  · rintro ⟨provider', id', heq⟩
    rw [hpledges, update_update_apply] at heq
    split at heq
    · next hwhere =>
      obtain ⟨rfl, rfl⟩ := hwhere
      exact Or.inr heq
    · exact Or.inl ⟨provider', id', heq⟩

/-- A new pledge whose record is missing. -/
theorem not_mirrored_missing (hactive : p.active = true) (hmissing : p.record provider id ∉ rows)
    (hpledges : c'.pledges = Function.update c.pledges provider (Function.update (c.pledges provider) id p)) :
    ¬ PledgesMirrored c' rows := by
  intro h
  refine hmissing ((h _ hactive).mpr ⟨provider, id, ?_⟩)
  rw [hpledges, update_update_apply, if_pos ⟨rfl, rfl⟩]

end Mirrors

/-! ## What the handlers do -/

section Handlers

variable {r : ProviderRecords} {provider : Address}

theorem checkProvider_eq_ok {u : Unit} : r.checkProvider provider = .ok u ↔ r.Knows provider := by
  obtain ⟨hlength, htext⟩ := toChecksum_fits provider
  simp only [ProviderRecords.checkProvider, checkText, bind_eq_ok, check_eq_ok, exists_const]
  rw [and_iff_right ⟨Nat.le_of_eq hlength, htext⟩]

/-- A handler with one statement. -/
theorem attempt_single {σ : Type} {statement : σ → Query σ} {s s' : σ} {c : Prop} [Decidable c]
    (h : ∀ s'', statement s = .ok s'' ↔ c ∧ s'' = s') : attempt [statement] s = if c then s' else s := by
  split
  · next hc => exact attempt_of_ok ((h s').mpr ⟨hc, rfl⟩)
  · next hc => exact attempt_of_fails fun s'' hok => hc ((h s'').mp hok).1

theorem handlePledgeCreated_eq {id capacityGB duration collateral : Nat} (hduration : duration < 2 ^ 31)
    (hfresh : ∀ row ∈ r.capacityPledges, row.key ≠ (toChecksum provider, id)) :
    handlePledgeCreated provider id capacityGB duration collateral r =
      if r.Knows provider ∧ id < 2 ^ 31 then
        { r with
          capacityPledges := r.capacityPledges ++
            [{ providerAddress := toChecksum provider, pledgeId := id, capacityGb := capacityGB,
               durationSeconds := duration, collateral }] }
      else r := by
  refine attempt_single fun r' => ?_
  simp only [checkInteger, bind_eq_ok, check_eq_ok, checkProvider_eq_ok, pure_eq_ok, exists_const, insert_eq_ok]
  constructor
  · rintro ⟨hid, -, hknows, rows, ⟨-, rfl⟩, rfl⟩
    exact ⟨⟨hknows, hid⟩, rfl⟩
  · rintro ⟨⟨hknows, hid⟩, rfl⟩
    exact ⟨hid, hduration, hknows, _, ⟨hfresh, rfl⟩, rfl⟩

/-- Decimal digits fit into a text. -/
theorem toString_text (n : Nat) : '\x00' ∉ (toString n).toList := by
  intro hmem
  rw [Nat.toString_eq_repr, Nat.toList_repr] at hmem
  have hdigit : '\x00'.isDigit = true := Nat.isDigit_of_mem_toDigits (by decide) (by decide) hmem
  revert hdigit
  decide

theorem handlePoStMissed_eq (challengeId : Nat) : handlePoStMissed challengeId provider r =
    if r.Knows provider ∧ (toString challengeId).length ≤ 20 then
      { r with proofMisses := r.proofMisses ++ [⟨toChecksum provider, toString challengeId⟩] }
    else r := by
  refine attempt_single fun r' => ?_
  simp only [checkText, bind_eq_ok, check_eq_ok, checkProvider_eq_ok, pure_eq_ok, exists_const]
  constructor
  · rintro ⟨⟨hlength, -⟩, hknows, rfl⟩
    exact ⟨⟨hknows, hlength⟩, rfl⟩
  · rintro ⟨⟨hknows, hlength⟩, rfl⟩
    exact ⟨⟨hlength, toString_text challengeId⟩, hknows, rfl⟩

theorem handleProviderSlashed_eq (amount : Nat) (reason : String) :
    handleProviderSlashed provider amount reason r =
      if r.Knows provider ∧ '\x00' ∉ reason.toList then
        { r with slashingEvents := r.slashingEvents ++ [⟨toChecksum provider, amount, reason⟩] }
      else r := by
  refine attempt_single fun r' => ?_
  simp only [bind_eq_ok, check_eq_ok, checkProvider_eq_ok, pure_eq_ok, exists_const]
  constructor
  · rintro ⟨htext, hknows, rfl⟩
    exact ⟨⟨hknows, htext⟩, rfl⟩
  · rintro ⟨⟨hknows, htext⟩, rfl⟩
    exact ⟨htext, hknows, rfl⟩

theorem handleRewardsWithdrawn_eq (amount : Nat) : handleRewardsWithdrawn provider amount r =
    if r.Knows provider then { r with withdrawals := r.withdrawals ++ [⟨toChecksum provider, amount⟩] } else r := by
  refine attempt_single fun r' => ?_
  simp only [bind_eq_ok, checkProvider_eq_ok, pure_eq_ok, exists_const]

/-- What the handler of pledges leaves alone. -/
structure SameRecords (r r' : ProviderRecords) : Prop where
  db : r'.db = r.db
  proofMisses : r'.proofMisses = r.proofMisses
  slashingEvents : r'.slashingEvents = r.slashingEvents
  withdrawals : r'.withdrawals = r.withdrawals

theorem handlePledgeCreated_frame (id capacityGB duration collateral : Nat) {r₀ : ProviderRecords}
    (h : SameRecords r₀ r) : SameRecords r₀ (handlePledgeCreated provider id capacityGB duration collateral r) := by
  refine attempt_induction h ?_
  intro statement hstatement r r' hr hok
  obtain rfl := List.mem_singleton.mp hstatement
  simp only [bind_eq_ok, pure_eq_ok] at hok
  obtain ⟨-, -, -, -, -, -, _, -, rfl⟩ := hok
  exact ⟨hr.db, hr.proofMisses, hr.slashingEvents, hr.withdrawals⟩

/-- The handlers of pledges leave all other records alone. -/
theorem handlePledge_frame (logs : List PledgeEvent) {r₀ : ProviderRecords} (h : SameRecords r₀ r) :
    SameRecords r₀ (logs.foldl handlePledge r) := by
  induction logs generalizing r with
  | nil => exact h
  | cons l logs ih =>
    apply ih
    unfold handlePledge
    split
    · exact handlePledgeCreated_frame _ _ _ _ h
    · exact h

theorem handlePledge_tokens (logs : List TokenLog) :
    (logs.map PledgeEvent.token).foldl handlePledge r = r := by
  induction logs with
  | nil => rfl
  | cons l logs ih => exact ih

end Handlers

/-! ## Calls -/

namespace FollowedPledges

variable {this provider : Address} {s s' : FollowedPledges} {c c' : PledgeSystem} {a : PledgeAction this}
  {e : RecordedEvent this} {logs : List PledgeEvent}

/-- What a call does, what the listener hears of it, and what that is worth. -/
inductive PledgeNews (c : PledgeSystem) (a : PledgeAction this) (c' : PledgeSystem) (logs : List PledgeEvent) : Prop
  | quiet (told : ∀ r, Told ⟨c, r⟩ (.calls a)) (pledges : c'.pledges.pledges = c.pledges.pledges)
      (pledgeCount : c'.pledges.pledgeCount = c.pledges.pledgeCount)
      (unheard : ∀ r, logs.foldl handlePledge r = r) : PledgeNews c a c' logs
  | created {p : Pledge}
      (told : ∀ r : ProviderRecords, Told ⟨c, r⟩ (.calls a) ↔
        r.Knows a.msg.sender ∧ c.pledges.pledgeCount a.msg.sender < 2 ^ 31)
      (active : p.active = true) (unused : p.utilizationGB = 0) (fits : p.duration < 2 ^ 31)
      (pledges : c'.pledges.pledges = Function.update c.pledges.pledges a.msg.sender
        (Function.update (c.pledges.pledges a.msg.sender) (c.pledges.pledgeCount a.msg.sender) p))
      (pledgeCount : c'.pledges.pledgeCount = Function.update c.pledges.pledgeCount a.msg.sender
        (c.pledges.pledgeCount a.msg.sender + 1))
      (heard : ∀ r, logs.foldl handlePledge r = handlePledgeCreated a.msg.sender
        (c.pledges.pledgeCount a.msg.sender) p.capacityGB p.duration p.collateral r) : PledgeNews c a c' logs
  | wrote {provider : Address} {id : Nat} {p : Pledge}
      (told : ∀ r, Told ⟨c, r⟩ (.calls a) ↔
        p.record provider id = (c.pledges.pledges provider id).record provider id)
      (active : (c.pledges.pledges provider id).active = true)
      (pledges : c'.pledges.pledges = Function.update c.pledges.pledges provider
        (Function.update (c.pledges.pledges provider) id p))
      (pledgeCount : c'.pledges.pledgeCount = c.pledges.pledgeCount)
      (unheard : ∀ r, logs.foldl handlePledge r = r) : PledgeNews c a c' logs

/-- Each of the four durations fits an `INTEGER`. -/
theorem duration_fits {duration multiplier : Nat} (h : CapacityPledge.multiplierOf duration = .ok multiplier) :
    duration < 2 ^ 31 := by
  unfold CapacityPledge.multiplierOf at h
  split at h
  · omega
  · split at h
    · omega
    · split at h
      · omega
      · split at h
        · omega
        · cases h

theorem retired_record {p : Pledge} {id : Nat} (hactive : p.active = true) :
    ¬ ({ p with active := false } : Pledge).record provider id = p.record provider id := by
  intro h
  have hflag : false = p.active := congrArg PledgeRecord.active h
  rw [hactive] at hflag
  cases hflag

/-- What a call of the contract tells the listener, one case for each call. -/
theorem call_news (h : c.step this a = .ok (c', logs)) : PledgeNews c a c' logs := by
  cases hcall : a.call with
  | token _ =>
    simp only [PledgeSystem.step, hcall, bind_eq_ok, pure_eq_ok, Prod.exists, Prod.mk.injEq] at h
    obtain ⟨token, l, -, rfl, rfl⟩ := h
    exact .quiet (fun r => by simp only [Told, hcall]) rfl rfl fun r => handlePledge_tokens l
  | pledge call =>
    simp only [PledgeSystem.step, hcall, bind_eq_ok, pure_eq_ok, Prod.exists, Prod.mk.injEq] at h
    obtain ⟨token, pledges, paid, l, h, rfl, rfl⟩ := h
    have hheard : ∀ r, (paid.map PledgeEvent.token ++ l.map PledgeEvent.pledge).foldl handlePledge r =
        (l.map PledgeEvent.pledge).foldl handlePledge r := by
      intro r
      rw [List.foldl_append, handlePledge_tokens]
    cases call with
    | createPledge capacityGB duration collateralAmount =>
      simp only [CapacityPledge.step, CapacityPledge.createPledge, bind_eq_ok, checkedAdd_eq_ok, pure_eq_ok,
        Prod.exists, Prod.mk.injEq] at h
      obtain ⟨_, -, multiplier, hmultiplier, _, -, _, -, _, _, -, _, ⟨-, rfl⟩, _, ⟨-, rfl⟩, _, ⟨-, rfl⟩, rfl, rfl,
        rfl, rfl⟩ := h
      let pledge : Pledge := ⟨capacityGB, collateralAmount, a.msg.timestamp, duration, multiplier, 0, true⟩
      exact .created (p := pledge) (fun r => by simp only [Told, hcall]) rfl rfl (duration_fits hmultiplier) rfl rfl
        hheard
    | completePledge pledgeId =>
      simp only [CapacityPledge.step, CapacityPledge.completePledge, bind_eq_ok, require_eq_ok, pure_eq_ok,
        Prod.exists, Prod.mk.injEq, exists_const] at h
      obtain ⟨hactive, _, -, -, _, hretire, _, _, -, rfl, rfl, rfl, rfl⟩ := h
      obtain ⟨-, -, rfl⟩ := retire_ok hretire
      refine .wrote (fun r => ?_) hactive rfl rfl hheard
      simp only [Told, hcall]
      exact (iff_false_right (retired_record hactive)).mpr id
    | exitPledgeEarly pledgeId =>
      obtain ⟨penalty, t₁, burned, returned, hactive, -, -, -, hretire, -, -, -, rfl⟩ :=
        CapacityPledge.exitPledgeEarly_ok h
      obtain ⟨-, -, rfl⟩ := retire_ok hretire
      refine .wrote (fun r => ?_) hactive rfl rfl hheard
      simp only [Told, hcall]
      exact (iff_false_right (retired_record hactive)).mpr id
    | updateUtilization provider pledgeId newUtilizationGB =>
      simp only [CapacityPledge.step, CapacityPledge.updateUtilization, bind_eq_ok, require_eq_ok, pure_eq_ok,
        Prod.exists, Prod.mk.injEq, exists_const] at h
      obtain ⟨_, _, ⟨_, -, hactive, -, rfl, rfl⟩, rfl, rfl, rfl, rfl⟩ := h
      refine .wrote (fun r => ?_) hactive rfl rfl hheard
      simp only [Told, hcall]
      constructor
      · rintro rfl
        rfl
      · exact congrArg PledgeRecord.utilizationGb
    | transferOwnership _ | renounceOwnership =>
      simp only [CapacityPledge.step, bind_eq_ok, pure_eq_ok, Prod.mk.injEq] at h
      obtain ⟨_, -, rfl, rfl, rfl, rfl⟩ := h
      exact .quiet (fun r => by simp only [Told, hcall]) rfl rfl hheard

/-- Slots without a pledge are empty, and rows belong to pledges. -/
structure Kept (s : FollowedPledges) : Prop where
  beyond : ∀ p id, s.system.pledges.pledgeCount p ≤ id → s.system.pledges.pledges p id = {}
  rows : ∀ row ∈ s.records.capacityPledges, ∃ p id,
    row.key = (toChecksum p, id) ∧ id < s.system.pledges.pledgeCount p

theorem Kept.fresh (h : Kept s) :
    ∀ row ∈ s.records.capacityPledges, row.key ≠ (toChecksum provider, s.system.pledges.pledgeCount provider) := by
  intro row hrow heq
  obtain ⟨p, id, hkey, hid⟩ := h.rows row hrow
  obtain ⟨hp, rfl⟩ := Prod.mk.inj (hkey.symm.trans heq)
  obtain rfl := toChecksum_inj hp
  exact Nat.lt_irrefl _ hid

/-- An event that is no call leaves the pledges and their rows. -/
theorem step_other (hother : ∀ a, e ≠ .calls a) (h : s.step e = .ok (s', logs)) :
    s'.system = s.system ∧ s'.records.capacityPledges = s.records.capacityPledges := by
  cases e with
  | calls a => exact absurd rfl (hother a)
  | registers _ _ _ | beats _ _ =>
    cases h
    exact ⟨rfl, rfl⟩
  | misses challengeId provider =>
    cases h
    refine ⟨rfl, ?_⟩
    rw [handlePoStMissed_eq]
    split <;> rfl
  | slashes provider amount reason =>
    cases h
    refine ⟨rfl, ?_⟩
    rw [handleProviderSlashed_eq]
    split <;> rfl
  | withdraws provider amount =>
    cases h
    refine ⟨rfl, ?_⟩
    rw [handleRewardsWithdrawn_eq]
    split <;> rfl

theorem call_ok (h : s.step (.calls a) = .ok (s', logs)) :
    s.system.step this a = .ok (s'.system, logs) ∧ s'.records = logs.foldl handlePledge s.records := by
  simp only [step, bind_eq_ok, pure_eq_ok, Prod.exists, Prod.mk.injEq] at h
  obtain ⟨system, logs, hstep, rfl, rfl⟩ := h
  exact ⟨hstep, rfl⟩

/-- An event keeps the invariant, whichever it is. -/
theorem kept_step (hkept : Kept s) (h : s.step e = .ok (s', logs)) : Kept s' := by
  by_cases hother : ∀ a, e ≠ .calls a
  · obtain ⟨hsystem, hrows⟩ := step_other hother h
    exact ⟨hsystem ▸ hkept.beyond, by rw [hsystem, hrows]; exact hkept.rows⟩
  · obtain ⟨a, rfl⟩ := not_forall_not.mp hother
    obtain ⟨hstep, hrecords⟩ := call_ok h
    cases call_news hstep with
    | quiet told pledges pledgeCount unheard =>
      rw [unheard] at hrecords
      exact ⟨by rw [pledges, pledgeCount]; exact hkept.beyond, by rw [hrecords, pledgeCount]; exact hkept.rows⟩
    | created told active unused fits pledges pledgeCount heard =>
      rw [heard, handlePledgeCreated_eq fits hkept.fresh] at hrecords
      have hle : ∀ q, s.system.pledges.pledgeCount q ≤ s'.system.pledges.pledgeCount q := by
        intro q
        rw [pledgeCount]
        rcases eq_or_ne q a.msg.sender with rfl | hne
        · rw [Function.update_self]
          exact Nat.le_succ _
        · rw [Function.update_of_ne hne]
      constructor
      · intro q id hid
        rw [pledges, update_update_apply, if_neg]
        · exact hkept.beyond q id ((hle q).trans hid)
        · rintro ⟨rfl, rfl⟩
          rw [pledgeCount, Function.update_self] at hid
          omega
      · have hold : ∀ row ∈ s.records.capacityPledges, ∃ p id,
            row.key = (toChecksum p, id) ∧ id < s'.system.pledges.pledgeCount p := by
          intro row hrow
          obtain ⟨p, id, hkey, hid⟩ := hkept.rows row hrow
          exact ⟨p, id, hkey, hid.trans_le (hle p)⟩
        intro row hrow
        rw [hrecords] at hrow
        split at hrow
        · rcases List.mem_append.mp hrow with hrow | hrow
          · exact hold row hrow
          · obtain rfl := List.mem_singleton.mp hrow
            refine ⟨a.msg.sender, _, rfl, ?_⟩
            rw [pledgeCount, Function.update_self]
            exact Nat.lt_succ_self _
        · exact hold row hrow
    | @wrote provider id p told active pledges pledgeCount unheard =>
      rw [unheard] at hrecords
      refine ⟨?_, by rw [hrecords, pledgeCount]; exact hkept.rows⟩
      intro q i hi
      rw [pledgeCount] at hi
      rw [pledges, update_update_apply, if_neg]
      · exact hkept.beyond q i hi
      · rintro ⟨rfl, rfl⟩
        rw [hkept.beyond q i hi] at active
        cases active

/-- **Which events leave the pledges mirrored**: exactly those the database is told of. -/
theorem mirrored_step (hkept : Kept s) (hmirrored : s.Mirrored) (h : s.step e = .ok (s', logs)) :
    s'.Mirrored ↔ s.Told e := by
  by_cases hother : ∀ a, e ≠ .calls a
  · obtain ⟨hsystem, hrows⟩ := step_other hother h
    have htold : s.Told e := by
      cases e with
      | calls a => exact absurd rfl (hother a)
      | _ => trivial
    refine iff_of_true ?_ htold
    unfold Mirrored
    rw [hsystem, hrows]
    exact hmirrored
  · obtain ⟨a, rfl⟩ := not_forall_not.mp hother
    obtain ⟨hstep, hrecords⟩ := call_ok h
    unfold Mirrored
    cases call_news hstep with
    | quiet told pledges pledgeCount unheard =>
      rw [hrecords, unheard, iff_true_right (told s.records)]
      exact (mirrored_congr fun p id => by rw [pledges]).mpr hmirrored
    | @created p told active unused fits pledges pledgeCount heard =>
      rw [hrecords, heard, handlePledgeCreated_eq fits hkept.fresh]
      refine Iff.trans ?_ (told s.records).symm
      split
      · next hstored =>
        refine iff_of_true ?_ hstored
        have hrow := mirrored_stored hmirrored (hkept.beyond a.msg.sender _ (Nat.le_refl _)) pledges
        unfold Pledge.record at hrow
        rw [active, unused] at hrow
        exact hrow
      · next hlost =>
        refine iff_of_false ?_ hlost
        refine not_mirrored_missing active ?_ pledges
        intro hmem
        exact hkept.fresh _ hmem rfl
    | wrote told active pledges pledgeCount unheard =>
      rw [hrecords, unheard]
      exact (mirrored_write hmirrored active pledges).trans (told s.records).symm

theorem kept_deploy (token : StorageToken) (msg : Msg) : Kept (deploy token msg) :=
  ⟨fun _ _ _ => rfl, fun _ h => absurd h List.not_mem_nil⟩

theorem mirrored_deploy (token : StorageToken) (msg : Msg) : Mirrored (deploy token msg) := by
  intro row hrow
  refine iff_of_false List.not_mem_nil ?_
  rintro ⟨p, id, rfl⟩
  cases hrow

/-- **The database is right about the active pledges**, in every state of a run, exactly if every pledge is made by a
provider that is known under the spelling with a checksum, no pledge ends, and the use of none changes. -/
theorem pledges_along_iff (token : StorageToken) (msg : Msg) (es : List (RecordedEvent this)) :
    Along step Mirrored (deploy token msg) es ↔ Meets step Told (deploy token msg) es :=
  along_iff_meets (mirrored_deploy token msg) (kept_deploy token msg)
    (fun _ _ _ _ hkept hstep => kept_step hkept hstep)
    (fun _ _ _ _ hkept hmirrored hstep => mirrored_step hkept hmirrored hstep) es

/-! ## What is recorded -/

abbrev RecordedEntry (this : Address) := Entry FollowedPledges (RecordedEvent this) PledgeEvent

/-- The event makes a provider known under this spelling. -/
def Announces (address : String) : RecordedEvent this → Prop
  | .registers provider peerId region => hexAddress provider = address ∧ FitsRow peerId region
  | .beats _ providerAddress => providerAddress.toLower = address
  | _ => False

def missed (e : RecordedEntry this) : Option MissRecord :=
  match e.act with
  | .misses challengeId provider =>
    if e.pre.records.Knows provider ∧ (toString challengeId).length ≤ 20 then
      some ⟨toChecksum provider, toString challengeId⟩
    else none
  | _ => none

def slashed (e : RecordedEntry this) : Option SlashedRecord :=
  match e.act with
  | .slashes provider amount reason =>
    if e.pre.records.Knows provider ∧ '\x00' ∉ reason.toList then some ⟨toChecksum provider, amount, reason⟩ else none
  | _ => none

def withdrew (e : RecordedEntry this) : Option WithdrawalRecord :=
  match e.act with
  | .withdraws provider amount =>
    if e.pre.records.Knows provider then some ⟨toChecksum provider, amount⟩ else none
  | _ => none

/-- What the tables have after a history. -/
structure Recorded (s : FollowedPledges) (hist : List (RecordedEntry this)) : Prop where
  addresses : ∀ address, (∃ row ∈ s.records.db.providers, row.address = address) ↔
    ∃ e ∈ hist, Announces address e.act
  misses : s.records.proofMisses = hist.filterMap missed
  slashings : s.records.slashingEvents = hist.filterMap slashed
  withdrawals : s.records.withdrawals = hist.filterMap withdrew

/-- An insertion that does not change the addresses of the rows. -/
theorem address_upsert {rows : List ProviderRow} {row : ProviderRow} {set : ProviderRow → ProviderRow}
    (hset : ∀ r, (set r).address = r.address) (address : String) :
    (∃ r ∈ upsert ProviderRow.address row set rows, r.address = address) ↔
      (∃ r ∈ rows, r.address = address) ∨ row.address = address := by
  unfold upsert
  split
  · simp only [List.mem_append, List.mem_singleton, or_and_right, exists_or, exists_eq_left]
  · next hpresent =>
    have hsame : (update (fun r => r.address = row.address) set rows).map ProviderRow.address =
        rows.map ProviderRow.address := map_update hset
    have hmem := congrArg (address ∈ ·) hsame
    simp only [List.mem_map, eq_iff_iff] at hmem
    rw [hmem, iff_self_or]
    rintro rfl
    simpa only [not_forall, not_not, exists_prop] using hpresent

/-- An address has a row after a registration if it had one, or if it is the registered one and the
texts fit. -/
theorem address_registered {db : Database} (peerId region address : String) :
    (∃ row ∈ (handleProviderRegistered provider peerId region db).providers, row.address = address) ↔
      (∃ row ∈ db.providers, row.address = address) ∨ hexAddress provider = address ∧ FitsRow peerId region := by
  by_cases hfits : FitsRow peerId region
  · obtain ⟨hlength, htext⟩ := hexAddress_fits provider
    have hstored : handleProviderRegistered provider peerId region db =
        { db with
          providers := upsert ProviderRow.address
            { address := hexAddress provider, peerId, region := some region, reputationScore := 50, active := true }
            id db.providers } := by
      unfold handleProviderRegistered
      rw [toLower_toChecksum]
      apply attempt_of_ok
      rw [insertProvider_eq_ok]
      exact ⟨⟨Nat.le_of_eq hlength, htext⟩, hfits, rfl⟩
    rw [hstored, and_iff_left hfits]
    exact address_upsert (fun _ => rfl) address
  · rw [handleProviderRegistered_of_not_fits hfits, or_iff_left fun h => hfits h.2]

theorem filterMap_snoc {α β : Type} (f : α → Option β) (l : List α) (x : α) :
    (l ++ [x]).filterMap f = l.filterMap f ++ (f x).toList := by
  rw [List.filterMap_append]
  cases hx : f x with
  | none => simp [hx]
  | some y => simp [hx]

section Records

variable {hist : List (RecordedEntry this)}

theorem Recorded.snoc (hrecorded : Recorded s hist)
    (addresses : ∀ address, (∃ row ∈ s'.records.db.providers, row.address = address) ↔
      (∃ row ∈ s.records.db.providers, row.address = address) ∨ Announces address e)
    (misses : s'.records.proofMisses = s.records.proofMisses ++ (missed ⟨s, e, logs, s'⟩).toList)
    (slashings : s'.records.slashingEvents = s.records.slashingEvents ++ (slashed ⟨s, e, logs, s'⟩).toList)
    (withdrawals : s'.records.withdrawals = s.records.withdrawals ++ (withdrew ⟨s, e, logs, s'⟩).toList) :
    Recorded s' (hist ++ [⟨s, e, logs, s'⟩]) := by
  constructor
  · intro address
    rw [addresses, hrecorded.addresses]
    simp only [List.mem_append, List.mem_singleton, or_and_right, exists_or, exists_eq_left]
  · rw [misses, hrecorded.misses, filterMap_snoc]
  · rw [slashings, hrecorded.slashings, filterMap_snoc]
  · rw [withdrawals, hrecorded.withdrawals, filterMap_snoc]

/-- An event adds its own record to the tables, and nothing else. -/
theorem recorded_step (hrecorded : Recorded s hist) (h : s.step e = .ok (s', logs)) :
    Recorded s' (hist ++ [⟨s, e, logs, s'⟩]) := by
  cases e with
  | calls a =>
    obtain ⟨-, hrecords⟩ := call_ok h
    have hsame := handlePledge_frame logs (r := s.records) ⟨rfl, rfl, rfl, rfl⟩
    rw [← hrecords] at hsame
    refine hrecorded.snoc ?_ (hsame.proofMisses.trans (List.append_nil _).symm)
      (hsame.slashingEvents.trans (List.append_nil _).symm) (hsame.withdrawals.trans (List.append_nil _).symm)
    intro address
    rw [hsame.db]
    exact (or_iff_left id).symm
  | registers provider peerId region =>
    cases h
    exact hrecorded.snoc (address_registered peerId region) (List.append_nil _).symm (List.append_nil _).symm
      (List.append_nil _).symm
  | beats now providerAddress =>
    cases h
    exact hrecorded.snoc (address_upsert fun _ => rfl) (List.append_nil _).symm (List.append_nil _).symm
      (List.append_nil _).symm
  | misses challengeId provider =>
    simp only [step, handlePoStMissed_eq] at h
    split at h
    · next hstored =>
      cases h
      refine hrecorded.snoc (fun _ => (or_iff_left id).symm) ?_ (List.append_nil _).symm (List.append_nil _).symm
      simp only [missed, if_pos hstored, Option.toList_some]
    · next hlost =>
      cases h
      refine hrecorded.snoc (fun _ => (or_iff_left id).symm) ?_ (List.append_nil _).symm (List.append_nil _).symm
      simp only [missed, if_neg hlost, Option.toList_none, List.append_nil]
  | slashes provider amount reason =>
    simp only [step, handleProviderSlashed_eq] at h
    split at h
    · next hstored =>
      cases h
      refine hrecorded.snoc (fun _ => (or_iff_left id).symm) (List.append_nil _).symm ?_ (List.append_nil _).symm
      simp only [slashed, if_pos hstored, Option.toList_some]
    · next hlost =>
      cases h
      refine hrecorded.snoc (fun _ => (or_iff_left id).symm) (List.append_nil _).symm ?_ (List.append_nil _).symm
      simp only [slashed, if_neg hlost, Option.toList_none, List.append_nil]
  | withdraws provider amount =>
    simp only [step, handleRewardsWithdrawn_eq] at h
    split at h
    · next hstored =>
      cases h
      refine hrecorded.snoc (fun _ => (or_iff_left id).symm) (List.append_nil _).symm (List.append_nil _).symm ?_
      simp only [withdrew, if_pos hstored, Option.toList_some]
    · next hlost =>
      cases h
      refine hrecorded.snoc (fun _ => (or_iff_left id).symm) (List.append_nil _).symm (List.append_nil _).symm ?_
      simp only [withdrew, if_neg hlost, Option.toList_none, List.append_nil]

/-- The records of every run are those of its events. -/
theorem recorded_run (token : StorageToken) (msg : Msg) (es : List (RecordedEvent this)) :
    Recorded (run step (deploy token msg) es) (history step (deploy token msg) es) := by
  refine run_induction (C := fun _ _ => True) ?_ ?_ es (meets_true _ es)
  · refine ⟨fun address => iff_of_false ?_ ?_, rfl, rfl, rfl⟩
    · rintro ⟨row, hrow, -⟩
      cases hrow
    · rintro ⟨e, he, -⟩
      cases he
  · intro s hist e s' logs hrecorded _ hstep
    exact recorded_step hrecorded hstep

/-- Only small letters are announced. -/
theorem announces_toLower {address : String} (h : Announces address e) : address.toLower = address := by
  cases e with
  | registers provider peerId region =>
    obtain ⟨rfl, -⟩ := h
    exact toLower_hexAddress provider
  | beats now providerAddress =>
    obtain rfl := h
    apply String.ext
    simp only [String.toLower, String.toList_map, List.map_map, Function.comp_def, Char.toLower_toLower_eq_toLower]
  | _ => cases h

theorem announces_checksum :
    Announces (toChecksum provider) e ↔ NoCapitals provider ∧ Announces (hexAddress provider) e := by
  constructor
  · intro h
    have hsmall : NoCapitals provider := (announces_toLower h).symm.trans (toLower_toChecksum provider)
    exact ⟨hsmall, hsmall ▸ h⟩
  · rintro ⟨hsmall, h⟩
    exact hsmall.symm ▸ h

/-- **What a run leaves in the tables**: the misses, slashings and withdrawals of the providers that were known then, in
their order. A provider is known if its spelling with a checksum has no capitals, and it was registered with texts that
fit, or sent a heartbeat. -/
theorem records_run (token : StorageToken) (msg : Msg) (es : List (RecordedEvent this)) :
    (∀ p, (run step (deploy token msg) es).records.Knows p ↔
      NoCapitals p ∧ ∃ e ∈ history step (deploy token msg) es, Announces (hexAddress p) e.act) ∧
    (run step (deploy token msg) es).records.proofMisses = (history step (deploy token msg) es).filterMap missed ∧
    (run step (deploy token msg) es).records.slashingEvents = (history step (deploy token msg) es).filterMap slashed ∧
    (run step (deploy token msg) es).records.withdrawals = (history step (deploy token msg) es).filterMap withdrew := by
  have hrecorded := recorded_run token msg es
  refine ⟨?_, hrecorded.misses, hrecorded.slashings, hrecorded.withdrawals⟩
  intro p
  refine (hrecorded.addresses (toChecksum p)).trans ?_
  simp only [announces_checksum]
  constructor
  · rintro ⟨e, he, hsmall, hannounced⟩
    exact ⟨hsmall, e, he, hannounced⟩
  · rintro ⟨hsmall, e, he, hannounced⟩
    exact ⟨e, he, hsmall, hannounced⟩

end Records

end FollowedPledges

end Kyneto
