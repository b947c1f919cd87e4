import Kyneto.Evm.Run
import Kyneto.ProviderRegistry

/-!
# Standing of a provider

Score, slashing count, activity and cool-down are written by seven functions, which call each other. `Change` says
once what a call can do to them: register, raise, lower, slash or reactivate one provider. Both results about runs
are read off it: the score keeps within its bounds and an active provider is above the thresholds
(`wellKept_run`), and nobody comes back before the cool-down of the last deactivation is over (`cooldown_run`).
-/

namespace Kyneto

open Evm

/-- The part of a provider's record that decides whether it is active. -/
structure Standing where
  registered : Bool
  score : Nat
  slashings : Nat
  active : Bool
  deactivatedUntil : Nat
  deriving DecidableEq, Repr

def Provider.standing (p : Provider) : Standing where
  registered := p.registered
  score := p.reputationScore
  slashings := p.totalSlashingEvents
  active := p.active
  deactivatedUntil := p.deactivatedUntil

namespace Standing

def deactivated (s : Standing) (now : Nat) : Standing :=
  { s with active := false, deactivatedUntil := now + COOLDOWN_PERIOD }

def raised (s : Standing) (amount : Nat) : Standing := { s with score := min (s.score + amount) MAX_REPUTATION }

/-- The score falls, and below 20 the provider is deactivated. -/
def lowered (s : Standing) (now amount : Nat) : Standing :=
  if s.score - amount < 20 then { s with score := s.score - amount }.deactivated now
  else { s with score := s.score - amount }

/-- One more slashing: the score falls by 20, and the fifth slashing deactivates. -/
def slashed (s : Standing) (now : Nat) : Standing :=
  if 5 ≤ s.slashings + 1 then ({ s with slashings := s.slashings + 1 }.lowered now 20).deactivated now
  else { s with slashings := s.slashings + 1 }.lowered now 20

def reactivated (s : Standing) : Standing :=
  { s with active := true, score := INITIAL_REPUTATION, slashings := 0 }

theorem slashed_of_le {s : Standing} {now : Nat} (h : 5 ≤ s.slashings + 1) :
    s.slashed now = ({ s with slashings := s.slashings + 1 }.lowered now 20).deactivated now := if_pos h

theorem slashed_of_lt {s : Standing} {now : Nat} (h : s.slashings + 1 < 5) :
    s.slashed now = { s with slashings := s.slashings + 1 }.lowered now 20 := if_neg (Nat.not_le.mpr h)

theorem lowered_of_lt {s : Standing} {now amount : Nat} (h : s.score - amount < 20) :
    s.lowered now amount = { s with score := s.score - amount }.deactivated now := if_pos h

theorem lowered_of_le {s : Standing} {now amount : Nat} (h : 20 ≤ s.score - amount) :
    s.lowered now amount = { s with score := s.score - amount } := if_neg (Nat.not_lt.mpr h)

@[simp] theorem lowered_registered (s : Standing) (now amount : Nat) :
    (s.lowered now amount).registered = s.registered := by
  unfold lowered
  split <;> rfl

@[simp] theorem lowered_slashings (s : Standing) (now amount : Nat) :
    (s.lowered now amount).slashings = s.slashings := by
  unfold lowered
  split <;> rfl

@[simp] theorem lowered_score (s : Standing) (now amount : Nat) :
    (s.lowered now amount).score = s.score - amount := by
  unfold lowered
  split <;> rfl

@[simp] theorem slashed_registered (s : Standing) (now : Nat) : (s.slashed now).registered = s.registered := by
  unfold slashed
  split <;> simp [deactivated]

@[simp] theorem slashed_slashings (s : Standing) (now : Nat) :
    (s.slashed now).slashings = s.slashings + 1 := by
  unfold slashed
  split <;> simp [deactivated]

@[simp] theorem slashed_score (s : Standing) (now : Nat) : (s.slashed now).score = s.score - 20 := by
  unfold slashed
  split <;> simp [deactivated]

/-- A provider is still active after a decrease if it was, and did not fall below 20. -/
theorem lowered_active {s : Standing} {now amount : Nat} :
    (s.lowered now amount).active = true ↔ s.active = true ∧ 20 ≤ s.score - amount := by
  unfold lowered
  split
  · next h =>
    constructor
    · intro hactive
      cases hactive
    · rintro ⟨-, hscore⟩
      omega
  · next h => simpa using fun _ => Nat.le_of_not_lt h

/-- A provider is still active after a slashing if it was, did not fall below 20, and has less than five. -/
theorem slashed_active {s : Standing} {now : Nat} :
    (s.slashed now).active = true ↔ s.active = true ∧ 20 ≤ s.score - 20 ∧ s.slashings + 1 < 5 := by
  unfold slashed
  split
  · next h =>
    constructor
    · intro hactive
      cases hactive
    · rintro ⟨-, -, hfew⟩
      omega
  · next h =>
    rw [lowered_active]
    have hfew : s.slashings + 1 < 5 := Nat.lt_of_not_le h
    simp [hfew]

end Standing

/-- In the cool-down that began at time `now`. -/
structure Standing.Suspended (s : Standing) (now : Nat) : Prop where
  registered : s.registered = true
  inactive : s.active = false
  deactivatedUntil : s.deactivatedUntil = now + COOLDOWN_PERIOD

theorem Standing.suspended_of_lowered {s : Standing} {now amount : Nat} (hreg : s.registered = true)
    (h : s.score - amount < 20) : (s.lowered now amount).Suspended now := by
  rw [lowered_of_lt h]
  exact ⟨hreg, rfl, rfl⟩

theorem Standing.suspended_of_slashed {s : Standing} {now : Nat} (hreg : s.registered = true)
    (h : s.score - 20 < 20 ∨ 5 ≤ s.slashings + 1) : (s.slashed now).Suspended now := by
  by_cases hmany : 5 ≤ s.slashings + 1
  · rw [slashed_of_le hmany]
    exact ⟨(lowered_registered _ _ _).trans hreg, rfl, rfl⟩
  · rw [slashed_of_lt (Nat.lt_of_not_le hmany)]
    exact suspended_of_lowered hreg (h.resolve_right hmany)

/-- What a call at time `now` can do to a provider's standing. Only its own call registers it, and only a provider
that asks for it is reactivated. -/
inductive Change (now : Nat) (own asks : Prop) (s : Standing) : Standing → Prop
  | keeps : Change now own asks s s
  | registers (self : own) (fresh : s.registered = false) :
      Change now own asks s ⟨true, INITIAL_REPUTATION, 0, true, 0⟩
  | raises (amount : Nat) (registered : s.registered = true) : Change now own asks s (s.raised amount)
  | lowers (amount : Nat) (registered : s.registered = true) : Change now own asks s (s.lowered now amount)
  | slashes (registered : s.registered = true) : Change now own asks s (s.slashed now)
  | reactivates (asked : asks) (registered : s.registered = true) (inactive : s.active = false)
      (cooled : s.deactivatedUntil ≤ now) : Change now own asks s s.reactivated

theorem Change.mono {now : Nat} {own asks asks' : Prop} {s s' : Standing} (hasks : asks → asks')
    (h : Change now own asks s s') : Change now own asks' s s' := by
  cases h with
  | keeps => exact .keeps
  | registers self fresh => exact .registers self fresh
  | raises amount registered => exact .raises amount registered
  | lowers amount registered => exact .lowers amount registered
  | slashes registered => exact .slashes registered
  | reactivates asked registered inactive cooled => exact .reactivates (hasks asked) registered inactive cooled

/-- The logs say that the provider was deactivated. -/
def Deactivates (p : Address) (logs : List RegistryLog) : Prop := ∃ u, .ProviderDeactivated p u ∈ logs

/-- `r'` differs from `r` in the record of `p` only, which has standing `s` now. -/
structure ChangedAt (r r' : ProviderRegistry) (p : Address) (s : Standing) : Prop where
  standing : (r'.providers p).standing = s
  others : ∀ q, q ≠ p → r'.providers q = r.providers q
  owner : r'.owner = r.owner
  keepers : r'.authorizedRecordKeepers = r.authorizedRecordKeepers

theorem ChangedAt.trans {r₁ r₂ r₃ : ProviderRegistry} {p : Address} {s₁ s₂ : Standing}
    (h₁ : ChangedAt r₁ r₂ p s₁) (h₂ : ChangedAt r₂ r₃ p s₂) : ChangedAt r₁ r₃ p s₂ where
  standing := h₂.standing
  others := fun q hq => (h₂.others q hq).trans (h₁.others q hq)
  owner := h₂.owner.trans h₁.owner
  keepers := h₂.keepers.trans h₁.keepers

/-- One record changes, so it is enough to look at it. -/
theorem ChangedAt.change {r r' : ProviderRegistry} {own asks : Prop} {now : Nat} {s : Standing} {p q : Address}
    (h : ChangedAt r r' q s) (hself : p = q → Change now own asks (r.providers q).standing s) :
    Change now own asks (r.providers p).standing (r'.providers p).standing := by
  by_cases hp : p = q
  · subst hp
    rw [h.standing]
    exact hself rfl
  · rw [h.others p hp]
    exact .keeps

namespace ProviderRegistry

section Operations

variable {r r' : ProviderRegistry} {msg : Msg} {p : Address} {amount : Nat} {reason : String}
  {logs : List RegistryLog}

theorem changedAt_set (r : ProviderRegistry) (p : Address) (record : Provider) :
    ChangedAt r (r.set p record) p record.standing where
  standing := by simp [set]
  others := fun q hq => by simp [set, hq]
  owner := rfl
  keepers := rfl

@[simp] theorem onlyAuthorizedKeeper_eq_ok {u : Unit} :
    r.onlyAuthorizedKeeper msg = .ok u ↔
      msg.sender = r.owner ∨ r.authorizedRecordKeepers msg.sender = true := by
  simp [onlyAuthorizedKeeper]

theorem deactivateProvider_ok (h : r.deactivateProvider msg p = .ok (r', logs)) :
    ChangedAt r r' p ((r.providers p).standing.deactivated msg.timestamp) ∧
      logs = [.ProviderDeactivated p (msg.timestamp + COOLDOWN_PERIOD)] := by
  simp only [deactivateProvider, bind_eq_ok, checkedAdd_eq_ok, pure_eq_ok, Prod.mk.injEq] at h
  obtain ⟨_, ⟨-, rfl⟩, rfl, rfl⟩ := h
  exact ⟨changedAt_set r p _, rfl⟩

theorem deactivateProvider_succeeds :
    (∃ out, r.deactivateProvider msg p = .ok out) ↔ msg.timestamp + COOLDOWN_PERIOD < uint256Size := by
  simp only [deactivateProvider, bind_eq_ok, checkedAdd_eq_ok, pure_eq_ok]
  constructor
  · rintro ⟨_, _, ⟨hlt, -⟩, -⟩
    exact hlt
  · intro hlt
    exact ⟨_, _, ⟨hlt, rfl⟩, rfl⟩

/-- Who can raise a score, and to what. -/
theorem increaseReputation_eq_ok {out : ProviderRegistry × List RegistryLog} :
    r.increaseReputation msg p amount reason = .ok out ↔
      (msg.sender = r.owner ∨ r.authorizedRecordKeepers msg.sender = true) ∧
        (r.providers p).registered = true ∧ (r.providers p).reputationScore + amount < uint256Size ∧
        out = (r.set p { r.providers p with
            reputationScore := min ((r.providers p).reputationScore + amount) MAX_REPUTATION },
          [.ReputationUpdated p (min ((r.providers p).reputationScore + amount) MAX_REPUTATION)
            reason]) := by
  have hmin : ∀ score, (if MAX_REPUTATION < score then MAX_REPUTATION else score) =
      min score MAX_REPUTATION := by
    intro score
    split <;> omega
  simp only [increaseReputation, bind_eq_ok, onlyAuthorizedKeeper_eq_ok, require_eq_ok, checkedAdd_eq_ok,
    pure_eq_ok, exists_const]
  constructor
  · rintro ⟨hauth, hreg, _, ⟨hlt, rfl⟩, rfl⟩
    rw [hmin]
    exact ⟨hauth, hreg, hlt, rfl⟩
  · rintro ⟨hauth, hreg, hlt, rfl⟩
    refine ⟨hauth, hreg, _, ⟨hlt, rfl⟩, ?_⟩
    rw [hmin]

/-- Who can lower a score, and to what; below 20 the provider is deactivated. -/
theorem decreaseReputation_eq_ok {out : ProviderRegistry × List RegistryLog} :
    r.decreaseReputation msg p amount reason = .ok out ↔
      (msg.sender = r.owner ∨ r.authorizedRecordKeepers msg.sender = true) ∧
        (r.providers p).registered = true ∧
        if (r.providers p).reputationScore - amount < 20 then
          ∃ r₁ l, (r.set p { r.providers p with
              reputationScore := (r.providers p).reputationScore - amount }).deactivateProvider msg p = .ok (r₁, l) ∧
            out = (r₁, .ReputationUpdated p ((r.providers p).reputationScore - amount) reason :: l)
        else
          out = (r.set p { r.providers p with reputationScore := (r.providers p).reputationScore - amount },
            [.ReputationUpdated p ((r.providers p).reputationScore - amount) reason]) := by
  have hscore : (if amount < (r.providers p).reputationScore then (r.providers p).reputationScore - amount
      else MIN_REPUTATION) = (r.providers p).reputationScore - amount := by
    unfold MIN_REPUTATION
    split <;> omega
  simp only [decreaseReputation, bind_eq_ok, onlyAuthorizedKeeper_eq_ok, require_eq_ok, exists_const, hscore]
  refine and_congr_right fun _ => and_congr_right fun _ => ?_
  split
  · simp only [bind_eq_ok, pure_eq_ok, Prod.exists, List.cons_append, List.nil_append]
  · exact pure_eq_ok

/-- A decrease that goes through lowers the score, and logs a deactivation exactly below 20. -/
theorem decreaseReputation_ok (h : r.decreaseReputation msg p amount reason = .ok (r', logs)) :
    (r.providers p).registered = true ∧
      ChangedAt r r' p ((r.providers p).standing.lowered msg.timestamp amount) ∧
      ∀ q, Deactivates q logs → q = p ∧ (r.providers p).reputationScore - amount < 20 := by
  obtain ⟨-, hreg, h⟩ := decreaseReputation_eq_ok.mp h
  refine ⟨hreg, ?_⟩
  have hset := changedAt_set r p
    { r.providers p with reputationScore := (r.providers p).reputationScore - amount }
  split at h
  · next hlow =>
    obtain ⟨r₁, l, hdeactivate, hout⟩ := h
    obtain ⟨rfl, rfl⟩ := Prod.mk.inj hout
    obtain ⟨hchanged, rfl⟩ := deactivateProvider_ok hdeactivate
    rw [hset.standing] at hchanged
    rw [Standing.lowered_of_lt hlow]
    refine ⟨ChangedAt.trans hset hchanged, ?_⟩
    rintro q ⟨u, hu⟩
    simp only [List.mem_cons, reduceCtorEq, List.not_mem_nil, or_false, false_or,
      RegistryLog.ProviderDeactivated.injEq] at hu
    exact ⟨hu.1, hlow⟩
  · next hhigh =>
    obtain ⟨rfl, rfl⟩ := Prod.mk.inj h
    rw [Standing.lowered_of_le (Nat.le_of_not_lt hhigh)]
    refine ⟨hset, ?_⟩
    rintro q ⟨u, hu⟩
    simp at hu

/-- A decrease by a keeper goes through for a registered provider, unless the end of a cool-down overflows. -/
theorem decreaseReputation_succeeds
    (hauth : msg.sender = r.owner ∨ r.authorizedRecordKeepers msg.sender = true)
    (hreg : (r.providers p).registered = true) :
    (∃ out, r.decreaseReputation msg p amount reason = .ok out) ↔
      ((r.providers p).reputationScore - amount < 20 → msg.timestamp + COOLDOWN_PERIOD < uint256Size) := by
  simp only [decreaseReputation_eq_ok, and_iff_right hauth, and_iff_right hreg]
  split
  · next hlow =>
    rw [forall_prop_of_true hlow]
    constructor
    · intro ⟨_, r₁, l, hdeactivate, _⟩
      exact deactivateProvider_succeeds.mp ⟨(r₁, l), hdeactivate⟩
    · intro htime
      obtain ⟨⟨r₁, l⟩, hdeactivate⟩ := deactivateProvider_succeeds.mpr htime
      exact ⟨_, r₁, l, hdeactivate, rfl⟩
  · next hhigh => simp [hhigh]

theorem increaseReputation_ok (h : r.increaseReputation msg p amount reason = .ok (r', logs)) :
    (r.providers p).registered = true ∧ ChangedAt r r' p ((r.providers p).standing.raised amount) ∧
      ∀ q, ¬ Deactivates q logs := by
  obtain ⟨-, hreg, -, hout⟩ := increaseReputation_eq_ok.mp h
  obtain ⟨rfl, rfl⟩ := Prod.mk.inj hout
  refine ⟨hreg, changedAt_set r p _, ?_⟩
  rintro q ⟨u, hu⟩
  simp at hu

theorem recordDealCompleted_ok (h : r.recordDealCompleted msg p = .ok (r', logs)) :
    (r.providers p).registered = true ∧ ChangedAt r r' p ((r.providers p).standing.raised 1) ∧
      ∀ q, ¬ Deactivates q logs := by
  simp only [recordDealCompleted, bind_eq_ok, require_eq_ok, checkedAdd_eq_ok, exists_const] at h
  obtain ⟨-, -, hreg, completed, -, h⟩ := h
  have hset := changedAt_set r p { r.providers p with totalDealsCompleted := completed }
  obtain ⟨-, hchanged, hnone⟩ := increaseReputation_ok h
  rw [hset.standing] at hchanged
  exact ⟨hreg, hset.trans hchanged, hnone⟩

/-- A failed deal costs 5 points, and deactivates nobody else. -/
theorem recordDealFailed_ok (h : r.recordDealFailed msg p = .ok (r', logs)) :
    (r.providers p).registered = true ∧
      ChangedAt r r' p ((r.providers p).standing.lowered msg.timestamp 5) ∧
      ∀ q, Deactivates q logs → q = p ∧ (r.providers p).reputationScore - 5 < 20 := by
  simp only [recordDealFailed, bind_eq_ok, require_eq_ok, checkedAdd_eq_ok, exists_const] at h
  obtain ⟨-, -, hreg, failed, -, h⟩ := h
  have hset := changedAt_set r p { r.providers p with totalDealsFailed := failed }
  obtain ⟨-, hchanged, hlogs⟩ := decreaseReputation_ok h
  rw [hset.standing] at hchanged
  refine ⟨hreg, hset.trans hchanged, ?_⟩
  intro q hq
  obtain ⟨rfl, hlow⟩ := hlogs q hq
  exact ⟨rfl, by simpa [set] using hlow⟩

/-- A slashing costs 20 points; the fifth one deactivates, whatever the score is. -/
theorem recordSlashing_ok (h : r.recordSlashing msg p = .ok (r', logs)) :
    (r.providers p).registered = true ∧ ChangedAt r r' p ((r.providers p).standing.slashed msg.timestamp) ∧
      ∀ q, Deactivates q logs → q = p ∧ ((r.providers p).reputationScore - 20 < 20 ∨
        5 ≤ (r.providers p).totalSlashingEvents + 1) := by
  simp only [recordSlashing, bind_eq_ok, require_eq_ok, checkedAdd_eq_ok, exists_const, Prod.exists] at h
  obtain ⟨-, -, hreg, _, ⟨-, rfl⟩, r₁, l, hdecrease, h⟩ := h
  obtain ⟨-, hchanged, hlogs⟩ := decreaseReputation_ok hdecrease
  have hset := changedAt_set r p
    { r.providers p with totalSlashingEvents := (r.providers p).totalSlashingEvents + 1 }
  rw [hset.standing] at hchanged
  have hfirst : ∀ q, Deactivates q l → q = p ∧ (r.providers p).reputationScore - 20 < 20 := by
    intro q hq
    obtain ⟨rfl, hlow⟩ := hlogs q hq
    exact ⟨rfl, by simpa [set] using hlow⟩
  have hcount : (r₁.providers p).totalSlashingEvents = (r.providers p).totalSlashingEvents + 1 :=
    (congrArg Standing.slashings hchanged.standing).trans (Standing.lowered_slashings _ _ _)
  rw [hcount] at h
  refine ⟨hreg, ?_⟩
  split at h
  · next hmany =>
    simp only [bind_eq_ok, pure_eq_ok, Prod.exists, Prod.mk.injEq] at h
    obtain ⟨r₂, more, hdeactivate, rfl, rfl⟩ := h
    obtain ⟨hlast, rfl⟩ := deactivateProvider_ok hdeactivate
    rw [hchanged.standing] at hlast
    rw [Standing.slashed_of_le hmany]
    refine ⟨(hset.trans hchanged).trans hlast, ?_⟩
    rintro q ⟨u, hu⟩
    rcases List.mem_append.mp hu with hu | hu
    · obtain ⟨rfl, hlow⟩ := hfirst q ⟨u, hu⟩
      exact ⟨rfl, Or.inl hlow⟩
    · obtain ⟨rfl, -⟩ := RegistryLog.ProviderDeactivated.inj (List.mem_singleton.mp hu)
      exact ⟨rfl, Or.inr hmany⟩
  · next hfew =>
    obtain ⟨rfl, rfl⟩ := Prod.mk.inj (pure_eq_ok.mp h)
    rw [Standing.slashed_of_lt (Nat.lt_of_not_le hfew)]
    refine ⟨hset.trans hchanged, ?_⟩
    intro q hq
    obtain ⟨rfl, hlow⟩ := hfirst q hq
    exact ⟨rfl, Or.inl hlow⟩

theorem recordSlashing_keeper (h : r.recordSlashing msg p = .ok (r', logs)) :
    msg.sender = r.owner ∨ r.authorizedRecordKeepers msg.sender = true := by
  simp only [recordSlashing, bind_eq_ok, onlyAuthorizedKeeper_eq_ok] at h
  obtain ⟨_, hkeeper, -⟩ := h
  exact hkeeper

/-- A slashing by a keeper is recorded for every registered provider, unless its count or the end of a cool-down
overflows. -/
theorem recordSlashing_succeeds
    (hauth : msg.sender = r.owner ∨ r.authorizedRecordKeepers msg.sender = true)
    (hreg : (r.providers p).registered = true) :
    (∃ out, r.recordSlashing msg p = .ok out) ↔
      (r.providers p).totalSlashingEvents + 1 < uint256Size ∧
        ((r.providers p).reputationScore - 20 < 20 ∨ 5 ≤ (r.providers p).totalSlashingEvents + 1 →
          msg.timestamp + COOLDOWN_PERIOD < uint256Size) := by
  have hset := changedAt_set r p
    { r.providers p with totalSlashingEvents := (r.providers p).totalSlashingEvents + 1 }
  -- the score is lowered in the record that has the new count already
  have hdecrease := @decreaseReputation_succeeds
    (r.set p { r.providers p with totalSlashingEvents := (r.providers p).totalSlashingEvents + 1 }) msg p 20
    "Slashing event" hauth (by simpa [set] using hreg)
  have hscore := congrArg Standing.score hset.standing
  simp only [Provider.standing] at hscore
  rw [hscore] at hdecrease
  simp only [recordSlashing, bind_eq_ok, onlyAuthorizedKeeper_eq_ok, require_eq_ok, checkedAdd_eq_ok,
    exists_const, and_iff_right hauth, and_iff_right hreg]
  constructor
  · rintro ⟨out, _, ⟨hlt, rfl⟩, ⟨r₁, l⟩, hlower, h⟩
    refine ⟨hlt, ?_⟩
    obtain ⟨-, hchanged, -⟩ := decreaseReputation_ok hlower
    have hcount : (r₁.providers p).totalSlashingEvents = (r.providers p).totalSlashingEvents + 1 :=
      (congrArg Standing.slashings hchanged.standing).trans (by simp [Provider.standing, set])
    rintro (hlow | hmany)
    -- a score below 20 needs the end of a cooldown, and so does the fifth slashing
    · exact hdecrease.mp ⟨_, hlower⟩ hlow
    · dsimp only at h
      rw [hcount, if_pos hmany] at h
      obtain ⟨_, hdeactivate, -⟩ := bind_eq_ok.mp h
      exact deactivateProvider_succeeds.mp ⟨_, hdeactivate⟩
  · rintro ⟨hlt, htime⟩
    obtain ⟨⟨r₁, l⟩, hlower⟩ := hdecrease.mpr fun hlow => htime (Or.inl hlow)
    obtain ⟨-, hchanged, -⟩ := decreaseReputation_ok hlower
    have hcount : (r₁.providers p).totalSlashingEvents = (r.providers p).totalSlashingEvents + 1 :=
      (congrArg Standing.slashings hchanged.standing).trans (by simp [Provider.standing, set])
    by_cases hmany : 5 ≤ (r.providers p).totalSlashingEvents + 1
    · obtain ⟨⟨r₂, more⟩, hdeactivate⟩ := (@deactivateProvider_succeeds r₁ msg p).mpr (htime (Or.inr hmany))
      refine ⟨(r₂, l ++ more), _, ⟨hlt, rfl⟩, (r₁, l), hlower, ?_⟩
      dsimp only
      rw [hcount, if_pos hmany]
      exact bind_eq_ok.mpr ⟨_, hdeactivate, rfl⟩
    · refine ⟨(r₁, l), _, ⟨hlt, rfl⟩, (r₁, l), hlower, ?_⟩
      dsimp only
      rw [hcount, if_neg hmany]
      rfl

end Operations

/-- The provider asks to be reactivated. -/
def Call.reactivates : Call → Prop
  | .reactivateProvider => True
  | _ => False

/-- **What a successful call does to a provider's standing.** A deactivation in the logs is one that happened. -/
theorem step_change {r r' : ProviderRegistry} {msg : Msg} {c : Call} {logs : List RegistryLog}
    (h : r.step msg c = .ok (r', logs)) (p : Address) :
    Change msg.timestamp (p = msg.sender) (p = msg.sender ∧ c.reactivates) (r.providers p).standing
        (r'.providers p).standing ∧
      (Deactivates p logs → (r'.providers p).standing.Suspended msg.timestamp) := by
  cases c with
  | registerProvider peerId endpoint region minPriceUSD =>
    simp only [step, registerProvider, bind_eq_ok, require_eq_ok, pure_eq_ok, exists_const, Prod.mk.injEq] at h
    obtain ⟨hfresh, -, rfl, rfl⟩ := h
    constructor
    -- the score starts at its initial value, in a standing that was blank
    · have hset := changedAt_set r msg.sender
        { registered := true, registrationTime := msg.timestamp, reputationScore := INITIAL_REPUTATION, peerId,
          endpoint, region, active := true, minPriceUSD }
      exact ChangedAt.change ⟨hset.standing, hset.others, hset.owner, hset.keepers⟩ fun hp => .registers hp hfresh
    · rintro ⟨u, hu⟩
      simp at hu
  | updateProvider endpoint region minPriceUSD =>
    simp only [step, updateProvider, bind_eq_ok, pure_eq_ok, Prod.mk.injEq] at h
    obtain ⟨-, -, rfl, rfl⟩ := h
    constructor
    · exact ChangedAt.change (changedAt_set r msg.sender _) fun _ => .keeps
    · rintro ⟨u, hu⟩
      -- no deactivation is announced
      simp at hu
  | updateCapacity provider newTotalCapacityGB =>
    simp only [step, updateCapacity, bind_eq_ok, pure_eq_ok, Prod.mk.injEq] at h
    obtain ⟨-, -, -, -, rfl, rfl⟩ := h
    constructor
    · exact ChangedAt.change (changedAt_set r provider _) fun _ => .keeps
    · rintro ⟨u, hu⟩
      simp at hu
  | increaseReputation provider amount reason =>
    obtain ⟨hreg, hchanged, hnone⟩ := increaseReputation_ok h
    exact ⟨hchanged.change fun _ => .raises amount hreg, fun hd => absurd hd (hnone p)⟩
  | decreaseReputation provider amount reason =>
    obtain ⟨hreg, hchanged, hlogs⟩ := decreaseReputation_ok h
    -- below the bound the provider is suspended in the same call
    refine ⟨hchanged.change fun _ => .lowers amount hreg, ?_⟩
    intro hd
    obtain ⟨rfl, hlow⟩ := hlogs p hd
    rw [hchanged.standing]
    exact Standing.suspended_of_lowered hreg hlow
  | recordDealCompleted provider =>
    obtain ⟨hreg, hchanged, hnone⟩ := recordDealCompleted_ok h
    exact ⟨hchanged.change fun _ => .raises 1 hreg, fun hd => absurd hd (hnone p)⟩
  | recordDealFailed provider =>
    obtain ⟨hreg, hchanged, hlogs⟩ := recordDealFailed_ok h
    refine ⟨hchanged.change fun _ => .lowers 5 hreg, ?_⟩
    intro hd
    obtain ⟨rfl, hlow⟩ := hlogs p hd
    rw [hchanged.standing]
    exact Standing.suspended_of_lowered hreg hlow
  | recordSlashing provider =>
    obtain ⟨hreg, hchanged, hlogs⟩ := recordSlashing_ok h
    refine ⟨hchanged.change fun _ => .slashes hreg, ?_⟩
    intro hd
    obtain ⟨rfl, hdue⟩ := hlogs p hd
    rw [hchanged.standing]
    exact Standing.suspended_of_slashed hreg hdue
  | reactivateProvider =>
    simp only [step, reactivateProvider, bind_eq_ok, require_eq_ok, pure_eq_ok, exists_const, Prod.mk.injEq] at h
    obtain ⟨hreg, hinactive, hcooled, rfl, rfl⟩ := h
    constructor
    -- the cooldown is over, which is what the last `require` has checked
    · exact ChangedAt.change (changedAt_set r msg.sender _) fun hp =>
        .reactivates ⟨hp, trivial⟩ hreg hinactive hcooled
    · rintro ⟨u, hu⟩
      simp at hu
  | authorizeRecordKeeper keeper | revokeRecordKeeper keeper =>
    simp only [step, authorizeRecordKeeper, revokeRecordKeeper, setRecordKeeper, bind_eq_ok, pure_eq_ok,
      Prod.mk.injEq] at h
    obtain ⟨-, -, rfl, rfl⟩ := h
    -- authorizations and ownership are no part of anybody's standing
    refine ⟨.keeps, ?_⟩
    rintro ⟨u, hu⟩
    simp at hu
  | transferOwnership newOwner | renounceOwnership =>
    simp only [step, bind_eq_ok, pure_eq_ok, Prod.mk.injEq] at h
    obtain ⟨-, -, rfl, rfl⟩ := h
    refine ⟨.keeps, ?_⟩
    rintro ⟨u, hu⟩
    simp at hu

/-! ## The score and the thresholds -/

/-- A call of the registry, by whomever. -/
structure Action where
  msg : Msg
  call : Call

def Action.time (a : Action) : Nat := a.msg.timestamp

def act (r : ProviderRegistry) (a : Action) : Tx (ProviderRegistry × List RegistryLog) := r.step a.msg a.call

end ProviderRegistry

/-- The score is within its bounds, and an active provider is above both thresholds. -/
structure Standing.WellKept (s : Standing) : Prop where
  score_le : s.score ≤ MAX_REPUTATION
  score_ge : s.active = true → 20 ≤ s.score
  slashings_lt : s.active = true → s.slashings < 5

/-- No change of the standing leaves the bounds. -/
theorem Change.wellKept {now : Nat} {own asks : Prop} {s s' : Standing} (h : Change now own asks s s')
    (hs : s.WellKept) : s'.WellKept := by
  obtain ⟨hle, hge, hlt⟩ := hs
  cases h with
  | keeps => exact ⟨hle, hge, hlt⟩
  | registers => exact ⟨by simp [INITIAL_REPUTATION, MAX_REPUTATION], by simp [INITIAL_REPUTATION], by simp⟩
  | raises amount =>
    refine ⟨Nat.min_le_right _ _, ?_, hlt⟩
    intro hactive
    have hscore := hge hactive
    simp only [Standing.raised, MAX_REPUTATION]
    omega
  | lowers amount =>
    refine ⟨?_, ?_, ?_⟩
    · rw [Standing.lowered_score]
      omega
    · intro hactive
      rw [Standing.lowered_score]
      exact (Standing.lowered_active.mp hactive).2
    · intro hactive
      rw [Standing.lowered_slashings]
      exact hlt (Standing.lowered_active.mp hactive).1
  | slashes =>
    refine ⟨?_, ?_, ?_⟩
    · rw [Standing.slashed_score]
      omega
    · intro hactive
      rw [Standing.slashed_score]
      exact (Standing.slashed_active.mp hactive).2.1
    · intro hactive
      rw [Standing.slashed_slashings]
      exact (Standing.slashed_active.mp hactive).2.2
  | reactivates =>
    exact ⟨by simp [Standing.reactivated, INITIAL_REPUTATION, MAX_REPUTATION],
      by simp [Standing.reactivated, INITIAL_REPUTATION], by simp [Standing.reactivated]⟩

namespace ProviderRegistry

theorem wellKept_unregistered : ({} : Provider).standing.WellKept := by
  refine ⟨Nat.zero_le _, ?_, ?_⟩
  · intro hactive
    cases hactive
  · intro hactive
    cases hactive

/-- **Every provider is well kept**, in every state the registry can reach. -/
theorem wellKept_run (msg : Msg) (as : List Action) (p : Address) :
    ((run act (deploy msg) as).providers p).standing.WellKept := by
  apply run_invariant (I := fun r : ProviderRegistry => (r.providers p).standing.WellKept)
    (C := fun _ _ => True) _ _ as (meets_true _ as)
  · exact wellKept_unregistered
  · intro r a r' logs hr _ hstep
    exact (step_change hstep p).1.wellKept hr

/-! ## The cool-down -/

end ProviderRegistry

/-- Since a deactivation that lasts until `u`: the cool-down has only become longer, and nobody is active before
its end. -/
structure Standing.Cooling (s : Standing) (u now : Nat) : Prop where
  registered : s.registered = true
  extended : u ≤ s.deactivatedUntil
  waits : s.active = true → u ≤ now

/-- No change shortens a cooldown that has not passed. -/
theorem Change.cooling {now u : Nat} {own asks : Prop} {s s' : Standing} (h : Change now own asks s s')
    (hu : u ≤ now + COOLDOWN_PERIOD) (hs : s.Cooling u now) : s'.Cooling u now := by
  obtain ⟨hreg, hext, hwait⟩ := hs
  cases h with
  | keeps => exact ⟨hreg, hext, hwait⟩
  | registers _ fresh =>
    rw [hreg] at fresh
    cases fresh
  | raises amount => exact ⟨hreg, hext, hwait⟩
  | lowers amount =>
    refine ⟨(Standing.lowered_registered _ _ _).trans hreg, ?_, ?_⟩
    · unfold Standing.lowered
      split
      · exact hu
      · exact hext
    · intro hactive
      exact hwait (Standing.lowered_active.mp hactive).1
  | slashes =>
    refine ⟨(Standing.slashed_registered _ _).trans hreg, ?_, ?_⟩
    · unfold Standing.slashed Standing.lowered
      split
      · exact hu
      · split
        · exact hu
        · exact hext
    · intro hactive
      exact hwait (Standing.slashed_active.mp hactive).1
  | reactivates _ _ _ cooled => exact ⟨hreg, hext, fun _ => hext.trans cooled⟩

namespace ProviderRegistry

/-- **The cool-down is kept**: after a call that deactivates a provider, it is inactive in every later state of the
run whose time is before the end of the cool-down, and the end is never moved to an earlier time. -/
theorem cooldown_run {msg : Msg} {before later : List Action} {a : Action} {r' : ProviderRegistry}
    {logs : List RegistryLog} {p : Address}
    (hmono : (before ++ a :: later).Pairwise fun a b => a.time ≤ b.time)
    (hstep : act (run act (deploy msg) before) a = .ok (r', logs)) (hdeactivates : Deactivates p logs) :
    (r'.providers p).deactivatedUntil = a.time + COOLDOWN_PERIOD ∧
      ∀ mid, mid <+: later →
        a.time + COOLDOWN_PERIOD ≤ ((run act r' mid).providers p).deactivatedUntil ∧
          (lastTime Action.time mid < a.time + COOLDOWN_PERIOD →
            (run act r' mid).isProviderActive p = false) := by
  have hsusp := (step_change hstep p).2 hdeactivates
  refine ⟨hsusp.deactivatedUntil, ?_⟩
  intro mid hmid
  have hlater : (a :: later).Pairwise fun a b => a.time ≤ b.time := (List.pairwise_append.mp hmono).2.1
  rw [List.pairwise_cons] at hlater
  have hcool := @timed_induction _ _ _ act Action.time
    (fun r _ now => (r.providers p).standing.Cooling (a.time + COOLDOWN_PERIOD) now)
    (fun _ b => a.time ≤ b.time) r' ?_ ?_ ?_ mid (hlater.2.sublist hmid.sublist) ?_
  · refine ⟨hcool.extended, ?_⟩
    intro htime
    unfold isProviderActive
    cases hactive : ((run act r' mid).providers p).active with
    | false => exact Bool.and_false _
    | true =>
      have hend := hcool.waits hactive
      omega
  · refine ⟨hsusp.registered, hsusp.deactivatedUntil.ge, ?_⟩
    intro hactive
    rw [hsusp.inactive] at hactive
    cases hactive
  · intro r _ now later hle hc
    exact ⟨hc.registered, hc.extended, fun hactive => (hc.waits hactive).trans hle⟩
  · intro r _ b r'' logs' hc hb hs
    exact (step_change hs p).1.cooling (Nat.add_le_add_right hb _) hc
  · exact meets_of_forall _ fun b hb _ => hlater.1 b (hmid.subset hb)

end ProviderRegistry

/-! ### A provider that comes back too early -/

namespace SmallRegistry

open ProviderRegistry

/-- Account 1 owns the registry and account 2 is a provider. -/
def registered : List Action := [⟨⟨2, 0⟩, .registerProvider "peer" "ep" "na" 5000⟩]

/-- From the initial score of 50 to 10. -/
def lowering : Action := ⟨⟨1, 10⟩, .decreaseReputation 2 40 "Data loss"⟩

/-- The provider asks to be reactivated at once, and somebody raises its score. -/
def attempts : List Action :=
  [⟨⟨2, 20⟩, .reactivateProvider⟩, ⟨⟨1, 30⟩, .increaseReputation 2 60 "Proof"⟩, ⟨⟨2, 40⟩, .reactivateProvider⟩]

theorem lowering_goes_through : revertOf (act (run act (deploy ⟨1, 0⟩) registered) lowering) = none := by decide

/-- The registry after the decrease, with its logs. -/
def lowered : ProviderRegistry × List RegistryLog := resultOf _ lowering_goes_through

theorem cooldown_attempts : (run act lowered.1 attempts).isProviderActive 2 = false :=
  ((@cooldown_run ⟨1, 0⟩ registered attempts lowering lowered.1 lowered.2 2 (by decide)
    (eq_resultOf lowering_goes_through) ⟨10 + COOLDOWN_PERIOD, by decide⟩).2 attempts List.prefix_rfl).2 (by decide)

end SmallRegistry

end Kyneto
