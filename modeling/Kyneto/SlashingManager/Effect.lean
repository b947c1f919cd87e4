import Kyneto.SlashingManager.Basic
import Kyneto.ProviderRegistry.Standing

/-!
# What a call of `SlashingManager` can do

The arithmetic of the manager as plain functions of the penalty state, with one lemma for each operation that says
when it succeeds and what it writes. `slashing_effect` puts them together: every successful call of the manager
enters a slashing, files an appeal, resolves one, or leaves the books alone.
-/

namespace Kyneto

open Evm

/-! ## Penalty states -/

namespace ProviderPenaltyState

/-- The state after a missed proof at time `now`. -/
def missed (s : ProviderPenaltyState) (now : Nat) : ProviderPenaltyState :=
  { s with
    consecutiveMissedPosts :=
      if now - s.lastMissedPostTime ≤ MISS_WINDOW then s.consecutiveMissedPosts + 1 else 1
    lastMissedPostTime := now }

/-- The state after a slashing of `amount` at time `now`. -/
def penalized (s : ProviderPenaltyState) (now amount : Nat) : ProviderPenaltyState :=
  { s with
    totalSlashed := s.totalSlashed + amount
    slashCountInWindow := if now - s.lastSlashTime ≤ REPEAT_WINDOW then s.slashCountInWindow + 1 else 1
    lastSlashTime := now }

/-- By how much a penalty at time `now` is multiplied. -/
def repeatMultiplier (s : ProviderPenaltyState) (now : Nat) : Nat :=
  if REPEAT_WINDOW < now - s.lastSlashTime then 1 else min (2 ^ s.slashCountInWindow) 8

/-- The penalty for a missed proof: 1 % of the collateral, times the multiplier. -/
def missedPostPenalty (s : ProviderPenaltyState) (now collateral : Nat) : Nat :=
  collateral * MISSED_POST_PENALTY_RATE / 10000 * s.repeatMultiplier now

@[simp] theorem missed_totalSlashed (s : ProviderPenaltyState) (now : Nat) :
    (s.missed now).totalSlashed = s.totalSlashed := rfl

@[simp] theorem repeatMultiplier_missed (s : ProviderPenaltyState) (now : Nat) :
    (s.missed now).repeatMultiplier now = s.repeatMultiplier now := rfl

end ProviderPenaltyState

namespace SlashingManager

variable {m m' : SlashingManager} {now amount : Nat} {provider : Address} {reason : String}

/-- The books after a slashing. -/
def entered (m : SlashingManager) (now : Nat) (provider : Address) (amount : Nat) (reason : String) :
    SlashingManager :=
  { m with
    penaltyStates := Function.update m.penaltyStates provider ((m.penaltyStates provider).penalized now amount)
    slashingHistory := Function.update m.slashingHistory provider
      (m.slashingHistory provider ++ [{ timestamp := now, amount, reason }])
    appealDeadlines := Function.update m.appealDeadlines provider
      (Function.update (m.appealDeadlines provider) (m.slashingHistory provider).length (now + APPEAL_WINDOW)) }

theorem countWithin_eq_ok {window elapsed count next : Nat} :
    countWithin window elapsed count = .ok next ↔
      (elapsed ≤ window → count + 1 < uint256Size) ∧ next = if elapsed ≤ window then count + 1 else 1 := by
  unfold countWithin
  split
  · next h => simp [h]
  · next h => simp [h, eq_comm]

/-- No number overflows where a miss is counted. -/
structure Countable (s : ProviderPenaltyState) (now : Nat) : Prop where
  inOrder : s.lastMissedPostTime ≤ now
  misses_lt : now - s.lastMissedPostTime ≤ MISS_WINDOW → s.consecutiveMissedPosts + 1 < uint256Size

theorem countMiss_eq_ok :
    m.countMiss now provider = .ok m' ↔
      Countable (m.penaltyStates provider) now ∧
        m' = m.setState provider ((m.penaltyStates provider).missed now) := by
  simp only [countMiss, bind_eq_ok, checkedSub_eq_ok, countWithin_eq_ok, pure_eq_ok]
  constructor
  · rintro ⟨_, ⟨hle, rfl⟩, _, ⟨hlt, rfl⟩, rfl⟩
    exact ⟨⟨hle, hlt⟩, rfl⟩
  · rintro ⟨⟨hle, hlt⟩, rfl⟩
    exact ⟨_, ⟨hle, rfl⟩, _, ⟨hlt, rfl⟩, rfl⟩

/-- The power of two is computed before it is capped, so it overflows after 256 slashings in a window. -/
theorem calculateRepeatMultiplier_eq_ok {multiplier : Nat} :
    m.calculateRepeatMultiplier now provider = .ok multiplier ↔
      (m.penaltyStates provider).lastSlashTime ≤ now ∧
        (now - (m.penaltyStates provider).lastSlashTime ≤ REPEAT_WINDOW →
          (m.penaltyStates provider).slashCountInWindow < 256) ∧
        multiplier = (m.penaltyStates provider).repeatMultiplier now := by
  have hpow : ∀ k, 2 ^ k < uint256Size ↔ k < 256 := by
    intro k
    exact Nat.pow_lt_pow_iff_right (by decide)
  simp only [calculateRepeatMultiplier, bind_eq_ok, checkedSub_eq_ok, ProviderPenaltyState.repeatMultiplier]
  constructor
  · rintro ⟨_, ⟨hle, rfl⟩, h⟩
    refine ⟨hle, ?_⟩
    split at h
    · next hlate =>
      obtain rfl := pure_eq_ok.mp h
      exact ⟨fun hsoon => absurd hsoon (Nat.not_le.mpr hlate), by rw [if_pos hlate]⟩
    · next hsoon =>
      simp only [bind_eq_ok, checkedPow_eq_ok, pure_eq_ok] at h
      obtain ⟨_, ⟨hlt, rfl⟩, rfl⟩ := h
      refine ⟨fun _ => (hpow _).mp hlt, ?_⟩
      rw [if_neg hsoon]
      split <;> omega
  · rintro ⟨hle, hfew, rfl⟩
    refine ⟨_, ⟨hle, rfl⟩, ?_⟩
    split
    · rfl
    · next hsoon =>
      refine bind_eq_ok.mpr ⟨_, checkedPow_eq_ok.mpr ⟨(hpow _).mpr (hfew (Nat.le_of_not_lt hsoon)), rfl⟩, ?_⟩
      apply pure_eq_ok.mpr
      split <;> omega

/-- No number overflows where a slashing is entered. -/
structure Enterable (s : ProviderPenaltyState) (now amount : Nat) : Prop where
  inOrder : s.lastSlashTime ≤ now
  total_lt : s.totalSlashed + amount < uint256Size
  count_lt : now - s.lastSlashTime ≤ REPEAT_WINDOW → s.slashCountInWindow + 1 < uint256Size
  deadline_lt : now + APPEAL_WINDOW < uint256Size

theorem enter_eq_ok :
    m.enter now provider amount reason = .ok m' ↔
      Enterable (m.penaltyStates provider) now amount ∧ m' = m.entered now provider amount reason := by
  simp only [enter, bind_eq_ok, checkedAdd_eq_ok, checkedSub_eq_ok, countWithin_eq_ok, pure_eq_ok]
  constructor
  · rintro ⟨_, ⟨htotal, rfl⟩, _, ⟨hle, rfl⟩, _, ⟨hlt, rfl⟩, _, ⟨hdeadline, rfl⟩, rfl⟩
    exact ⟨⟨hle, htotal, hlt, hdeadline⟩, rfl⟩
  · rintro ⟨⟨hle, htotal, hlt, hdeadline⟩, rfl⟩
    exact ⟨_, ⟨htotal, rfl⟩, _, ⟨hle, rfl⟩, _, ⟨hlt, rfl⟩, _, ⟨hdeadline, rfl⟩, rfl⟩

end SlashingManager

/-! ## Slashings -/

namespace Protocol

variable {sites : ProtocolSites} {n n' : Protocol} {msg : Msg} {provider : Address} {amount collateral : Nat}
  {reason : String} {logs : List ProtocolLog}

/-- The manager can burn `amount` tokens of the provider. -/
structure Burnable (sites : ProtocolSites) (token : StorageToken) (provider : Address) (amount : Nat) : Prop where
  burner : token.authorizedBurners sites.slashing = true
  ne_zero : provider ≠ 0
  funds : amount ≤ token.balanceOf provider
  burned_lt : token.totalTokensBurned + amount < uint256Size

theorem burnFrom_eq_ok {token : StorageToken} {timestamp : Nat} {out : StorageToken × List TokenLog} :
    token.burnFrom (manager sites timestamp) provider amount = .ok out ↔
      Burnable sites token provider amount ∧
        out = (token.afterBurn provider amount, [.Transfer provider 0 amount]) := by
  simp only [StorageToken.burnFrom, bind_eq_ok, require_eq_ok, exists_const, StorageToken.burnCounted_eq_ok]
  constructor
  · rintro ⟨hburner, hzero, hfunds, hlt, rfl⟩
    exact ⟨⟨hburner, hzero, hfunds, hlt⟩, rfl⟩
  · rintro ⟨⟨hburner, hzero, hfunds, hlt⟩, rfl⟩
    exact ⟨hburner, hzero, hfunds, hlt, rfl⟩

theorem applySlashing_eq_ok {out : Protocol × List ProtocolLog} :
    n.applySlashing sites msg provider amount reason = .ok out ↔
      Burnable sites n.token provider amount ∧
        SlashingManager.Enterable (n.slashing.penaltyStates provider) msg.timestamp amount ∧
        out = ({ n with
            token := n.token.afterBurn provider amount
            slashing := n.slashing.entered msg.timestamp provider amount reason },
          [.ofToken (.Transfer provider 0 amount), .slashing (.ProviderSlashed provider amount reason)]) := by
  simp only [applySlashing, bind_eq_ok, burnFrom_eq_ok, SlashingManager.enter_eq_ok, pure_eq_ok, Prod.exists,
    Prod.mk.injEq]
  constructor
  · rintro ⟨_, _, ⟨hburn, rfl, rfl⟩, _, ⟨henter, rfl⟩, rfl⟩
    exact ⟨hburn, henter, rfl⟩
  · rintro ⟨hburn, henter, rfl⟩
    exact ⟨_, _, ⟨hburn, rfl, rfl⟩, _, ⟨henter, rfl⟩, rfl⟩

/-- The manager after a missed proof was slashed. -/
def missEntered (m : SlashingManager) (now : Nat) (provider : Address) (collateral : Nat) : SlashingManager :=
  (m.setState provider ((m.penaltyStates provider).missed now)).entered now provider
    ((m.penaltyStates provider).missedPostPenalty now collateral) "Missed PoSt proof"

/-- The guards of `slashMissedPost` up to the registry, with `state` the provider's penalty state. -/
structure MissSlashable (sites : ProtocolSites) (token : StorageToken) (state : ProviderPenaltyState) (now : Nat)
    (provider : Address) (collateral : Nat) : Prop where
  countable : SlashingManager.Countable state now
  scaled_lt : collateral * MISSED_POST_PENALTY_RATE < uint256Size
  few : now - state.lastSlashTime ≤ REPEAT_WINDOW → state.slashCountInWindow < 256
  penalty_lt : state.missedPostPenalty now collateral < uint256Size
  burnable : Burnable sites token provider (state.missedPostPenalty now collateral)
  enterable : SlashingManager.Enterable state now (state.missedPostPenalty now collateral)

/-- When a missed proof can be slashed, and what the call writes. -/
theorem slashMissedPost_eq_ok {out : Protocol × List ProtocolLog} :
    n.slashMissedPost sites msg provider collateral = .ok out ↔
      msg.sender = n.slashing.owner ∧
        MissSlashable sites n.token (n.slashing.penaltyStates provider) msg.timestamp provider collateral ∧
        ∃ registry recorded,
          n.registry.recordSlashing (manager sites msg.timestamp) provider = .ok (registry, recorded) ∧
          out = ({ n with
              token := n.token.afterBurn provider
                ((n.slashing.penaltyStates provider).missedPostPenalty msg.timestamp collateral)
              slashing := missEntered n.slashing msg.timestamp provider collateral
              registry := registry },
            [.ofToken (.Transfer provider 0
                ((n.slashing.penaltyStates provider).missedPostPenalty msg.timestamp collateral)),
              .slashing (.ProviderSlashed provider
                ((n.slashing.penaltyStates provider).missedPostPenalty msg.timestamp collateral)
                "Missed PoSt proof")] ++
              deregistered (missEntered n.slashing msg.timestamp provider collateral) provider ++
              recorded.map .ofRegistry) := by
  have hstate : ∀ s : ProviderPenaltyState,
      (n.slashing.setState provider s).penaltyStates provider = s := by
    intro s
    simp [SlashingManager.setState]
  simp only [slashMissedPost, bind_eq_ok, onlyOwner_eq_ok, exists_const, SlashingManager.countMiss_eq_ok,
    checkedMul_eq_ok, SlashingManager.calculateRepeatMultiplier_eq_ok, applySlashing_eq_ok, pure_eq_ok,
    Prod.exists, Prod.mk.injEq]
  constructor
  · rintro ⟨howner, _, ⟨hcount, rfl⟩, _, ⟨hscaled, rfl⟩, _, ⟨hle, hfew, rfl⟩, _, ⟨hpenalty, rfl⟩, _, _,
      ⟨hburn, henter, rfl, rfl⟩, registry, recorded, hrecord, rfl⟩
    rw [hstate] at hfew hpenalty hburn henter
    refine ⟨howner, ⟨hcount, hscaled, hfew, hpenalty, hburn, ⟨henter.inOrder, henter.total_lt, henter.count_lt,
      henter.deadline_lt⟩⟩, registry, recorded, hrecord, ?_⟩
    rw [hstate]
    rfl
  · rintro ⟨howner, hs, registry, recorded, hrecord, rfl⟩
    refine ⟨howner, _, ⟨hs.countable, rfl⟩, _, ⟨hs.scaled_lt, rfl⟩, _, ⟨?_, ?_, rfl⟩, _, ⟨?_, rfl⟩, _, _,
      ⟨?_, ?_, rfl, rfl⟩, registry, recorded, hrecord, ?_⟩
    · rw [hstate]
      exact hs.enterable.inOrder
    · rw [hstate]
      exact hs.few
    · rw [hstate]
      exact hs.penalty_lt
    · rw [hstate]
      exact hs.burnable
    · rw [hstate]
      exact ⟨hs.enterable.inOrder, hs.enterable.total_lt, hs.enterable.count_lt, hs.enterable.deadline_lt⟩
    · rw [hstate]
      rfl

/-! ## Appeals -/

/-- The manager after the appeal against a record was resolved. -/
def resolvedAt (m : SlashingManager) (provider : Address) (i : Nat) : SlashingManager :=
  m.setHistory provider ((m.slashingHistory provider).set i { m.recordAt provider i with resolved := true })

/-- The record can be resolved. -/
structure Resolvable (m : SlashingManager) (provider : Address) (i : Nat) : Prop where
  lt : i < (m.slashingHistory provider).length
  appealed : (m.recordAt provider i).appealed = true
  unresolved : (m.recordAt provider i).resolved = false

/-- Upholding a slashing only closes the record. -/
theorem resolveAppeal_upheld_eq_ok {i : Nat} {out : Protocol × List ProtocolLog} :
    n.resolveAppeal sites msg provider i true = .ok out ↔
      msg.sender = n.slashing.owner ∧ Resolvable n.slashing provider i ∧
        out = ({ n with slashing := resolvedAt n.slashing provider i },
          [.slashing (.AppealResolved provider i true)]) := by
  simp only [resolveAppeal, bind_eq_ok, onlyOwner_eq_ok, require_eq_ok, exists_const, Bool.true_eq_false,
    if_false, pure_eq_ok]
  constructor
  · rintro ⟨howner, hlt, happealed, hunresolved, rfl⟩
    exact ⟨howner, ⟨hlt, happealed, hunresolved⟩, rfl⟩
  · rintro ⟨howner, ⟨hlt, happealed, hunresolved⟩, rfl⟩
    exact ⟨howner, hlt, happealed, hunresolved, rfl⟩

/-- Granting an appeal mints the amount of the record and raises the reputation. -/
theorem resolveAppeal_granted_eq_ok {i : Nat} {out : Protocol × List ProtocolLog} :
    n.resolveAppeal sites msg provider i false = .ok out ↔
      msg.sender = n.slashing.owner ∧ Resolvable n.slashing provider i ∧
        (n.token.authorizedMinters sites.slashing = true ∧
          n.token.totalSupply + (n.slashing.recordAt provider i).amount ≤ MAX_SUPPLY ∧ provider ≠ 0) ∧
        ∃ registry raised,
          n.registry.increaseReputation (manager sites msg.timestamp) provider 10 "Appeal upheld" =
            .ok (registry, raised) ∧
          out = ({ n with
              token := n.token.afterMint provider (n.slashing.recordAt provider i).amount
              slashing := resolvedAt n.slashing provider i
              registry := registry },
            [.ofToken (.Transfer 0 provider (n.slashing.recordAt provider i).amount)] ++
              raised.map .ofRegistry ++ [.slashing (.AppealResolved provider i false)]) := by
  simp only [resolveAppeal, bind_eq_ok, onlyOwner_eq_ok, require_eq_ok, exists_const, if_true,
    StorageToken.mint_eq_ok, pure_eq_ok, Prod.exists, Prod.mk.injEq]
  constructor
  · rintro ⟨howner, hlt, happealed, hunresolved, _, _, ⟨hminter, hcap, hzero, rfl, rfl⟩, registry, raised, hraise,
      rfl⟩
    exact ⟨howner, ⟨hlt, happealed, hunresolved⟩, ⟨hminter, hcap, hzero⟩, registry, raised, hraise, rfl⟩
  · rintro ⟨howner, ⟨hlt, happealed, hunresolved⟩, ⟨hminter, hcap, hzero⟩, registry, raised, hraise, rfl⟩
    exact ⟨howner, hlt, happealed, hunresolved, _, _, ⟨hminter, hcap, hzero, rfl, rfl⟩, registry, raised, hraise,
      rfl⟩

end Protocol

/-! ## The books of the manager -/

/-- The tokens a log says were minted for `p`. -/
def ProtocolLog.minted (p : Address) : ProtocolLog → Nat
  | .network (.base (.token (.Transfer src dst value))) => if src = 0 ∧ dst = p then value else 0
  | _ => 0

def mintedFor (p : Address) (logs : List ProtocolLog) : Nat := (logs.map (ProtocolLog.minted p)).sum

@[simp] theorem mintedFor_append (p : Address) (l₁ l₂ : List ProtocolLog) :
    mintedFor p (l₁ ++ l₂) = mintedFor p l₁ + mintedFor p l₂ := by
  simp [mintedFor]

@[simp] theorem mintedFor_registry (p : Address) (logs : List RegistryLog) :
    mintedFor p (logs.map ProtocolLog.ofRegistry) = 0 := by
  induction logs with
  | nil => rfl
  | cons l logs ih => simpa [mintedFor, ProtocolLog.ofRegistry, ProtocolLog.minted] using ih

/-- The call resolves an appeal. -/
def ProtocolCall.resolves : ProtocolCall → Bool
  | .slashing (.resolveAppeal _ _ _) => true
  | _ => false

/-- What a successful call does to the records, the deadlines and the totals of the manager. -/
inductive SlashingEffect {sites : ProtocolSites} (n : Protocol) (a : ProtocolAction sites)
    (logs : List ProtocolLog) (n' : Protocol) : Prop
  | idle (other : a.call.resolves = false)
      (penaltyStates : n'.slashing.penaltyStates = n.slashing.penaltyStates)
      (slashingHistory : n'.slashing.slashingHistory = n.slashing.slashingHistory)
      (appealDeadlines : n'.slashing.appealDeadlines = n.slashing.appealDeadlines)
  | slashed {m : SlashingManager} {provider : Address} {amount : Nat} {reason : String}
      (other : a.call.resolves = false) (ne_zero : provider ≠ 0)
      (slashing : n'.slashing = m.entered a.time provider amount reason)
      (totals : ∀ p, (m.penaltyStates p).totalSlashed = (n.slashing.penaltyStates p).totalSlashed)
      (slashingHistory : m.slashingHistory = n.slashing.slashingHistory)
      (appealDeadlines : m.appealDeadlines = n.slashing.appealDeadlines)
  | appealed {i : Nat} {evidence : String} (call : a.call = .slashing (.submitAppeal i evidence))
      (lt : i < (n.slashing.slashingHistory a.msg.sender).length)
      (unresolved : (n.slashing.recordAt a.msg.sender i).resolved = false)
      (inTime : a.time ≤ n.slashing.appealDeadlines a.msg.sender i)
      (slashing : n'.slashing = n.slashing.setHistory a.msg.sender
        ((n.slashing.slashingHistory a.msg.sender).set i
          { n.slashing.recordAt a.msg.sender i with appealed := true }))
  | resolved {provider : Address} {i : Nat} {upheld : Bool}
      (call : a.call = .slashing (.resolveAppeal provider i upheld))
      (owner : a.msg.sender = n.slashing.owner) (resolvable : Protocol.Resolvable n.slashing provider i)
      (slashing : n'.slashing = Protocol.resolvedAt n.slashing provider i)
      (minted : ∀ p, mintedFor p logs =
        if p = provider ∧ upheld = false then (n.slashing.recordAt provider i).amount else 0)
      (balance : upheld = false → n'.token.balanceOf provider =
        n.token.balanceOf provider + (n.slashing.recordAt provider i).amount)

/-- What a call of any contract does to the slashing manager, one case for each of its functions. -/
theorem slashing_effect {sites : ProtocolSites} {n n' : Protocol} {a : ProtocolAction sites}
    {logs : List ProtocolLog} (h : n.step sites a = .ok (n', logs)) : SlashingEffect n a logs n' := by
  cases hcall : a.call with
  | network c =>
    simp only [Protocol.step, hcall, bind_eq_ok, pure_eq_ok, Prod.exists, Prod.mk.injEq] at h
    obtain ⟨network, l, -, rfl, rfl⟩ := h
    exact .idle (by rw [hcall]; rfl) rfl rfl rfl
  | slashing c =>
    simp only [Protocol.step, hcall] at h
    cases c with
    | slashMissedPost provider collateral =>
      obtain ⟨-, hs, registry, recorded, -, hout⟩ := Protocol.slashMissedPost_eq_ok.mp h
      obtain ⟨rfl, rfl⟩ := Prod.mk.inj hout
      refine .slashed (by rw [hcall]; rfl) hs.burnable.ne_zero rfl ?_ rfl rfl
      intro p
      by_cases hp : p = provider
      · subst hp
        simp [SlashingManager.setState]
      · simp [SlashingManager.setState, hp]
    | slashDataLoss provider dealCollateral =>
      simp only [Protocol.slashingStep, Protocol.slashDataLoss, bind_eq_ok, pure_eq_ok, Prod.exists,
        Protocol.applySlashing_eq_ok, Prod.mk.injEq] at h
      obtain ⟨_, -, _, _, ⟨hburn, -, rfl, -⟩, _, _, -, _, _, -, rfl, -⟩ := h
      exact .slashed (by rw [hcall]; rfl) hburn.ne_zero rfl (fun _ => rfl) rfl rfl
    | slashEarlyExit provider penaltyAmount =>
      simp only [Protocol.slashingStep, Protocol.slashEarlyExit, bind_eq_ok, Protocol.applySlashing_eq_ok,
        Prod.mk.injEq] at h
      obtain ⟨_, -, hburn, -, rfl, -⟩ := h
      exact .slashed (by rw [hcall]; rfl) hburn.ne_zero rfl (fun _ => rfl) rfl rfl
    | submitAppeal i evidence =>
      simp only [Protocol.slashingStep, SlashingManager.submitAppeal, bind_eq_ok, require_eq_ok, pure_eq_ok,
        Prod.exists, Prod.mk.injEq, exists_const] at h
      obtain ⟨_, _, ⟨hlt, -, hunresolved, htime, rfl, -⟩, rfl, -⟩ := h
      exact .appealed hcall hlt hunresolved htime rfl
    | resolveAppeal provider i upheld =>
      cases upheld with
      | true =>
        obtain ⟨howner, hr, hout⟩ := Protocol.resolveAppeal_upheld_eq_ok.mp h
        obtain ⟨rfl, rfl⟩ := Prod.mk.inj hout
        refine .resolved hcall howner hr rfl ?_ fun hfalse => by cases hfalse
        intro p
        simp [mintedFor, ProtocolLog.minted]
      | false =>
        obtain ⟨howner, hr, -, registry, raised, -, hout⟩ := Protocol.resolveAppeal_granted_eq_ok.mp h
        obtain ⟨rfl, rfl⟩ := Prod.mk.inj hout
        refine .resolved hcall howner hr rfl ?_ fun _ => Function.update_self _ _ _
        intro p
        rw [mintedFor_append, mintedFor_append, mintedFor_registry]
        simp [mintedFor, ProtocolLog.minted, ProtocolLog.ofToken, eq_comm]
    | transferOwnership newOwner | renounceOwnership =>
      simp only [Protocol.slashingStep, bind_eq_ok, pure_eq_ok, Prod.mk.injEq] at h
      obtain ⟨_, -, rfl, -⟩ := h
      exact .idle (by rw [hcall]; rfl) rfl rfl rfl

end Kyneto
