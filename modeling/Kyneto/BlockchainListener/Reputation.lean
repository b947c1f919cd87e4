import Kyneto.BlockchainListener.Basic
import Kyneto.ProviderRegistry.Standing

/-!
# Does the database know the reputation of the providers?

`handleProviderRegistered` stores a provider under its address in small letters, and `handleReputationUpdated` looks for
the spelling with a checksum. The two are the same for few addresses, and for all others a new score does not arrive.
`reactivateProvider` sets the score without `ReputationUpdated`, so it does not arrive either.

`scores_along_iff` says which runs keep the scores of the database right. The events of a call are handled before the
next call: no handler touches the registry, so it is all the same when they are handled, as long as their order is kept.
-/

namespace Kyneto

open Evm Sql BlockchainListener

/-- The registry, and the database that follows its events. -/
structure FollowedRegistry where
  registry : ProviderRegistry
  db : Database := {}

namespace FollowedRegistry

/-- A call of the registry, after which the listener handles its events. -/
def act (deliver : ProviderRegistry.Action → Delivery) (s : FollowedRegistry) (a : ProviderRegistry.Action) :
    Tx (FollowedRegistry × List RegistryLog) := do
  let (registry, logs) ← s.registry.act a
  return ({ registry, db := handleAll (deliver a) s.db (logs.map .registry) }, logs)

/-- **The scores are mirrored**: every registered provider has a row, under some spelling of its address, and its score
is the one of the registry. -/
def ScoresMirrored (s : FollowedRegistry) : Prop :=
  ∀ p, (s.registry.providers p).registered = true →
    (∃ row ∈ s.db.providers, row.address.toLower = hexAddress p) ∧
      ∀ row ∈ s.db.providers, row.address.toLower = hexAddress p →
        row.reputationScore = (s.registry.providers p).reputationScore

/-- The spelling with a checksum has no capitals. -/
def NoCapitals (p : Address) : Prop := toChecksum p = hexAddress p

instance : DecidablePred NoCapitals := fun _ => inferInstanceAs (Decidable (_ = _))

/-- The texts of a registration fit into the columns of `providers`. -/
structure FitsRow (peerId region : String) : Prop where
  peerId_length : peerId.length ≤ 100
  peerId_text : '\x00' ∉ peerId.toList
  region_length : region.length ≤ 50
  region_text : '\x00' ∉ region.toList

theorem fitsRow_iff {peerId region : String} :
    FitsRow peerId region ↔ peerId.length ≤ 100 ∧ '\x00' ∉ peerId.toList ∧ region.length ≤ 50 ∧
      '\x00' ∉ region.toList :=
  ⟨fun h => ⟨h.1, h.2, h.3, h.4⟩, fun h => ⟨h.1, h.2.1, h.2.2.1, h.2.2.2⟩⟩

instance (peerId region : String) : Decidable (FitsRow peerId region) := decidable_of_iff _ fitsRow_iff.symm

/-- The change of the score arrives, or it is none. -/
def Arrives (r : ProviderRegistry) (p : Address) (amount bound : Nat) : Prop :=
  NoCapitals p ∨ amount = 0 ∨ (r.providers p).reputationScore = bound

instance (r : ProviderRegistry) (p : Address) (amount bound : Nat) : Decidable (Arrives r p amount bound) :=
  inferInstanceAs (Decidable (_ ∨ _))

/-- The calls after which the database is right. -/
def Heard (s : FollowedRegistry) (a : ProviderRegistry.Action) : Prop :=
  match a.call with
  | .registerProvider peerId _ region _ => FitsRow peerId region
  | .increaseReputation p amount _ => Arrives s.registry p amount MAX_REPUTATION
  | .recordDealCompleted p => Arrives s.registry p 1 MAX_REPUTATION
  | .decreaseReputation p amount _ => Arrives s.registry p amount MIN_REPUTATION
  | .recordDealFailed p => Arrives s.registry p 5 MIN_REPUTATION
  | .recordSlashing p => Arrives s.registry p 20 MIN_REPUTATION
  | .reactivateProvider => (s.registry.providers a.msg.sender).reputationScore = INITIAL_REPUTATION
  | _ => True

end FollowedRegistry

/-! ## What a call does to the scores, and what it says about it -/

/-- The listener does not hear of it. -/
def RegistryLog.unheard : RegistryLog → Bool
  | .ProviderUpdated _ | .ProviderDeactivated _ _ | .ProviderReactivated _ => true
  | .ProviderRegistered _ _ _ | .ReputationUpdated _ _ _ => false

/-- Events that nobody listens to leave the tables as they are. -/
theorem handleAll_unheard_registry {d : Delivery} {db : Database} {logs : List RegistryLog}
    (h : ∀ l ∈ logs, l.unheard = true) : handleAll d db (logs.map .registry) = db := by
  induction logs with
  | nil => rfl
  | cons l logs ih =>
    have hhead := h l List.mem_cons_self
    have hrest := ih fun l' hl' => h l' (List.mem_cons_of_mem l hl')
    cases l with
    | ProviderRegistered _ _ _ | ReputationUpdated _ _ _ => cases hhead
    | ProviderUpdated _ | ProviderDeactivated _ _ | ProviderReactivated _ => exact hrest

namespace ProviderRegistry

variable {r r' : ProviderRegistry} {msg : Msg} {p : Address} {amount : Nat} {reason : String} {logs : List RegistryLog}

/-- The logs of a new score: the score, and what the listener does not hear. -/
def LogsScore (p : Address) (score : Nat) (logs : List RegistryLog) : Prop :=
  ∃ reason rest, logs = .ReputationUpdated p score reason :: rest ∧ ∀ l ∈ rest, l.unheard = true

theorem increaseReputation_logs (h : r.increaseReputation msg p amount reason = .ok (r', logs)) :
    LogsScore p (min ((r.providers p).reputationScore + amount) MAX_REPUTATION) logs := by
  obtain ⟨-, -, -, hout⟩ := increaseReputation_eq_ok.mp h
  obtain ⟨rfl, rfl⟩ := Prod.mk.inj hout
  exact ⟨reason, [], rfl, nofun⟩

theorem deactivateProvider_unheard (h : r.deactivateProvider msg p = .ok (r', logs)) :
    ∀ l ∈ logs, l.unheard = true := by
  obtain ⟨-, rfl⟩ := deactivateProvider_ok h
  intro l hl
  rw [List.mem_singleton.mp hl]
  rfl

theorem decreaseReputation_logs (h : r.decreaseReputation msg p amount reason = .ok (r', logs)) :
    LogsScore p ((r.providers p).reputationScore - amount) logs := by
  obtain ⟨-, -, h⟩ := decreaseReputation_eq_ok.mp h
  split at h
  · obtain ⟨r₁, rest, hdeactivate, hout⟩ := h
    exact ⟨reason, rest, (Prod.mk.inj hout).2, deactivateProvider_unheard hdeactivate⟩
  · exact ⟨reason, [], (Prod.mk.inj h).2, nofun⟩

/-- The events of a slashing say what the score is afterwards. -/
theorem recordSlashing_logs (h : r.recordSlashing msg p = .ok (r', logs)) :
    LogsScore p ((r.providers p).reputationScore - 20) logs := by
  simp only [recordSlashing, bind_eq_ok, checkedAdd_eq_ok, Prod.exists] at h
  obtain ⟨-, -, -, -, _, -, r₁, l, hdecrease, h⟩ := h
  obtain ⟨reason, rest, hl, hunheard⟩ := decreaseReputation_logs hdecrease
  simp only [set, Function.update_self] at hl
  split at h
  · simp only [bind_eq_ok, pure_eq_ok, Prod.exists, Prod.mk.injEq] at h
    obtain ⟨r₂, more, hdeactivate, rfl, rfl⟩ := h
    refine ⟨reason, rest ++ more, by rw [hl]; rfl, ?_⟩
    intro l' hl'
    rcases List.mem_append.mp hl' with hl' | hl'
    · exact hunheard l' hl'
    · exact deactivateProvider_unheard hdeactivate l' hl'
  · obtain ⟨rfl, rfl⟩ := Prod.mk.inj (pure_eq_ok.mp h)
    exact ⟨reason, rest, hl, hunheard⟩

/-- What a successful call does to the scores. -/
inductive ScoreEffect (r : ProviderRegistry) (msg : Msg) : Call → ProviderRegistry → List RegistryLog → Prop
  | registers {peerId endpoint region : String} {minPriceUSD : Nat} {r' : ProviderRegistry}
      (fresh : (r.providers msg.sender).registered = false)
      (changed : ChangedAt r r' msg.sender ⟨true, INITIAL_REPUTATION, 0, true, 0⟩) :
      ScoreEffect r msg (.registerProvider peerId endpoint region minPriceUSD) r'
        [.ProviderRegistered msg.sender peerId region]
  | raises {c : Call} {q : Address} {n : Nat} {s : Standing} {r' : ProviderRegistry} {logs : List RegistryLog}
      (call : c = .recordDealCompleted q ∧ n = 1 ∨ ∃ reason, c = .increaseReputation q n reason)
      (registered : (r.providers q).registered = true) (changed : ChangedAt r r' q s) (kept : s.registered = true)
      (score : s.score = min ((r.providers q).reputationScore + n) MAX_REPUTATION) (said : LogsScore q s.score logs) :
      ScoreEffect r msg c r' logs
  | lowers {c : Call} {q : Address} {n : Nat} {s : Standing} {r' : ProviderRegistry} {logs : List RegistryLog}
      (call : c = .recordDealFailed q ∧ n = 5 ∨ c = .recordSlashing q ∧ n = 20 ∨
        ∃ reason, c = .decreaseReputation q n reason)
      (registered : (r.providers q).registered = true) (changed : ChangedAt r r' q s) (kept : s.registered = true)
      (score : s.score = (r.providers q).reputationScore - n) (said : LogsScore q s.score logs) :
      ScoreEffect r msg c r' logs
  | reactivates {r' : ProviderRegistry} (registered : (r.providers msg.sender).registered = true)
      (changed : ChangedAt r r' msg.sender (r.providers msg.sender).standing.reactivated) :
      ScoreEffect r msg .reactivateProvider r' [.ProviderReactivated msg.sender]
  | keeps {c : Call} {r' : ProviderRegistry} {logs : List RegistryLog}
      (quiet : ∀ s : FollowedRegistry, s.registry = r → s.Heard ⟨msg, c⟩)
      (same : ∀ q, (r'.providers q).standing = (r.providers q).standing)
      (unheard : ∀ l ∈ logs, l.unheard = true) : ScoreEffect r msg c r' logs

/-- What a call of the registry does to the scores, and what it announces, one case for each call. -/
theorem step_scores {c : Call} (h : r.step msg c = .ok (r', logs)) : ScoreEffect r msg c r' logs := by
  -- a write that leaves the standing of its record leaves all scores
  have hkeeps : ∀ p record, record.standing = (r.providers p).standing →
      ∀ q, ((r.set p record).providers q).standing = (r.providers q).standing := by
    intro p record hrecord q
    by_cases hq : q = p
    · subst hq
      rw [(changedAt_set r q record).standing, hrecord]
    · rw [(changedAt_set r p record).others q hq]
  cases c with
  | registerProvider peerId endpoint region minPriceUSD =>
    simp only [step, registerProvider, bind_eq_ok, require_eq_ok, pure_eq_ok, exists_const, Prod.mk.injEq] at h
    obtain ⟨hfresh, -, rfl, rfl⟩ := h
    have hset := changedAt_set r msg.sender
      { registered := true, registrationTime := msg.timestamp, reputationScore := INITIAL_REPUTATION, peerId,
        endpoint, region, active := true, minPriceUSD }
    -- the event does not say which score the provider starts with
    exact .registers hfresh ⟨hset.standing, hset.others, hset.owner, hset.keepers⟩
  | updateProvider endpoint region minPriceUSD =>
    simp only [step, updateProvider, bind_eq_ok, pure_eq_ok, Prod.mk.injEq] at h
    obtain ⟨-, -, rfl, rfl⟩ := h
    refine .keeps (fun _ _ => trivial) (hkeeps _ _ rfl) fun l hl => ?_
    rw [List.mem_singleton.mp hl]
    rfl
  | updateCapacity provider newTotalCapacityGB =>
    simp only [step, updateCapacity, bind_eq_ok, pure_eq_ok, Prod.mk.injEq] at h
    obtain ⟨-, -, -, -, rfl, rfl⟩ := h
    exact .keeps (fun _ _ => trivial) (hkeeps _ _ rfl) (List.forall_mem_nil _)
  | increaseReputation provider amount reason =>
    obtain ⟨hreg, hchanged, -⟩ := increaseReputation_ok h
    exact .raises (Or.inr ⟨reason, rfl⟩) hreg hchanged hreg rfl (increaseReputation_logs h)
  | decreaseReputation provider amount reason =>
    obtain ⟨hreg, hchanged, -⟩ := decreaseReputation_ok h
    -- three calls lower a score, and say so in the same event
    refine .lowers (Or.inr (Or.inr ⟨reason, rfl⟩)) hreg hchanged ?_ (Standing.lowered_score _ _ _) ?_
    · rw [Standing.lowered_registered]
      exact hreg
    · rw [Standing.lowered_score]
      exact decreaseReputation_logs h
  | recordDealCompleted provider =>
    obtain ⟨hreg, hchanged, -⟩ := recordDealCompleted_ok h
    simp only [step, recordDealCompleted, bind_eq_ok] at h
    obtain ⟨-, -, -, -, completed, -, h⟩ := h
    have hlogs := increaseReputation_logs h
    -- the score that is announced is the one after the increase
    simp only [set, Function.update_self] at hlogs
    exact .raises (Or.inl ⟨rfl, rfl⟩) hreg hchanged hreg rfl hlogs
  | recordDealFailed provider =>
    obtain ⟨hreg, hchanged, -⟩ := recordDealFailed_ok h
    simp only [step, recordDealFailed, bind_eq_ok] at h
    obtain ⟨-, -, -, -, failed, -, h⟩ := h
    have hlogs := decreaseReputation_logs h
    simp only [set, Function.update_self] at hlogs
    refine .lowers (Or.inl ⟨rfl, rfl⟩) hreg hchanged ?_ (Standing.lowered_score _ _ _) ?_
    · rw [Standing.lowered_registered]
      exact hreg
    · rw [Standing.lowered_score]
      exact hlogs
  | recordSlashing provider =>
    obtain ⟨hreg, hchanged, -⟩ := recordSlashing_ok h
    refine .lowers (Or.inr (Or.inl ⟨rfl, rfl⟩)) hreg hchanged ?_ (Standing.slashed_score _ _) ?_
    · rw [Standing.slashed_registered]
      exact hreg
    · rw [Standing.slashed_score]
      exact recordSlashing_logs h
  | reactivateProvider =>
    simp only [step, reactivateProvider, bind_eq_ok, require_eq_ok, pure_eq_ok, exists_const, Prod.mk.injEq] at h
    obtain ⟨hreg, -, -, rfl, rfl⟩ := h
    -- nor does the event of a reactivation say the score
    exact .reactivates hreg (changedAt_set r msg.sender _)
  | authorizeRecordKeeper keeper | revokeRecordKeeper keeper =>
    simp only [step, authorizeRecordKeeper, revokeRecordKeeper, setRecordKeeper, bind_eq_ok, pure_eq_ok,
      Prod.mk.injEq] at h
    obtain ⟨-, -, rfl, rfl⟩ := h
    exact .keeps (fun _ _ => trivial) (fun _ => rfl) (List.forall_mem_nil _)
  | transferOwnership newOwner | renounceOwnership =>
    simp only [step, bind_eq_ok, pure_eq_ok, Prod.mk.injEq] at h
    obtain ⟨-, -, rfl, rfl⟩ := h
    exact .keeps (fun _ _ => trivial) (fun _ => rfl) (List.forall_mem_nil _)

end ProviderRegistry

/-! ## What the listener makes of it -/

namespace FollowedRegistry

variable {deliver : ProviderRegistry.Action → Delivery} {s s' : FollowedRegistry} {a : ProviderRegistry.Action}
  {logs : List RegistryLog} {r r' : ProviderRegistry} {db : Database} {p : Address} {st : Standing} {d : Delivery}

/-- What the rows have to do with the registry, scores apart. -/
structure Follows (s : FollowedRegistry) : Prop where
  rows : ∀ row ∈ s.db.providers, ∃ p, (s.registry.providers p).registered = true ∧ row.address = hexAddress p
  bounded : ∀ p, (s.registry.providers p).standing.WellKept

theorem insertProvider_eq_ok {row : ProviderRow} {db' : Database} :
    db.insertProvider row = .ok db' ↔
      (row.address.length ≤ 42 ∧ '\x00' ∉ row.address.toList) ∧ FitsRow row.peerId (row.region.getD "") ∧
        db' = { db with providers := upsert ProviderRow.address row id db.providers } := by
  simp only [Database.insertProvider, checkText, bind_eq_ok, check_eq_ok, pure_eq_ok, exists_const, fitsRow_iff]
  tauto

/-- A registration with texts that fit adds a row with the score 50, which the contract does not
start with. -/
theorem handleProviderRegistered_of_fits {peerId region : String} (h : FitsRow peerId region)
    (hfresh : ∀ row ∈ db.providers, row.address ≠ hexAddress p) :
    handleProviderRegistered p peerId region db =
      { db with
        providers := db.providers ++
          [{ address := hexAddress p, peerId, region := some region, reputationScore := 50, active := true }] } := by
  unfold handleProviderRegistered
  rw [toLower_toChecksum]
  obtain ⟨hlength, htext⟩ := hexAddress_fits p
  have haddress : (hexAddress p).length ≤ 42 ∧ '\x00' ∉ (hexAddress p).toList := ⟨Nat.le_of_eq hlength, htext⟩
  apply attempt_of_ok
  rw [insertProvider_eq_ok]
  refine ⟨haddress, h, ?_⟩
  unfold upsert
  rw [if_pos hfresh]

theorem handleProviderRegistered_of_not_fits {peerId region : String} (h : ¬ FitsRow peerId region) :
    handleProviderRegistered p peerId region db = db :=
  attempt_of_fails fun _ hok => h (insertProvider_eq_ok.mp hok).2.1

theorem handleReputationUpdated_eq {newScore : Nat} (h : newScore < 2 ^ 31) :
    handleReputationUpdated p newScore db =
      { db with
        providers := update (fun row => row.address = toChecksum p)
          (fun row => { row with reputationScore := newScore }) db.providers } :=
  attempt_of_ok (bind_eq_ok.mpr ⟨(), check_eq_ok.mpr h, rfl⟩)

/-- A score that changes on the chain alone. -/
theorem mirrored_unheard (h : ScoresMirrored ⟨r, db⟩) (hreg : (r.providers p).registered = true)
    (hchanged : ChangedAt r r' p st) (hkept : st.registered = true) :
    ScoresMirrored ⟨r', db⟩ ↔ st.score = (r.providers p).reputationScore := by
  have hregistered : (r'.providers p).registered = true := (congrArg Standing.registered hchanged.standing).trans hkept
  have hscore : (r'.providers p).reputationScore = st.score := congrArg Standing.score hchanged.standing
  constructor
  · intro h'
    obtain ⟨⟨row, hrow, haddress⟩, hrows⟩ := h p hreg
    rw [← hrows row hrow haddress, ← hscore]
    exact ((h' p hregistered).2 row hrow haddress).symm
  · intro hsame q hq
    by_cases hp : q = p
    · subst hp
      show _ ∧ ∀ row ∈ db.providers, _ → row.reputationScore = (r'.providers q).reputationScore
      rw [hscore, hsame]
      exact h q hreg
    · show _ ∧ ∀ row ∈ db.providers, _ → row.reputationScore = (r'.providers q).reputationScore
      have hother := hchanged.others q hp
      rw [hother]
      exact h q (hother ▸ hq)

/-- A score that the listener hears of. -/
theorem mirrored_heard (hrows : Follows ⟨r, db⟩) (h : ScoresMirrored ⟨r, db⟩) (hreg : (r.providers p).registered = true)
    (hchanged : ChangedAt r r' p st) (hkept : st.registered = true) (hbound : st.score < 2 ^ 31) :
    ScoresMirrored ⟨r', handleReputationUpdated p st.score db⟩ ↔
      NoCapitals p ∨ st.score = (r.providers p).reputationScore := by
  rw [handleReputationUpdated_eq hbound]
  by_cases hsmall : NoCapitals p
  · rw [iff_true_right (Or.inl hsmall)]
    intro q hq
    obtain ⟨⟨row, hrow, haddress⟩, hsame⟩ := h q <| by
      by_cases hp : q = p
      · exact hp ▸ hreg
      · exact hchanged.others q hp ▸ hq
    constructor
    · refine ⟨_, mem_update.mpr ⟨row, hrow, rfl⟩, ?_⟩
      split
      · exact haddress
      · exact haddress
    · intro row' hrow' haddress'
      obtain ⟨row₀, hrow₀, rfl⟩ := mem_update.mp hrow'
      obtain ⟨q₀, -, haddress₀⟩ := hrows.rows row₀ hrow₀
      by_cases hcond : row₀.address = toChecksum p
      · rw [if_pos (decide_eq_true hcond)] at haddress' ⊢
        have hq_eq : q = p := by
          apply hexAddress_inj
          rw [← haddress', hcond, toLower_toChecksum]
        subst hq_eq
        exact (congrArg Standing.score hchanged.standing).symm
      · rw [if_neg (by simpa using hcond)] at haddress' ⊢
        have hq_ne : q ≠ p := by
          rintro rfl
          rw [haddress₀, toLower_hexAddress] at haddress'
          exact hcond (haddress₀.trans (haddress'.trans hsmall.symm))
        rw [hchanged.others q hq_ne]
        exact hsame row₀ hrow₀ haddress'
  · -- no row is spelled with capitals
    have hnone : ∀ row ∈ db.providers, decide (row.address = toChecksum p) = false := by
      intro row hrow
      obtain ⟨q, -, haddress⟩ := hrows.rows row hrow
      rw [decide_eq_false_iff_not, haddress]
      intro heq
      have hq : q = p := hexAddress_inj (by rw [← toLower_hexAddress q, heq, toLower_toChecksum])
      exact hsmall (hq ▸ heq.symm)
    rw [update_of_none hnone, or_iff_right hsmall]
    exact mirrored_unheard h hreg hchanged hkept

/-- A registration keeps the scores mirrored exactly if its texts fit. -/
theorem mirrored_registered (hrows : Follows ⟨r, db⟩) (h : ScoresMirrored ⟨r, db⟩)
    (hfresh : (r.providers p).registered = false) (hchanged : ChangedAt r r' p ⟨true, INITIAL_REPUTATION, 0, true, 0⟩)
    (peerId region : String) :
    ScoresMirrored ⟨r', handleProviderRegistered p peerId region db⟩ ↔ FitsRow peerId region := by
  have hregistered : (r'.providers p).registered = true := congrArg Standing.registered hchanged.standing
  have hscore : (r'.providers p).reputationScore = INITIAL_REPUTATION := congrArg Standing.score hchanged.standing
  have hnone : ∀ row ∈ db.providers, row.address.toLower ≠ hexAddress p := by
    intro row hrow heq
    obtain ⟨q, hq, haddress⟩ := hrows.rows row hrow
    rw [haddress, toLower_hexAddress] at heq
    rw [hexAddress_inj heq, hfresh] at hq
    cases hq
  by_cases hfits : FitsRow peerId region
  · rw [iff_true_right hfits, handleProviderRegistered_of_fits hfits]
    · intro q hq
      by_cases hp : q = p
      · subst hp
        constructor
        · exact ⟨_, List.mem_append_right _ (List.mem_singleton_self _), toLower_hexAddress q⟩
        · intro row hrow haddress
          rcases List.mem_append.mp hrow with hrow | hrow
          · exact absurd haddress (hnone row hrow)
          · rw [List.mem_singleton.mp hrow]
            exact hscore.symm
      · have hother := hchanged.others q hp
        obtain ⟨⟨row, hrow, haddress⟩, hsame⟩ := h q (hother ▸ hq)
        constructor
        · exact ⟨row, List.mem_append_left _ hrow, haddress⟩
        · intro row' hrow' haddress'
          show row'.reputationScore = (r'.providers q).reputationScore
          rw [hother]
          rcases List.mem_append.mp hrow' with hrow' | hrow'
          · exact hsame row' hrow' haddress'
          · rw [List.mem_singleton.mp hrow', toLower_hexAddress] at haddress'
            exact absurd (hexAddress_inj haddress').symm hp
    · intro row hrow heq
      exact hnone row hrow (by rw [heq, toLower_hexAddress])
  · rw [iff_false_right hfits, handleProviderRegistered_of_not_fits hfits]
    intro h'
    obtain ⟨⟨row, hrow, haddress⟩, -⟩ := h' p hregistered
    exact hnone row hrow haddress

theorem handleAll_score {score : Nat} (h : ProviderRegistry.LogsScore p score logs) :
    handleAll d db (logs.map .registry) = handleReputationUpdated p score db := by
  obtain ⟨reason, rest, rfl, hrest⟩ := h
  exact handleAll_unheard_registry hrest

/-- **Which calls keep the scores right**: exactly those that are heard. -/
theorem act_scores (hf : Follows s) (hm : ScoresMirrored s) (h : s.act deliver a = .ok (s', logs)) :
    ScoresMirrored s' ↔ s.Heard a := by
  obtain ⟨r, db⟩ := s
  obtain ⟨msg, c⟩ := a
  simp only [act, ProviderRegistry.act, bind_eq_ok, pure_eq_ok, Prod.exists, Prod.mk.injEq] at h
  obtain ⟨r', l, hstep, rfl, rfl⟩ := h
  have hle : ∀ q, (r.providers q).reputationScore ≤ MAX_REPUTATION := fun q => (hf.bounded q).score_le
  cases ProviderRegistry.step_scores hstep with
  | registers fresh changed => exact mirrored_registered hf hm fresh changed _ _
  | @raises _ q n st _ _ call registered changed kept score said =>
    have hq := hle q
    rw [handleAll_score said, mirrored_heard hf hm registered changed kept ?_]
    · have harrives : st.score = (r.providers q).reputationScore ↔
          n = 0 ∨ (r.providers q).reputationScore = MAX_REPUTATION := by
        rw [score]
        omega
      rw [harrives]
      rcases call with ⟨rfl, rfl⟩ | ⟨reason, rfl⟩ <;> rfl
    · rw [score]
      unfold MAX_REPUTATION
      omega
  | @lowers _ q n st _ _ call registered changed kept score said =>
    have hq := hle q
    unfold MAX_REPUTATION at hq
    rw [handleAll_score said, mirrored_heard hf hm registered changed kept ?_]
    · have harrives : st.score = (r.providers q).reputationScore ↔
          n = 0 ∨ (r.providers q).reputationScore = MIN_REPUTATION := by
        rw [score]
        unfold MIN_REPUTATION
        omega
      rw [harrives]
      rcases call with ⟨rfl, rfl⟩ | ⟨rfl, rfl⟩ | ⟨reason, rfl⟩ <;> rfl
    · omega
  | reactivates registered changed =>
    have hunheard : handleAll (deliver ⟨msg, .reactivateProvider⟩) db
        ([RegistryLog.ProviderReactivated msg.sender].map .registry) = db := rfl
    rw [hunheard, mirrored_unheard hm registered changed registered]
    exact eq_comm
  | keeps quiet same unheard =>
    rw [handleAll_unheard_registry unheard, iff_true_right (quiet ⟨r, db⟩ rfl)]
    intro q hq
    have hreg : (r'.providers q).registered = (r.providers q).registered := congrArg Standing.registered (same q)
    have hscore := congrArg Standing.score (same q)
    obtain ⟨hrow, hrows⟩ := hm q (hreg.symm.trans hq)
    exact ⟨hrow, fun row hmem haddress => (hrows row hmem haddress).trans hscore.symm⟩

/-! ## Runs -/

/-- Rows that keep their addresses, and providers that stay registered. -/
theorem Follows.of_rows {db' : Database} (hf : Follows ⟨r, db⟩)
    (hbounded : ∀ q, (r'.providers q).standing.WellKept)
    (hkept : ∀ q, (r.providers q).registered = true → (r'.providers q).registered = true)
    (hrows : ∀ row' ∈ db'.providers, (∃ row ∈ db.providers, row'.address = row.address) ∨
      ∃ q, (r'.providers q).registered = true ∧ row'.address = hexAddress q) : Follows ⟨r', db'⟩ where
  rows := by
    intro row' hrow'
    rcases hrows row' hrow' with ⟨row, hrow, haddress⟩ | hnew
    · obtain ⟨q, hq, haddress₀⟩ := hf.rows row hrow
      exact ⟨q, hkept q hq, haddress.trans haddress₀⟩
    · exact hnew
  bounded := hbounded

theorem registered_of_changedAt (hchanged : ChangedAt r r' p st) (hkept : st.registered = true) (q : Address)
    (hq : (r.providers q).registered = true) : (r'.providers q).registered = true := by
  by_cases hp : q = p
  · subst hp
    exact (congrArg Standing.registered hchanged.standing).trans hkept
  · exact hchanged.others q hp ▸ hq

theorem rows_of_score {score : Nat} (hbound : score < 2 ^ 31) :
    ∀ row' ∈ (handleReputationUpdated p score db).providers, ∃ row ∈ db.providers, row'.address = row.address := by
  rw [handleReputationUpdated_eq hbound]
  intro row' hrow'
  obtain ⟨row, hrow, rfl⟩ := mem_update.mp hrow'
  refine ⟨row, hrow, ?_⟩
  split <;> rfl

/-- The tables follow the registry from call to call. -/
theorem follows_step (hf : Follows s) (h : s.act deliver a = .ok (s', logs)) : Follows s' := by
  obtain ⟨r, db⟩ := s
  obtain ⟨msg, c⟩ := a
  simp only [act, ProviderRegistry.act, bind_eq_ok, pure_eq_ok, Prod.exists, Prod.mk.injEq] at h
  obtain ⟨r', l, hstep, rfl, rfl⟩ := h
  have hbounded : ∀ q, (r'.providers q).standing.WellKept := fun q =>
    (ProviderRegistry.step_change hstep q).1.wellKept (hf.bounded q)
  have hle : ∀ q, (r.providers q).reputationScore ≤ MAX_REPUTATION := fun q => (hf.bounded q).score_le
  have hsame : ∀ row' ∈ db.providers, (∃ row ∈ db.providers, row'.address = row.address) ∨
      ∃ q, (r'.providers q).registered = true ∧ row'.address = hexAddress q :=
    fun row' hrow' => Or.inl ⟨row', hrow', rfl⟩
  cases ProviderRegistry.step_scores hstep with
  | @registers peerId _ region _ _ fresh changed =>
    have hnew : (r'.providers msg.sender).registered = true := congrArg Standing.registered changed.standing
    refine hf.of_rows hbounded (registered_of_changedAt changed rfl) ?_
    show ∀ row' ∈ (handleProviderRegistered msg.sender peerId region db).providers, _
    by_cases hfits : FitsRow peerId region
    · rw [handleProviderRegistered_of_fits hfits]
      · intro row' hrow'
        rcases List.mem_append.mp hrow' with hrow' | hrow'
        · exact hsame row' hrow'
        · exact Or.inr ⟨msg.sender, hnew, by rw [List.mem_singleton.mp hrow']⟩
      · intro row hrow heq
        obtain ⟨q, hq, haddress⟩ := hf.rows row hrow
        rw [hexAddress_inj (haddress.symm.trans heq), fresh] at hq
        cases hq
    · rw [handleProviderRegistered_of_not_fits hfits]
      exact hsame
  | @raises _ q _ st _ _ _ _ changed kept score said =>
    rw [handleAll_score said]
    refine hf.of_rows hbounded (registered_of_changedAt changed kept) fun row' hrow' => Or.inl ?_
    refine rows_of_score ?_ row' hrow'
    rw [score]
    unfold MAX_REPUTATION
    omega
  | @lowers _ q _ st _ _ _ _ changed kept score said =>
    rw [handleAll_score said]
    refine hf.of_rows hbounded (registered_of_changedAt changed kept) fun row' hrow' => Or.inl ?_
    refine rows_of_score ?_ row' hrow'
    have hq := hle q
    unfold MAX_REPUTATION at hq
    omega
  | reactivates registered changed =>
    exact hf.of_rows hbounded (registered_of_changedAt changed registered) hsame
  | keeps _ same unheard =>
    rw [handleAll_unheard_registry unheard]
    exact hf.of_rows hbounded (fun q hq => (congrArg Standing.registered (same q)).trans hq) hsame

/-- **The database knows the reputation of all providers**, in every state of a run from the deployment of the registry,
exactly if all calls of the run are heard. -/
theorem scores_along_iff (deliver : ProviderRegistry.Action → Delivery) (msg : Msg)
    (as : List ProviderRegistry.Action) :
    Along (act deliver) ScoresMirrored { registry := .deploy msg } as ↔
      Meets (act deliver) Heard { registry := .deploy msg } as := by
  apply along_iff_meets (I := Follows)
  · intro p hp
    cases hp
  · exact ⟨nofun, fun _ => ProviderRegistry.wellKept_unregistered⟩
  · intro s a s' logs hf hstep
    exact follows_step hf hstep
  · intro s a s' logs hf hm hstep
    exact act_scores hf hm hstep

/-- A provider whose address has capitals registers, and its score is raised. -/
def praised : List ProviderRegistry.Action :=
  [⟨⟨0x5aaeb6053f3e94c9b9a09f33669435e7ef1beaed, 0⟩, .registerProvider "peer" "ep" "na" 5000⟩,
    ⟨⟨1, 0⟩, .increaseReputation 0x5aaeb6053f3e94c9b9a09f33669435e7ef1beaed 10 "Proofs"⟩]

/-- The registry has 60 points, the database 50. -/
theorem praised_not_mirrored :
    ¬ ScoresMirrored (run (act fun _ => ⟨0, 0⟩) { registry := .deploy ⟨1, 0⟩ } praised) := by
  intro h
  have hrows := (h 0x5aaeb6053f3e94c9b9a09f33669435e7ef1beaed (by decide +kernel)).2
  revert hrows
  decide +kernel

end FollowedRegistry

end Kyneto
