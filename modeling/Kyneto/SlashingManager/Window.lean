import Kyneto.SlashingManager.Standing

/-!
# Which offences are repeats?

The manager counts the slashings of a provider within 30 days, but it keeps the count and the time of the last one only.
The count starts again after a pause of more than 30 days and never forgets a slashing before that, so it counts the
slashings since the last such pause.

The first section is about any counter of this kind. `windowCounted_iff` says for which runs the manager counts what it
means to count.
-/

namespace Kyneto

open Evm

/-! ## Counting with the time of the last event -/

/-- A count, the time of the last event, and the times of all of them. -/
structure Tally where
  count : Nat := 0
  last : Nat := 0
  times : List Nat := []
  deriving DecidableEq, Repr

namespace Tally

/-- The events that are no older than `w` at time `now`. -/
def recent (w now : Nat) (times : List Nat) : List Nat := times.filter fun t => now - w ≤ t

/-- One more event, at time `now`. -/
def add (w : Nat) (c : Tally) (now : Nat) : Tally where
  count := if now - c.last ≤ w then c.count + 1 else 1
  last := now
  times := c.times ++ [now]

/-- The count is that of the events which were recent when the last one happened. -/
def Windowed (w : Nat) (c : Tally) : Prop := c.count = (recent w c.last c.times).length

/-- The last event is the last. -/
def Ordered (c : Tally) : Prop := ∀ t ∈ c.times, t ≤ c.last

/-- Nothing that was recent at the last event has become old, unless everything has. -/
def Keeps (w : Nat) (c : Tally) (now : Nat) : Prop :=
  now - c.last ≤ w → ∀ t ∈ c.times, c.last - w ≤ t → now - w ≤ t

instance (w : Nat) (c : Tally) (now : Nat) : Decidable (c.Keeps w now) := inferInstanceAs (Decidable (_ → _))

variable {w now later : Nat} {times : List Nat} {c : Tally}

theorem windowed_empty : Windowed w {} := rfl

theorem ordered_empty : Ordered {} := nofun

theorem ordered_add (h : c.Ordered) (hle : c.last ≤ now) : (c.add w now).Ordered := by
  intro t ht
  rcases List.mem_append.mp ht with ht | ht
  · exact (h t ht).trans hle
  · obtain rfl := List.mem_singleton.mp ht
    exact Nat.le_refl _

/-- The new event is recent. -/
theorem recent_snoc : recent w now (times ++ [now]) = recent w now times ++ [now] := by
  simp [recent]

/-- What is recent later is recent now. -/
theorem recent_recent (h : now ≤ later) : recent w later (recent w now times) = recent w later times := by
  unfold recent
  rw [List.filter_filter]
  apply List.filter_congr
  intro t _
  simp only [← Bool.decide_and, decide_eq_decide]
  omega

/-- As many events are recent later as now, exactly if they are the same. -/
theorem length_recent_eq_iff (h : now ≤ later) :
    (recent w now times).length = (recent w later times).length ↔
      ∀ t ∈ times, now - w ≤ t → later - w ≤ t := by
  rw [← recent_recent h, eq_comm]
  show ((recent w now times).filter _).length = _ ↔ _
  rw [List.length_filter_eq_length_iff]
  simp only [recent, List.mem_filter, decide_eq_true_eq, and_imp]

/-- **A counter that forgets all or nothing** goes on counting what is recent exactly if all or nothing has become
old. -/
theorem windowed_add_iff (hordered : c.Ordered) (h : c.Windowed w) (hle : c.last ≤ now) :
    (c.add w now).Windowed w ↔ c.Keeps w now := by
  have hlength : (recent w now (c.times ++ [now])).length = (recent w now c.times).length + 1 := by
    rw [recent_snoc, List.length_append, List.length_singleton]
  show (if now - c.last ≤ w then c.count + 1 else 1) = (recent w now (c.times ++ [now])).length ↔ _
  rw [hlength, Keeps]
  split
  · next hsoon =>
    rw [forall_prop_of_true hsoon, h, Nat.add_right_cancel_iff]
    exact length_recent_eq_iff hle
  · next hlate =>
    -- nothing is recent any more
    have hnone : recent w now c.times = [] := by
      apply List.filter_eq_nil_iff.mpr
      intro t ht
      have hold := hordered t ht
      simp only [decide_eq_true_eq]
      omega
    rw [hnone]
    exact iff_of_true rfl fun hsoon => absurd hsoon hlate

end Tally

/-! ## The slashings of a provider -/

/-- The call slashes `p`, for whatever reason. -/
def ProtocolCall.slashes (p : Address) : ProtocolCall → Bool
  | .slashing (.slashMissedPost provider _) => provider = p
  | .slashing (.slashDataLoss provider _) => provider = p
  | .slashing (.slashEarlyExit provider _) => provider = p
  | _ => false

namespace SlashingManager

/-- What the manager knows about the times at which it has slashed `p`. -/
def tally (m : SlashingManager) (p : Address) : Tally where
  count := (m.penaltyStates p).slashCountInWindow
  last := (m.penaltyStates p).lastSlashTime
  times := (m.slashingHistory p).map SlashingRecord.timestamp

/-- The records of `p` that are at most 30 days old. -/
def inWindow (m : SlashingManager) (p : Address) (now : Nat) : List SlashingRecord :=
  (m.slashingHistory p).filter fun r => now - REPEAT_WINDOW ≤ r.timestamp

/-- The counter has the number of records in the window, and that is what multiplies the next penalty. -/
structure WindowCounted (m : SlashingManager) (p : Address) (now : Nat) : Prop where
  count : (m.penaltyStates p).slashCountInWindow = (m.inWindow p now).length
  multiplier : ∀ later, (m.penaltyStates p).repeatMultiplier later =
    if REPEAT_WINDOW < later - now then 1 else min (2 ^ (m.inWindow p now).length) 8

end SlashingManager

/-- If the call slashes `p` within 30 days of the last time, then every record that was in the window at that time still
is. -/
def NoneExpires {sites : ProtocolSites} (p : Address) (n : Protocol) (a : ProtocolAction sites) : Prop :=
  a.call.slashes p = true → (n.slashing.tally p).Keeps REPEAT_WINDOW a.time

instance {sites : ProtocolSites} (p : Address) (n : Protocol) (a : ProtocolAction sites) :
    Decidable (NoneExpires p n a) :=
  inferInstanceAs (Decidable (_ → _))

/-! ## One call -/

/-- What a successful call does to the tally of `p`. -/
inductive TallyEffect {sites : ProtocolSites} (p : Address) (n : Protocol) (a : ProtocolAction sites)
    (n' : Protocol) : Prop
  | same (call : a.call.slashes p = false) (tally : n'.slashing.tally p = n.slashing.tally p)
  | slashed (call : a.call.slashes p = true) (inOrder : (n.slashing.tally p).last ≤ a.time)
      (tally : n'.slashing.tally p = (n.slashing.tally p).add REPEAT_WINDOW a.time)

section Steps

variable {sites : ProtocolSites} {n n' : Protocol} {a : ProtocolAction sites} {logs : List ProtocolLog}
  {m : SlashingManager} {p provider : Address} {amount now : Nat} {reason : String}

theorem tally_entered :
    (m.entered now provider amount reason).tally provider = (m.tally provider).add REPEAT_WINDOW now := by
  simp [SlashingManager.tally, SlashingManager.entered, ProviderPenaltyState.penalized, Tally.add]

theorem tally_entered_of_ne (h : p ≠ provider) : (m.entered now provider amount reason).tally p = m.tally p := by
  simp [SlashingManager.tally, SlashingManager.entered, h]

/-- A miss that is counted is no slashing yet. -/
theorem tally_setState_missed : (m.setState provider ((m.penaltyStates provider).missed now)).tally p = m.tally p := by
  by_cases h : p = provider
  · subst h
    simp [SlashingManager.tally, SlashingManager.setState, ProviderPenaltyState.missed]
  · simp [SlashingManager.tally, SlashingManager.setState, h]

/-- Appeals change the flags of a record, and not its time. -/
theorem tally_setHistory {i : Nat} {r : SlashingRecord} (h : r.timestamp = (m.recordAt provider i).timestamp)
    (hlt : i < (m.slashingHistory provider).length) :
    (m.setHistory provider ((m.slashingHistory provider).set i r)).tally p = m.tally p := by
  by_cases hp : p = provider
  · subst hp
    have htimes : ((m.slashingHistory p).set i r).map SlashingRecord.timestamp =
        (m.slashingHistory p).map SlashingRecord.timestamp := by
      rw [List.map_set, h]
      apply List.ext_getElem?
      intro j
      grind [SlashingManager.recordAt]
    simp [SlashingManager.tally, SlashingManager.setHistory, htimes]
  · simp [SlashingManager.tally, SlashingManager.setHistory, hp]

/-- A slashing of `provider` that has been entered. -/
theorem tallyEffect_entered (hcall : a.call.slashes p = decide (provider = p))
    (htally : m.tally p = n.slashing.tally p) (horder : (m.penaltyStates provider).lastSlashTime ≤ a.time)
    (hn : n'.slashing = m.entered a.time provider amount reason) : TallyEffect p n a n' := by
  by_cases hp : provider = p
  · subst hp
    refine .slashed (by simp [hcall]) ?_ ?_
    · rw [← htally]
      exact horder
    · rw [hn, tally_entered, htally]
  · refine .same (by simp [hcall, hp]) ?_
    rw [hn, tally_entered_of_ne (Ne.symm hp), htally]

/-- What a call does to the count of slashings within the window. -/
theorem tally_effect (h : n.step sites a = .ok (n', logs)) (p : Address) : TallyEffect p n a n' := by
  cases hcall : a.call with
  | network c =>
    simp only [Protocol.step, hcall, bind_eq_ok, pure_eq_ok, Prod.exists, Prod.mk.injEq] at h
    obtain ⟨network, l, -, rfl, -⟩ := h
    exact .same (by rw [hcall]; rfl) rfl
  | slashing c =>
    simp only [Protocol.step, hcall] at h
    cases c with
    | slashMissedPost provider collateral =>
      obtain ⟨-, hs, registry, recorded, -, hout⟩ := Protocol.slashMissedPost_eq_ok.mp h
      obtain ⟨rfl, -⟩ := Prod.mk.inj hout
      refine tallyEffect_entered (by rw [hcall]; rfl) tally_setState_missed ?_ rfl
      simp only [SlashingManager.setState, Function.update_self]
      exact hs.enterable.inOrder
    | slashDataLoss provider dealCollateral =>
      simp only [Protocol.slashingStep, Protocol.slashDataLoss, bind_eq_ok, pure_eq_ok, Prod.exists,
        Protocol.applySlashing_eq_ok, Prod.mk.injEq] at h
      obtain ⟨_, -, _, _, ⟨-, henter, rfl, -⟩, _, _, -, _, _, -, rfl, -⟩ := h
      exact tallyEffect_entered (by rw [hcall]; rfl) rfl henter.inOrder rfl
    | slashEarlyExit provider penaltyAmount =>
      simp only [Protocol.slashingStep, Protocol.slashEarlyExit, bind_eq_ok, Protocol.applySlashing_eq_ok,
        Prod.mk.injEq] at h
      obtain ⟨_, -, -, henter, rfl, -⟩ := h
      exact tallyEffect_entered (by rw [hcall]; rfl) rfl henter.inOrder rfl
    | submitAppeal i evidence =>
      simp only [Protocol.slashingStep, SlashingManager.submitAppeal, bind_eq_ok, require_eq_ok, pure_eq_ok,
        Prod.exists, Prod.mk.injEq, exists_const] at h
      obtain ⟨_, _, ⟨hlt, -, -, -, rfl, -⟩, rfl, -⟩ := h
      exact .same (by rw [hcall]; rfl) (tally_setHistory rfl hlt)
    | resolveAppeal provider i upheld =>
      cases upheld with
      | true =>
        obtain ⟨-, hr, hout⟩ := Protocol.resolveAppeal_upheld_eq_ok.mp h
        obtain ⟨rfl, -⟩ := Prod.mk.inj hout
        exact .same (by rw [hcall]; rfl) (tally_setHistory rfl hr.lt)
      | false =>
        obtain ⟨-, hr, -, registry, raised, -, hout⟩ := Protocol.resolveAppeal_granted_eq_ok.mp h
        obtain ⟨rfl, -⟩ := Prod.mk.inj hout
        exact .same (by rw [hcall]; rfl) (tally_setHistory rfl hr.lt)
    | transferOwnership newOwner | renounceOwnership =>
      simp only [Protocol.slashingStep, bind_eq_ok, pure_eq_ok, Prod.mk.injEq] at h
      obtain ⟨_, -, rfl, -⟩ := h
      exact .same (by rw [hcall]; rfl) rfl

/-- The tally counts the recent events exactly if the counter has the number of records in the window. -/
theorem windowCounted_iff_windowed (hlast : (m.tally p).last = now) :
    m.WindowCounted p now ↔ (m.tally p).Windowed REPEAT_WINDOW := by
  have hlength : (m.inWindow p now).length =
      (Tally.recent REPEAT_WINDOW (m.tally p).last (m.tally p).times).length := by
    rw [hlast]
    simp [SlashingManager.inWindow, SlashingManager.tally, Tally.recent, List.filter_map, Function.comp_def]
  constructor
  · intro h
    exact h.count.trans hlength
  · intro h
    have hcount : (m.penaltyStates p).slashCountInWindow = (m.inWindow p now).length := h.trans hlength.symm
    refine ⟨hcount, fun later => ?_⟩
    have htime : (m.penaltyStates p).lastSlashTime = now := hlast
    rw [ProviderPenaltyState.repeatMultiplier, hcount, htime]

end Steps

/-! ## Runs -/

/-- **In a run, the counter is right after every slashing of `p`** exactly if no slashing of `p` finds some of the
records that were in the window the last time still there, and others gone. -/
theorem windowCounted_iff {sites : ProtocolSites} {msg : Msg} {n₀ : Protocol} (hdeploy : n₀.slashing = .deploy msg)
    (as : List (ProtocolAction sites)) (p : Address) :
    (∀ e ∈ history (Protocol.step sites) n₀ as,
        e.act.call.slashes p = true → e.post.slashing.WindowCounted p e.act.time) ↔
      Meets (Protocol.step sites) (NoneExpires p) n₀ as := by
  have hempty : n₀.slashing.tally p = {} := by
    rw [hdeploy]
    rfl
  apply forall_history_iff
    (P := fun n => (n.slashing.tally p).Ordered ∧ (n.slashing.tally p).Windowed REPEAT_WINDOW)
  · rw [hempty]
    exact ⟨Tally.ordered_empty, Tally.windowed_empty⟩
  · intro n a n' logs ⟨hordered, hwindowed⟩ hstep
    cases tally_effect hstep p with
    | same call _ => simp [NoneExpires, call]
    | slashed call inOrder tally =>
      have hlast : (n'.slashing.tally p).last = a.time := by
        rw [tally]
        rfl
      simp only [NoneExpires, call, forall_const]
      rw [windowCounted_iff_windowed hlast, tally]
      exact Tally.windowed_add_iff hordered hwindowed inOrder
  · intro n a n' logs ⟨hordered, hwindowed⟩ hgood hstep
    cases tally_effect hstep p with
    | same _ tally =>
      rw [tally]
      exact ⟨hordered, hwindowed⟩
    | slashed call inOrder tally =>
      have hlast : (n'.slashing.tally p).last = a.time := by
        rw [tally]
        rfl
      refine ⟨?_, (windowCounted_iff_windowed hlast).mp (hgood call)⟩
      rw [tally]
      exact Tally.ordered_add hordered inOrder

/-! ### Three misses -/

namespace SmallProtocol

/-- Two misses, a pause of more than 30 days, and two more. -/
def bursts : List (ProtocolAction sites) :=
  joined (1000 * 10 ^ 18) ++ [missAt DAY, missAt (2 * DAY), missAt (40 * DAY), missAt (60 * DAY)]

theorem bursts_counted :
    ((run (Protocol.step sites) deployed bursts).slashing.penaltyStates 2).slashCountInWindow = 2 ∧
      ∀ e ∈ history (Protocol.step sites) deployed bursts,
        e.act.call.slashes 2 = true → e.post.slashing.WindowCounted 2 e.act.time := by
  refine ⟨by decide +kernel, ?_⟩
  apply (windowCounted_iff (show deployed.slashing = .deploy ⟨1, 0⟩ from rfl) bursts 2).mpr
  rw [meets_iff_history]
  decide +kernel

/-- Two misses twenty days apart. -/
def spaced : List (ProtocolAction sites) := joined (1000 * 10 ^ 18) ++ [missAt DAY, missAt (21 * DAY)]

theorem thirdMiss_goes_through :
    revertOf ((run (Protocol.step sites) deployed spaced).step sites (missAt (41 * DAY))) = none := by decide +kernel

/-- After twenty more days the first is out of the window, and still counted. -/
theorem spaced_not_counted :
    ¬ ∀ e ∈ history (Protocol.step sites) deployed (spaced ++ [missAt (41 * DAY)]),
      e.act.call.slashes 2 = true → e.post.slashing.WindowCounted 2 e.act.time := by
  rw [history_snoc_ok (eq_resultOf thirdMiss_goes_through)]
  intro hall
  have hcount := (hall _ (List.mem_append_right _ (List.mem_singleton_self _)) rfl).count
  revert hcount
  decide +kernel

end SmallProtocol

end Kyneto
