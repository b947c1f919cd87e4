import Kyneto.UptimeMonitor.Basic

/-!
# Is a provider slashed once per outage?

What keeps the next pass from slashing a provider again is that the provider is inactive, and it becomes inactive only
after the transaction is mined and the wait for it has ended. `slashedOnce_run` says that between two slashings of a
provider there is a heartbeat, if no pass selects a provider that another one is busy with, no transaction is mined
that no pass waits for, and neither the wait for a mined transaction nor the update after it fails. A provider that has
two rows, in two spellings of its address, has two outages.

The invariant is `Watching`: as long as a provider has been slashed and not been heard of, it is inactive, or a pass is
on its way to set it inactive.
-/

namespace Kyneto

open Evm Sql

/-! ## When it is so -/

/-- The providers that a pass has not finished with. -/
def CheckPass.rows : CheckPass → List String
  | .slashing todo current => (current.map Prod.fst).toList ++ todo.map OfflineProvider.address
  | .selecting | .finished => []

def CheckPass.busy (env : UptimeEnv) (w : CheckPass) : List Address := w.rows.filterMap env.parseAddress

def CheckPass.waitsFor (txId : Nat) : CheckPass → Bool
  | .slashing _ (some (_, .waiting id)) => id = txId
  | _ => false

/-- The provider has no row in another spelling. -/
def OneRow (env : UptimeEnv) (db : Database) (address : String) : Prop :=
  ∀ r ∈ db.providers, env.parseAddress r.address = env.parseAddress address → r.address = address

instance (env : UptimeEnv) (db : Database) (address : String) : Decidable (OneRow env db address) :=
  inferInstanceAs (Decidable (∀ r ∈ db.providers, _ → _))

/-- A pass selects no provider that another one is busy with, and the providers that it selects have one row. -/
def RunsCarefully (env : UptimeEnv) (s : UptimeMonitor) (now : Nat) : CheckPass → Prop
  | .selecting => ∀ row ∈ offlineProviders now s.db s.pledges, OneRow env s.db row.address ∧
      ∀ w ∈ s.passes, ∀ p ∈ w.busy env, env.parseAddress row.address ≠ some p
  | .slashing _ _ | .finished => True

/-- The wait for a mined transaction does not fail, and neither does the update after it. -/
def FailsCarefully (s : UptimeMonitor) : CheckPass → Prop
  | .slashing _ (some (_, .waiting txId)) => s.txs[txId]?.map SlashTx.status ≠ some .executed
  | .slashing _ (some (_, .updating)) => False
  | _ => True

/-- And no transaction is mined that no pass waits for. -/
def CarefulSlash (env : UptimeEnv) (s : UptimeMonitor) (a : UptimeAction) : Prop :=
  match a.event with
  | .runs i => ∀ w ∈ s.passes[i]?, RunsCarefully env s a.now w
  | .fails i => ∀ w ∈ s.passes[i]?, FailsCarefully s w
  | .mines txId => ∃ w ∈ s.passes, w.waitsFor txId = true
  | _ => True

-- by the elements of the list, not by all addresses
instance (env : UptimeEnv) (w : CheckPass) (address : String) :
    Decidable (∀ p ∈ w.busy env, env.parseAddress address ≠ some p) := List.decidableBAll _ _

instance (env : UptimeEnv) (s : UptimeMonitor) (now : Nat) : DecidablePred (RunsCarefully env s now)
  | .selecting => inferInstanceAs (Decidable (∀ row ∈ offlineProviders now s.db s.pledges, OneRow env s.db row.address ∧
      ∀ w ∈ s.passes, ∀ p ∈ w.busy env, env.parseAddress row.address ≠ some p))
  | .slashing _ _ | .finished => inferInstanceAs (Decidable True)

instance (s : UptimeMonitor) : DecidablePred (FailsCarefully s)
  | .slashing _ (some (_, .waiting txId)) =>
    inferInstanceAs (Decidable (s.txs[txId]?.map SlashTx.status ≠ some .executed))
  | .slashing _ (some (_, .updating)) => inferInstanceAs (Decidable False)
  | .selecting | .slashing _ none | .finished => inferInstanceAs (Decidable True)

instance (env : UptimeEnv) (s : UptimeMonitor) (a : UptimeAction) : Decidable (CarefulSlash env s a) :=
  match a with
  | ⟨now, .runs i⟩ => inferInstanceAs (Decidable (∀ w ∈ s.passes[i]?, RunsCarefully env s now w))
  | ⟨_, .fails i⟩ => inferInstanceAs (Decidable (∀ w ∈ s.passes[i]?, FailsCarefully s w))
  | ⟨_, .mines txId⟩ => inferInstanceAs (Decidable (∃ w ∈ s.passes, w.waitsFor txId = true))
  | ⟨_, .posts _⟩ | ⟨_, .starts⟩ | ⟨_, .sendsUnseen _⟩ | ⟨_, .drops _⟩ | ⟨_, .othersAct _ _ _⟩ =>
    inferInstanceAs (Decidable True)

abbrev UptimeEntry := Entry UptimeMonitor UptimeAction UptimeLog

def Slashes (p : Address) (e : UptimeEntry) : Prop := .slashed p ∈ e.logs

instance (p : Address) : DecidablePred (Slashes p) := fun e => inferInstanceAs (Decidable (_ ∈ e.logs))

def UptimeLog.beats (env : UptimeEnv) (p : Address) : UptimeLog → Bool
  | .heartbeat address => env.parseAddress address = some p
  | .slashed _ => false

/-- A heartbeat of the provider. -/
def Beats (env : UptimeEnv) (p : Address) (e : UptimeEntry) : Prop := ∃ g ∈ e.logs, g.beats env p = true

instance (env : UptimeEnv) (p : Address) : DecidablePred (Beats env p) := fun e =>
  inferInstanceAs (Decidable (∃ g ∈ e.logs, _))

/-! ## The invariant -/

section Invariant

variable {env : UptimeEnv} {p : Address} {s s' : UptimeMonitor} {a : UptimeAction} {logs : List UptimeLog}
  {hist : List UptimeEntry} {i : Nat} {w w' : CheckPass}

/-- The provider has been slashed in this pass, which is on its way to set it inactive. -/
def Slashed (env : UptimeEnv) (p : Address) (txs : List SlashTx) (w : CheckPass) : Prop :=
  ∃ todo address phase, w = .slashing todo (some (address, phase)) ∧ env.parseAddress address = some p ∧
    ∀ txId, phase = .waiting txId → txs[txId]?.map SlashTx.status = some .executed

/-- The provider is set inactive, in a row of its own. -/
def Inactive (env : UptimeEnv) (p : Address) (db : Database) : Prop :=
  ∃ r ∈ db.providers, env.parseAddress r.address = some p ∧
    ∀ r' ∈ db.providers, r'.address = r.address → r'.active = false

def HasRow (db : Database) (address : String) : Prop := ∃ r ∈ db.providers, r.address = address

structure Watching (env : UptimeEnv) (p : Address) (s : UptimeMonitor) (hist : List UptimeEntry) : Prop where
  alone : ∀ (i j : Nat) (w w' : CheckPass), s.passes[i]? = some w → s.passes[j]? = some w' → p ∈ w.busy env →
    p ∈ w'.busy env → i = j
  once : ∀ w ∈ s.passes, (w.busy env).count p ≤ 1
  known : ∀ w ∈ s.passes, ∀ address ∈ w.rows, HasRow s.db address
  sent : ∀ todo address txId, .slashing todo (some (address, .waiting txId)) ∈ s.passes →
    ∃ tx, s.txs[txId]? = some tx ∧ env.parseAddress address = some tx.provider
  slashed : Since (Slashes p) (Beats env p) hist → ∀ w ∈ s.passes, p ∈ w.busy env → Slashed env p s.txs w
  inactive : Since (Slashes p) (Beats env p) hist → (∀ w ∈ s.passes, p ∉ w.busy env) → Inactive env p s.db
  separated : Separated (Slashes p) (Beats env p) hist

/-- The provider is not slashed, and is not heard of. -/
def Quiet (env : UptimeEnv) (p : Address) (logs : List UptimeLog) : Prop :=
  .slashed p ∉ logs ∧ ∀ address, .heartbeat address ∈ logs → env.parseAddress address ≠ some p

theorem quiet_nil : Quiet env p [] := ⟨nofun, nofun⟩

theorem since_quiet {e : UptimeEntry} (h : Quiet env p e.logs) :
    Since (Slashes p) (Beats env p) (hist ++ [e]) ↔ Since (Slashes p) (Beats env p) hist := by
  have hslashes : ¬ Slashes p e := h.1
  have hbeats : ¬ Beats env p e := by
    rintro ⟨g, hmem, hbeats⟩
    cases g with
    | heartbeat address => exact h.2 address hmem (of_decide_eq_true hbeats)
    | slashed _ => cases hbeats
  rw [since_snoc, or_iff_right hslashes, and_iff_left hbeats]

theorem separated_quiet {e : UptimeEntry} (h : Quiet env p e.logs)
    (hseparated : Separated (Slashes p) (Beats env p) hist) : Separated (Slashes p) (Beats env p) (hist ++ [e]) :=
  separated_snoc.mpr ⟨hseparated, fun hslashes => absurd hslashes h.1⟩

/-- What happens to the transactions that are there. -/
def Settles (txs txs' : List SlashTx) : Prop :=
  ∀ (txId : Nat) tx, txs[txId]? = some tx → ∃ tx', txs'[txId]? = some tx' ∧ tx'.provider = tx.provider ∧
    (tx.status = .executed → tx'.status = .executed)

theorem Slashed.settles {txs txs' : List SlashTx} (h : Slashed env p txs w) (htxs : Settles txs txs') :
    Slashed env p txs' w := by
  obtain ⟨todo, address, phase, hw, haddress, hphase⟩ := h
  refine ⟨todo, address, phase, hw, haddress, fun txId heq => ?_⟩
  -- a transaction that has been executed stays so
  obtain ⟨tx, htx, hstatus⟩ := Option.map_eq_some_iff.mp (hphase txId heq)
  obtain ⟨tx', htx', -, hstatus'⟩ := htxs txId tx htx
  rw [htx', Option.map_some, hstatus' hstatus]

/-- One pass moves on, and is not busy with more providers than before. -/
theorem Watching.moves (h : Watching env p s hist) (hi : s.passes[i]? = some w)
    (hpasses : s'.passes = s.passes.set i w') (hrows : w'.rows.Sublist w.rows)
    (hdb : ∀ address, HasRow s.db address → HasRow s'.db address) (htxs : Settles s.txs s'.txs)
    (hsent : ∀ todo address txId, w' = .slashing todo (some (address, .waiting txId)) →
      ∃ tx, s'.txs[txId]? = some tx ∧ env.parseAddress address = some tx.provider)
    (hslashed : Slashed env p s.txs w → p ∈ w'.busy env → Slashed env p s'.txs w')
    (hinactive : Slashed env p s.txs w → p ∉ w'.busy env → Inactive env p s'.db)
    (hkeeps : Inactive env p s.db → Inactive env p s'.db) : Watching env p s' (hist ++ [⟨s, a, [], s'⟩]) := by
  -- what is left for the pass to do was there before
  have hsub : (w'.busy env).Sublist (w.busy env) := hrows.filterMap env.parseAddress
  have hwmem : w ∈ s.passes := List.mem_of_getElem? hi
  have hwmem' : w' ∈ s'.passes := by
    rw [hpasses]
    exact List.mem_set (List.getElem?_eq_some_iff.mp hi).1 w'
  have hbusy : ∀ (j : Nat) (w₁ : CheckPass), s'.passes[j]? = some w₁ → p ∈ w₁.busy env →
      ∃ w₂, s.passes[j]? = some w₂ ∧ p ∈ w₂.busy env := by
    intro j w₁ hj hmem
    rw [hpasses, List.getElem?_set] at hj
    split at hj
    · next heq =>
      subst heq
      split at hj
      · cases hj
        exact ⟨w, hi, hsub.subset hmem⟩
      · cases hj
    · exact ⟨w₁, hj, hmem⟩
  -- the fields of the invariant in order; the history has no slashing and no heartbeat more
  refine ⟨?_, ?_, ?_, ?_, ?_, ?_, separated_quiet quiet_nil h.separated⟩
  · intro j k w₁ w₂ hj hk hmem₁ hmem₂
    obtain ⟨w₃, hj, hmem₃⟩ := hbusy j w₁ hj hmem₁
    obtain ⟨w₄, hk, hmem₄⟩ := hbusy k w₂ hk hmem₂
    exact h.alone j k w₃ w₄ hj hk hmem₃ hmem₄
  · intro w₁ hw₁
    rcases List.mem_or_eq_of_mem_set (hpasses ▸ hw₁) with hw₁ | rfl
    · exact h.once w₁ hw₁
    · exact Nat.le_trans (hsub.count_le p) (h.once w hwmem)
  · intro w₁ hw₁ address haddress
    rcases List.mem_or_eq_of_mem_set (hpasses ▸ hw₁) with hw₁ | rfl
    · exact hdb address (h.known w₁ hw₁ address haddress)
    · exact hdb address (h.known w hwmem address (hrows.subset haddress))
  · intro todo address txId hw₁
    rcases List.mem_or_eq_of_mem_set (hpasses ▸ hw₁) with hw₁ | heq
    · obtain ⟨tx, htx, haddress⟩ := h.sent todo address txId hw₁
      obtain ⟨tx', htx', hprovider, -⟩ := htxs txId tx htx
      exact ⟨tx', htx', hprovider ▸ haddress⟩
    · exact hsent todo address txId heq.symm
  -- after a slashing: the pass that moves carries it along, the others have not changed
  · intro hsince w₁ hw₁ hmem
    rw [since_quiet quiet_nil] at hsince
    rcases List.mem_or_eq_of_mem_set (hpasses ▸ hw₁) with hw₁ | rfl
    · exact (h.slashed hsince w₁ hw₁ hmem).settles htxs
    · exact hslashed (h.slashed hsince w hwmem (hsub.subset hmem)) hmem
  · intro hsince hnone
    rw [since_quiet quiet_nil] at hsince
    -- it was this pass that had the provider in hand, or none
    by_cases hmem : p ∈ w.busy env
    · exact hinactive (h.slashed hsince w hwmem hmem) (hnone w' hwmem')
    · refine hkeeps (h.inactive hsince fun w₁ hw₁ hmem₁ => ?_)
      obtain ⟨j, hj⟩ := List.mem_iff_getElem?.mp hw₁
      by_cases hji : j = i
      · subst hji
        rw [hi] at hj
        cases hj
        exact hmem hmem₁
      · refine hnone w₁ (List.mem_of_getElem? (i := j) ?_) hmem₁
        rw [hpasses, List.getElem?_set_ne (Ne.symm hji)]
        exact hj

theorem settles_refl (txs : List SlashTx) : Settles txs txs := fun _ tx htx => ⟨tx, htx, rfl, id⟩

/-- A pass without a transaction has not slashed anybody. -/
theorem not_slashed_of_todo {txs : List SlashTx} {todo : List OfflineProvider} :
    ¬ Slashed env p txs (.slashing todo none) := by
  rintro ⟨_, _, _, hw, -⟩
  cases hw

/-- A pass drops the provider it is at, without having slashed it. -/
theorem Watching.gives_up (h : Watching env p s hist) (hi : s.passes[i]? = some w)
    (hpasses : s'.passes = s.passes.set i w') (hrows : w'.rows.Sublist w.rows) (htxs : Settles s.txs s'.txs)
    (hsent : ∀ todo address txId, w' = .slashing todo (some (address, .waiting txId)) →
      ∃ tx, s'.txs[txId]? = some tx ∧ env.parseAddress address = some tx.provider)
    (hnot : ¬ Slashed env p s.txs w) (hdb : s'.db = s.db) : Watching env p s' (hist ++ [⟨s, a, [], s'⟩]) :=
  h.moves hi hpasses hrows (fun _ => hdb ▸ id) htxs hsent (fun hslashed => absurd hslashed hnot)
    (fun hslashed => absurd hslashed hnot) fun hinactive => hdb ▸ hinactive

/-! ## The next statement of a pass -/

/-- The provider in hand is busy, and so are those that wait. -/
theorem busy_current (todo : List OfflineProvider) (address : String) (phase : SlashPhase) :
    (CheckPass.slashing todo (some (address, phase))).busy env =
      (env.parseAddress address).toList ++ (CheckPass.slashing todo none).busy env := by
  show (address :: todo.map OfflineProvider.address).filterMap env.parseAddress = _
  cases h : env.parseAddress address with
  | none =>
    rw [List.filterMap_cons_none h]
    rfl
  | some q =>
    rw [List.filterMap_cons_some h]
    rfl

theorem mem_offlineProviders {now : Nat} {db : Database} {pledges : List CollateralRow} {row : OfflineProvider}
    (h : row ∈ offlineProviders now db pledges) :
    ∃ r ∈ db.providers, r.address = row.address ∧ r.active = true := by
  obtain ⟨address, haddress, rfl⟩ := List.mem_map.mp h
  obtain ⟨r, hr, rfl⟩ := List.mem_map.mp (List.mem_dedup.mp haddress)
  obtain ⟨hmem, hcond⟩ := List.mem_filter.mp hr
  simp only [Bool.decide_and, Bool.and_eq_true, decide_eq_true_eq] at hcond
  exact ⟨r, hmem, rfl, hcond.1⟩

theorem offlineProviders_nodup (now : Nat) (db : Database) (pledges : List CollateralRow) :
    ((offlineProviders now db pledges).map OfflineProvider.address).Nodup := by
  unfold offlineProviders
  rw [List.map_map]
  show (List.map id _).Nodup
  rw [List.map_id]
  exact List.nodup_dedup _

/-- Different texts of which one only is read as `p`. -/
theorem count_filterMap_le_one {p : Address} {f : String → Option Address} {l : List String} (hnodup : l.Nodup)
    (h : ∀ x ∈ l, ∀ y ∈ l, f x = some p → f y = some p → x = y) : (l.filterMap f).count p ≤ 1 := by
  induction l with
  | nil => exact Nat.zero_le 1
  | cons x l ih =>
    obtain ⟨hx, hnodup⟩ := List.nodup_cons.mp hnodup
    have hrest := ih hnodup fun y hy z hz => h y (List.mem_cons_of_mem x hy) z (List.mem_cons_of_mem x hz)
    cases hfx : f x with
    | none =>
      rw [List.filterMap_cons_none hfx]
      exact hrest
    | some q =>
      rw [List.filterMap_cons_some hfx, List.count_cons]
      split
      · next heq =>
        have hfp : f x = some p := hfx.trans (congrArg some (eq_of_beq heq))
        have hnone : p ∉ l.filterMap f := by
          intro hmem
          obtain ⟨y, hy, hfy⟩ := List.mem_filterMap.mp hmem
          exact hx (h x List.mem_cons_self y (List.mem_cons_of_mem x hy) hfp hfy ▸ hy)
        rw [List.count_eq_zero_of_not_mem hnone]
      · exact hrest

/-- The query of a pass. -/
theorem Watching.selects (h : Watching env p s hist) {now : Nat} (hi : s.passes[i]? = some .selecting)
    (hcareful : RunsCarefully env s now .selecting) :
    Watching env p (s.setPass i (.slashing (offlineProviders now s.db s.pledges) none))
      (hist ++ [⟨s, a, [], s.setPass i (.slashing (offlineProviders now s.db s.pledges) none)⟩]) := by
  -- who is selected comes from a row of the query
  have hrow : p ∈ (CheckPass.slashing (offlineProviders now s.db s.pledges) none).busy env →
      ∃ row ∈ offlineProviders now s.db s.pledges, env.parseAddress row.address = some p := by
    intro hmem
    obtain ⟨address, haddress, hparse⟩ := List.mem_filterMap.mp hmem
    obtain ⟨row, hrow, rfl⟩ := List.mem_map.mp haddress
    exact ⟨row, hrow, hparse⟩
  -- a careful pass selects nobody who is in the hands of another
  have hfree : p ∈ (CheckPass.slashing (offlineProviders now s.db s.pledges) none).busy env →
      ∀ w ∈ s.passes, p ∉ w.busy env := by
    intro hmem w hw hbusy
    obtain ⟨row, hrow, hparse⟩ := hrow hmem
    exact (hcareful row hrow).2 w hw p hbusy hparse
  have hbusy : ∀ (j : Nat) (w₁ : CheckPass),
      (s.passes.set i (.slashing (offlineProviders now s.db s.pledges) none))[j]? = some w₁ → p ∈ w₁.busy env →
        j = i ∧ w₁ = .slashing (offlineProviders now s.db s.pledges) none ∨ s.passes[j]? = some w₁ := by
    intro j w₁ hj hmem
    rw [List.getElem?_set] at hj
    split at hj
    · next heq =>
      split at hj
      · cases hj
        exact Or.inl ⟨heq.symm, rfl⟩
      · cases hj
    · exact Or.inr hj
  -- only the pass that selects is busy with more than before
  refine ⟨?_, ?_, ?_, ?_, ?_, ?_, separated_quiet quiet_nil h.separated⟩
  · intro j k w₁ w₂ hj hk hmem₁ hmem₂
    rcases hbusy j w₁ hj hmem₁ with ⟨rfl, rfl⟩ | hold₁
    · rcases hbusy k w₂ hk hmem₂ with ⟨rfl, rfl⟩ | hold₂
      · rfl
      · exact absurd hmem₂ (hfree hmem₁ w₂ (List.mem_of_getElem? hold₂))
    · rcases hbusy k w₂ hk hmem₂ with ⟨rfl, rfl⟩ | hold₂
      · exact absurd hmem₁ (hfree hmem₂ w₁ (List.mem_of_getElem? hold₁))
      · exact h.alone j k w₁ w₂ hold₁ hold₂ hmem₁ hmem₂
  · intro w₁ hw₁
    rcases List.mem_or_eq_of_mem_set hw₁ with hw₁ | rfl
    · exact h.once w₁ hw₁
    -- each provider is in the table once, and a careful pass finds no two spellings of one address
    · apply count_filterMap_le_one (offlineProviders_nodup now s.db s.pledges)
      intro x hx y hy hparsex hparsey
      obtain ⟨row, hrow, rfl⟩ := List.mem_map.mp hx
      obtain ⟨row', hrow', rfl⟩ := List.mem_map.mp hy
      obtain ⟨r, hr, hraddress, -⟩ := mem_offlineProviders hrow'
      rw [← hraddress]
      exact ((hcareful row hrow).1 r hr (by rw [hraddress, hparsex, hparsey])).symm
  · intro w₁ hw₁ address haddress
    rcases List.mem_or_eq_of_mem_set hw₁ with hw₁ | rfl
    · exact h.known w₁ hw₁ address haddress
    · obtain ⟨row, hrow, rfl⟩ := List.mem_map.mp haddress
      obtain ⟨r, hr, hraddress, -⟩ := mem_offlineProviders hrow
      exact ⟨r, hr, hraddress⟩
  · intro todo address txId hw₁
    rcases List.mem_or_eq_of_mem_set hw₁ with hw₁ | heq
    · exact h.sent todo address txId hw₁
    · cases heq
  · intro hsince w₁ hw₁ hmem
    rw [since_quiet quiet_nil] at hsince
    rcases List.mem_or_eq_of_mem_set hw₁ with hw₁ | rfl
    · exact h.slashed hsince w₁ hw₁ hmem
    · -- the row of the provider would be inactive
      obtain ⟨row, hrow, hparse⟩ := hrow hmem
      obtain ⟨r, hr, hraddress, hactive⟩ := mem_offlineProviders hrow
      obtain ⟨r₀, hr₀, hparse₀, hinactive⟩ := h.inactive hsince (hfree hmem)
      have hsame : r₀.address = row.address := (hcareful row hrow).1 r₀ hr₀ (hparse₀.trans hparse.symm)
      rw [hinactive r hr (hraddress.trans hsame.symm)] at hactive
      cases hactive
  -- nobody is busy with the provider, so it has been set inactive before
  · intro hsince hnone
    rw [since_quiet quiet_nil] at hsince
    refine h.inactive hsince fun w₁ hw₁ hmem₁ => ?_
    obtain ⟨j, hj⟩ := List.mem_iff_getElem?.mp hw₁
    by_cases hji : j = i
    · subst hji
      rw [hi] at hj
      cases hj
      cases hmem₁
    · refine hnone w₁ (List.mem_of_getElem? (i := j) ?_) hmem₁
      exact (List.getElem?_set_ne (Ne.symm hji)).trans hj

theorem settles_append (txs : List SlashTx) (tx : SlashTx) : Settles txs (txs ++ [tx]) := by
  intro txId tx' htx'
  refine ⟨tx', ?_, rfl, id⟩
  rw [List.getElem?_append_left (List.getElem?_eq_some_iff.mp htx').1]
  exact htx'

/-- A pass sends the next transaction, or finds that the address is none. -/
theorem Watching.sends (h : Watching env p s hist) {row : OfflineProvider} {todo : List OfflineProvider}
    (hi : s.passes[i]? = some (.slashing (row :: todo) none)) (seen : Bool) :
    Watching env p (s.sendTx env i seen row todo) (hist ++ [⟨s, a, [], s.sendTx env i seen row todo⟩]) := by
  have hdrop : (CheckPass.slashing todo none).rows.Sublist (CheckPass.slashing (row :: todo) none).rows :=
    List.sublist_cons_self row.address _
  unfold UptimeMonitor.sendTx
  split
  · exact h.gives_up hi rfl hdrop (settles_refl _) nofun not_slashed_of_todo rfl
  · next provider hprovider =>
    refine h.gives_up hi rfl ?_ (settles_append _ _) ?_ not_slashed_of_todo rfl
    · cases seen with
      | true => exact List.Sublist.refl _
      | false => exact hdrop
    · intro todo' address txId heq
      cases seen with
      | true =>
        cases heq
        exact ⟨_, List.getElem?_concat_length, hprovider⟩
      | false => cases heq

/-- The wait for a transaction that will never be mined ends. -/
theorem not_slashed_of_waiting {txs : List SlashTx} {todo : List OfflineProvider} {address : String} {txId : Nat}
    (h : txs[txId]?.map SlashTx.status ≠ some .executed) :
    ¬ Slashed env p txs (.slashing todo (some (address, .waiting txId))) := by
  rintro ⟨_, _, _, heq, -, hphase⟩
  cases heq
  exact h (hphase txId rfl)

theorem hasRow_deactivate {db : Database} (address address' : String) (h : HasRow db address') :
    HasRow (deactivateProvider address db) address' := by
  obtain ⟨r, hr, rfl⟩ := h
  refine ⟨_, mem_update.mpr ⟨r, hr, rfl⟩, ?_⟩
  split <;> rfl

theorem mem_deactivateProvider {db : Database} {address : String} {r : ProviderRow}
    (h : r ∈ (deactivateProvider address db).providers) :
    r.active = false ∨ r ∈ db.providers ∧ r.address ≠ address := by
  obtain ⟨r₀, hr₀, rfl⟩ := mem_update.mp h
  split
  · exact Or.inl rfl
  · next hne => exact Or.inr ⟨hr₀, by simpa using hne⟩

theorem deactivate_inactive {db : Database} {address : String} (h : Inactive env p db) :
    Inactive env p (deactivateProvider address db) := by
  obtain ⟨r₀, hr₀, hparse, hinactive⟩ := h
  obtain ⟨r, hr, heq⟩ := hasRow_deactivate address r₀.address ⟨r₀, hr₀, rfl⟩
  refine ⟨r, hr, heq ▸ hparse, fun r' hr' hsame => ?_⟩
  rcases mem_deactivateProvider hr' with hdone | ⟨hr', -⟩
  · exact hdone
  · exact hinactive r' hr' (hsame.trans heq)

/-- After the update the provider is inactive. -/
theorem deactivated {db : Database} {address : String} (h : HasRow db address)
    (hparse : env.parseAddress address = some p) : Inactive env p (deactivateProvider address db) := by
  obtain ⟨r, hr, heq⟩ := hasRow_deactivate address address h
  refine ⟨r, hr, heq ▸ hparse, fun r' hr' hsame => ?_⟩
  rcases mem_deactivateProvider hr' with hdone | ⟨-, hne⟩
  · exact hdone
  · exact absurd (hsame.trans heq) hne

/-- The next statement of a pass, or the end of its wait. -/
theorem Watching.runs (h : Watching env p s hist) {now : Nat} (hi : s.passes[i]? = some w)
    (hrun : s.runPass env now i w = .ok s') (hcareful : RunsCarefully env s now w) :
    Watching env p s' (hist ++ [⟨s, a, [], s'⟩]) := by
  unfold UptimeMonitor.runPass at hrun
  -- the program of a pass, branch by branch
  split at hrun
  · split at hrun
    · cases hrun
      -- nobody is offline, or the loop over the providers is through
      exact h.gives_up hi rfl (List.Sublist.refl _) (settles_refl _) nofun (fun ⟨_, _, _, heq, _⟩ => by cases heq) rfl
    · cases hrun
      exact h.selects hi hcareful
  · cases hrun
    exact h.gives_up hi rfl (List.nil_sublist _) (settles_refl _) nofun not_slashed_of_todo rfl
  · cases hrun
    exact h.sends hi true
  -- `tx.wait(1)`: the receipt is there
  · next todo address txId =>
    split at hrun
    · next hexecuted =>
      cases hrun
      refine h.moves hi rfl (List.Sublist.refl _) (fun _ => id) (settles_refl _) nofun ?_ ?_ id
      · rintro ⟨_, _, _, heq, hparse, -⟩ _
        cases heq
        exact ⟨todo, address, .updating, rfl, hparse, nofun⟩
      · rintro ⟨_, _, _, heq, hparse, -⟩ hnot
        cases heq
        rw [busy_current, hparse] at hnot
        simp at hnot
    -- the transaction has failed, and the loop goes on with the next provider
    · next hfailed =>
      cases hrun
      refine h.gives_up hi rfl (List.sublist_cons_self _ _) (settles_refl _) nofun (not_slashed_of_waiting ?_) rfl
      rw [hfailed]
      nofun
    · cases hrun
    · cases hrun
  -- the UPDATE that sets the provider inactive
  · next todo address =>
    cases hrun
    refine h.moves hi rfl (List.sublist_cons_self address _) (hasRow_deactivate address) (settles_refl _) nofun ?_ ?_
      deactivate_inactive
    · -- the pass would have the provider twice
      rintro ⟨_, _, _, heq, hparse, -⟩ hmem
      cases heq
      have honce := h.once _ (List.mem_of_getElem? hi)
      rw [busy_current, hparse, List.count_append] at honce
      have hpos := List.count_pos_iff.mpr hmem
      simp at honce
      omega
    · rintro ⟨_, _, _, heq, hparse, -⟩ _
      cases heq
      exact deactivated (h.known _ (List.mem_of_getElem? hi) address List.mem_cons_self) hparse
  · cases hrun

/-- An error in a pass. -/
theorem Watching.fails (h : Watching env p s hist) (hi : s.passes[i]? = some w) (hcareful : FailsCarefully s w) :
    Watching env p (s.setPass i (UptimeMonitor.failPass w))
      (hist ++ [⟨s, a, [], s.setPass i (UptimeMonitor.failPass w)⟩]) := by
  -- an exception while slashing is caught in the loop, and the pass goes on
  cases w with
  | selecting =>
    exact h.gives_up hi rfl (List.Sublist.refl _) (settles_refl _) nofun (fun ⟨_, _, _, heq, _⟩ => by cases heq) rfl
  | finished =>
    exact h.gives_up hi rfl (List.Sublist.refl _) (settles_refl _) nofun (fun ⟨_, _, _, heq, _⟩ => by cases heq) rfl
  | slashing todo current =>
    cases current with
    | none =>
      cases todo with
      | nil => exact h.gives_up hi rfl (List.nil_sublist _) (settles_refl _) nofun not_slashed_of_todo rfl
      | cons row todo =>
        exact h.gives_up hi rfl (List.sublist_cons_self row.address _) (settles_refl _) nofun not_slashed_of_todo rfl
    | some c =>
      obtain ⟨address, phase⟩ := c
      cases phase with
      | waiting txId =>
        have hpass : UptimeMonitor.failPass (.slashing todo (some (address, .waiting txId))) = .slashing todo none := by
          cases todo <;> rfl
        rw [hpass]
        exact h.gives_up hi rfl (List.sublist_cons_self address _) (settles_refl _) nofun
          (not_slashed_of_waiting hcareful) rfl
      -- a careful pass does not fail between the receipt and the UPDATE
      | updating => cases hcareful

/-! ## Transactions, heartbeats, other services -/

/-- Nothing happens to the passes and to the rows of the provider. -/
theorem Watching.settles (h : Watching env p s hist) (hpasses : s'.passes = s.passes) (htxs : Settles s.txs s'.txs)
    (hdb : ∀ address, HasRow s.db address → HasRow s'.db address) (hkeeps : Inactive env p s.db → Inactive env p s'.db)
    (hquiet : Quiet env p logs) : Watching env p s' (hist ++ [⟨s, a, logs, s'⟩]) := by
  refine ⟨hpasses ▸ h.alone, hpasses ▸ h.once, ?_, ?_, ?_, ?_, separated_quiet hquiet h.separated⟩
  · intro w hw address haddress
    exact hdb address (h.known w (hpasses ▸ hw) address haddress)
  · intro todo address txId hw
    obtain ⟨tx, htx, haddress⟩ := h.sent todo address txId (hpasses ▸ hw)
    obtain ⟨tx', htx', hprovider, -⟩ := htxs txId tx htx
    exact ⟨tx', htx', hprovider ▸ haddress⟩
  · intro hsince w hw hmem
    rw [since_quiet hquiet] at hsince
    exact (h.slashed hsince w (hpasses ▸ hw) hmem).settles htxs
  · intro hsince hnone
    rw [since_quiet hquiet] at hsince
    exact hkeeps (h.inactive hsince (hpasses ▸ hnone))

/-- A pending transaction gets another status. -/
theorem settles_set {txs : List SlashTx} {txId : Nat} {tx : SlashTx} (htx : txs[txId]? = some tx)
    (hpending : tx.status = .pending) (status : TxStatus) : Settles txs (txs.set txId { tx with status }) := by
  intro id tx' htx'
  by_cases hid : id = txId
  · subst hid
    rw [htx] at htx'
    cases htx'
    refine ⟨_, List.getElem?_set_self (List.getElem?_eq_some_iff.mp htx).1, rfl, fun hexecuted => ?_⟩
    rw [hpending] at hexecuted
    cases hexecuted
  · exact ⟨tx', (List.getElem?_set_ne (Ne.symm hid)).trans htx', rfl, fun hexecuted => hexecuted⟩

/-- A transaction that a pass waits for is mined. -/
theorem Watching.mines (h : Watching env p s hist) {now txId : Nat} {tx : SlashTx} (htx : s.txs[txId]? = some tx)
    (hpending : tx.status = .pending) (hcareful : ∃ w ∈ s.passes, w.waitsFor txId = true)
    (hmine : s.mineTx env now txId tx = (s', logs)) : Watching env p s' (hist ++ [⟨s, a, logs, s'⟩]) := by
  unfold UptimeMonitor.mineTx at hmine
  split at hmine
  · next chain _ _ =>
    cases hmine
    -- the provider we watch, or another one
    by_cases hp : tx.provider = p
    · obtain ⟨w, hw, hwaits⟩ := hcareful
      -- the pass that waits for it
      obtain ⟨todo, address, rfl⟩ : ∃ todo address, w = .slashing todo (some (address, .waiting txId)) := by
        unfold CheckPass.waitsFor at hwaits
        split at hwaits
        · next todo address id =>
          obtain rfl : id = txId := by simpa using hwaits
          exact ⟨todo, address, rfl⟩
        · cases hwaits
      obtain ⟨tx', htx', hparse⟩ := h.sent todo address txId hw
      rw [htx] at htx'
      cases htx'
      rw [hp] at hparse
      have hbusy : p ∈ (CheckPass.slashing todo (some (address, .waiting txId))).busy env := by
        rw [busy_current, hparse]
        exact List.mem_cons_self
      -- if the provider had been slashed since its last heartbeat, the transaction of this pass would be the
      -- one
      have hfirst : ¬ Since (Slashes p) (Beats env p) hist := by
        intro hsince
        obtain ⟨_, _, _, heq, -, hphase⟩ := h.slashed hsince _ hw hbusy
        cases heq
        have hexecuted := hphase txId rfl
        rw [htx, Option.map_some, hpending] at hexecuted
        cases hexecuted
      have hlt := (List.getElem?_eq_some_iff.mp htx).1
      refine ⟨h.alone, h.once, h.known, ?_, ?_, ?_, separated_snoc.mpr ⟨h.separated, fun _ => hfirst⟩⟩
      -- every pass still waits for a transaction of the provider that it has in hand
      · intro todo' address' txId' hw'
        obtain ⟨tx₁, htx₁, haddress⟩ := h.sent todo' address' txId' hw'
        obtain ⟨tx₂, htx₂, hprovider, -⟩ := settles_set htx hpending .executed txId' tx₁ htx₁
        exact ⟨tx₂, htx₂, hprovider ▸ haddress⟩
      -- the pass that is busy with the provider is the one that waits
      · intro _ w₁ hw₁ hmem
        obtain ⟨i, hi⟩ := List.mem_iff_getElem?.mp hw
        obtain ⟨j, hj⟩ := List.mem_iff_getElem?.mp hw₁
        have hj' : s.passes[j]? = some w₁ := hj
        obtain rfl := h.alone i j _ w₁ hi hj' hbusy hmem
        rw [hi] at hj'
        cases hj'
        refine ⟨todo, address, _, rfl, hparse, ?_⟩
        rintro id ⟨⟩
        show Option.map SlashTx.status (s.txs.set txId _)[txId]? = _
        rw [List.getElem?_set_self hlt]
        rfl
      · intro _ hnone
        exact absurd hbusy (hnone _ hw)
    -- the slashing of another provider
    · refine h.settles rfl (settles_set htx hpending .executed) (fun _ => id) id ⟨?_, ?_⟩
      · intro hmem
        exact hp (UptimeLog.slashed.inj (List.mem_singleton.mp hmem)).symm
      · intro address hmem
        cases List.mem_singleton.mp hmem
  -- the transaction is reverted
  · cases hmine
    exact h.settles rfl (settles_set htx hpending .failed) (fun _ => id) id quiet_nil

theorem hasRow_postHeartbeat {db : Database} (now : Nat) (address address' : String) (h : HasRow db address') :
    HasRow (HealthMonitor.postHeartbeat db now address) address' := by
  obtain ⟨r, hr, rfl⟩ := h
  unfold HealthMonitor.postHeartbeat HasRow upsert
  split
  · exact ⟨r, List.mem_append_left _ hr, rfl⟩
  · refine ⟨_, mem_update.mpr ⟨r, hr, rfl⟩, ?_⟩
    split <;> rfl

/-- A heartbeat writes to the row with the address in lower case. -/
theorem mem_postHeartbeat {db : Database} {now : Nat} {address : String} {r : ProviderRow}
    (h : r ∈ (HealthMonitor.postHeartbeat db now address).providers) :
    r.address = address.toLower ∨ r ∈ db.providers := by
  unfold HealthMonitor.postHeartbeat upsert at h
  split at h
  · rcases List.mem_append.mp h with h | h
    · exact Or.inr h
    · obtain rfl := List.mem_singleton.mp h
      exact Or.inl rfl
  · obtain ⟨r₀, hr₀, rfl⟩ := mem_update.mp h
    split
    · next heq => exact Or.inl (by simpa using heq)
    · exact Or.inr hr₀

/-- A heartbeat keeps the watch over the provider. -/
theorem Watching.posts (h : Watching env p s hist) (now : Nat) (address : String) :
    Watching env p { s with db := HealthMonitor.postHeartbeat s.db now address }
      (hist ++ [⟨s, a, [.heartbeat address.toLower],
        { s with db := HealthMonitor.postHeartbeat s.db now address }⟩]) := by
  have hrows := @hasRow_postHeartbeat s.db now address
  -- a heartbeat of the provider ends the outage; then nothing is asked of the passes
  by_cases hp : env.parseAddress address.toLower = some p
  · have hnot : ∀ e : UptimeEntry, e.logs = [.heartbeat address.toLower] →
        ¬ Since (Slashes p) (Beats env p) (hist ++ [e]) := by
      intro e hlogs hsince
      rcases since_snoc.mp hsince with hslashes | ⟨-, hbeats⟩
      · simp [Slashes, hlogs] at hslashes
      · exact hbeats ⟨.heartbeat address.toLower, hlogs ▸ List.mem_singleton_self _, decide_eq_true hp⟩
    refine ⟨h.alone, h.once, fun w hw address' hmem => hrows address' (h.known w hw address' hmem), h.sent,
      fun hsince => absurd hsince (hnot _ rfl), fun hsince => absurd hsince (hnot _ rfl),
      separated_snoc.mpr ⟨h.separated, fun hslashes => ?_⟩⟩
    cases List.mem_singleton.mp hslashes
  -- a heartbeat of somebody else writes to the row of another address
  · refine h.settles rfl (settles_refl _) hrows ?_ ⟨?_, ?_⟩
    · rintro ⟨r, hr, hparse, hinactive⟩
      obtain ⟨r₁, hr₁, heq⟩ := hrows r.address ⟨r, hr, rfl⟩
      refine ⟨r₁, hr₁, heq ▸ hparse, fun r' hr' hsame => ?_⟩
      rcases mem_postHeartbeat hr' with hlower | hr'
      · exact absurd (by rw [← hlower, hsame, heq, hparse]) hp
      · exact hinactive r' hr' (hsame.trans heq)
    · intro hmem
      cases List.mem_singleton.mp hmem
    · intro address' hmem
      cases List.mem_singleton.mp hmem
      exact hp

theorem KeepsActive.hasRow {db db' : Database} (h : KeepsActive db db') (address : String) (hrow : HasRow db address) :
    HasRow db' address := by
  obtain ⟨r, hr, rfl⟩ := hrow
  exact h.1 r hr

theorem KeepsActive.inactive {db db' : Database} (h : KeepsActive db db') (hinactive : Inactive env p db) :
    Inactive env p db' := by
  obtain ⟨r, hr, hparse, hall⟩ := hinactive
  obtain ⟨r₁, hr₁, heq⟩ := h.1 r hr
  refine ⟨r₁, hr₁, heq ▸ hparse, fun r' hr' hsame => ?_⟩
  rw [h.2 r' hr' r hr (hsame.trans heq)]
  exact hall r hr rfl

/-- A pass starts. -/
theorem Watching.starts (h : Watching env p s hist) :
    Watching env p { s with passes := s.passes ++ [.selecting] }
      (hist ++ [⟨s, a, [], { s with passes := s.passes ++ [.selecting] }⟩]) := by
  have hold : ∀ w ∈ s.passes ++ [.selecting], w ∈ s.passes ∨ w = .selecting := by
    intro w hw
    rcases List.mem_append.mp hw with hw | hw
    · exact Or.inl hw
    · exact Or.inr (List.mem_singleton.mp hw)
  -- the new pass is not busy with anybody yet
  have hbusy : ∀ (j : Nat) (w : CheckPass), (s.passes ++ [.selecting])[j]? = some w → p ∈ w.busy env →
      s.passes[j]? = some w := by
    intro j w hj hmem
    rcases Nat.lt_or_ge j s.passes.length with hlt | hge
    · rwa [List.getElem?_append_left hlt] at hj
    · rw [List.getElem?_append_right hge] at hj
      obtain rfl := List.mem_singleton.mp (List.mem_of_getElem? hj)
      cases hmem
  -- the fields of the invariant, for the old passes and for the new one
  refine ⟨?_, ?_, ?_, ?_, ?_, ?_, separated_quiet quiet_nil h.separated⟩
  · intro i j w w' hi hj hmem hmem'
    exact h.alone i j w w' (hbusy i w hi hmem) (hbusy j w' hj hmem') hmem hmem'
  · intro w hw
    rcases hold w hw with hw | rfl
    · exact h.once w hw
    · exact Nat.zero_le 1
  · intro w hw address haddress
    rcases hold w hw with hw | rfl
    · exact h.known w hw address haddress
    · cases haddress
  · intro todo address txId hw
    rcases hold _ hw with hw | heq
    · exact h.sent todo address txId hw
    · cases heq
  · intro hsince w hw hmem
    rw [since_quiet quiet_nil] at hsince
    rcases hold w hw with hw | rfl
    · exact h.slashed hsince w hw hmem
    · cases hmem
  · intro hsince hnone
    rw [since_quiet quiet_nil] at hsince
    exact h.inactive hsince fun w hw => hnone w (List.mem_append_left _ hw)

/-- A careful step keeps the watch over the provider, whoever moves. -/
theorem watching_step (h : Watching env p s hist) (hcareful : CarefulSlash env s a)
    (hstep : s.step env a = .ok (s', logs)) : Watching env p s' (hist ++ [⟨s, a, logs, s'⟩]) := by
  obtain ⟨now, event⟩ := a
  -- a heartbeat, a pass, a transaction, or somebody else
  cases event with
  | posts address =>
    cases hstep
    exact h.posts now address
  | starts =>
    cases hstep
    exact h.starts
  | runs i =>
    unfold UptimeMonitor.step at hstep
    cases hi : s.passes[i]? with
    | none => simp [hi] at hstep
    | some w =>
      simp only [hi] at hstep
      obtain ⟨s₁, hrun, hdone⟩ := bind_eq_ok.mp hstep
      cases pure_eq_ok.mp hdone
      exact h.runs hi hrun (hcareful w hi)
  | fails i =>
    unfold UptimeMonitor.step at hstep
    cases hi : s.passes[i]? with
    | none => simp [hi] at hstep
    | some w =>
      simp only [hi] at hstep
      cases hstep
      exact h.fails hi (hcareful w hi)
  | sendsUnseen i =>
    simp only [UptimeMonitor.step] at hstep
    split at hstep
    · next row todo hi =>
      cases hstep
      exact h.sends hi false
    · cases hstep
  | mines txId =>
    unfold UptimeMonitor.step at hstep
    cases htx : s.txs[txId]? with
    | none => simp [htx] at hstep
    | some tx =>
      simp only [htx] at hstep
      split at hstep
      · next hpending => exact h.mines htx hpending hcareful (Except.ok.inj hstep)
      · cases hstep
  -- a transaction that never gets mined
  | drops txId =>
    unfold UptimeMonitor.step at hstep
    cases htx : s.txs[txId]? with
    | none => simp [htx] at hstep
    | some tx =>
      simp only [htx] at hstep
      split at hstep
      · next hpending =>
        cases hstep
        exact h.settles rfl (settles_set htx hpending .failed) (fun _ => id) id quiet_nil
      · cases hstep
  | othersAct db pledges chain =>
    obtain ⟨_, hkeeps, hdone⟩ := bind_eq_ok.mp hstep
    cases pure_eq_ok.mp hdone
    rw [require_eq_ok] at hkeeps
    exact h.settles rfl (settles_refl _) hkeeps.hasRow hkeeps.inactive quiet_nil

end Invariant

/-- **Slashed once per outage**: between two slashings of a provider there is a heartbeat of it, in every run without
overlap and without an error after a transaction is mined. -/
theorem slashedOnce_run (env : UptimeEnv) (db : Database) (pledges : List CollateralRow) (chain : Protocol)
    (as : List UptimeAction) (hcareful : Meets (UptimeMonitor.step env) (CarefulSlash env) { db, pledges, chain } as)
    (p : Address) :
    Separated (Slashes p) (Beats env p) (history (UptimeMonitor.step env) { db, pledges, chain } as) := by
  have hwatching : Watching env p (run (UptimeMonitor.step env) { db, pledges, chain } as)
      (history (UptimeMonitor.step env) { db, pledges, chain } as) := by
    refine run_induction (P := Watching env p) ?_ ?_ as hcareful
    · exact ⟨by simp, nofun, nofun, nofun, fun hsince => absurd hsince not_since_nil,
        fun hsince => absurd hsince not_since_nil, separated_nil⟩
    · intro s hist a s' logs h hcareful hstep
      exact watching_step h hcareful hstep
  exact hwatching.separated

/-! ### A provider that is silent -/

namespace SmallUptime

def env : UptimeEnv where
  parseAddress text := if text = "0xpat" then some 2 else none
  sites := SmallProtocol.sites
  worker := 1

/-- Account 2 is a provider, and has tokens. -/
def chain : Protocol :=
  run (Protocol.step SmallProtocol.sites) SmallProtocol.deployed (SmallProtocol.joined (1000 * 10 ^ 18))

def monitor : UptimeMonitor where
  db := { providers := [{ address := "0xpat", lastHeartbeat := some 0 }] }
  pledges := [{ providerAddress := "0xpat", collateral := 100 * 10 ^ 18 }]
  chain := chain

/-- The provider is slashed, is heard of, and is slashed again. -/
def twoOutages : List UptimeAction :=
  [.starts, .runs 0, .runs 0, .mines 0, .runs 0, .runs 0, .runs 0].map (⟨90000000, ·⟩) ++
    [⟨100000000, .posts "0xPat"⟩] ++
      [.starts, .runs 1, .runs 1, .mines 1, .runs 1, .runs 1, .runs 1].map (⟨190000000, ·⟩)

theorem twoOutages_separated :
    (history (UptimeMonitor.step env) monitor twoOutages).countP (Slashes 2) = 2 ∧
      Separated (Slashes 2) (Beats env 2) (history (UptimeMonitor.step env) monitor twoOutages) := by
  refine ⟨by decide +kernel, ?_⟩
  apply slashedOnce_run env monitor.db monitor.pledges monitor.chain twoOutages
  rw [meets_iff_history]
  decide +kernel

/-- The wait for the mined transaction fails, and the next pass selects the provider again. -/
def waitFailed : List UptimeAction :=
  [.starts, .runs 0, .runs 0, .mines 0, .fails 0, .starts, .runs 1, .runs 1].map (⟨90000000, ·⟩)

def secondSlash : UptimeAction := ⟨90300000, .mines 1⟩

theorem secondSlash_goes_through :
    revertOf ((run (UptimeMonitor.step env) monitor waitFailed).step env secondSlash) = none := by decide +kernel

theorem waitFailed_slashed_twice :
    ¬ Separated (Slashes 2) (Beats env 2) (history (UptimeMonitor.step env) monitor (waitFailed ++ [secondSlash])) := by
  rw [history_snoc_ok (eq_resultOf secondSlash_goes_through)]
  intro h
  have hfirst : Since (Slashes 2) (Beats env 2) (history (UptimeMonitor.step env) monitor waitFailed) := by
    decide +kernel
  exact (separated_snoc.mp h).2 (by decide +kernel) hfirst

end SmallUptime

end Kyneto
