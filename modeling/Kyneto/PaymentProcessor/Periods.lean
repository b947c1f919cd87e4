import Kyneto.PaymentProcessor.Basic
import Kyneto.PaymentDistributor.Settlement
import Kyneto.CapacityPledge.Collateral
import Kyneto.Workers

/-!
# One capacity reward a month?

The distributor credits an active pledge whenever its owner asks, and does not look at the pledge's term. That a
pledge is credited once in 30 days rests on the table of the processor, which is written after the transaction and
by another call: a wait or an update that fails, a second run or a call by hand leave a credit that the table does
not know of. `oncePerPeriod_run` says that without these, and with no transaction mined after the term, the promise
is kept.

The invariant is `Punctual`: a credit is in the table unless the run that made it is still at its row, and no credit
of the last 30 days belongs to a row that some run has yet to pay.
-/

namespace Kyneto

open Evm

/-! ## Credits -/

abbrev ProcessorEntry (sites : Sites) := Entry PaymentProcessor (ProcessorAction sites) (Mined sites)

/-- The pledge that a call credits. -/
def NetworkCall.credits : NetworkCall → Option PledgeKey
  | .distributor (.distributeCapacityRewards provider pledgeId) => some (provider, pledgeId)
  | _ => none

def NetworkLog.reward : NetworkLog → Nat
  | .distributor (.CapacityRewardPaid _ amount) => amount
  | _ => 0

/-- The capacity rewards that the logs tell of. -/
def rewardOf (logs : List NetworkLog) : Nat := (logs.map NetworkLog.reward).sum

theorem rewardOf_token (logs : List TokenLog) : rewardOf (logs.map (NetworkLog.base ∘ Log.token)) = 0 := by
  induction logs with
  | nil => rfl
  | cons l logs ih => simpa [rewardOf, NetworkLog.reward] using ih

/-- A credit of a pledge: when, how much, and the rate in force. -/
structure Credit where
  time : Nat
  amount : Nat
  rate : Nat
  deriving DecidableEq, Repr

section Definitions

variable {sites : Sites}

/-- The credit of the pledge in a step, if there is one. -/
def creditOf (key : PledgeKey) (e : ProcessorEntry sites) : Option Credit :=
  match e.logs with
  | [m] =>
    if m.act.call.credits = some key then
      some ⟨m.act.msg.timestamp, rewardOf m.logs, e.pre.network.distributor.capacityRatePerGBMonth⟩
    else none
  | _ => none

def credits (key : PledgeKey) (hist : List (ProcessorEntry sites)) : List Credit :=
  hist.filterMap (creditOf key)

/-- The pledge is credited at most once in any 30 days and not after its end, so that the credits come to no more
than the monthly reward for each month that has begun. -/
structure OncePerPeriod (pledge : Pledge) (cs : List Credit) : Prop where
  apart : cs.Pairwise fun c c' => c.time + DISTRIBUTION_INTERVAL < c'.time
  inTime : ∀ c ∈ cs, c.time ≤ pledge.startTime + pledge.duration
  total : ∀ rate, (∀ c ∈ cs, c.rate ≤ rate) →
    (cs.map Credit.amount).sum ≤ pledge.capacityGB * rate * pledge.multiplier / 100 *
      ((pledge.duration + DISTRIBUTION_INTERVAL - 1) / DISTRIBUTION_INTERVAL)

/-- The rows a run has still to do with. -/
def PaymentRun.keys (r : PaymentRun) : List PledgeKey := (r.current.map Prod.fst).toList ++ r.todo

/-- The row a run is at, and how far it is. -/
def PaymentProcessor.currentOf (s : PaymentProcessor) (i : Nat) : Option (PledgeKey × Phase) :=
  s.runs[i]?.bind PaymentRun.current

/-- Nobody credits a pledge by hand. A run selects no row that another run has still to do with. The transaction for
a pledge that is active is mined before the pledge's end. `tx.wait()` fails only where the transaction reverted, and
the update does not fail. -/
def Careful (s : PaymentProcessor) (a : ProcessorAction sites) : Prop :=
  match a.event with
  | .transaction tx => tx.call.credits = none
  | .runStarts rows => ∀ key ∈ rows, ∀ r ∈ s.runs, key ∉ r.keys
  | .mines i => ∀ p ∈ s.currentOf i, (s.network.pledges.pledges p.1.1 p.1.2).active = true →
    a.now ≤ (s.network.pledges.pledges p.1.1 p.1.2).startTime +
      (s.network.pledges.pledges p.1.1 p.1.2).duration
  | .waitFails i => ∀ p ∈ s.currentOf i, p.2 = .mined false
  | .updateFails _ => False
  | _ => True

instance (s : PaymentProcessor) (a : ProcessorAction sites) : Decidable (Careful s a) :=
  match a with
  | ⟨_, .transaction tx⟩ => inferInstanceAs (Decidable (tx.call.credits = none))
  | ⟨_, .runStarts rows⟩ => inferInstanceAs (Decidable (∀ key ∈ rows, ∀ r ∈ s.runs, key ∉ r.keys))
  | ⟨now, .mines i⟩ => inferInstanceAs (Decidable
      (∀ p ∈ s.currentOf i, (s.network.pledges.pledges p.1.1 p.1.2).active = true →
        now ≤ (s.network.pledges.pledges p.1.1 p.1.2).startTime +
          (s.network.pledges.pledges p.1.1 p.1.2).duration))
  | ⟨_, .waitFails i⟩ => inferInstanceAs (Decidable (∀ p ∈ s.currentOf i, p.2 = .mined false))
  | ⟨_, .updateFails _⟩ => inferInstanceAs (Decidable False)
  | ⟨_, .pledgeListed _⟩ | ⟨_, .sends _⟩ | ⟨_, .sendFails _⟩ | ⟨_, .minesAbandoned _⟩ | ⟨_, .waitReturns _⟩
  | ⟨_, .updates _⟩ => inferInstanceAs (Decidable True)

end Definitions

/-! ## Pledges inside the network -/

section Network

variable {sites : Sites} {n n' : Network} {a : NetworkAction sites} {logs : List NetworkLog} {now : Nat}

/-- The pledges change in calls of their own contract only. -/
theorem step_pledges (h : n.step sites a = .ok (n', logs)) :
    n'.pledges = n.pledges ∨
      ∃ b : PledgeAction sites.pledges, b.msg = a.msg ∧
        PledgeEffect sites.pledges ⟨n.token, n.pledges⟩ b ⟨n'.token, n'.pledges⟩ := by
  cases networkStep_of_ok h with
  | market call done | token call done | registry call done => exact Or.inl rfl
  | @pledge c _ _ _ _ call done =>
    let b : PledgeAction sites.pledges :=
      ⟨a.msg, .pledge c, a.sender_ne_zero, a.sender_ne_pledges, by intro c h; cases h⟩
    exact Or.inr ⟨b, rfl, (@pledgeStep_effect sites.pledges ⟨n.token, n.pledges⟩ _ _ b _ _ _ rfl done).1⟩
  | distributor call done => exact Or.inl (distributorStep_frame done).2.2

theorem network_terms (hterms : PledgeTerms n.pledges a.msg.timestamp)
    (h : n.step sites a = .ok (n', logs)) : PledgeTerms n'.pledges a.msg.timestamp := by
  rcases step_pledges h with hsame | ⟨b, hmsg, he⟩
  · rw [hsame]
    exact hterms
  · rw [← hmsg] at hterms ⊢
    exact pledgeTerms_effect hterms he

theorem network_terms_kept (h : n.step sites a = .ok (n', logs)) {provider : Address} {id : Nat}
    (hid : id < n.pledges.pledgeCount provider) :
    SameTerms (n.pledges.pledges provider id) (n'.pledges.pledges provider id) ∧
      id < n'.pledges.pledgeCount provider := by
  rcases step_pledges h with hsame | ⟨b, -, he⟩
  · rw [hsame]
    exact ⟨SameTerms.refl _, hid⟩
  · exact terms_kept he hid

/-- A credit goes to an active pledge, and its amount is the reward of one month. -/
theorem pays_ok {wallet : Wallet sites} {key : PledgeKey}
    (h : n.step sites (wallet.pays now key) = .ok (n', logs)) :
    (n.pledges.pledges key.1 key.2).active = true ∧ n'.pledges = n.pledges ∧
      rewardOf logs = (n.pledges.pledges key.1 key.2).capacityGB * n.distributor.capacityRatePerGBMonth *
        (n.pledges.pledges key.1 key.2).multiplier / 100 := by
  have hstep : n.distributeCapacityRewards sites ⟨wallet.addr, now⟩ key.1 key.2 = .ok (n', logs) := h
  simp only [Network.distributeCapacityRewards, bind_eq_ok, require_eq_ok, checkedMul_eq_ok, pure_eq_ok,
    Prod.exists, Prod.mk.injEq, exists_const] at hstep
  obtain ⟨_, -, hactive, -, _, ⟨-, rfl⟩, _, ⟨-, rfl⟩, token, minted, -, _, -, _, -, rfl, rfl⟩ := hstep
  refine ⟨hactive, rfl, ?_⟩
  have hminted := rewardOf_token minted
  unfold rewardOf at hminted ⊢
  rw [List.map_append, List.sum_append, hminted]
  simp [NetworkLog.reward]

end Network

/-! ## Times that lie apart -/

/-- Times in an interval that lie more than `gap` apart. -/
theorem length_mul_le_of_apart {gap lo hi : Nat} {ts : List Nat}
    (hapart : ts.Pairwise fun t t' => t + gap < t') (hlo : ∀ t ∈ ts, lo ≤ t) (hhi : ∀ t ∈ ts, t ≤ hi)
    (hle : lo ≤ hi + gap + 1) : ts.length * (gap + 1) + lo ≤ hi + gap + 1 := by
  induction ts generalizing lo with
  | nil => simpa using hle
  | cons t ts ih =>
    have hlow := hlo t List.mem_cons_self
    have hhigh := hhi t List.mem_cons_self
    obtain ⟨hfirst, hrest⟩ := List.pairwise_cons.mp hapart
    have hnext : ts.length * (gap + 1) + (t + gap + 1) ≤ hi + gap + 1 :=
      ih hrest (fun t' ht' => hfirst t' ht') (fun t' ht' => hhi t' (List.mem_cons_of_mem _ ht')) (by omega)
    rw [List.length_cons, Nat.succ_mul]
    omega

/-- There is at most one of them for each `gap` that has begun. -/
theorem length_le_of_apart {gap lo len : Nat} {ts : List Nat} (hgap : 0 < gap) (hlen : 0 < len)
    (hapart : ts.Pairwise fun t t' => t + gap < t') (hlo : ∀ t ∈ ts, lo ≤ t)
    (hhi : ∀ t ∈ ts, t ≤ lo + len) : ts.length ≤ (len + gap - 1) / gap := by
  have hmul := length_mul_le_of_apart hapart hlo hhi (by omega)
  rw [Nat.le_div_iff_mul_le hgap]
  rw [Nat.mul_succ] at hmul
  rcases Nat.lt_or_ge ts.length 2 with hfew | hmany
  · have hone : ts.length * gap ≤ 1 * gap := Nat.mul_le_mul_right _ (by omega)
    omega
  · omega

/-! ## Lists of runs -/

section Lists

variable {α β : Type}

/-- In lists without common elements, whoever has an element has it alone. -/
theorem eq_of_mem_flatMap_nodup {f : α → List β} {l : List α} (h : (l.flatMap f).Nodup) {a a' : α}
    (ha : a ∈ l) (ha' : a' ∈ l) {b : β} (hb : b ∈ f a) (hb' : b ∈ f a') : a = a' := by
  by_contra hne
  have hdisjoint := (List.nodup_flatMap.mp h).2
  have hsymm : Std.Symm (Function.onFun List.Disjoint f) := ⟨fun _ _ hd => hd.symm⟩
  exact hdisjoint.forall ha ha' hne hb hb'

end Lists

/-! ## The invariant -/

/-- The run has credited the pledge, and the table does not say so yet. -/
def PaymentRun.Unrecorded (r : PaymentRun) (key : PledgeKey) : Prop :=
  r.current = some (key, .mined true) ∨ r.current = some (key, .confirmed)

/-- The credit was made for a pledge that exists, within its term, and for the reward of a month. -/
structure Earned (c : CapacityPledge) (key : PledgeKey) (credit : Credit) : Prop where
  created : key.2 < c.pledgeCount key.1
  started : (c.pledges key.1 key.2).startTime ≤ credit.time
  inTime : credit.time ≤ (c.pledges key.1 key.2).startTime + (c.pledges key.1 key.2).duration
  amount : credit.amount =
    (c.pledges key.1 key.2).capacityGB * credit.rate * (c.pledges key.1 key.2).multiplier / 100

/-- Where the processor is, against what has been credited. -/
structure Punctual {sites : Sites} (s : PaymentProcessor) (hist : List (ProcessorEntry sites)) (now : Nat) :
    Prop where
  terms : PledgeTerms s.network.pledges now
  quiet : s.abandoned = []
  separate : (s.runs.flatMap PaymentRun.keys).Nodup
  listed : ∀ r ∈ s.runs, ∀ key ∈ r.keys, ∃ row ∈ s.capacityPledges, row.key = key
  known : ∀ key, credits key hist ≠ [] → ∃ row ∈ s.capacityPledges, row.key = key
  apart : ∀ key, (credits key hist).Pairwise fun c c' => c.time + DISTRIBUTION_INTERVAL < c'.time
  past : ∀ key, ∀ c ∈ credits key hist, c.time ≤ now
  ready : ∀ r ∈ s.runs, ∀ key ∈ r.keys,
    r.Unrecorded key ∨ ∀ c ∈ credits key hist, c.time + DISTRIBUTION_INTERVAL < now
  recorded : ∀ key, (∃ r ∈ s.runs, r.Unrecorded key) ∨
    ∀ row ∈ s.capacityPledges, row.key = key →
      ∀ c ∈ credits key hist, ∃ paid, row.lastPaymentAt = some paid ∧ c.time ≤ paid
  earned : ∀ key, ∀ c ∈ credits key hist, Earned s.network.pledges key c

section Punctual

variable {sites : Sites} {s : PaymentProcessor} {hist hist' : List (ProcessorEntry sites)}
  {e : ProcessorEntry sites} {now : Nat} {i : Nat} {r r' : PaymentRun} {key : PledgeKey}

theorem credits_snoc (key : PledgeKey) (hist : List (ProcessorEntry sites)) (e : ProcessorEntry sites) :
    credits key (hist ++ [e]) = credits key hist ++ (creditOf key e).toList := by
  unfold credits
  rw [List.filterMap_append]
  cases h : creditOf key e <;> simp [h]

theorem credits_snoc_of_none (h : creditOf key e = none) : credits key (hist ++ [e]) = credits key hist := by
  rw [credits_snoc, h, Option.toList_none, List.append_nil]

theorem creditOf_of_quiet (h : e.logs = []) : creditOf key e = none := by
  simp [creditOf, h]

theorem PaymentRun.Unrecorded.mem_keys (h : r.Unrecorded key) : key ∈ r.keys := by
  rcases h with h | h <;> simp [PaymentRun.keys, h]

/-- A step without a credit leaves the history as it was, for all that the invariant says. -/
theorem Punctual.of_credits (h : Punctual s hist now) (hsame : ∀ key, credits key hist' = credits key hist) :
    Punctual s hist' now where
  terms := h.terms
  quiet := h.quiet
  separate := h.separate
  listed := h.listed
  known := by simpa only [hsame] using h.known
  apart := by simpa only [hsame] using h.apart
  past := by simpa only [hsame] using h.past
  ready := by simpa only [hsame] using h.ready
  recorded := by simpa only [hsame] using h.recorded
  earned := by simpa only [hsame] using h.earned

theorem Punctual.wait {later : Nat} (h : Punctual s hist now) (hle : now ≤ later) : Punctual s hist later :=
  { h with
    terms := h.terms.wait hle
    past := fun key c hc => (h.past key c hc).trans hle
    ready := fun r hr key hkey => (h.ready r hr key hkey).imp_right fun hold c hc =>
      Nat.lt_of_lt_of_le (hold c hc) hle }

/-- A run moves on by itself, and does not lose sight of a credit. -/
theorem Punctual.of_setRun (h : Punctual s hist now) (hr : s.runs[i]? = some r)
    (hkeys : r'.keys.Sublist r.keys) (hsight : ∀ key, r.Unrecorded key → r'.Unrecorded key) :
    Punctual (s.setRun i r') hist now := by
  have hmem : r ∈ s.runs := List.mem_of_getElem? hr
  refine ⟨h.terms, h.quiet, ?_, ?_, h.known, h.apart, h.past, ?_, ?_, h.earned⟩
  · exact h.separate.sublist (flatMap_set_sublist hr hkeys)
  · intro q hq key hkey
    rcases List.mem_or_eq_of_mem_set hq with hq | rfl
    · exact h.listed q hq key hkey
    · exact h.listed r hmem key (hkeys.subset hkey)
  · intro q hq key hkey
    rcases List.mem_or_eq_of_mem_set hq with hq | rfl
    · exact h.ready q hq key hkey
    · exact (h.ready r hmem key (hkeys.subset hkey)).imp_left (hsight key)
  · intro key
    refine (h.recorded key).imp_left ?_
    rintro ⟨q, hq, hunrecorded⟩
    by_cases hqr : q = r
    · exact ⟨r', mem_set_of_getElem? hr r', hsight key (hqr ▸ hunrecorded)⟩
    · exact ⟨q, mem_set_of_ne hr hq hqr, hunrecorded⟩

theorem mem_recordPayment {row : PledgeRow} {table : List PledgeRow}
    (h : row ∈ recordPayment now key table) :
    (row.key = key ∧ row.lastPaymentAt = some now) ∨ (row.key ≠ key ∧ row ∈ table) := by
  obtain ⟨old, hold, rfl⟩ := List.mem_map.mp h
  split
  · next hkey => exact Or.inl ⟨hkey, rfl⟩
  · next hkey => exact Or.inr ⟨hkey, hold⟩

theorem listed_recordPayment {k : PledgeKey} {table : List PledgeRow} (h : ∃ row ∈ table, row.key = k) :
    ∃ row ∈ recordPayment now key table, row.key = k := by
  obtain ⟨row, hrow, hk⟩ := h
  refine ⟨_, List.mem_map_of_mem hrow, ?_⟩
  split
  · exact hk
  · exact hk

/-- The update: now the table knows. -/
theorem Punctual.of_update {todo : List PledgeKey} (h : Punctual s hist now)
    (hr : s.runs[i]? = some ⟨todo, some (key, .confirmed)⟩) :
    Punctual { s.setRun i ⟨todo, none⟩ with
      capacityPledges := recordPayment now key s.capacityPledges } hist now := by
  have hmem := List.mem_of_getElem? hr
  have hkeys : (PaymentRun.keys ⟨todo, none⟩).Sublist (PaymentRun.keys ⟨todo, some (key, .confirmed)⟩) :=
    List.sublist_cons_self key todo
  refine ⟨h.terms, h.quiet, ?_, ?_, ?_, h.apart, h.past, ?_, ?_, h.earned⟩
  -- `separate` and `listed`: the run has one row less
  · exact h.separate.sublist (flatMap_set_sublist hr hkeys)
  · intro q hq k hk
    apply listed_recordPayment
    rcases List.mem_or_eq_of_mem_set hq with hq | rfl
    · exact h.listed q hq k hk
    · exact h.listed _ hmem k (hkeys.subset hk)
  · exact fun k hk => listed_recordPayment (h.known k hk)
  -- `ready`: what is left of the run was ready before
  · intro q hq k hk
    rcases List.mem_or_eq_of_mem_set hq with hq | rfl
    · exact h.ready q hq k hk
    · right
      refine (h.ready _ hmem k (hkeys.subset hk)).resolve_left ?_
      -- the other rows of the run are other pledges
      have hnodup : (key :: todo).Nodup := (List.nodup_flatMap.mp h.separate).1 _ hmem
      have hk : k ∈ todo := hk
      rintro (hcurrent | hcurrent)
      · cases hcurrent
      · obtain rfl : key = k := by simpa using hcurrent
        exact (List.nodup_cons.mp hnodup).1 hk
  -- `recorded`: the row of the pledge now has the date, and the other rows are as they were
  · intro k
    by_cases hk : k = key
    · subst hk
      right
      intro row hrow hkey c hc
      rcases mem_recordPayment hrow with ⟨-, hpaid⟩ | ⟨hne, -⟩
      · exact ⟨now, hpaid, h.past k c hc⟩
      · exact absurd hkey hne
    · rcases h.recorded k with ⟨q, hq, hunrecorded⟩ | hrecorded
      · left
        refine ⟨q, mem_set_of_ne hr hq ?_, hunrecorded⟩
        rintro rfl
        rcases hunrecorded with hcurrent | hcurrent
        · cases hcurrent
        · obtain rfl : key = k := by simpa using hcurrent
          exact hk rfl
      · right
        intro row hrow hkey
        rcases mem_recordPayment hrow with ⟨hsame, -⟩ | ⟨-, hold⟩
        · exact absurd (hkey.symm.trans hsame) hk
        · exact hrecorded row hold hkey

theorem mem_dueKeys {table : List PledgeRow} (h : key ∈ dueKeys now table) :
    ∃ row ∈ table, row.key = key ∧
      ∀ paid, row.lastPaymentAt = some paid → paid + DISTRIBUTION_INTERVAL < now := by
  obtain ⟨row, hrow, hkey⟩ := List.mem_map.mp h
  obtain ⟨hmem, hdue⟩ := List.mem_filter.mp hrow
  refine ⟨row, hmem, hkey, ?_⟩
  intro paid hpaid
  simp only [PledgeRow.due, hpaid, Bool.and_eq_true, decide_eq_true_eq] at hdue
  exact hdue.2

/-- A run starts with rows that nobody else has, so all their credits are in the table, and are old. -/
theorem Punctual.of_start {rows : List PledgeKey} (h : Punctual s hist now)
    (hselects : Selects now s.capacityPledges rows) (hfree : ∀ key ∈ rows, ∀ r ∈ s.runs, key ∉ r.keys) :
    Punctual { s with runs := s.runs ++ [{ todo := rows }] } hist now := by
  obtain ⟨hnodup, hdue, -⟩ := hselects
  refine ⟨h.terms, h.quiet, ?_, ?_, h.known, h.apart, h.past, ?_, ?_, h.earned⟩
  -- nobody else has a row of the new run
  · rw [List.flatMap_append, List.nodup_append]
    refine ⟨h.separate, by simpa [PaymentRun.keys] using hnodup, ?_⟩
    rintro k hk _ hnew rfl
    obtain ⟨r, hr, hkr⟩ := List.mem_flatMap.mp hk
    have hnew : k ∈ rows := by simpa [PaymentRun.keys] using hnew
    exact hfree k hnew r hr hkr
  · intro r hr k hk
    rcases List.mem_append.mp hr with hr | hr
    · exact h.listed r hr k hk
    · obtain rfl := List.mem_singleton.mp hr
      obtain ⟨row, hrow, hkey, -⟩ := mem_dueKeys (hdue k hk)
      exact ⟨row, hrow, hkey⟩
  · intro r hr k hk
    rcases List.mem_append.mp hr with hr | hr
    · exact h.ready r hr k hk
    -- what is due was last paid more than an interval ago, and all credits are recorded by then
    · right
      obtain rfl := List.mem_singleton.mp hr
      obtain ⟨row, hrow, hkey, hold⟩ := mem_dueKeys (hdue k hk)
      rcases h.recorded k with ⟨q, hq, hunrecorded⟩ | hrecorded
      · exact absurd hunrecorded.mem_keys (hfree k hk q hq)
      · intro c hc
        obtain ⟨paid, hpaid, hle⟩ := hrecorded row hrow hkey c hc
        have hlt := hold paid hpaid
        omega
  · intro k
    refine (h.recorded k).imp_left ?_
    rintro ⟨r, hr, hunrecorded⟩
    exact ⟨r, List.mem_append_left _ hr, hunrecorded⟩

/-- A pledge gets into the table before it is credited. -/
theorem Punctual.of_listing (h : Punctual s hist now) (hnew : ∀ row ∈ s.capacityPledges, row.key ≠ key) :
    Punctual { s with capacityPledges := s.capacityPledges ++ [{ key := key }] } hist now := by
  have hmono : ∀ k, (∃ row ∈ s.capacityPledges, row.key = k) →
      ∃ row ∈ s.capacityPledges ++ [({ key := key } : PledgeRow)], row.key = k := by
    rintro k ⟨row, hrow, hk⟩
    exact ⟨row, List.mem_append_left _ hrow, hk⟩
  refine ⟨h.terms, h.quiet, h.separate, ?_, ?_, h.apart, h.past, h.ready, ?_, h.earned⟩
  · exact fun r hr k hk => hmono k (h.listed r hr k hk)
  · exact fun k hk => hmono k (h.known k hk)
  · intro k
    refine (h.recorded k).imp_right ?_
    intro hrecorded row hrow hkey c hc
    rcases List.mem_append.mp hrow with hrow | hrow
    · exact hrecorded row hrow hkey c hc
    -- a pledge that is new in the table has not been credited, as only listed ones are
    · obtain rfl := List.mem_singleton.mp hrow
      obtain ⟨old, hold, hk⟩ := h.known k (List.ne_nil_of_mem hc)
      exact absurd (hk.trans hkey.symm) (hnew old hold)

/-- The network changes, and created pledges keep their terms. -/
theorem Punctual.of_network {n' : Network} (h : Punctual s hist now) (hterms : PledgeTerms n'.pledges now)
    (hkept : ∀ provider id, id < s.network.pledges.pledgeCount provider →
      SameTerms (s.network.pledges.pledges provider id) (n'.pledges.pledges provider id) ∧
        id < n'.pledges.pledgeCount provider) :
    Punctual { s with network := n' } hist now := by
  refine { h with terms := hterms, earned := ?_ }
  intro key c hc
  have hearned := h.earned key c hc
  obtain ⟨hsame, hcreated⟩ := hkept key.1 key.2 hearned.created
  refine ⟨hcreated, ?_, ?_, ?_⟩
  · rw [hsame.startTime]
    exact hearned.started
  · rw [hsame.startTime, hsame.duration]
    exact hearned.inTime
  · rw [hsame.capacityGB, hsame.multiplier]
    exact hearned.amount

/-- A run credits its row: the credits before are old enough, and the row is nobody else's. -/
theorem Punctual.of_credit {todo : List PledgeKey} {c : Credit} (h : Punctual s hist now)
    (hr : s.runs[i]? = some ⟨todo, some (key, .sent)⟩) (hnew : creditOf key e = some c)
    (hother : ∀ k, k ≠ key → creditOf k e = none) (htime : c.time = now)
    (hearned : Earned s.network.pledges key c) :
    Punctual (s.setRun i ⟨todo, some (key, .mined true)⟩) (hist ++ [e]) now := by
  have hmem := List.mem_of_getElem? hr
  have hself : credits key (hist ++ [e]) = credits key hist ++ [c] := by
    rw [credits_snoc, hnew]
    rfl
  -- only this pledge is credited, so that the history of the others is the same
  have hrest : ∀ k, k ≠ key → credits k (hist ++ [e]) = credits k hist :=
    fun k hk => credits_snoc_of_none (hother k hk)
  have hunsent : ∀ k, ¬ (PaymentRun.mk todo (some (key, .sent))).Unrecorded k := by
    rintro k (hcurrent | hcurrent) <;> cases hcurrent
  have hin : key ∈ (PaymentRun.mk todo (some (key, .sent))).keys := List.mem_cons_self
  have hseparate : ((s.setRun i ⟨todo, some (key, .mined true)⟩).runs.flatMap PaymentRun.keys).Nodup :=
    h.separate.sublist (flatMap_set_sublist hr (List.Sublist.refl _))
  have hrun : (⟨todo, some (key, .mined true)⟩ : PaymentRun) ∈
      s.runs.set i ⟨todo, some (key, .mined true)⟩ := mem_set_of_getElem? hr _
  refine ⟨h.terms, h.quiet, hseparate, ?_, ?_, ?_, ?_, ?_, ?_, ?_⟩
  · intro q hq k hk
    rcases List.mem_or_eq_of_mem_set hq with hq | rfl
    · exact h.listed q hq k hk
    · exact h.listed _ hmem k hk
  · intro k hk
    by_cases hkey : k = key
    · subst hkey
      exact h.listed _ hmem k hin
    · rw [hrest k hkey] at hk
      exact h.known k hk
  -- `apart`: the row was due when the run started, so the credits before are old enough
  · intro k
    by_cases hkey : k = key
    · subst hkey
      rw [hself, List.pairwise_append]
      refine ⟨h.apart k, List.pairwise_singleton _ _, ?_⟩
      intro c₀ hc₀ c₁ hc₁
      obtain rfl := List.mem_singleton.mp hc₁
      rw [htime]
      exact (h.ready _ hmem k hin).resolve_left (hunsent k) c₀ hc₀
    · rw [hrest k hkey]
      exact h.apart k
  -- `past` and `recorded` hold of the new credit because it is made now
  · intro k c₀ hc₀
    by_cases hkey : k = key
    · subst hkey
      rw [hself] at hc₀
      rcases List.mem_append.mp hc₀ with hc₀ | hc₀
      · exact h.past k c₀ hc₀
      · rw [List.mem_singleton.mp hc₀, htime]
    · rw [hrest k hkey] at hc₀
      exact h.past k c₀ hc₀
  · intro q hq k hk
    by_cases hkey : k = key
    · subst hkey
      -- only the run that made the credit has the row
      obtain rfl := eq_of_mem_flatMap_nodup hseparate hq hrun hk List.mem_cons_self
      exact Or.inl (Or.inl rfl)
    · rw [hrest k hkey]
      rcases List.mem_or_eq_of_mem_set hq with hq | rfl
      · exact h.ready q hq k hk
      · exact Or.inr ((h.ready _ hmem k hk).resolve_left (hunsent k))
  -- the run owes the date of this credit; the other pledges are recorded as they were
  · intro k
    by_cases hkey : k = key
    · subst hkey
      exact Or.inl ⟨_, hrun, Or.inl rfl⟩
    · rw [hrest k hkey]
      refine (h.recorded k).imp_left ?_
      rintro ⟨q, hq, hunrecorded⟩
      refine ⟨q, mem_set_of_ne hr hq ?_, hunrecorded⟩
      rintro rfl
      exact hunsent k hunrecorded
  · intro k c₀ hc₀
    by_cases hkey : k = key
    · subst hkey
      rw [hself] at hc₀
      rcases List.mem_append.mp hc₀ with hc₀ | hc₀
      · exact h.earned k c₀ hc₀
      · rw [List.mem_singleton.mp hc₀]
        exact hearned
    · rw [hrest k hkey] at hc₀
      exact h.earned k c₀ hc₀

end Punctual

/-! ## Steps and runs -/

section Steps

variable {sites : Sites} {wallet : Wallet sites} {s s' : PaymentProcessor} {hist : List (ProcessorEntry sites)}
  {now : Nat} {logs : List (Mined sites)}

theorem disabled_ne_ok {α : Type} {x : α} : (PaymentProcessor.disabled : Tx α) ≠ .ok x := by
  intro h
  cases h

theorem Punctual.of_quiet {a : ProcessorAction sites} (h : Punctual s' hist now) :
    Punctual s' (hist ++ [⟨s, a, [], s'⟩]) now :=
  h.of_credits fun _ => credits_snoc_of_none (creditOf_of_quiet rfl)

/-- The transaction of a run is mined. -/
theorem punctual_mines {a : ProcessorAction sites} {i : Nat} {todo : List PledgeKey} {key : PledgeKey} {ok : Bool}
    {s₁ : PaymentProcessor} (h : Punctual s hist now) (hr : s.runs[i]? = some ⟨todo, some (key, .sent)⟩)
    (hterm : (s.network.pledges.pledges key.1 key.2).active = true →
      now ≤ (s.network.pledges.pledges key.1 key.2).startTime +
        (s.network.pledges.pledges key.1 key.2).duration)
    (hmine : s.mine wallet now key = (ok, s₁, logs)) :
    Punctual (s₁.setRun i ⟨todo, some (key, .mined ok)⟩)
      (hist ++ [⟨s, a, logs, s₁.setRun i ⟨todo, some (key, .mined ok)⟩⟩]) now := by
  unfold PaymentProcessor.mine at hmine
  split at hmine
  · next n' l hpaid =>
    obtain ⟨rfl, hrest⟩ := Prod.mk.inj hmine
    obtain ⟨rfl, rfl⟩ := Prod.mk.inj hrest
    -- the contract pays active pledges only, which have been created and have started
    obtain ⟨hactive, hpledges, hreward⟩ := pays_ok hpaid
    have hcreated := h.terms.lt_of_active hactive
    have hcall : (wallet.pays now key).call.credits = some key := rfl
    have hmined : Punctual (s.setRun i ⟨todo, some (key, .mined true)⟩)
        (hist ++ [⟨s, a, [⟨wallet.pays now key, l⟩], { s.setRun i ⟨todo, some (key, .mined true)⟩ with
          network := n' }⟩]) now := by
      refine h.of_credit hr (c := ⟨now, rewardOf l, s.network.distributor.capacityRatePerGBMonth⟩) ?_ ?_ rfl ?_
      · simp only [creditOf, hcall, if_true]
        rfl
      · intro k hk
        simp only [creditOf, hcall, Option.some.injEq, hk.symm, if_false]
      · exact ⟨hcreated, h.terms.started _ _, hterm hactive, hreward⟩
    -- the payment changes the tokens, not the pledges
    refine hmined.of_network ?_ ?_
    · rw [hpledges]
      exact h.terms
    · intro provider id hid
      rw [hpledges]
      exact ⟨SameTerms.refl _, hid⟩
  -- the transaction reverts: the run goes on to `wait`, and nothing is credited
  · obtain ⟨rfl, hrest⟩ := Prod.mk.inj hmine
    obtain ⟨rfl, rfl⟩ := Prod.mk.inj hrest
    apply Punctual.of_quiet
    refine h.of_setRun hr (List.Sublist.refl (key :: todo)) ?_
    rintro k (hcurrent | hcurrent) <;> cases hcurrent

/-- A careful step keeps the invariant: what has been credited lies behind the date that the next credit looks
at. -/
theorem punctual_step {a : ProcessorAction sites} (h : Punctual s hist a.now) (hcareful : Careful s a)
    (hstep : s.step wallet a = .ok (s', logs)) : Punctual s' (hist ++ [⟨s, a, logs, s'⟩]) a.now := by
  obtain ⟨now, event⟩ := a
  cases event with
  | transaction tx =>
    simp only [PaymentProcessor.step, bind_eq_ok, require_eq_ok, pure_eq_ok, Prod.exists, Prod.mk.injEq,
      exists_const] at hstep
    obtain ⟨htime, n', l, hnetwork, rfl, rfl⟩ := hstep
    -- a careful step leaves crediting to the processor
    have hno : tx.call.credits = none := hcareful
    have hmoved : Punctual { s with network := n' } hist now := by
      apply h.of_network
      · rw [← htime]
        exact network_terms (by rw [htime]; exact h.terms) hnetwork
      · exact fun provider id hid => network_terms_kept hnetwork hid
    apply hmoved.of_credits
    intro key
    apply credits_snoc_of_none
    simp [creditOf, hno]
  | pledgeListed key =>
    simp only [PaymentProcessor.step, bind_eq_ok, require_eq_ok, pure_eq_ok, Prod.mk.injEq, exists_const]
      at hstep
    obtain ⟨hnew, rfl, rfl⟩ := hstep
    exact (h.of_listing hnew).of_quiet
  | runStarts rows =>
    simp only [PaymentProcessor.step, bind_eq_ok, require_eq_ok, pure_eq_ok, Prod.mk.injEq, exists_const]
      at hstep
    obtain ⟨hselects, rfl, rfl⟩ := hstep
    exact (h.of_start hselects hcareful).of_quiet
  | sends i =>
    simp only [PaymentProcessor.step] at hstep
    split at hstep
    · next key todo hr =>
      obtain ⟨rfl, rfl⟩ := Prod.mk.inj (Except.ok.inj hstep)
      apply Punctual.of_quiet
      refine h.of_setRun hr (List.Sublist.refl (key :: todo)) ?_
      rintro k (hcurrent | hcurrent) <;> cases hcurrent
    · exact absurd hstep disabled_ne_ok
  | sendFails i =>
    simp only [PaymentProcessor.step] at hstep
    split at hstep
    · next key todo hr =>
      obtain ⟨rfl, rfl⟩ := Prod.mk.inj (Except.ok.inj hstep)
      -- if sending fails, the row is left for the next run
      apply Punctual.of_quiet
      refine h.of_setRun hr (List.sublist_cons_self key todo) ?_
      rintro k (hcurrent | hcurrent) <;> cases hcurrent
    · exact absurd hstep disabled_ne_ok
  | mines i =>
    simp only [PaymentProcessor.step] at hstep
    split at hstep
    · next todo key hr =>
      cases hmine : s.mine wallet now key with
      | mk ok rest =>
        obtain ⟨s₁, l⟩ := rest
        rw [hmine] at hstep
        obtain ⟨rfl, rfl⟩ := Prod.mk.inj (Except.ok.inj hstep)
        -- the pledge has not ended when its credit is mined
        have hcurrent : (key, Phase.sent) ∈ s.currentOf i := by simp [PaymentProcessor.currentOf, hr]
        exact punctual_mines h hr (hcareful _ hcurrent) hmine
    · exact absurd hstep disabled_ne_ok
  | minesAbandoned i =>
    -- a careful run abandons no transaction
    simp only [PaymentProcessor.step, h.quiet] at hstep
    exact absurd hstep disabled_ne_ok
  | waitReturns i =>
    simp only [PaymentProcessor.step] at hstep
    split at hstep
    · next todo key hr =>
      obtain ⟨rfl, rfl⟩ := Prod.mk.inj (Except.ok.inj hstep)
      apply Punctual.of_quiet
      refine h.of_setRun hr (List.Sublist.refl (key :: todo)) ?_
      -- from now on the run owes the date in the table
      rintro k (hcurrent | hcurrent)
      · obtain rfl : key = k := by simpa using hcurrent
        exact Or.inr rfl
      · cases hcurrent
    · exact absurd hstep disabled_ne_ok
  | waitFails i =>
    simp only [PaymentProcessor.step] at hstep
    split at hstep
    -- a careful wait fails only for a transaction that has been reverted
    · next todo key hr =>
      have hphase : Phase.sent = .mined false :=
        hcareful (key, .sent) (by simp [PaymentProcessor.currentOf, hr])
      cases hphase
    · next todo key ok hr =>
      obtain ⟨rfl, rfl⟩ := Prod.mk.inj (Except.ok.inj hstep)
      have hphase : Phase.mined ok = .mined false :=
        hcareful (key, .mined ok) (by simp [PaymentProcessor.currentOf, hr])
      cases hphase
      apply Punctual.of_quiet
      refine h.of_setRun hr (List.sublist_cons_self key todo) ?_
      rintro k (hcurrent | hcurrent) <;> cases hcurrent
    · exact absurd hstep disabled_ne_ok
  | updates i =>
    simp only [PaymentProcessor.step] at hstep
    split at hstep
    · next todo key hr =>
      obtain ⟨rfl, rfl⟩ := Prod.mk.inj (Except.ok.inj hstep)
      exact (h.of_update hr).of_quiet
    · exact absurd hstep disabled_ne_ok
  | updateFails i => exact hcareful.elim

/-- An invariant of this kind excludes two credits within one period. -/
theorem Punctual.oncePerPeriod (h : Punctual s hist now) (key : PledgeKey) :
    OncePerPeriod (s.network.pledges.pledges key.1 key.2) (credits key hist) := by
  refine ⟨h.apart key, fun c hc => (h.earned key c hc).inTime, ?_⟩
  intro rate hrate
  cases hcs : credits key hist with
  -- without a credit there is nothing to show
  | nil => exact Nat.zero_le _
  | cons first rest =>
    have hfirst : first ∈ credits key hist := by simp [hcs]
    have hlong := h.terms.long key.1 key.2 (h.earned key first hfirst).created
    rw [← hcs]
    -- dates an interval apart, all within the duration: there are only so many
    have hcount : ((credits key hist).map Credit.time).length ≤
        ((s.network.pledges.pledges key.1 key.2).duration + DISTRIBUTION_INTERVAL - 1) /
          DISTRIBUTION_INTERVAL := by
      apply length_le_of_apart (by decide) hlong (List.pairwise_map.mpr (h.apart key))
      · intro t ht
        obtain ⟨c, hc, rfl⟩ := List.mem_map.mp ht
        exact (h.earned key c hc).started
      · intro t ht
        obtain ⟨c, hc, rfl⟩ := List.mem_map.mp ht
        exact (h.earned key c hc).inTime
    -- each of them pays at most what the highest rate gives
    have heach : ∀ amount ∈ (credits key hist).map Credit.amount,
        amount ≤ (s.network.pledges.pledges key.1 key.2).capacityGB * rate *
          (s.network.pledges.pledges key.1 key.2).multiplier / 100 := by
      intro amount ha
      obtain ⟨c, hc, rfl⟩ := List.mem_map.mp ha
      rw [(h.earned key c hc).amount]
      exact Nat.div_le_div_right (Nat.mul_le_mul_right _ (Nat.mul_le_mul_left _ (hrate c hc)))
    calc ((credits key hist).map Credit.amount).sum
        ≤ ((credits key hist).map Credit.amount).length • _ := List.sum_le_card_nsmul _ _ heach
      _ ≤ _ := by
        rw [smul_eq_mul, Nat.mul_comm]
        rw [List.length_map] at hcount ⊢
        exact Nat.mul_le_mul_left _ hcount

/-- At the beginning nothing has been credited. -/
theorem punctual_deployV2 {n₀ : Network} {msg : Msg} {slashing : Address}
    (h : Network.deployV2 sites msg slashing = .ok n₀) :
    Punctual { network := n₀ } ([] : List (ProcessorEntry sites)) 0 := by
  have hpledges : n₀.pledges = .deploy msg := by
    simp only [Network.deployV2, bind_eq_ok, pure_eq_ok, Prod.exists] at h
    obtain ⟨_, _, -, _, _, -, _, _, -, _, _, -, _, _, -, rfl⟩ := h
    rfl
  have hterms : PledgeTerms n₀.pledges 0 := by
    rw [hpledges]
    exact pledgeTerms_deploy msg
  refine ⟨hterms, rfl, List.nodup_nil, ?_, ?_, ?_, ?_, ?_, ?_, ?_⟩
  all_goals simp [credits]

/-- **Once a period, with care.** In every run whose steps are careful, every pledge is credited at most once in 30
days and within its term, and for no more than its months. -/
theorem oncePerPeriod_run {n₀ : Network} {msg : Msg} {slashing : Address}
    (h : Network.deployV2 sites msg slashing = .ok n₀) (wallet : Wallet sites) (as : List (ProcessorAction sites))
    (hmono : as.Pairwise fun a b => a.now ≤ b.now)
    (hcareful : Meets (PaymentProcessor.step wallet) Careful { network := n₀ } as) (key : PledgeKey) :
    OncePerPeriod
      ((run (PaymentProcessor.step wallet) { network := n₀ } as).network.pledges.pledges key.1 key.2)
      (credits key (history (PaymentProcessor.step wallet) { network := n₀ } as)) := by
  have hrun : Punctual (run (PaymentProcessor.step wallet) { network := n₀ } as)
      (history (PaymentProcessor.step wallet) { network := n₀ } as)
      (lastTime (fun a => a.now) as) :=
    timed_induction (P := Punctual) (punctual_deployV2 h) (fun _ _ _ _ hle hp => hp.wait hle)
      (fun _ _ _ _ _ hp hc hstep => punctual_step hp hc hstep) as hmono hcareful
  exact hrun.oncePerPeriod key

end Steps

/-! ### In the small network -/

namespace SmallNetwork

def onChain (i : Fin 99) (call : NetworkCall) : ProcessorAction sites := ⟨0, .transaction (account i 0 call)⟩

/-- The provider at 10 registers and pledges 10 GB for 90 days, and the listener writes the row. -/
def pledged : List (ProcessorAction sites) :=
  [onChain 0 (.base (.token (.transfer 10 (10 * 10 ^ 18)))),
    onChain 9 (.base (.registry (.registerProvider "peer" "ep" "na" 5000))),
    onChain 9 (.base (.token (.approve 101 (10 * 10 ^ 18)))),
    onChain 9 (.pledge (.createPledge 10 (90 * 86400) (10 * 10 ^ 18))),
    ⟨0, .pledgeListed (10, 0)⟩]

/-- The events of the `i`-th run, on a day, up to the return of `tx.wait()`. -/
def paidOn (i day : Nat) : List (ProcessorAction sites) :=
  [⟨day * DAY, .runStarts [(10, 0)]⟩, ⟨day * DAY, .sends i⟩, ⟨day * DAY, .mines i⟩, ⟨day * DAY, .waitReturns i⟩]

/-- Two runs, 39 days apart, in which everything goes well. -/
def monthly : List (ProcessorAction sites) :=
  pledged ++ paidOn 0 1 ++ [⟨DAY, .updates 0⟩] ++ paidOn 1 40 ++ [⟨40 * DAY, .updates 1⟩]

/-- The update of the first run fails, and the run of the next day selects the row again. -/
def updateLost : List (ProcessorAction sites) :=
  pledged ++ paidOn 0 1 ++ [⟨DAY, .updateFails 0⟩] ++ paidOn 1 2 ++ [⟨2 * DAY, .updates 1⟩]

theorem monthly_oncePerPeriod :
    (credits (10, 0) (history (PaymentProcessor.step wallet) { network := deployed } monthly)).length = 2 ∧
      OncePerPeriod
        ((run (PaymentProcessor.step wallet) { network := deployed } monthly).network.pledges.pledges 10 0)
        (credits (10, 0) (history (PaymentProcessor.step wallet) { network := deployed } monthly)) :=
  ⟨by decide +kernel, oncePerPeriod_run deployV2_eq wallet monthly (by decide +kernel)
    ((meets_iff_history _ _).mpr (by decide +kernel)) (10, 0)⟩

/-- Two credits a day apart. -/
theorem updateLost_paid_twice :
    (credits (10, 0) (history (PaymentProcessor.step wallet) { network := deployed } updateLost)).map
        Credit.time = [DAY, 2 * DAY] ∧
      ¬ OncePerPeriod
        ((run (PaymentProcessor.step wallet) { network := deployed } updateLost).network.pledges.pledges 10 0)
        (credits (10, 0) (history (PaymentProcessor.step wallet) { network := deployed } updateLost)) := by
  refine ⟨by decide +kernel, ?_⟩
  intro h
  have hapart := h.apart
  revert hapart
  decide +kernel

end SmallNetwork

end Kyneto
