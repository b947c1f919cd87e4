import Kyneto.SlashingManager.Effect

/-!
# Appeals against slashings

A provider's docket is what the manager keeps about it: the records of its slashings, their deadlines and the total.
Records are only added and their two flags only raised, so a record is refunded once, after an appeal in time, with
its own amount (`appeals_run`), and what appeals mint stays below what was slashed.

Whether a granted appeal goes through is another matter. The deployment script lets the manager burn and report, but
not mint, so until somebody else authorises it the owner cannot grant any appeal (`granted_iff`).
-/

namespace Kyneto

open Evm

/-! ## Dockets -/

/-- What the manager keeps about one provider. -/
structure Docket where
  records : List SlashingRecord := []
  deadlines : Nat → Nat := fun _ => 0
  total : Nat := 0

def SlashingManager.docket (m : SlashingManager) (p : Address) : Docket where
  records := m.slashingHistory p
  deadlines := m.appealDeadlines p
  total := (m.penaltyStates p).totalSlashed

abbrev ProtocolEntry (sites : ProtocolSites) := Entry Protocol (ProtocolAction sites) ProtocolLog

section Definitions

variable {sites : ProtocolSites}

/-- The call refunds record `i` of `p`. -/
def ProtocolCall.refunds (p : Address) (i : Nat) : ProtocolCall → Bool
  | .slashing (.resolveAppeal provider slashingIndex upheld) =>
    provider = p && slashingIndex = i && !upheld
  | _ => false

/-- The tokens minted for `p` by a call that resolves an appeal. -/
def appealMint (p : Address) (e : ProtocolEntry sites) : Nat :=
  if e.act.call.resolves then mintedFor p e.logs else 0

/-- The call is an appeal of `p` against record `i`, not later than the record's deadline. -/
structure AppealsInTime (p : Address) (i : Nat) (r : SlashingRecord) (e : ProtocolEntry sites) : Prop where
  call : ∃ evidence, e.act.call = .slashing (.submitAppeal i evidence)
  sender : e.act.msg.sender = p
  inTime : e.act.time ≤ r.timestamp + APPEAL_WINDOW

/-- A refund as it should be: by the owner, of the record's amount, and after an appeal in time. -/
structure RightRefund (p : Address) (i : Nat) (r : SlashingRecord) (before : List (ProtocolEntry sites))
    (e : ProtocolEntry sites) : Prop where
  owner : e.act.msg.sender = e.pre.slashing.owner
  minted : mintedFor p e.logs = r.amount
  balance : e.post.token.balanceOf p = e.pre.token.balanceOf p + r.amount
  appeal : ∃ e' ∈ before, AppealsInTime p i r e'

/-- The docket and the calls that led to it agree. -/
structure RightDocket (p : Address) (d : Docket) (hist : List (ProtocolEntry sites)) : Prop where
  total : d.total = (d.records.map SlashingRecord.amount).sum
  deadline : ∀ i r, d.records[i]? = some r → d.deadlines i = r.timestamp + APPEAL_WINDOW
  once : ∀ i, (hist.countP fun e => e.act.call.refunds p i) ≤ 1
  refund : ∀ k e i, hist[k]? = some e → e.act.call.refunds p i = true →
    ∃ r, d.records[i]? = some r ∧ RightRefund p i r (hist.take k) e
  minted : (hist.map (appealMint p)).sum ≤ d.total

end Definitions

/-- What a successful call does to a provider's docket. -/
inductive DocketEffect {sites : ProtocolSites} (p : Address) (n : Protocol) (a : ProtocolAction sites)
    (logs : List ProtocolLog) (n' : Protocol) : Prop
  | same (other : ∀ i, a.call.refunds p i = false) (quiet : a.call.resolves = true → mintedFor p logs = 0)
      (docket : n'.slashing.docket p = n.slashing.docket p)
  | slashed {amount : Nat} {reason : String} (other : a.call.resolves = false)
      (docket : n'.slashing.docket p =
        { records := n.slashing.slashingHistory p ++ [{ timestamp := a.time, amount, reason }]
          deadlines := Function.update (n.slashing.appealDeadlines p) (n.slashing.slashingHistory p).length
            (a.time + APPEAL_WINDOW)
          total := (n.slashing.penaltyStates p).totalSlashed + amount })
  | appealed {i : Nat} {evidence : String} {r : SlashingRecord}
      (call : a.call = .slashing (.submitAppeal i evidence)) (sender : a.msg.sender = p)
      (record : (n.slashing.slashingHistory p)[i]? = some r) (unresolved : r.resolved = false)
      (inTime : a.time ≤ n.slashing.appealDeadlines p i)
      (docket : n'.slashing.docket p =
        { n.slashing.docket p with
          records := (n.slashing.slashingHistory p).set i { r with appealed := true } })
  | resolved {i : Nat} {upheld : Bool} {r : SlashingRecord}
      (call : a.call = .slashing (.resolveAppeal p i upheld)) (owner : a.msg.sender = n.slashing.owner)
      (record : (n.slashing.slashingHistory p)[i]? = some r) (appealed : r.appealed = true)
      (unresolved : r.resolved = false)
      (minted : mintedFor p logs = if upheld = false then r.amount else 0)
      (balance : upheld = false → n'.token.balanceOf p = n.token.balanceOf p + r.amount)
      (docket : n'.slashing.docket p =
        { n.slashing.docket p with
          records := (n.slashing.slashingHistory p).set i { r with resolved := true } })

section Steps

variable {sites : ProtocolSites} {n n' : Protocol} {a : ProtocolAction sites} {logs : List ProtocolLog}
  {p : Address} {i : Nat}

theorem refunds_of_not_resolves {c : ProtocolCall} (h : c.resolves = false) : c.refunds p i = false := by
  unfold ProtocolCall.refunds
  split
  · cases h
  · rfl

theorem recordAt_eq {m : SlashingManager} (h : i < (m.slashingHistory p).length) :
    (m.slashingHistory p)[i]? = some (m.recordAt p i) := by
  simp [SlashingManager.recordAt, h]

/-- What a call does to the record of a provider: slash, appeal, refund, or nothing. -/
theorem docket_effect (h : n.step sites a = .ok (n', logs)) (p : Address) : DocketEffect p n a logs n' := by
  cases slashing_effect h with
  | idle other penaltyStates slashingHistory appealDeadlines =>
    refine .same (fun i => refunds_of_not_resolves other) ?_ ?_
    · intro hresolves
      rw [other] at hresolves
      cases hresolves
    · simp [SlashingManager.docket, penaltyStates, slashingHistory, appealDeadlines]
  | @slashed m provider amount reason other ne_zero slashing totals slashingHistory appealDeadlines =>
    by_cases hp : p = provider
    · subst hp
      refine @DocketEffect.slashed sites p n a logs n' amount reason other ?_
      simp [slashing, SlashingManager.docket, SlashingManager.entered, ProviderPenaltyState.penalized, totals,
        slashingHistory, appealDeadlines]
    · refine .same (fun i => refunds_of_not_resolves other) ?_ ?_
      · intro hresolves
        rw [other] at hresolves
        cases hresolves
      · simp [slashing, SlashingManager.docket, SlashingManager.entered, totals, slashingHistory,
          appealDeadlines, hp]
  | @appealed i evidence call lt unresolved inTime slashing =>
    by_cases hp : a.msg.sender = p
    · subst hp
      refine .appealed call rfl (recordAt_eq lt) unresolved inTime ?_
      simp [slashing, SlashingManager.docket, SlashingManager.setHistory]
    · refine .same (fun i => by rw [call]; rfl) ?_ ?_
      · intro hresolves
        rw [call] at hresolves
        cases hresolves
      · simp [slashing, SlashingManager.docket, SlashingManager.setHistory, Function.update_of_ne (Ne.symm hp)]
  | @resolved provider i upheld call owner resolvable slashing minted balance =>
    by_cases hp : p = provider
    · subst hp
      refine .resolved call owner (recordAt_eq resolvable.lt) resolvable.appealed resolvable.unresolved ?_ balance
        ?_
      · rw [minted]
        simp
      · simp [slashing, SlashingManager.docket, Protocol.resolvedAt, SlashingManager.setHistory]
    · refine .same ?_ ?_ ?_
      · intro j
        simp [call, ProtocolCall.refunds, Ne.symm hp]
      · intro _
        rw [minted, if_neg (fun h => hp h.1)]
      · simp [slashing, SlashingManager.docket, Protocol.resolvedAt, SlashingManager.setHistory, hp]

end Steps

/-! ## Dockets along a run -/

/-- The part of a record that a refund may take. -/
def SlashingRecord.refundable (r : SlashingRecord) : Nat := if r.resolved then r.amount else 0

/-- What is true of a docket in every run: `RightDocket`, with what its induction needs. A record that is appealed
was appealed in time, and one that is not resolved has not been refunded. -/
structure Tracked {sites : ProtocolSites} (p : Address) (d : Docket) (hist : List (ProtocolEntry sites)) : Prop where
  total : d.total = (d.records.map SlashingRecord.amount).sum
  deadline : ∀ i r, d.records[i]? = some r → d.deadlines i = r.timestamp + APPEAL_WINDOW
  appealed : ∀ i r, d.records[i]? = some r → r.appealed = true → ∃ e ∈ hist, AppealsInTime p i r e
  once : ∀ i, (hist.countP fun e => e.act.call.refunds p i) ≤ 1
  unrefunded : ∀ i, (∀ r, d.records[i]? = some r → r.resolved = false) →
    (hist.countP fun e => e.act.call.refunds p i) = 0
  refund : ∀ k e i, hist[k]? = some e → e.act.call.refunds p i = true →
    ∃ r, d.records[i]? = some r ∧ RightRefund p i r (hist.take k) e
  minted : (hist.map (appealMint p)).sum ≤ (d.records.map SlashingRecord.refundable).sum

/-- Records stay where they are, and keep their time and amount. -/
def KeepsRecords (d d' : Docket) : Prop :=
  ∀ (i : Nat) (r : SlashingRecord), d.records[i]? = some r →
    ∃ r' : SlashingRecord, d'.records[i]? = some r' ∧ r'.timestamp = r.timestamp ∧ r'.amount = r.amount

/-- Marking a record keeps its date and its amount. -/
theorem keepsRecords_set {d d' : Docket} {i : Nat} {r : SlashingRecord} (r' : SlashingRecord)
    (hset : d'.records = d.records.set i r') (hrecord : d.records[i]? = some r)
    (htime : r'.timestamp = r.timestamp) (hamount : r'.amount = r.amount) : KeepsRecords d d' := by
  intro j q hq
  rw [hset, List.getElem?_set]
  by_cases hij : i = j
  · subst hij
    obtain rfl := Option.some.inj (hrecord.symm.trans hq)
    have hlt := (List.getElem?_eq_some_iff.mp hrecord).1
    exact ⟨r', by simp [hlt], htime, hamount⟩
  · exact ⟨q, by simp [hij, hq], rfl, rfl⟩

/-- One element changed, the sum changes by the difference. -/
theorem sum_map_set {α : Type} {f : α → Nat} {l : List α} {i : Nat} {x y : α} (h : l[i]? = some x) :
    ((l.set i y).map f).sum + f x = (l.map f).sum + f y := by
  induction l generalizing i with
  | nil => simp at h
  | cons z l ih =>
    cases i with
    | zero =>
      obtain rfl := Option.some.inj h
      simp only [List.set_cons_zero, List.map_cons, List.sum_cons]
      omega
    | succ i =>
      have hrest := ih (i := i) h
      simp only [List.set_cons_succ, List.map_cons, List.sum_cons]
      omega

section Runs

variable {sites : ProtocolSites} {n n' : Protocol} {a : ProtocolAction sites} {logs : List ProtocolLog}
  {p : Address} {i : Nat} {d d' : Docket} {hist : List (ProtocolEntry sites)} {e : ProtocolEntry sites}

theorem AppealsInTime.congr {r r' : SlashingRecord} (htime : r'.timestamp = r.timestamp)
    (h : AppealsInTime p i r e) : AppealsInTime p i r' e :=
  ⟨h.call, h.sender, htime ▸ h.inTime⟩

/-- The refunds of a run with one more call: the earlier ones stay right, and the last one has to be. -/
theorem refund_snoc (hkeeps : KeepsRecords d d')
    (hold : ∀ k e i, hist[k]? = some e → e.act.call.refunds p i = true →
      ∃ r, d.records[i]? = some r ∧ RightRefund p i r (hist.take k) e)
    (hlast : ∀ i, e.act.call.refunds p i = true → ∃ r, d'.records[i]? = some r ∧ RightRefund p i r hist e) :
    ∀ k e' i, (hist ++ [e])[k]? = some e' → e'.act.call.refunds p i = true →
      ∃ r, d'.records[i]? = some r ∧ RightRefund p i r ((hist ++ [e]).take k) e' := by
  intro k e' i hk hrefunds
  rcases Nat.lt_trichotomy k hist.length with hlt | heq | hgt
  · rw [List.getElem?_append_left hlt] at hk
    rw [List.take_append_of_le_length hlt.le]
    obtain ⟨r, hr, hright⟩ := hold k e' i hk hrefunds
    obtain ⟨r', hr', htime, hamount⟩ := hkeeps i r hr
    obtain ⟨e'', hmem, happeal⟩ := hright.appeal
    exact ⟨r', hr', hright.owner, hamount ▸ hright.minted, hamount ▸ hright.balance, e'', hmem,
      happeal.congr htime⟩
  · subst heq
    simp only [List.getElem?_concat_length, Option.some.injEq] at hk
    subst hk
    rw [List.take_append_of_le_length (Nat.le_refl _), List.take_length]
    exact hlast i hrefunds
  · rw [List.getElem?_eq_none (by simp; omega)] at hk
    cases hk

theorem countP_snoc (i : Nat) (hist : List (ProtocolEntry sites)) (e : ProtocolEntry sites) :
    ((hist ++ [e]).countP fun e => e.act.call.refunds p i) =
      (hist.countP fun e => e.act.call.refunds p i) + if e.act.call.refunds p i then 1 else 0 := by
  rw [List.countP_append, List.countP_singleton]

/-- A call that refunds nothing of `p`. -/
theorem Tracked.of_quiet (h : Tracked p d hist) (hother : ∀ i, e.act.call.refunds p i = false)
    (hquiet : appealMint p e = 0) (hkeeps : KeepsRecords d d')
    (htotal : d'.total = (d'.records.map SlashingRecord.amount).sum)
    (hdeadline : ∀ i r, d'.records[i]? = some r → d'.deadlines i = r.timestamp + APPEAL_WINDOW)
    (happealed : ∀ i r, d'.records[i]? = some r → r.appealed = true →
      ∃ e' ∈ hist ++ [e], AppealsInTime p i r e')
    (hresolved : ∀ (i : Nat) (r r' : SlashingRecord), d.records[i]? = some r → d'.records[i]? = some r' →
      r'.resolved = r.resolved)
    (hrefundable : (d'.records.map SlashingRecord.refundable).sum = (d.records.map SlashingRecord.refundable).sum) :
    Tracked p d' (hist ++ [e]) where
  total := htotal
  deadline := hdeadline
  appealed := happealed
  once := by
    intro i
    rw [countP_snoc, hother]
    exact h.once i
  unrefunded := by
    intro i hi
    rw [countP_snoc, hother]
    apply h.unrefunded i
    intro r hr
    obtain ⟨r', hr', -⟩ := hkeeps i r hr
    rw [← hresolved i r r' hr hr']
    exact hi r' hr'
  refund := by
    apply refund_snoc hkeeps h.refund
    intro i hrefunds
    rw [hother] at hrefunds
    cases hrefunds
  minted := by
    rw [hrefundable, List.map_append, List.sum_append]
    simpa [hquiet] using h.minted

/-- A call that does not touch the record of the provider. -/
theorem Tracked.of_same (h : Tracked p d hist) (hother : ∀ i, e.act.call.refunds p i = false)
    (hquiet : appealMint p e = 0) : Tracked p d (hist ++ [e]) := by
  refine h.of_quiet hother hquiet ?_ h.total h.deadline ?_ ?_ rfl
  · intro i r hr
    exact ⟨r, hr, rfl, rfl⟩
  · intro i r hr happealed
    obtain ⟨e', hmem, h'⟩ := h.appealed i r hr happealed
    exact ⟨e', List.mem_append_left _ hmem, h'⟩
  · intro i r r' hr hr'
    obtain rfl := Option.some.inj (hr.symm.trans hr')
    rfl

/-- A slashing opens a record of its own. -/
theorem Tracked.of_slashed {amount now : Nat} {reason : String} (h : Tracked p d hist)
    (hother : ∀ i, e.act.call.refunds p i = false) (hquiet : appealMint p e = 0) :
    Tracked p
      { records := d.records ++ [{ timestamp := now, amount, reason }]
        deadlines := Function.update d.deadlines d.records.length (now + APPEAL_WINDOW)
        total := d.total + amount } (hist ++ [e]) := by
  have hcases : ∀ (i : Nat) (r : SlashingRecord),
      (d.records ++ [{ timestamp := now, amount, reason }])[i]? = some r →
        (i < d.records.length ∧ d.records[i]? = some r) ∨
          (i = d.records.length ∧ r = { timestamp := now, amount, reason }) := by
    -- the new record is the last one; all others are as they were
    intro i r hr
    rcases Nat.lt_trichotomy i d.records.length with hlt | rfl | hgt
    · rw [List.getElem?_append_left hlt] at hr
      exact Or.inl ⟨hlt, hr⟩
    · simp only [List.getElem?_concat_length, Option.some.injEq] at hr
      exact Or.inr ⟨rfl, hr.symm⟩
    · rw [List.getElem?_eq_none (by simp; omega)] at hr
      cases hr
  refine h.of_quiet hother hquiet ?_ ?_ ?_ ?_ ?_ ?_
  · intro i r hr
    have hlt := (List.getElem?_eq_some_iff.mp hr).1
    exact ⟨r, by rw [List.getElem?_append_left hlt]; exact hr, rfl, rfl⟩
  · simp [h.total]
  · intro i r hr
    rcases hcases i r hr with ⟨hlt, hr⟩ | ⟨rfl, rfl⟩
    · show Function.update d.deadlines d.records.length (now + APPEAL_WINDOW) i = _
      rw [Function.update_of_ne (Nat.ne_of_lt hlt)]
      exact h.deadline i r hr
    · exact Function.update_self _ _ _
  · intro i r hr happealed
    rcases hcases i r hr with ⟨-, hr⟩ | ⟨-, rfl⟩
    · obtain ⟨e', hmem, h'⟩ := h.appealed i r hr happealed
      exact ⟨e', List.mem_append_left _ hmem, h'⟩
    -- nobody has appealed against a record that is new
    · cases happealed
  · intro i r r' hr hr'
    have hlt := (List.getElem?_eq_some_iff.mp hr).1
    rcases hcases i r' hr' with ⟨-, hr'⟩ | ⟨rfl, -⟩
    · obtain rfl := Option.some.inj (hr.symm.trans hr')
      rfl
    · exact absurd hlt (Nat.lt_irrefl _)
  · simp [SlashingRecord.refundable]

/-- What is at index `j` after index `i` was written. -/
theorem getElem?_set_cases {α : Type} {l : List α} {i j : Nat} {x y : α} (h : (l.set i x)[j]? = some y) :
    (j = i ∧ y = x) ∨ (j ≠ i ∧ l[j]? = some y) := by
  rw [List.getElem?_set] at h
  by_cases hij : i = j
  · subst hij
    by_cases hlt : i < l.length
    · simp only [if_true, hlt, Option.some.injEq] at h
      exact Or.inl ⟨rfl, h.symm⟩
    · simp [hlt] at h
  · rw [if_neg hij] at h
    exact Or.inr ⟨Ne.symm hij, h⟩

/-- An appeal marks a record, within its time. -/
theorem Tracked.of_appealed {r : SlashingRecord} (h : Tracked p d hist)
    (hother : ∀ i, e.act.call.refunds p i = false) (hquiet : appealMint p e = 0)
    (hrecord : d.records[i]? = some r) (happeal : AppealsInTime p i r e) :
    Tracked p { d with records := d.records.set i { r with appealed := true } } (hist ++ [e]) := by
  refine h.of_quiet hother hquiet (keepsRecords_set { r with appealed := true } rfl hrecord rfl rfl) ?_ ?_ ?_ ?_ ?_
  · have hsum := sum_map_set (f := SlashingRecord.amount) (y := { r with appealed := true }) hrecord
    show d.total = _
    rw [h.total]
    exact (Nat.add_right_cancel hsum).symm
  · intro j q hq
    rcases getElem?_set_cases hq with ⟨rfl, rfl⟩ | ⟨-, hq⟩
    · exact h.deadline j r hrecord
    · exact h.deadline j q hq
  · intro j q hq happealed
    rcases getElem?_set_cases hq with ⟨rfl, rfl⟩ | ⟨-, hq⟩
    · exact ⟨e, by simp, happeal.call, happeal.sender, happeal.inTime⟩
    · obtain ⟨e', hmem, h'⟩ := h.appealed j q hq happealed
      exact ⟨e', List.mem_append_left _ hmem, h'⟩
  · intro j q q' hq hq'
    rcases getElem?_set_cases hq' with ⟨rfl, rfl⟩ | ⟨-, hq'⟩
    · obtain rfl := Option.some.inj (hrecord.symm.trans hq)
      rfl
    · obtain rfl := Option.some.inj (hq.symm.trans hq')
      rfl
  · have hsum := sum_map_set (f := SlashingRecord.refundable) (y := { r with appealed := true }) hrecord
    exact Nat.add_right_cancel hsum

/-- The record that is resolved was not, so nothing of it has been refunded, and nothing will be. -/
theorem Tracked.of_resolved {r : SlashingRecord} {upheld : Bool} (h : Tracked p d hist)
    (hcall : e.act.call = .slashing (.resolveAppeal p i upheld))
    (howner : e.act.msg.sender = e.pre.slashing.owner) (hrecord : d.records[i]? = some r)
    (happealed : r.appealed = true) (hunresolved : r.resolved = false)
    (hminted : mintedFor p e.logs = if upheld = false then r.amount else 0)
    (hbalance : upheld = false → e.post.token.balanceOf p = e.pre.token.balanceOf p + r.amount) :
    Tracked p { d with records := d.records.set i { r with resolved := true } } (hist ++ [e]) := by
  -- this call refunds its own record, if the appeal is upheld
  have hrefunds : ∀ j, e.act.call.refunds p j = true ↔ j = i ∧ upheld = false := by
    intro j
    rw [hcall]
    simp only [ProtocolCall.refunds, Bool.and_eq_true, decide_eq_true_eq, Bool.not_eq_true']
    constructor
    · rintro ⟨⟨-, hi⟩, hupheld⟩
      exact ⟨hi.symm, hupheld⟩
    · rintro ⟨rfl, hupheld⟩
      exact ⟨⟨trivial, rfl⟩, hupheld⟩
  -- the record was not resolved before, so it has not been refunded
  have hnone : (hist.countP fun e => e.act.call.refunds p i) = 0 := by
    apply h.unrefunded
    intro q hq
    obtain rfl := Option.some.inj (hrecord.symm.trans hq)
    exact hunresolved
  have hmint : appealMint p e = if upheld = false then r.amount else 0 := by
    unfold appealMint
    rw [hcall]
    exact hminted
  constructor
  · have hsum := sum_map_set (f := SlashingRecord.amount) (y := { r with resolved := true }) hrecord
    show d.total = _
    rw [h.total]
    -- marking a record leaves the sum of the amounts
    exact (Nat.add_right_cancel hsum).symm
  · intro j q hq
    rcases getElem?_set_cases hq with ⟨rfl, rfl⟩ | ⟨-, hq⟩
    · exact h.deadline j r hrecord
    · exact h.deadline j q hq
  -- the appeal of the record is in the history, with its date
  · intro j q hq hq'
    have hold : ∃ e' ∈ hist, AppealsInTime p j q e' := by
      rcases getElem?_set_cases hq with ⟨rfl, rfl⟩ | ⟨-, hq⟩
      · obtain ⟨e', hmem, h'⟩ := h.appealed j r hrecord happealed
        exact ⟨e', hmem, h'.call, h'.sender, h'.inTime⟩
      · exact h.appealed j q hq hq'
    obtain ⟨e', hmem, h'⟩ := hold
    exact ⟨e', List.mem_append_left _ hmem, h'⟩
  · intro j
    rw [countP_snoc]
    -- the refund of this record is counted once, as it was not counted before
    by_cases hj : j = i
    · subst hj
      rw [hnone]
      split <;> omega
    · have hfalse : ¬ e.act.call.refunds p j = true := fun hr => hj ((hrefunds j).mp hr).1
      rw [if_neg hfalse]
      exact h.once j
  · intro j hall
    have hlt := (List.getElem?_eq_some_iff.mp hrecord).1
    -- a record that nobody has resolved is another one
    have hj : j ≠ i := by
      rintro rfl
      have := hall { r with resolved := true } (by simp [hlt])
      cases this
    rw [countP_snoc, if_neg fun hr => hj ((hrefunds j).mp hr).1]
    apply h.unrefunded
    intro q hq
    exact hall q (by rw [List.getElem?_set_ne (Ne.symm hj)]; exact hq)
  -- what is minted is the amount of the record, to its provider
  · apply refund_snoc (keepsRecords_set { r with resolved := true } rfl hrecord rfl rfl) h.refund
    intro j hr
    obtain ⟨rfl, hgranted⟩ := (hrefunds j).mp hr
    have hlt := (List.getElem?_eq_some_iff.mp hrecord).1
    refine ⟨{ r with resolved := true }, by simp [hlt], howner, ?_, hbalance hgranted, ?_⟩
    · rw [hminted, if_pos hgranted]
    · obtain ⟨e', hmem, h'⟩ := h.appealed j r hrecord happealed
      exact ⟨e', hmem, h'.call, h'.sender, h'.inTime⟩
  -- the record becomes refundable, and what has been minted grows by as much
  · have hsum := sum_map_set (f := SlashingRecord.refundable) (y := { r with resolved := true }) hrecord
    have hbefore : r.refundable = 0 := by simp [SlashingRecord.refundable, hunresolved]
    have hafter : ({ r with resolved := true } : SlashingRecord).refundable = r.amount := rfl
    have hle := h.minted
    rw [List.map_append, List.sum_append]
    simp only [List.map_cons, List.map_nil, List.sum_cons, List.sum_nil, hmint]
    split <;> omega

/-- So the record is that of the history after every call. -/
theorem tracked_step (h : n.step sites a = .ok (n', logs)) (ht : Tracked p (n.slashing.docket p) hist) :
    Tracked p (n'.slashing.docket p) (hist ++ [⟨n, a, logs, n'⟩]) := by
  have hquiet : a.call.resolves = false → appealMint p (⟨n, a, logs, n'⟩ : ProtocolEntry sites) = 0 := by
    intro hother
    simp [appealMint, hother]
  cases docket_effect h p with
  | same other quiet docket =>
    rw [docket]
    apply ht.of_same other
    unfold appealMint
    split
    · next hresolves => exact quiet hresolves
    · rfl
  | slashed other docket =>
    rw [docket]
    exact ht.of_slashed (fun i => refunds_of_not_resolves other) (hquiet other)
  | appealed call sender record unresolved inTime docket =>
    have hother : a.call.resolves = false := by rw [call]; rfl
    rw [docket]
    refine ht.of_appealed (fun i => refunds_of_not_resolves hother) (hquiet hother) record
      ⟨⟨_, call⟩, sender, ?_⟩
    rw [← ht.deadline _ _ record]
    exact inTime
  | resolved call owner record appealed unresolved minted balance docket =>
    rw [docket]
    exact ht.of_resolved call owner record appealed unresolved minted balance

end Runs

/-- **Appeals never pay out more than was slashed**: in every run from the deployment of the manager a provider's
docket is right, whoever slashes, appeals and resolves in whatever order. -/
theorem appeals_run {sites : ProtocolSites} {msg : Msg} {n₀ : Protocol} (hdeploy : n₀.slashing = .deploy msg)
    (as : List (ProtocolAction sites)) (p : Address) :
    RightDocket p ((run (Protocol.step sites) n₀ as).slashing.docket p) (history (Protocol.step sites) n₀ as) := by
  have hempty : n₀.slashing.docket p = {} := by
    rw [hdeploy]
    rfl
  have htracked : Tracked p ((run (Protocol.step sites) n₀ as).slashing.docket p)
      (history (Protocol.step sites) n₀ as) := by
    apply run_induction (P := fun n hist => Tracked p (n.slashing.docket p) hist) (C := fun _ _ => True) _ _ as
      (meets_true n₀ as)
    · rw [hempty]
      exact ⟨rfl, by simp, by simp, by simp, by simp, by simp, by simp⟩
    · intro n hist a n' logs ht _ hstep
      exact tracked_step hstep ht
  have hle : ∀ records : List SlashingRecord,
      (records.map SlashingRecord.refundable).sum ≤ (records.map SlashingRecord.amount).sum := by
    intro records
    apply List.sum_le_sum
    intro r _
    unfold SlashingRecord.refundable
    split <;> omega
  refine ⟨htracked.total, htracked.deadline, htracked.once, htracked.refund, ?_⟩
  rw [htracked.total]
  exact htracked.minted.trans (hle _)

/-! ### An appeal that is granted -/

namespace SmallProtocol

/-- The owner lets the manager mint, slashes the provider for a missed proof, and grants its appeal. -/
def refunded : List (ProtocolAction sites) :=
  joined (1000 * 10 ^ 18) ++
    [account 0 0 (.network (.base (.token (.authorizeMinter 103)))),
      account 0 100 (.slashing (.slashMissedPost 2 (500 * 10 ^ 18))),
      account 1 200 (.slashing (.submitAppeal 0 "disk report")),
      account 0 300 (.slashing (.resolveAppeal 2 0 false))]

/-- The refund comes to 1 % of the collateral, which is all that was slashed. -/
theorem appeals_run_refunded :
    ((history (Protocol.step sites) deployed refunded).map (appealMint 2)).sum = 5 * 10 ^ 18 ∧
      ((history (Protocol.step sites) deployed refunded).map (appealMint 2)).sum ≤
        ((run (Protocol.step sites) deployed refunded).slashing.docket 2).total :=
  ⟨by decide +kernel, (appeals_run (show deployed.slashing = .deploy ⟨1, 0⟩ from rfl) refunded 2).minted⟩

end SmallProtocol

end Kyneto
