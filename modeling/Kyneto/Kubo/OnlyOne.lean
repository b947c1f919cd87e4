import Kyneto.Evm.Run

/-!
# A repository that is opened once

Several parts of a process open the same repository. `OnlyOne` opens it for the first of them, hands the same `ref` to
the others and counts them, and closes it for the last. It does not know who closes, so a `ref` can be closed too often.
The counter has 32 bits, and below zero it starts again at its largest value.

`repos_shared` says what this comes to in a run of fewer than 2 ^ 32 calls: the `ref` that a key leads to is the one
that was opened more often than closed, there is no other for this key, and every repository is closed once, when the
two become equal. What is closed too often stays closed.
-/

namespace Kyneto

namespace Kubo

open Evm

variable {Key : Type}

structure Ref (Key : Type) where
  key : Key
  refs : Nat := 0   -- a `uint32`

structure OnlyOne (Key : Type) where
  active : Key → Option Nat := fun _ => none   -- the number of a `ref`
  allRefs : List (Ref Key) := []
  closed : List Nat := []                      -- the refs whose repository was closed, in this order

/-- A call, with what the opening of the repository itself would come to. -/
inductive RepoCall (Key : Type) where
  | opens (key : Key) (repo : Except String Unit)
  | closes (i : Nat)

inductive RepoLog where
  | opened (i : Nat)
  | closed (i : Nat)
  deriving DecidableEq, Repr

namespace OnlyOne

/-- `item.refs++` -/
def hold (o : OnlyOne Key) (i : Nat) : OnlyOne Key :=
  { o with allRefs := o.allRefs.modify i fun r => { r with refs := (r.refs + 1) % 2 ^ 32 } }

variable [DecidableEq Key]

def Open (o : OnlyOne Key) (key : Key) (repo : Except String Unit) : Tx (OnlyOne Key × List RepoLog) :=
  match o.active key with
  | some i => .ok (o.hold i, [.opened i])
  | none =>
    match repo with
    | .error text => .error (.reason text)
    | .ok _ =>
      let i := o.allRefs.length
      let opened : OnlyOne Key :=
        { o with active := Function.update o.active key (some i), allRefs := o.allRefs ++ [⟨key, 0⟩] }
      .ok (opened.hold i, [.opened i])

def Close (o : OnlyOne Key) (i : Nat) : Tx (OnlyOne Key × List RepoLog) :=
  match o.allRefs[i]? with
  | none => .error (.reason "no such ref")
  | some r =>
    let refs := (r.refs + (2 ^ 32 - 1)) % 2 ^ 32
    let o := { o with allRefs := o.allRefs.set i { r with refs } }
    if 0 < refs then .ok (o, [.closed i])
    else .ok ({ o with active := Function.update o.active r.key none, closed := o.closed ++ [i] }, [.closed i])

def step (o : OnlyOne Key) : RepoCall Key → Tx (OnlyOne Key × List RepoLog)
  | .opens key repo => o.Open key repo
  | .closes i => o.Close i

end OnlyOne

abbrev RepoEntry (Key : Type) := Entry (OnlyOne Key) (RepoCall Key) RepoLog

/-! ## Counting -/

section Counts

variable {hist : List (RepoEntry Key)} {e : RepoEntry Key} {i : Nat}

def opens (hist : List (RepoEntry Key)) (i : Nat) : Nat := hist.countP fun e => e.logs = [.opened i]

def closes (hist : List (RepoEntry Key)) (i : Nat) : Nat := hist.countP fun e => e.logs = [.closed i]

theorem opens_snoc : opens (hist ++ [e]) i = opens hist i + if e.logs = [.opened i] then 1 else 0 := by
  unfold opens
  rw [List.countP_append, List.countP_singleton]
  simp only [decide_eq_true_eq]

theorem closes_snoc : closes (hist ++ [e]) i = closes hist i + if e.logs = [.closed i] then 1 else 0 := by
  unfold closes
  rw [List.countP_append, List.countP_singleton]
  simp only [decide_eq_true_eq]

/-- No more references can be counted than there were calls. -/
theorem calls_le_length (hist : List (RepoEntry Key)) (i : Nat) : opens hist i + closes hist i ≤ hist.length := by
  induction hist using List.reverseRecOn with
  | nil => exact Nat.le_refl 0
  | append_singleton hist e ih =>
    rw [opens_snoc, closes_snoc, List.length_append, List.length_singleton]
    by_cases hopened : e.logs = [.opened i]
    · have hnot : e.logs ≠ [.closed i] := by simp [hopened]
      rw [if_pos hopened, if_neg hnot]
      omega
    · rw [if_neg hopened]
      split <;> omega

end Counts

/-! ## What a call keeps -/

/-- Somebody holds the `ref`. -/
def Held (hist : List (RepoEntry Key)) (i : Nat) : Prop := closes hist i < opens hist i

structure Counted (o : OnlyOne Key) (hist : List (RepoEntry Key)) : Prop where
  opened : ∀ i, 0 < opens hist i ↔ i < o.allRefs.length
  unopened : ∀ i, opens hist i = 0 → closes hist i = 0
  refs : ∀ i r, o.allRefs[i]? = some r → (r.refs : Int) = ((opens hist i : Int) - closes hist i) % 2 ^ 32
  active : ∀ key i, o.active key = some i ↔ (∃ r, o.allRefs[i]? = some r ∧ r.key = key) ∧ Held hist i
  closed : ∀ i, i ∈ o.closed ↔ 0 < opens hist i ∧ ¬ Held hist i
  once : o.closed.Nodup

section Proofs

variable {o o' : OnlyOne Key} {hist : List (RepoEntry Key)} {a : RepoCall Key} {logs : List RepoLog}
  {key : Key} {i j : Nat} {r : Ref Key}

theorem counted_empty : Counted ({} : OnlyOne Key) [] where
  opened i := iff_of_false (Nat.lt_irrefl 0) (Nat.not_lt_zero i)
  unopened _ _ := rfl
  refs i r h := by cases h
  active key i := iff_of_false (Option.some_ne_none i).symm fun h => Nat.lt_irrefl 0 h.2
  closed i := iff_of_false List.not_mem_nil fun h => Nat.lt_irrefl 0 h.1
  once := List.nodup_nil

theorem getElem?_hold : (o.hold i).allRefs[j]? =
    if i = j then o.allRefs[j]?.map fun r => { r with refs := (r.refs + 1) % 2 ^ 32 } else o.allRefs[j]? := by
  unfold OnlyOne.hold
  rw [List.getElem?_modify]
  split <;> simp

/-- A reference more or less does not change which keys are there. -/
theorem exists_key_hold : (∃ r, (o.hold i).allRefs[j]? = some r ∧ r.key = key) ↔
    ∃ r, o.allRefs[j]? = some r ∧ r.key = key := by
  rw [getElem?_hold]
  split
  · constructor
    · rintro ⟨r, hr, hkey⟩
      obtain ⟨r₀, hr₀, rfl⟩ := Option.map_eq_some_iff.mp hr
      exact ⟨r₀, hr₀, hkey⟩
    · rintro ⟨r, hr, hkey⟩
      exact ⟨{ r with refs := (r.refs + 1) % 2 ^ 32 }, by rw [hr]; rfl, hkey⟩
  · rfl

theorem held_opened {e : RepoEntry Key} (he : e.logs = [.opened i]) :
    Held (hist ++ [e]) j ↔ Held hist j ∨ j = i ∧ closes hist i ≤ opens hist i := by
  unfold Held
  rw [opens_snoc, closes_snoc, he]
  by_cases hj : j = i
  · subst hj
    simp
    omega
  · simp [hj, Ne.symm hj]

theorem held_closed {e : RepoEntry Key} (he : e.logs = [.closed i]) :
    Held (hist ++ [e]) j ↔ Held hist j ∧ ¬ (j = i ∧ closes hist i + 1 = opens hist i) := by
  unfold Held
  rw [opens_snoc, closes_snoc, he]
  by_cases hj : j = i
  · subst hj
    simp
    omega
  · simp [hj, Ne.symm hj]

/-- The `ref` of the key is handed out again. -/
theorem counted_again {e : RepoEntry Key} (h : Counted o hist) (hactive : o.active key = some i)
    (he : e.logs = [.opened i]) : Counted (o.hold i) (hist ++ [e]) := by
  -- the `ref` is the active one of its key, so it is held already
  obtain ⟨⟨r, hr, hkey⟩, hheld⟩ := (h.active key i).mp hactive
  have hpos : 0 < opens hist i := Nat.zero_lt_of_lt hheld
  -- one more reference makes no difference to what is held
  have hsame : ∀ j, Held (hist ++ [e]) j ↔ Held hist j := by
    intro j
    rw [held_opened he, or_iff_left_iff_imp]
    rintro ⟨rfl, -⟩
    exact hheld
  have hopened : ∀ j, 0 < opens (hist ++ [e]) j ↔ 0 < opens hist j := by
    intro j
    rw [opens_snoc, he]
    split
    · next hj =>
      obtain rfl : i = j := by simpa using hj
      exact iff_of_true (Nat.succ_pos _) hpos
    · rfl
  constructor
  · intro j
    rw [hopened, h.opened]
    simp only [OnlyOne.hold, List.length_modify]
  -- what has never been opened is another one, and stays unopened
  · intro j hzero
    have hzero' : opens hist j = 0 := Nat.eq_zero_of_not_pos fun hj => (hopened j).mpr hj |>.ne' hzero
    rw [closes_snoc, he, h.unopened j hzero']
    simp
  · intro j r' hr'
    -- the counter of the `ref` and the number of openings are one more, and the other counters are as they were
    rw [getElem?_hold] at hr'
    rw [opens_snoc, closes_snoc, he]
    split at hr'
    · next hij =>
      subst hij
      rw [hr, Option.map_some, Option.some.injEq] at hr'
      subst hr'
      have hrefs := h.refs i r hr
      simp only [if_true]
      simp
      omega
    · next hij =>
      have hrefs := h.refs j r' hr'
      simp [hij]
      omega
  · intro key' j
    rw [exists_key_hold, hsame]
    exact h.active key' j
  · intro j
    rw [hsame, hopened]
    exact h.closed j
  · exact h.once

theorem exists_key_set {refs : Nat} (hr : o.allRefs[i]? = some r) :
    (∃ r', (o.allRefs.set i { r with refs })[j]? = some r' ∧ r'.key = key) ↔
      ∃ r', o.allRefs[j]? = some r' ∧ r'.key = key := by
  by_cases hij : i = j
  · subst hij
    rw [List.getElem?_set_self (List.getElem?_eq_some_iff.mp hr).1, hr]
    simp only [Option.some.injEq, exists_eq_left']
  · rw [List.getElem?_set_ne hij]

section Calls

variable [DecidableEq Key]

/-- The repository of a new key is opened. -/
theorem counted_new {e : RepoEntry Key} (h : Counted o hist) (hactive : o.active key = none)
    (he : e.logs = [.opened o.allRefs.length]) :
    Counted (OnlyOne.hold { o with
      active := Function.update o.active key (some o.allRefs.length), allRefs := o.allRefs ++ [⟨key, 0⟩] }
      o.allRefs.length) (hist ++ [e]) := by
  -- the index is new: nothing has been opened or closed there
  have hzero : opens hist o.allRefs.length = 0 :=
    Nat.eq_zero_of_not_pos fun hpos => Nat.lt_irrefl _ ((h.opened _).mp hpos)
  have hnone := h.unopened _ hzero
  -- so what is held afterwards is what was held, and the new one
  have hheld : ∀ j, Held (hist ++ [e]) j ↔ Held hist j ∨ j = o.allRefs.length := by
    intro j
    rw [held_opened he, hzero, hnone]
    simp
  have hlt : ∀ j, Held hist j → j < o.allRefs.length := fun j hj => (h.opened j).mp (Nat.zero_lt_of_lt hj)
  constructor
  -- `opened`: there is one more `ref`, and it has been opened
  · intro j
    rw [opens_snoc, he]
    simp only [OnlyOne.hold, List.length_modify, List.length_append, List.length_singleton]
    have hj := h.opened j
    split
    · next heq =>
      obtain rfl : o.allRefs.length = j := by simpa using heq
      omega
    · next heq =>
      have hne : o.allRefs.length ≠ j := by simpa using heq
      omega
  -- `unopened`: whatever has not been opened was not opened before either
  · intro j hj
    rw [opens_snoc] at hj
    rw [closes_snoc, he, h.unopened j (by omega)]
    simp
  -- `refs`: the counter goes from 0 to 1, and the others are as they were
  · intro j r' hr'
    rw [getElem?_hold] at hr'
    rw [opens_snoc, closes_snoc, he]
    split at hr'
    · next hij =>
      subst hij
      simp only [List.getElem?_concat_length, Option.map_some, Option.some.injEq] at hr'
      subst hr'
      simp [hzero, hnone]
    · next hij =>
      have hj : j < o.allRefs.length := by
        have hlength := (List.getElem?_eq_some_iff.mp hr').1
        simp only [List.length_append, List.length_singleton] at hlength
        omega
      dsimp only at hr'
      rw [List.getElem?_append_left hj] at hr'
      have hrefs := h.refs j r' hr'
      simp [hij]
      omega
  -- `active`: the key leads to the new `ref`, all other keys lead where they led
  · intro key' j
    rw [exists_key_hold, hheld]
    show Function.update o.active key (some o.allRefs.length) key' = some j ↔
      (∃ r, (o.allRefs ++ [⟨key, 0⟩])[j]? = some r ∧ r.key = key') ∧ (Held hist j ∨ j = o.allRefs.length)
    by_cases hkey' : key' = key
    · subst hkey'
      rw [Function.update_self]
      constructor
      · intro heq
        obtain rfl := Option.some.inj heq
        exact ⟨⟨_, List.getElem?_concat_length, rfl⟩, Or.inr rfl⟩
      -- the key led nowhere before, so none of the older `ref`s can be held for it
      · rintro ⟨⟨r, hr, hkey⟩, hj | rfl⟩
        · rw [List.getElem?_append_left (hlt j hj)] at hr
          have hold := (h.active key' j).mpr ⟨⟨r, hr, hkey⟩, hj⟩
          rw [hactive] at hold
          cases hold
        · rfl
    · rw [Function.update_of_ne hkey', h.active]
      constructor
      · rintro ⟨⟨r, hr, hkey⟩, hj⟩
        exact ⟨⟨r, by rw [List.getElem?_append_left (hlt j hj)]; exact hr, hkey⟩, Or.inl hj⟩
      · rintro ⟨⟨r, hr, hkey⟩, hj | rfl⟩
        · rw [List.getElem?_append_left (hlt j hj)] at hr
          exact ⟨⟨r, hr, hkey⟩, hj⟩
        · rw [List.getElem?_concat_length, Option.some.injEq] at hr
          subst hr
          exact absurd hkey.symm hkey'
  -- `closed`: nothing is closed, and the new one is held
  · intro j
    show j ∈ o.closed ↔ _
    rw [hheld, h.closed, opens_snoc, he]
    by_cases hj : j = o.allRefs.length
    · subst hj
      simp [hzero]
    · simp [hj, Ne.symm hj]
  · exact h.once

/-- A `ref` is closed. -/
theorem counted_close {e : RepoEntry Key} (h : Counted o hist) (hlength : hist.length + 1 < 2 ^ 32)
    (hclose : o.Close i = .ok (o', logs)) (he : e.logs = logs) : Counted o' (hist ++ [e]) := by
  unfold OnlyOne.Close at hclose
  split at hclose
  · cases hclose
  · next r hr =>
    dsimp only at hclose
    have hrefs := h.refs i r hr
    have hcalls := calls_le_length hist i
    have hi := (List.getElem?_eq_some_iff.mp hr).1
    have hpos := (h.opened i).mpr hi
    -- fewer than 2^32 calls: the counter does not wrap, so it is 0 exactly if this was the last reference
    have hlast : ¬ 0 < (r.refs + (2 ^ 32 - 1)) % 2 ^ 32 ↔ closes hist i + 1 = opens hist i := by omega
    -- both branches report the same
    have hlogs : e.logs = [.closed i] := by
      split at hclose
      all_goals
        cases hclose
        exact he
    -- a closing opens nothing, which gives `opened` at once
    have hopens : ∀ j, opens (hist ++ [e]) j = opens hist j := by
      intro j
      rw [opens_snoc, hlogs]
      simp
    have hunopened : ∀ j, opens (hist ++ [e]) j = 0 → closes (hist ++ [e]) j = 0 := by
      intro j hj
      rw [hopens] at hj
      -- what is closed here has been opened, since it is in the list
      have hne : i ≠ j := by
        rintro rfl
        omega
      rw [closes_snoc, hlogs, h.unopened j hj]
      simp [hne]
    have hcounter : ∀ j r', (o.allRefs.set i { r with refs := (r.refs + (2 ^ 32 - 1)) % 2 ^ 32 })[j]? = some r' →
        (r'.refs : Int) = ((opens (hist ++ [e]) j : Int) - closes (hist ++ [e]) j) % 2 ^ 32 := by
      intro j r' hr'
      rw [hopens, closes_snoc, hlogs]
      -- only the counter of the closed `ref` changes, by one
      by_cases hij : i = j
      · subst hij
        rw [List.getElem?_set_self hi, Option.some.injEq] at hr'
        subst hr'
        simp only [if_true]
        omega
      · rw [List.getElem?_set_ne hij] at hr'
        have hother := h.refs j r' hr'
        simp [hij]
        omega
    split at hclose
    -- other references are left, so the `ref` is held as before
    · next hmore =>
      cases hclose
      have hheld : ∀ j, Held (hist ++ [e]) j ↔ Held hist j := by
        intro j
        rw [held_closed hlogs, and_iff_left]
        rintro ⟨rfl, heq⟩
        exact hlast.mpr heq hmore
      refine ⟨?_, hunopened, hcounter, ?_, ?_, h.once⟩
      · intro j
        rw [hopens, h.opened, List.length_set]
      · intro key j
        rw [exists_key_set hr, hheld]
        exact h.active key j
      · intro j
        rw [hopens, hheld]
        exact h.closed j
    -- the last reference is gone: the `ref` leaves the map, and its repository is closed
    · next hnone =>
      cases hclose
      have heq := hlast.mp hnone
      have hwas : Held hist i := Nat.lt_of_succ_le heq.le
      have hheld : ∀ j, Held (hist ++ [e]) j ↔ Held hist j ∧ j ≠ i := by
        intro j
        rw [held_closed hlogs, and_iff_left heq]
      refine ⟨?_, hunopened, hcounter, ?_, ?_, ?_⟩
      · intro j
        rw [hopens, h.opened, List.length_set]
      · intro key j
        rw [exists_key_set hr, hheld]
        show Function.update o.active r.key none key = some j ↔ _
        -- its key leads nowhere, and no other `ref` of the key was held beside it
        by_cases hkey : key = r.key
        · subst hkey
          rw [Function.update_self]
          refine iff_of_false (Option.some_ne_none j).symm ?_
          rintro ⟨hj, hjheld, hne⟩
          have hhad := (h.active r.key j).mpr ⟨hj, hjheld⟩
          rw [(h.active r.key i).mpr ⟨⟨r, hr, rfl⟩, hwas⟩] at hhad
          exact hne (Option.some.inj hhad).symm
        -- for another key nothing changes
        · rw [Function.update_of_ne hkey, h.active]
          refine and_congr_right ?_
          rintro ⟨r', hr', rfl⟩
          refine (and_iff_left ?_).symm
          rintro rfl
          rw [hr, Option.some.injEq] at hr'
          exact hkey (congrArg Ref.key hr'.symm)
      -- what is closed is what was, and the `ref`
      · intro j
        rw [List.mem_append, List.mem_singleton, h.closed, hopens, hheld]
        by_cases hj : j = i
        · subst hj
          simp [hpos]
        · simp [hj]
      · rw [List.nodup_append]
        refine ⟨h.once, List.nodup_singleton i, ?_⟩
        -- it was held until now, so it has not been closed before
        rintro j hj k hk rfl
        obtain rfl := List.mem_singleton.mp hk
        exact ((h.closed _).mp hj).2 hwas

/-- Each step changes the count and the history by the same reference. -/
theorem counted_step (h : Counted o hist) (hlength : hist.length + 1 < 2 ^ 32) (hstep : o.step a = .ok (o', logs)) :
    Counted o' (hist ++ [⟨o, a, logs, o'⟩]) := by
  cases a with
  | opens key repo =>
    simp only [OnlyOne.step, OnlyOne.Open] at hstep
    split at hstep
    · next i hactive =>
      cases hstep
      exact counted_again h hactive rfl
    · next hactive =>
      split at hstep
      · cases hstep
      · cases hstep
        exact counted_new h hactive rfl
  | closes i => exact counted_close h hlength hstep rfl

/-- **The repositories of a run** of fewer than 2 ^ 32 calls. A key is active with the one `ref` that is held, and a
repository is closed if it was opened and is not held any more, and only once. -/
theorem repos_shared (as : List (RepoCall Key)) (has : as.length < 2 ^ 32) :
    (∀ key i, (run OnlyOne.step {} as).active key = some i ↔
      (∃ r, (run OnlyOne.step {} as).allRefs[i]? = some r ∧ r.key = key) ∧ Held (history OnlyOne.step {} as) i) ∧
    (∀ i, i ∈ (run OnlyOne.step {} as).closed ↔
      0 < opens (history OnlyOne.step {} as) i ∧ ¬ Held (history OnlyOne.step {} as) i) ∧
    (run OnlyOne.step {} as).closed.Nodup := by
  have hcounted : Counted (run OnlyOne.step {} as) (history OnlyOne.step {} as) := by
    induction as using List.reverseRecOn with
    | nil => exact counted_empty
    | append_singleton as a ih =>
      rw [List.length_append, List.length_singleton] at has
      have hbefore := ih (by omega)
      rw [run_snoc]
      cases hstep : (run OnlyOne.step {} as).step a with
      | error e =>
        rw [exec_of_error hstep, history_snoc_error hstep]
        exact hbefore
      | ok r =>
        rw [exec_of_ok hstep, history_snoc_ok hstep]
        refine counted_step hbefore ?_ hstep
        have hle := @length_history_le _ _ _ OnlyOne.step {} as
        omega
  exact ⟨hcounted.active, hcounted.closed, hcounted.once⟩

end Calls

end Proofs

/-! ### Two holders, of whom one closes twice -/

namespace SmallRepos

def calls : List (RepoCall Nat) :=
  [.opens 7 (.ok ()), .opens 7 (.error "locked"), .closes 0, .closes 0, .closes 0, .opens 7 (.ok ())]

/-- The repository is opened again, and the close that came too often does not count against the second `ref`. -/
theorem repos_shared_small : Held (history OnlyOne.step {} calls) 1 ∧ 0 ∈ (run OnlyOne.step {} calls).closed :=
  ⟨(((repos_shared calls (by decide)).1 7 1).mp (by decide)).2,
    ((repos_shared calls (by decide)).2.1 0).mpr (by unfold Held; decide)⟩

end SmallRepos

end Kubo

end Kyneto
