import Kyneto.Sql.Table

/-!
# Transactions over a pool of connections

Every request runs on a connection of the pool. `BEGIN` opens a transaction on the connection it runs on, `COMMIT` and
`ROLLBACK` end the one they find there, and a statement belongs to the transaction of its connection, whoever opened
it; where there is none it is committed by itself. What a statement writes depends on what it sees, which is what is
committed and what its own transaction has written.

Everybody who uses the pool has a name of type `o`. If everybody keeps to connections without a transaction of
somebody else (`Apart`), what is committed or rolled back together comes from one user (`PoolEffect.owned`).
-/

namespace Kyneto.Sql

variable {σ o τ : Type}

/-- What is seen decides whether the statement goes through, and what it writes. -/
abbrev Statement (σ : Type) := σ → Query (σ → σ)

structure Write (σ o : Type) where
  owner : o
  write : σ → σ

/-- A transaction that is open on a connection. After an error it takes no statement any more. -/
structure Transaction (σ o : Type) where
  opener : o
  writes : List (Write σ o) := []
  aborted : Bool := false

/-- The writes that were committed, or rolled back, together. -/
structure Settlement (σ o : Type) where
  committed : Bool
  writes : List (Write σ o)

structure Pool (σ o : Type) where
  committed : σ
  transaction : Nat → Option (Transaction σ o) := fun _ => none

inductive Request (σ : Type) where
  | begins
  | query (statement : Statement σ)
  | commits
  | rollsBack

/-- What happens to a request on its way. -/
inductive Fate where
  | arrives
  | fails           -- in the database, by itself
  | neverArrives
  | answerLost      -- it takes effect, but ends in an error for the caller
  deriving DecidableEq, Repr

def applyWrites (writes : List (Write σ o)) (s : σ) : σ := writes.foldl (fun s w => w.write s) s

@[simp] theorem applyWrites_nil (s : σ) : applyWrites ([] : List (Write σ o)) s = s := rfl

@[simp] theorem applyWrites_append (ws vs : List (Write σ o)) (s : σ) :
    applyWrites (ws ++ vs) s = applyWrites vs (applyWrites ws s) := List.foldl_append

/-- Writes that each keep what `f` sees of the state. -/
theorem applyWrites_keeps {f : σ → τ} {ws : List (Write σ o)} (h : ∀ w ∈ ws, ∀ s, f (w.write s) = f s) (s : σ) :
    f (applyWrites ws s) = f s := by
  induction ws generalizing s with
  | nil => rfl
  | cons w ws ih =>
    show f (applyWrites ws (w.write s)) = f s
    rw [ih (fun v hv => h v (List.mem_cons_of_mem _ hv)), h w List.mem_cons_self]

namespace Pool

variable (p : Pool σ o)

/-- What the connection has changes. -/
def setTransaction (c : Nat) (t : Option (Transaction σ o)) : Pool σ o :=
  { p with transaction := Function.update p.transaction c t }

/-- An error on a connection. -/
def abort (c : Nat) : Pool σ o := p.setTransaction c ((p.transaction c).map fun t => { t with aborted := true })

/-- The end of a connection: the database rolls its transaction back. -/
def close (c : Nat) : Pool σ o × List (Settlement σ o) :=
  match p.transaction c with
  | none => (p, [])
  | some t => (p.setTransaction c none, [⟨false, t.writes⟩])

/-- A request on a connection: the pool after it, whether it went through, and what it settles. `BEGIN` in a
transaction and `COMMIT` or `ROLLBACK` outside of one are warnings, and `COMMIT` after an error rolls back. -/
def request (c : Nat) (owner : o) (r : Request σ) : Pool σ o × Bool × List (Settlement σ o) :=
  match r, p.transaction c with
  | .begins, none => (p.setTransaction c (some { opener := owner }), true, [])
  | .begins, some t => (p, !t.aborted, [])
  | .query statement, none =>
    match statement p.committed with
    | .ok write => ({ p with committed := write p.committed }, true, [⟨true, [⟨owner, write⟩]⟩])
    | .error _ => (p, false, [])
  | .query statement, some t =>
    if t.aborted then (p, false, [])
    else
      match statement (applyWrites t.writes p.committed) with
      | .ok write => (p.setTransaction c (some { t with writes := t.writes ++ [⟨owner, write⟩] }), true, [])
      | .error _ => (p.abort c, false, [])
  | .commits, none | .rollsBack, none => (p, true, [])
  | .commits, some t =>
    if t.aborted then (p.setTransaction c none, true, [⟨false, t.writes⟩])
    else
      ({ p.setTransaction c none with committed := applyWrites t.writes p.committed }, true, [⟨true, t.writes⟩])
  | .rollsBack, some t => (p.setTransaction c none, true, [⟨false, t.writes⟩])

def deliver (c : Nat) (owner : o) (r : Request σ) : Fate → Pool σ o × Bool × List (Settlement σ o)
  | .arrives => p.request c owner r
  | .fails => (p.abort c, false, [])
  | .neverArrives => (p, false, [])
  | .answerLost => ((p.request c owner r).1, false, (p.request c owner r).2.2)

@[simp] theorem setTransaction_committed (c : Nat) (t : Option (Transaction σ o)) :
    (p.setTransaction c t).committed = p.committed := rfl

@[simp] theorem setTransaction_self (c : Nat) (t : Option (Transaction σ o)) :
    (p.setTransaction c t).transaction c = t := by
  simp [setTransaction]

theorem setTransaction_of_ne {c c' : Nat} (h : c' ≠ c) (t : Option (Transaction σ o)) :
    (p.setTransaction c t).transaction c' = p.transaction c' := by
  simp [setTransaction, h]

end Pool

/-! ## What a request can do -/

section Effects

variable {p p' : Pool σ o} {c : Nat} {owner : o} {r : Request σ} {fate : Fate} {ok : Bool}
  {settled : List (Settlement σ o)}

inductive PoolEffect (p : Pool σ o) (c : Nat) (owner : o) (r : Request σ) :
    Pool σ o → Bool → List (Settlement σ o) → Prop
  | nothing (ok : Bool) (warning : ok = true → r = .begins ∧ p.transaction c ≠ none ∨
        (r = .commits ∨ r = .rollsBack) ∧ p.transaction c = none) :
      PoolEffect p c owner r p ok []
  | opens (ok : Bool) (begins : r = .begins) (free : p.transaction c = none) :
      PoolEffect p c owner r (p.setTransaction c (some { opener := owner })) ok []
  | commitsOne (ok : Bool) (statement : Statement σ) (write : σ → σ) (query : r = .query statement)
      (free : p.transaction c = none) (writes : statement p.committed = .ok write) :
      PoolEffect p c owner r { p with committed := write p.committed } ok [⟨true, [⟨owner, write⟩]⟩]
  | writes (ok : Bool) (statement : Statement σ) (t : Transaction σ o) (write : σ → σ) (query : r = .query statement)
      (here : p.transaction c = some t) (live : t.aborted = false)
      (writes : statement (applyWrites t.writes p.committed) = .ok write) :
      PoolEffect p c owner r (p.setTransaction c (some { t with writes := t.writes ++ [⟨owner, write⟩] })) ok []
  | aborts (t : Transaction σ o) (here : p.transaction c = some t) :
      PoolEffect p c owner r (p.setTransaction c (some { t with aborted := true })) false []
  | commits (ok : Bool) (t : Transaction σ o) (commits : r = .commits) (here : p.transaction c = some t)
      (live : t.aborted = false) :
      PoolEffect p c owner r { p.setTransaction c none with committed := applyWrites t.writes p.committed } ok
        [⟨true, t.writes⟩]
  | discards (ok : Bool) (t : Transaction σ o) (ends : r = .commits ∧ t.aborted = true ∨ r = .rollsBack)
      (here : p.transaction c = some t) :
      PoolEffect p c owner r (p.setTransaction c none) ok [⟨false, t.writes⟩]

/-- A connection that is lost takes its transaction with it. -/
theorem abort_effect : PoolEffect p c owner r (p.abort c) false [] := by
  cases h : p.transaction c with
  | none =>
    have hsame : p.abort c = p := by
      unfold Pool.abort Pool.setTransaction
      rw [h, Option.map_none, ← h, Function.update_eq_self]
    rw [hsame]
    exact .nothing false nofun
  | some t =>
    unfold Pool.abort
    rw [h]
    exact .aborts t h

/-- What a request does on its connection: begin, run, commit, or roll back. -/
theorem request_effect (h : p.request c owner r = (p', ok, settled)) : PoolEffect p c owner r p' ok settled := by
  unfold Pool.request at h
  split at h
  · next hfree =>
    cases h
    exact .opens true rfl hfree
  · next ht =>
    cases h
    exact .nothing _ fun _ => Or.inl ⟨rfl, by simp [ht]⟩
  · next statement hfree =>
    split at h
    · next write hwrite =>
      cases h
      exact .commitsOne true statement write rfl hfree hwrite
    · cases h
      exact .nothing false nofun
  · next statement t ht =>
    split at h
    · cases h
      exact .nothing false nofun
    · next hlive =>
      split at h
      · next write hwrite =>
        cases h
        exact .writes true statement t write rfl ht (by simpa using hlive) hwrite
      · cases h
        exact abort_effect
  · next hfree =>
    cases h
    exact .nothing true fun _ => Or.inr ⟨Or.inl rfl, hfree⟩
  · next hfree =>
    cases h
    exact .nothing true fun _ => Or.inr ⟨Or.inr rfl, hfree⟩
  · next t ht =>
    split at h
    · next haborted =>
      cases h
      exact .discards true t (Or.inl ⟨rfl, haborted⟩) ht
    · next hlive =>
      cases h
      exact .commits true t rfl ht (by simpa using hlive)
  · next t ht =>
    cases h
    exact .discards true t (Or.inr rfl) ht

/-- The caller may not learn that a request went through. -/
theorem PoolEffect.unanswered (h : PoolEffect p c owner r p' ok settled) : PoolEffect p c owner r p' false settled := by
  cases h with
  | nothing => exact .nothing false nofun
  | opens _ hr hfree => exact .opens false hr hfree
  | commitsOne _ statement write hr hfree hwrite => exact .commitsOne false statement write hr hfree hwrite
  | writes _ statement t write hr ht hlive hwrite => exact .writes false statement t write hr ht hlive hwrite
  | aborts t ht => exact .aborts t ht
  | commits _ t hr ht hlive => exact .commits false t hr ht hlive
  | discards _ t hr ht => exact .discards false t hr ht

/-- The same for a request whose answer may be lost. -/
theorem deliver_effect (h : p.deliver c owner r fate = (p', ok, settled)) : PoolEffect p c owner r p' ok settled := by
  cases fate with
  | arrives => exact request_effect h
  | fails =>
    cases h
    exact abort_effect
  | neverArrives =>
    cases h
    exact .nothing false nofun
  | answerLost =>
    cases h
    exact (request_effect (Prod.ext rfl (Prod.ext rfl rfl))).unanswered

end Effects

/-! ## Users that keep apart -/

section Users

variable [DecidableEq o] {p p' : Pool σ o} {c : Nat} {owner : o} {r : Request σ} {ok : Bool}
  {settled : List (Settlement σ o)}

/-- The connection has no transaction of somebody else. -/
def Apart (p : Pool σ o) (c : Nat) (owner : o) : Prop := (p.transaction c).all (·.opener = owner) = true

instance (p : Pool σ o) (c : Nat) (owner : o) : Decidable (Apart p c owner) := inferInstanceAs (Decidable (_ = _))

/-- Every write in a transaction is of the one who opened it. -/
def Owned (p : Pool σ o) : Prop := ∀ c t, p.transaction c = some t → ∀ w ∈ t.writes, w.owner = t.opener

/-- All of the writes are of one user. -/
def Settlement.Unmixed (g : Settlement σ o) : Prop := ∃ user, ∀ w ∈ g.writes, w.owner = user

theorem Apart.opener {t : Transaction σ o} (h : Apart p c owner) (ht : p.transaction c = some t) :
    t.opener = owner := by
  unfold Apart at h
  simpa [ht] using h

omit [DecidableEq o] in
/-- What holds of all transactions, and of what a connection has now, holds of all transactions after that. -/
theorem forall_setTransaction {P : Nat → Transaction σ o → Prop} {next : Option (Transaction σ o)}
    (h : ∀ c t, p.transaction c = some t → P c t) (hnext : ∀ t, next = some t → P c t) :
    ∀ c' t, (p.setTransaction c next).transaction c' = some t → P c' t := by
  intro c' t ht
  by_cases hc : c' = c
  · subst hc
    rw [p.setTransaction_self] at ht
    exact hnext t ht
  · rw [p.setTransaction_of_ne hc] at ht
    exact h c' t ht

/-- A request keeps every transaction with its owner, if nobody else uses the connection. -/
theorem PoolEffect.owned (h : PoolEffect p c owner r p' ok settled) (hapart : Apart p c owner) (howned : Owned p) :
    Owned p' ∧ ∀ g ∈ settled, g.Unmixed := by
  cases h with
  | nothing => exact ⟨howned, nofun⟩
  | opens =>
    refine ⟨forall_setTransaction howned ?_, nofun⟩
    rintro t ⟨⟩
    exact nofun
  | commitsOne _ statement write =>
    refine ⟨howned, ?_⟩
    intro g hg
    obtain rfl := List.mem_singleton.mp hg
    refine ⟨owner, fun w hw => ?_⟩
    obtain rfl := List.mem_singleton.mp hw
    rfl
  | writes _ statement t write _ ht =>
    refine ⟨forall_setTransaction howned ?_, nofun⟩
    rintro t' ⟨⟩ w hw
    rcases List.mem_append.mp hw with hw | hw
    · exact howned c t ht w hw
    · obtain rfl := List.mem_singleton.mp hw
      exact (hapart.opener ht).symm
  | aborts t ht =>
    refine ⟨forall_setTransaction howned ?_, nofun⟩
    rintro t' ⟨⟩ w hw
    exact howned c t ht w hw
  | commits _ t _ ht =>
    refine ⟨forall_setTransaction howned nofun, ?_⟩
    intro g hg
    obtain rfl := List.mem_singleton.mp hg
    exact ⟨t.opener, howned c t ht⟩
  | discards _ t _ ht =>
    refine ⟨forall_setTransaction howned nofun, ?_⟩
    intro g hg
    obtain rfl := List.mem_singleton.mp hg
    exact ⟨t.opener, howned c t ht⟩

omit [DecidableEq o] in
/-- So does closing a connection. -/
theorem close_owned (h : p.close c = (p', settled)) (howned : Owned p) : Owned p' ∧ ∀ g ∈ settled, g.Unmixed := by
  unfold Pool.close at h
  split at h
  · cases h
    exact ⟨howned, nofun⟩
  · next t ht =>
    cases h
    refine ⟨forall_setTransaction howned nofun, ?_⟩
    intro g hg
    obtain rfl := List.mem_singleton.mp hg
    exact ⟨t.opener, howned c t ht⟩

end Users

end Kyneto.Sql
