import Kyneto.Evm.Basic

/-!
# Runs of a contract

A contract, or a system of contracts, is a `step` function from a state and a call to a new state
and the logs it emitted, or to a revert. This file has what is true of every such function: runs
over a list of calls (`run`), the successful calls of a run in order (`history`), conditions that
every call of a run meets (`Meets`), and the rules an invariant is proved with.

A reverted call leaves no trace, in the state or in the history, so the rules ask only about calls
that succeed.
-/

namespace Kyneto.Evm

variable {σ α ε : Type}

/-- One successful call of a run: the states around it and the logs it emitted. -/
structure Entry (σ α ε : Type) where
  pre : σ
  act : α
  logs : List ε
  post : σ

section Definitions

variable (step : σ → α → Tx (σ × List ε))

/-- The state after a call: a revert undoes everything. -/
def exec (s : σ) (a : α) : σ :=
  match step s a with
  | .ok (s', _) => s'
  | .error _ => s

/-- The state after a list of calls. -/
def run (s : σ) (as : List α) : σ := as.foldl (exec step) s

/-- The entry a single call leaves, if it succeeds. -/
def receipt (s : σ) (a : α) : List (Entry σ α ε) :=
  match step s a with
  | .ok (s', logs) => [⟨s, a, logs, s'⟩]
  | .error _ => []

/-- The successful calls of a run, oldest first. -/
def history (s : σ) : List α → List (Entry σ α ε)
  | [] => []
  | a :: as => receipt step s a ++ history (exec step s a) as

/-- The call goes through. -/
def Succeeds (s : σ) (a : α) : Prop := ∃ r, step s a = .ok r

/-- Every call of the run that goes through meets `C` in the state it is made in. -/
def Meets (C : σ → α → Prop) (s : σ) : List α → Prop
  | [] => True
  | a :: as => (Succeeds step s a → C s a) ∧ Meets C (exec step s a) as

/-- Every state of the run satisfies `P`, the first and the last included. -/
def Along (P : σ → Prop) (s : σ) : List α → Prop
  | [] => P s
  | a :: as => P s ∧ Along P (exec step s a) as

end Definitions

variable {step : σ → α → Tx (σ × List ε)}

/-! ## Prefixes of a list -/

section Prefixes

variable {ι : Type} {P : List ι → ι → Prop} {l : List ι} {a : ι}

theorem forall_prefix_nil : ∀ before b, before ++ [b] <+: [] → P before b := by
  intro before b hpre
  exact absurd (List.prefix_nil.mp hpre) (by simp)

/-- Every element is reached by a prefix: the first by the empty one, the others by one that begins
with it. -/
theorem forall_prefix_cons :
    (∀ before b, before ++ [b] <+: a :: l → P before b) ↔
      P [] a ∧ ∀ before b, before ++ [b] <+: l → P (a :: before) b := by
  constructor
  · intro h
    refine ⟨h [] a (List.cons_prefix_cons.mpr ⟨rfl, List.nil_prefix⟩), ?_⟩
    intro before b hpre
    exact h (a :: before) b (List.cons_prefix_cons.mpr ⟨rfl, hpre⟩)
  · rintro ⟨hfirst, hrest⟩ before b hpre
    cases before with
    | nil =>
      obtain ⟨rfl, -⟩ := List.cons_prefix_cons.mp hpre
      exact hfirst
    | cons c before =>
      obtain ⟨rfl, htail⟩ := List.cons_prefix_cons.mp hpre
      exact hrest before b htail

/-- What holds of every element and those before it holds of the old ones and of the last. -/
theorem forall_prefix_snoc :
    (∀ before b, before ++ [b] <+: l ++ [a] → P before b) ↔
      (∀ before b, before ++ [b] <+: l → P before b) ∧ P l a := by
  simp only [List.prefix_concat_iff]
  constructor
  · intro h
    exact ⟨fun before b hpre => h before b (Or.inr hpre), h l a (Or.inl rfl)⟩
  · rintro ⟨hall, hlast⟩ before b (heq | hpre)
    · obtain ⟨rfl, hsame⟩ := List.append_inj' heq rfl
      obtain rfl := List.singleton_inj.mp hsame
      exact hlast
    · exact hall before b hpre

end Prefixes

/-! ## Runs grow at the end -/

theorem exec_of_ok {s s' : σ} {a : α} {logs : List ε} (h : step s a = .ok (s', logs)) :
    exec step s a = s' := by
  simp [exec, h]

theorem exec_of_error {s : σ} {a : α} {e : Revert} (h : step s a = .error e) :
    exec step s a = s := by
  simp [exec, h]

@[simp] theorem run_nil (s : σ) : run step s [] = s := rfl

@[simp] theorem run_cons (s : σ) (a : α) (as : List α) :
    run step s (a :: as) = run step (exec step s a) as := rfl

theorem run_append (s : σ) (as bs : List α) :
    run step s (as ++ bs) = run step (run step s as) bs := by
  simp [run, List.foldl_append]

theorem run_snoc (s : σ) (as : List α) (a : α) :
    run step s (as ++ [a]) = exec step (run step s as) a := by
  rw [run_append, run_cons, run_nil]

theorem history_append (s : σ) (as bs : List α) :
    history step s (as ++ bs) = history step s as ++ history step (run step s as) bs := by
  induction as generalizing s with
  | nil => rfl
  | cons a as ih =>
    simp only [List.cons_append, history, run_cons, ih, List.append_assoc]

theorem history_snoc_ok {s s' : σ} {as : List α} {a : α} {logs : List ε}
    (h : step (run step s as) a = .ok (s', logs)) :
    history step s (as ++ [a]) = history step s as ++ [⟨run step s as, a, logs, s'⟩] := by
  simp [history_append, history, receipt, h]

theorem history_snoc_error {s : σ} {as : List α} {a : α} {e : Revert}
    (h : step (run step s as) a = .error e) :
    history step s (as ++ [a]) = history step s as := by
  simp [history_append, history, receipt, h]

theorem history_cons_ok {s s' : σ} {a : α} {logs : List ε} (h : step s a = .ok (s', logs)) (as : List α) :
    history step s (a :: as) = ⟨s, a, logs, s'⟩ :: history step s' as := by
  rw [history, exec_of_ok h]
  simp [receipt, h]

/-- Not more calls go through than are made. -/
theorem length_history_le (s : σ) (as : List α) : (history step s as).length ≤ as.length := by
  induction as generalizing s with
  | nil => exact Nat.le_refl 0
  | cons a as ih =>
    have hrest := ih (exec step s a)
    have hone : (receipt step s a).length ≤ 1 := by
      unfold receipt
      split <;> simp
    rw [history, List.length_append, List.length_cons]
    omega

theorem meets_append {C : σ → α → Prop} (s : σ) (as bs : List α) :
    Meets step C s (as ++ bs) ↔ Meets step C s as ∧ Meets step C (run step s as) bs := by
  induction as generalizing s with
  | nil => simp [Meets]
  | cons a as ih => simp only [List.cons_append, Meets, run_cons, ih, and_assoc]

theorem meets_snoc {C : σ → α → Prop} (s : σ) (as : List α) (a : α) :
    Meets step C s (as ++ [a]) ↔
      Meets step C s as ∧ (Succeeds step (run step s as) a → C (run step s as) a) := by
  simp [meets_append, Meets]

theorem meets_iff_before {C : σ → α → Prop} (s : σ) (as : List α) :
    Meets step C s as ↔ ∀ bs a, bs ++ [a] <+: as → Succeeds step (run step s bs) a → C (run step s bs) a := by
  induction as generalizing s with
  | nil => exact iff_of_true trivial forall_prefix_nil
  | cons a as ih =>
    rw [forall_prefix_cons, Meets, ih]
    rfl

theorem meets_true (s : σ) (as : List α) : Meets step (fun _ _ => True) s as := by
  induction as generalizing s with
  | nil => trivial
  | cons a as ih => exact ⟨fun _ => trivial, ih _⟩

/-- A condition that every call of the run meets in any state. -/
theorem meets_of_forall {C : σ → α → Prop} (s : σ) {as : List α} (h : ∀ a ∈ as, ∀ s, C s a) :
    Meets step C s as := by
  induction as generalizing s with
  | nil => trivial
  | cons a as ih =>
    refine ⟨fun _ => h a List.mem_cons_self s, ?_⟩
    exact ih _ fun b hb => h b (List.mem_cons_of_mem _ hb)

/-- A condition on the calls of a run is a condition on the entries of its history. -/
theorem meets_iff_history {C : σ → α → Prop} (s : σ) (as : List α) :
    Meets step C s as ↔ ∀ e ∈ history step s as, C e.pre e.act := by
  induction as generalizing s with
  | nil => simp [Meets, history]
  | cons a as ih =>
    simp only [Meets, history, ih, List.mem_append]
    cases h : step s a with
    | error e => simp [Succeeds, receipt, h]
    | ok r =>
      constructor
      · rintro ⟨ha, has⟩ e he
        rcases he with he | he
        · simp only [receipt, h, List.mem_singleton] at he
          subst he
          exact ha ⟨r, h⟩
        · exact has e he
      · intro hall
        constructor
        · intro _
          apply hall ⟨s, a, r.2, r.1⟩
          left
          simp [receipt, h]
        · intro e he
          exact hall e (Or.inr he)

/-- Every entry of a history is a call that went through. -/
theorem history_ok {s : σ} {as : List α} {e : Entry σ α ε} (he : e ∈ history step s as) :
    step e.pre e.act = .ok (e.post, e.logs) := by
  induction as generalizing s with
  | nil => cases he
  | cons a as ih =>
    rcases List.mem_append.mp he with he | he
    · unfold receipt at he
      split at he
      · next s' logs h =>
        obtain rfl := List.mem_singleton.mp he
        exact h
      · cases he
    · exact ih he

/-- What the history has in it was called. -/
theorem act_mem_of_history {s : σ} {as : List α} {e : Entry σ α ε} (he : e ∈ history step s as) :
    e.act ∈ as := by
  induction as generalizing s with
  | nil => cases he
  | cons a as ih =>
    rcases List.mem_append.mp he with he | he
    · unfold receipt at he
      split at he
      · obtain rfl := List.mem_singleton.mp he
        exact List.mem_cons_self
      · cases he
    · exact List.mem_cons_of_mem _ (ih he)

/-! ## Rules -/

/-- Induction over the successful calls of a run. The property speaks of the run's calls, so it can
mention the state they lead to and the history they leave; a reverted call changes neither. -/
theorem run_induction {P : σ → List (Entry σ α ε) → Prop} {C : σ → α → Prop} {s₀ : σ}
    (init : P s₀ [])
    (next : ∀ s hist a s' logs, P s hist → C s a → step s a = .ok (s', logs) →
      P s' (hist ++ [⟨s, a, logs, s'⟩]))
    (as : List α) (hC : Meets step C s₀ as) :
    P (run step s₀ as) (history step s₀ as) := by
  induction as using List.reverseRecOn with
  | nil => exact init
  | append_singleton as a ih =>
    obtain ⟨hC, ha⟩ := (meets_snoc s₀ as a).mp hC
    cases h : step (run step s₀ as) a with
    | error e =>
      rw [run_snoc, exec_of_error h, history_snoc_error h]
      exact ih hC
    | ok r =>
      obtain ⟨s', logs⟩ := r
      rw [run_snoc, exec_of_ok h, history_snoc_ok h]
      exact next _ _ _ _ _ (ih hC) (ha ⟨_, h⟩) h

/-- The time of the last call. -/
def lastTime (time : α → Nat) (as : List α) : Nat := (as.getLast?.map time).getD 0

/-- Before a further call, the clock has not passed its time. -/
theorem lastTime_le {time : α → Nat} {as : List α} {a : α}
    (hmono : (as ++ [a]).Pairwise fun a b => time a ≤ time b) : lastTime time as ≤ time a := by
  obtain ⟨-, -, hlast⟩ := List.pairwise_append.mp hmono
  unfold lastTime
  cases h : as.getLast? with
  | none => exact Nat.zero_le _
  | some b => exact hlast b (List.mem_of_getLast? h) a (List.mem_singleton_self a)

/-- Induction over a run whose calls come in the order of time. The property may mention the time; it
has to survive waiting as well as a call. -/
theorem timed_induction {time : α → Nat} {P : σ → List (Entry σ α ε) → Nat → Prop}
    {C : σ → α → Prop} {s₀ : σ} (init : P s₀ [] 0)
    (wait : ∀ s hist now later, now ≤ later → P s hist now → P s hist later)
    (next : ∀ s hist a s' logs, P s hist (time a) → C s a → step s a = .ok (s', logs) →
      P s' (hist ++ [⟨s, a, logs, s'⟩]) (time a))
    (as : List α) (hmono : as.Pairwise fun a b => time a ≤ time b) (hC : Meets step C s₀ as) :
    P (run step s₀ as) (history step s₀ as) (lastTime time as) := by
  induction as using List.reverseRecOn with
  | nil => exact init
  | append_singleton as a ih =>
    obtain ⟨hC, ha⟩ := (meets_snoc s₀ as a).mp hC
    -- the state before the call, at the time of the call
    have hP := wait _ _ _ _ (lastTime_le hmono) (ih (List.pairwise_append.mp hmono).1 hC)
    have htime : lastTime time (as ++ [a]) = time a := by simp [lastTime]
    rw [htime]
    cases h : step (run step s₀ as) a with
    | error e =>
      rw [run_snoc, exec_of_error h, history_snoc_error h]
      exact hP
    | ok r =>
      obtain ⟨s', logs⟩ := r
      rw [run_snoc, exec_of_ok h, history_snoc_ok h]
      exact next _ _ _ _ _ hP (ha ⟨_, h⟩) h

/-- An invariant holds in every state a run reaches, if every call that meets `C` keeps it. -/
theorem run_invariant {I : σ → Prop} {C : σ → α → Prop} {s₀ : σ} (init : I s₀)
    (next : ∀ s a s' logs, I s → C s a → step s a = .ok (s', logs) → I s')
    (as : List α) (hC : Meets step C s₀ as) : I (run step s₀ as) :=
  run_induction (P := fun s _ => I s) init (fun s _ a s' logs => next s a s' logs) as hC

/-- What a call does wherever an invariant holds, every call of a run does. -/
theorem forall_history {I : σ → Prop} {C : σ → α → Prop} {G : Entry σ α ε → Prop} {s₀ : σ} (init : I s₀)
    (next : ∀ s a s' logs, I s → C s a → step s a = .ok (s', logs) → I s' ∧ G ⟨s, a, logs, s'⟩)
    (as : List α) (hC : Meets step C s₀ as) : ∀ e ∈ history step s₀ as, G e := by
  have hrun : I (run step s₀ as) ∧ ∀ e ∈ history step s₀ as, G e := by
    apply run_induction (P := fun s hist => I s ∧ ∀ e ∈ hist, G e) _ _ as hC
    · exact ⟨init, fun e he => nomatch he⟩
    · intro s hist a s' logs h ha hstep
      obtain ⟨hnext, hlast⟩ := next s a s' logs h.1 ha hstep
      exact ⟨hnext, List.forall_mem_append.mpr ⟨h.2, List.forall_mem_singleton.mpr hlast⟩⟩
  exact hrun.2

/-- Where a call keeps `P` exactly if it meets `C`, all states of a run satisfy `P` exactly if all
its calls meet `C`. `I` is an invariant of its own that the step rule may use. -/
theorem along_iff_meets {P I : σ → Prop} {C : σ → α → Prop} {s₀ : σ}
    (initP : P s₀) (initI : I s₀)
    (nextI : ∀ s a s' logs, I s → step s a = .ok (s', logs) → I s')
    (exact : ∀ s a s' logs, I s → P s → step s a = .ok (s', logs) → (P s' ↔ C s a))
    (as : List α) :
    Along step P s₀ as ↔ Meets step C s₀ as := by
  induction as generalizing s₀ with
  | nil => simp [Along, Meets, initP]
  | cons a as ih =>
    have hI : I (exec step s₀ a) := by
      cases h : step s₀ a with
      | error e => rwa [exec_of_error h]
      | ok r => exact (exec_of_ok h) ▸ nextI s₀ a _ _ initI h
    have key : P (exec step s₀ a) ↔ (Succeeds step s₀ a → C s₀ a) := by
      cases h : step s₀ a with
      | error e => simp [exec_of_error h, Succeeds, h, initP]
      | ok r =>
        obtain ⟨s', logs⟩ := r
        simp [exec_of_ok h, Succeeds, h, exact s₀ a s' logs initI initP h]
    simp only [Along, Meets, initP, true_and]
    constructor
    · intro h
      have hP : P (exec step s₀ a) := by
        cases as with
        | nil => exact h
        | cons b bs => exact h.1
      exact ⟨key.mp hP, (ih hP hI).mp h⟩
    · rintro ⟨hC, h⟩
      have hP := key.mpr hC
      exact (ih hP hI).mpr h

/-- The rule for a property `G` of calls. Where `P` holds, a call satisfies `G` exactly if it meets `C`,
and `P` survives the calls that do. -/
theorem forall_history_iff {P : σ → Prop} {G : Entry σ α ε → Prop} {C : σ → α → Prop} {s₀ : σ} (init : P s₀)
    (exact : ∀ s a s' logs, P s → step s a = .ok (s', logs) → (G ⟨s, a, logs, s'⟩ ↔ C s a))
    (next : ∀ s a s' logs, P s → G ⟨s, a, logs, s'⟩ → step s a = .ok (s', logs) → P s') (as : List α) :
    (∀ e ∈ history step s₀ as, G e) ↔ Meets step C s₀ as := by
  induction as generalizing s₀ with
  | nil => simp [history, Meets]
  | cons a as ih =>
    cases h : step s₀ a with
    | error e =>
      have hreceipt : receipt step s₀ a = [] := by simp [receipt, h]
      have hfails : ¬ Succeeds step s₀ a := by simp [Succeeds, h]
      rw [history, hreceipt, List.nil_append, Meets, exec_of_error h, ih init]
      exact (and_iff_right fun hok => absurd hok hfails).symm
    | ok r =>
      obtain ⟨s', logs⟩ := r
      have hexact := exact s₀ a s' logs init h
      have hok : Succeeds step s₀ a := ⟨_, h⟩
      rw [history_cons_ok h, List.forall_mem_cons, Meets, exec_of_ok h, hexact]
      constructor
      · rintro ⟨hC, hrest⟩
        exact ⟨fun _ => hC, (ih (next s₀ a s' logs init (hexact.mpr hC) h)).mp hrest⟩
      · rintro ⟨hC, hrest⟩
        exact ⟨hC hok, (ih (next s₀ a s' logs init (hexact.mpr (hC hok)) h)).mpr hrest⟩

/-- Two properties hold along the same runs if they agree wherever `I` does, and `I` survives every
call made in a state with the second one. -/
theorem along_congr {P Q I : σ → Prop} {s₀ : σ} (init : I s₀) (agree : ∀ s, I s → (P s ↔ Q s))
    (next : ∀ s a s' logs, I s → Q s → step s a = .ok (s', logs) → I s') (as : List α) :
    Along step P s₀ as ↔ Along step Q s₀ as := by
  induction as generalizing s₀ with
  | nil => exact agree s₀ init
  | cons a as ih =>
    simp only [Along, agree s₀ init]
    apply and_congr_right
    intro hQ
    apply ih
    cases h : step s₀ a with
    | error e => rwa [exec_of_error h]
    | ok r =>
      rw [exec_of_ok h]
      exact next s₀ a _ _ init hQ h

/-- The rule of `along_iff_meets` for properties that look back: `P` and `I` may mention the history
up to the state, and `C` the history before the call. -/
theorem lookback_iff {P I : σ → List (Entry σ α ε) → Prop}
    {C : σ → List (Entry σ α ε) → α → Prop} {s₀ : σ} (initP : P s₀ []) (initI : I s₀ [])
    (nextI : ∀ s hist a s' logs, I s hist → step s a = .ok (s', logs) →
      I s' (hist ++ [⟨s, a, logs, s'⟩]))
    (exact : ∀ s hist a s' logs, I s hist → P s hist → step s a = .ok (s', logs) →
      (P s' (hist ++ [⟨s, a, logs, s'⟩]) ↔ C s hist a))
    (as : List α) :
    (∀ bs, bs <+: as → P (run step s₀ bs) (history step s₀ bs)) ↔
      ∀ bs a, bs ++ [a] <+: as → Succeeds step (run step s₀ bs) a →
        C (run step s₀ bs) (history step s₀ bs) a := by
  induction as using List.reverseRecOn with
  | nil => simp [history, initP]
  | append_singleton as a ih =>
    have hI : I (run step s₀ as) (history step s₀ as) :=
      run_induction (C := fun _ _ => True) initI
        (fun s hist a s' logs hI _ hs => nextI s hist a s' logs hI hs) as (meets_true s₀ as)
    -- the last call decides about the last state
    have last : P (run step s₀ as) (history step s₀ as) →
        (P (run step s₀ (as ++ [a])) (history step s₀ (as ++ [a])) ↔
          (Succeeds step (run step s₀ as) a → C (run step s₀ as) (history step s₀ as) a)) := by
      intro hP
      cases h : step (run step s₀ as) a with
      | error e =>
        rw [run_snoc, exec_of_error h, history_snoc_error h]
        simp [Succeeds, h, hP]
      | ok r =>
        obtain ⟨s', logs⟩ := r
        rw [run_snoc, exec_of_ok h, history_snoc_ok h]
        simp [Succeeds, h, exact _ _ _ _ _ hI hP h]
    rw [forall_prefix_snoc, ← ih]
    simp only [List.prefix_concat_iff]
    constructor
    · intro hall
      have hold : ∀ bs, bs <+: as → P (run step s₀ bs) (history step s₀ bs) := fun bs hbs => hall bs (Or.inr hbs)
      exact ⟨hold, (last (hold as (List.prefix_refl as))).mp (hall _ (Or.inl rfl))⟩
    · rintro ⟨hold, hlast⟩ bs (rfl | hbs)
      · exact (last (hold as (List.prefix_refl as))).mpr hlast
      · exact hold bs hbs

/-! ## Looking back -/

section Since

variable {ι : Type} {A B : ι → Prop} {l : List ι} {a : ι}

/-- `A` has happened, and not `B` after that. -/
def Since (A B : ι → Prop) (l : List ι) : Prop :=
  ∃ early e late, l = early ++ e :: late ∧ A e ∧ ∀ e' ∈ late, ¬ B e'

theorem not_since_nil : ¬ Since A B [] := by
  rintro ⟨early, e, late, heq, -⟩
  exact absurd heq.symm (by simp)

/-- With one more event at the end, it counts itself or does not stop what was before. -/
theorem since_snoc : Since A B (l ++ [a]) ↔ A a ∨ Since A B l ∧ ¬ B a := by
  constructor
  · rintro ⟨early, e, late, heq, he, hlate⟩
    induction late using List.reverseRecOn with
    | nil =>
      obtain ⟨-, hlast⟩ := List.append_inj' heq rfl
      obtain rfl := List.singleton_inj.mp hlast
      exact Or.inl he
    | append_singleton late b _ =>
      rw [← List.cons_append, ← List.append_assoc] at heq
      obtain ⟨rfl, hlast⟩ := List.append_inj' heq rfl
      obtain rfl := List.singleton_inj.mp hlast
      right
      refine ⟨⟨early, e, late, rfl, he, fun e' he' => hlate e' (List.mem_append_left _ he')⟩, ?_⟩
      exact hlate a (List.mem_append_right _ (List.mem_singleton_self a))
  · rintro (ha | ⟨⟨early, e, late, rfl, he, hlate⟩, ha⟩)
    · exact ⟨l, a, [], rfl, ha, nofun⟩
    · refine ⟨early, e, late ++ [a], by simp, he, fun e' he' => ?_⟩
      rcases List.mem_append.mp he' with he' | he'
      · exact hlate e' he'
      · obtain rfl := List.mem_singleton.mp he'
        exact ha

/-- With one more event at the start, it counts if nothing stops it later. -/
theorem since_cons : Since A B (a :: l) ↔ A a ∧ (∀ e ∈ l, ¬ B e) ∨ Since A B l := by
  constructor
  · rintro ⟨early, e, late, heq, he, hlate⟩
    cases early with
    | nil =>
      obtain ⟨rfl, rfl⟩ := List.cons.inj heq
      exact Or.inl ⟨he, hlate⟩
    | cons b early =>
      obtain ⟨rfl, rfl⟩ := List.cons.inj heq
      exact Or.inr ⟨early, e, late, rfl, he, hlate⟩
  · rintro (⟨ha, hlate⟩ | ⟨early, e, late, rfl, he, hlate⟩)
    · exact ⟨[], a, l, rfl, ha, hlate⟩
    · exact ⟨a :: early, e, late, rfl, he, hlate⟩

instance decidableSince [DecidablePred A] [DecidablePred B] : ∀ l : List ι, Decidable (Since A B l)
  | [] => isFalse not_since_nil
  | a :: l =>
    have := decidableSince l
    decidable_of_iff (A a ∧ (∀ e ∈ l, ¬ B e) ∨ Since A B l) since_cons.symm

/-- Between two `A` there is a `B`. -/
def Separated (A B : ι → Prop) (l : List ι) : Prop := ∀ before e, before ++ [e] <+: l → A e → ¬ Since A B before

theorem separated_nil : Separated A B [] := forall_prefix_nil

theorem separated_snoc : Separated A B (l ++ [a]) ↔ Separated A B l ∧ (A a → ¬ Since A B l) :=
  forall_prefix_snoc (P := fun before e => A e → ¬ Since A B before)

end Since

end Kyneto.Evm
