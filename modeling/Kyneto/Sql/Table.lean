import Mathlib.Data.List.Basic

/-!
# Tables

Rows in a list, and the statements that change them: insertion under a primary key, update, deletion. A statement that
violates a constraint, or names a column that the table does not have, fails and changes nothing.
-/

namespace Kyneto.Sql

inductive SqlError where
  | undefinedColumn (name : String)
  | notNull (column : String)
  | tooLong (column : String)
  | outOfRange (column : String)
  | invalidText (column : String)
  | uniqueKey
  | foreignKey (column : String)
  deriving DecidableEq, Repr

/-- The outcome of a statement. -/
abbrev Query := Except SqlError

def check (c : Prop) [Decidable c] (e : SqlError) : Query Unit := if c then .ok () else .error e

@[simp] theorem check_eq_ok {c : Prop} [Decidable c] {e : SqlError} {u : Unit} : check c e = .ok u ↔ c := by
  unfold check
  split <;> simp_all

/-- A value for a column that is declared `NOT NULL` and has no default. -/
def required {α : Type} (column : String) : Option α → Query α
  | some a => .ok a
  | none => .error (.notNull column)

/-- The columns that a statement names are looked up before it runs. -/
def resolve (columns : List String) : List String → Query Unit
  | [] => .ok ()
  | name :: rest => do
    check (name ∈ columns) (.undefinedColumn name)
    resolve columns rest

theorem resolve_eq_ok {columns names : List String} {u : Unit} :
    resolve columns names = .ok u ↔ ∀ name ∈ names, name ∈ columns := by
  induction names with
  | nil => simp [resolve]
  | cons name rest ih =>
    unfold resolve check
    by_cases h : name ∈ columns
    · simp [h, ih, bind, Except.bind]
    · simp [h, bind, Except.bind]

/-- A statement whose error is caught. -/
def caught {σ : Type} (s : σ) : Query σ → σ
  | .ok s' => s'
  | .error _ => s

/-- Statements one after the other, each on its own, up to the first error, which is caught. -/
def attempt {σ : Type} : List (σ → Query σ) → σ → σ
  | [], s => s
  | statement :: rest, s =>
    match statement s with
    | .ok s' => attempt rest s'
    | .error _ => s

section Attempts

variable {σ : Type} {s s' : σ} {statement : σ → Query σ} {rest : List (σ → Query σ)}

@[simp] theorem attempt_nil (s : σ) : attempt [] s = s := rfl

theorem attempt_of_ok (h : statement s = .ok s') : attempt (statement :: rest) s = attempt rest s' := by
  simp [attempt, h]

theorem attempt_of_fails (h : ∀ s', statement s ≠ .ok s') : attempt (statement :: rest) s = s := by
  cases hs : statement s with
  | ok s' => exact absurd hs (h s')
  | error e => simp [attempt, hs]

/-- What every statement keeps is kept, however far they get. -/
theorem attempt_induction {P : σ → Prop} {statements : List (σ → Query σ)} (init : P s)
    (next : ∀ statement ∈ statements, ∀ s s', P s → statement s = .ok s' → P s') : P (attempt statements s) := by
  induction statements generalizing s with
  | nil => exact init
  | cons statement rest ih =>
    unfold attempt
    split
    · next s' hok =>
      apply ih
      · exact next statement List.mem_cons_self s s' init hok
      · intro later hlater
        exact next later (List.mem_cons_of_mem _ hlater)
    · exact init

end Attempts

section Rows

variable {ρ κ : Type}

/-- `UPDATE … SET … WHERE …` -/
def update (cond : ρ → Bool) (set : ρ → ρ) (t : List ρ) : List ρ := t.map fun r => if cond r then set r else r

/-- An update that writes columns of the primary key. -/
def updateKeyed [DecidableEq κ] (key : ρ → κ) (cond : ρ → Bool) (set : ρ → ρ) (t : List ρ) : Query (List ρ) :=
  if ((update cond set t).map key).Nodup then .ok (update cond set t) else .error .uniqueKey

/-- `DELETE FROM … WHERE …` -/
def delete (cond : ρ → Bool) (t : List ρ) : List ρ := t.filter fun r => !cond r

/-- `INSERT INTO …`, with the primary key of a row. -/
def insert [DecidableEq κ] (key : ρ → κ) (row : ρ) (t : List ρ) : Query (List ρ) :=
  if ∀ r ∈ t, key r ≠ key row then .ok (t ++ [row]) else .error .uniqueKey

/-- `INSERT INTO … ON CONFLICT (key) DO UPDATE SET …` -/
def upsert [DecidableEq κ] (key : ρ → κ) (row : ρ) (set : ρ → ρ) (t : List ρ) : List ρ :=
  if ∀ r ∈ t, key r ≠ key row then t ++ [row] else update (fun r => key r = key row) set t

variable {cond : ρ → Bool} {set : ρ → ρ} {t t' : List ρ} {row : ρ}

theorem mem_update {r : ρ} :
    r ∈ update cond set t ↔ ∃ r₀ ∈ t, (if cond r₀ then set r₀ else r₀) = r := List.mem_map

@[simp] theorem mem_delete {r : ρ} : r ∈ delete cond t ↔ r ∈ t ∧ cond r = false := by
  simp [delete]

theorem insert_eq_ok [DecidableEq κ] {key : ρ → κ} :
    insert key row t = .ok t' ↔ (∀ r ∈ t, key r ≠ key row) ∧ t' = t ++ [row] := by
  unfold insert
  split
  · next h => rw [and_iff_right h, Except.ok.injEq, eq_comm]
  · next h => simp [h]

theorem updateKeyed_eq_ok [DecidableEq κ] {key : ρ → κ} :
    updateKeyed key cond set t = .ok t' ↔ ((update cond set t).map key).Nodup ∧ t' = update cond set t := by
  unfold updateKeyed
  split
  · next h => rw [and_iff_right h, Except.ok.injEq, eq_comm]
  · next h => simp [h]

/-- An update that keeps a column keeps all of its values. -/
theorem map_update {α : Type} {f : ρ → α} (hset : ∀ r, f (set r) = f r) :
    (update cond set t).map f = t.map f := by
  unfold update
  rw [List.map_map]
  apply List.map_congr_left
  intro r _
  show f (if cond r then set r else r) = f r
  split
  · exact hset r
  · rfl

/-- Rows that are selected by what an update does not write. -/
theorem filter_update {q : ρ → Bool} (hset : ∀ r, q (set r) = q r) :
    (update cond set t).filter q = update cond set (t.filter q) := by
  have hsame : (q ∘ fun r => if cond r then set r else r) = q := by
    funext r
    show q (if cond r then set r else r) = q r
    split
    · exact hset r
    · rfl
  unfold update
  rw [List.filter_map, hsame]

theorem update_of_forall (h : ∀ r ∈ t, cond r = true) : update cond set t = t.map set :=
  List.map_congr_left fun r hr => if_pos (h r hr)

theorem update_of_none (h : ∀ r ∈ t, cond r = false) : update cond set t = t :=
  (List.map_congr_left fun r hr => by simp [h r hr]).trans (List.map_id t)

end Rows

end Kyneto.Sql
