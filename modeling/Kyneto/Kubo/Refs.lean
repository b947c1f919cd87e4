import Kyneto.Kubo.GarbageCollection
import Mathlib.Data.List.Nodup

/-!
# `ipfs refs`

The command goes down the links of some roots and writes every link that it follows. With a limit on the depth and
`unique`, it notes for every identifier how deep it was when it was seen, and goes down from it once more when it comes
by it higher up.

What is to be written does not mention any of this: `refs_written_iff` says that it is what can be reached from a root
by some links, and by no more than the limit. `refs_real` is about what happens when blocks are missing: what is written
is still there, and with `unique` it is written once.

A link that is written stands for its line of text, which puts the two identifiers and the name into a format.
-/

namespace Kyneto

namespace Kubo

structure Link where
  name : String
  cid : Cid
  deriving DecidableEq, Repr

/-- Blocks with their links, and what it says when a block is asked for and cannot be had. -/
structure NodeGetter where
  links : Cid → List Link
  height : Cid → Nat
  height_lt : ∀ {c l}, l ∈ links c → height l.cid < height c
  get : Cid → Option String

structure RefWriter where
  DAG : NodeGetter
  Unique : Bool
  MaxDepth : Int

structure RefEdge where
  src : Cid
  dst : Cid
  linkname : String
  deriving DecidableEq, Repr

inductive RefError where
  | get (text : String)
  | stuck                     -- out of fuel; the source has no such error
  deriving DecidableEq, Repr

inductive RefWrapper where
  | ref (edge : RefEdge)
  | err (e : RefError)
  deriving DecidableEq, Repr

/-- The part of the writer that changes, with what it has written. -/
structure RefState where
  seen : Cid → Option Nat := fun _ => none
  emitted : List RefWrapper := []

structure RefResult where
  count : Nat
  err : Option RefError
  st : RefState

section Definitions

variable (rw : RefWriter)

def RefState.see (st : RefState) (c : Cid) (depth : Nat) : RefState :=
  { st with seen := Function.update st.seen c (some depth) }

def RefState.Emit (st : RefState) (w : RefWrapper) : RefState :=
  { st with emitted := st.emitted ++ [w] }

def RefState.WriteEdge (st : RefState) (src dst : Cid) (linkname : String) : RefState :=
  st.Emit (.ref ⟨src, dst, linkname⟩)

/-- Whether to go deeper, and whether to write. -/
def RefWriter.visit (c : Cid) (depth : Nat) (st : RefState) : Bool × Bool × RefState :=
  let atMaxDepth : Bool := 0 ≤ rw.MaxDepth ∧ depth = rw.MaxDepth
  let overMaxDepth : Bool := 0 ≤ rw.MaxDepth ∧ rw.MaxDepth < depth
  if overMaxDepth then (false, false, st)
  else if ¬ rw.Unique then (!atMaxDepth, true, st)
  else
    match st.seen c with
    | some oldDepth =>
      if rw.MaxDepth < 0 ∨ oldDepth ≤ depth then (false, false, st) else (!atMaxDepth, false, st.see c depth)
    | none => (!atMaxDepth, true, st.see c depth)

/-- The loop over the links of a node. -/
def RefWriter.writeLinks (recurse : Cid → Nat → RefState → RefResult) (nc : Cid) (depth : Nat) :
    List Link → RefState → RefResult
  | [], st => ⟨0, none, st⟩
  | l :: links, st =>
    let (goDeeper, shouldWrite, st) := rw.visit l.cid (depth + 1) st
    if !shouldWrite && !goDeeper then writeLinks recurse nc depth links st
    else
      match rw.DAG.get l.cid with
      | some text => ⟨0, some (.get text), st⟩
      | none =>
        let st := if shouldWrite then st.WriteEdge nc l.cid l.name else st
        let count := if shouldWrite then 1 else 0
        let deeper := if goDeeper then recurse l.cid (depth + 1) st else ⟨0, none, st⟩
        match deeper.err with
        | some e => ⟨count + deeper.count, some e, deeper.st⟩
        | none =>
          let rest := writeLinks recurse nc depth links deeper.st
          ⟨count + deeper.count + rest.count, rest.err, rest.st⟩

/-- The fuel is for the height of the node. -/
def RefWriter.writeRefsRecursive : Nat → Cid → Nat → RefState → RefResult
  | 0, _, _, st => ⟨0, some .stuck, st⟩
  | fuel + 1, n, depth, st => rw.writeLinks (writeRefsRecursive fuel) n depth (rw.DAG.links n) st

def RefWriter.WriteRefs (c : Cid) (st : RefState) : RefResult :=
  match rw.DAG.get c with
  | some text => ⟨0, some (.get text), st⟩
  | none => rw.writeRefsRecursive (rw.DAG.height c + 1) c 0 st

/-- The command goes on to the next root when one fails, with what it has seen. -/
def RefWriter.run : List Cid → RefState → RefState
  | [], st => st
  | o :: objs, st =>
    let r := rw.WriteRefs o st
    match r.err with
    | some e => run objs (r.st.Emit (.err e))
    | none => run objs r.st

end Definitions

/-! ## Paths and depths -/

section Proofs

variable {rw : RefWriter} {c d n root : Cid} {k depth : Nat} {l : Link} {links : List Link}
variable {st st' st'' : RefState} {e : Option RefError}

/-- `d` is `k` links below `c`. -/
inductive Path (dag : NodeGetter) : Cid → Nat → Cid → Prop where
  | refl (c : Cid) : Path dag c 0 c
  | link {c d : Cid} {k : Nat} {l : Link} : l ∈ dag.links c → Path dag l.cid k d → Path dag c (k + 1) d

theorem Path.snoc {dag : NodeGetter} (h : Path dag c k d) (hl : l ∈ dag.links d) : Path dag c (k + 1) l.cid := by
  induction h with
  | refl c => exact .link hl (.refl l.cid)
  | link hfirst _ ih => exact .link hfirst (ih hl)

/-- Nodes at this depth are looked at. -/
def RefWriter.Within (rw : RefWriter) (depth : Nat) : Prop := rw.MaxDepth < 0 ∨ depth ≤ rw.MaxDepth

instance : Decidable (rw.Within depth) := inferInstanceAs (Decidable (_ ∨ _))

/-- What a visit at some depth finds, and what it notes. -/
inductive Visits (rw : RefWriter) (c : Cid) (depth : Nat) (st : RefState) : Bool × Bool × RefState → Prop where
  | tooDeep : ¬ rw.Within depth → Visits rw c depth st (false, false, st)
  | plain : rw.Unique = false → rw.Within depth → Visits rw c depth st (decide (rw.Within (depth + 1)), true, st)
  | pruned {old : Nat} : rw.Unique = true → st.seen c = some old → rw.MaxDepth < 0 ∨ old ≤ depth →
      Visits rw c depth st (false, false, st)
  | again {old : Nat} : rw.Unique = true → rw.Within depth → st.seen c = some old → depth < old →
      Visits rw c depth st (decide (rw.Within (depth + 1)), false, st.see c depth)
  | fresh : rw.Unique = true → rw.Within depth → st.seen c = none →
      Visits rw c depth st (decide (rw.Within (depth + 1)), true, st.see c depth)

/-- What a visit decides, in all combinations of `unique` and a limit. -/
theorem visit_visits (rw : RefWriter) (c : Cid) (depth : Nat) (st : RefState) :
    Visits rw c depth st (rw.visit c depth st) := by
  by_cases hwithin : rw.Within depth
  · have hover : ¬ (0 ≤ rw.MaxDepth ∧ rw.MaxDepth < depth) := by
      unfold RefWriter.Within at hwithin
      omega
    have hdeeper : (!decide (0 ≤ rw.MaxDepth ∧ (depth : Int) = rw.MaxDepth)) = decide (rw.Within (depth + 1)) := by
      rw [← decide_not]
      refine decide_eq_decide.mpr ?_
      unfold RefWriter.Within at *
      omega
    unfold RefWriter.visit
    simp only [decide_eq_true_eq, if_neg hover, hdeeper]
    cases hunique : rw.Unique with
    | false =>
      rw [if_pos (by decide)]
      exact .plain hunique hwithin
    | true =>
      rw [if_neg (by decide)]
      cases hseen : st.seen c with
      | none => exact .fresh hunique hwithin hseen
      | some old =>
        by_cases hprune : rw.MaxDepth < 0 ∨ old ≤ depth
        · simp only [if_pos hprune]
          exact .pruned hunique hseen hprune
        · simp only [if_neg hprune]
          exact .again hunique hwithin hseen (by omega)
  · have hover : 0 ≤ rw.MaxDepth ∧ rw.MaxDepth < depth := by
      unfold RefWriter.Within at hwithin
      omega
    unfold RefWriter.visit
    simp only [decide_eq_true_eq, if_pos hover]
    exact .tooDeep hwithin

theorem within_of_deeper {write : Bool} (hvisit : rw.visit c depth st = (true, write, st')) :
    rw.Within (depth + 1) := by
  have hcases := visit_visits rw c depth st
  rw [hvisit] at hcases
  generalize hdeeper : true = deeper at hcases
  cases hcases with
  | tooDeep _ | pruned _ _ _ => cases hdeeper
  | plain _ _ | again _ _ _ _ | fresh _ _ _ => exact decide_eq_true_eq.mp hdeeper.symm

/-! ## Walks -/

def RefState.writeIf (st : RefState) (write : Bool) (src : Cid) (l : Link) : RefState :=
  if write then st.WriteEdge src l.cid l.name else st

/-- A walk over some links of `n`, with all that is below them; if it ends early, `e` says why. -/
inductive Writes (rw : RefWriter) : Cid → Nat → List Link → RefState → Option RefError → RefState → Prop where
  | done (n : Cid) (depth : Nat) (st : RefState) : Writes rw n depth [] st none st
  | skip {n depth l links st st₁ e st'} : rw.visit l.cid (depth + 1) st = (false, false, st₁) →
      Writes rw n depth links st₁ e st' → Writes rw n depth (l :: links) st e st'
  | missing {n depth l links st deeper write st₁ text} : rw.visit l.cid (depth + 1) st = (deeper, write, st₁) →
      (write || deeper) = true → rw.DAG.get l.cid = some text →
      Writes rw n depth (l :: links) st (some (.get text)) st₁
  | leaf {n depth l links st st₁ e st'} : rw.visit l.cid (depth + 1) st = (false, true, st₁) →
      rw.DAG.get l.cid = none → Writes rw n depth links (st₁.writeIf true n l) e st' →
      Writes rw n depth (l :: links) st e st'
  | stopped {n depth l links st write st₁ e st'} : rw.visit l.cid (depth + 1) st = (true, write, st₁) →
      rw.DAG.get l.cid = none →
      Writes rw l.cid (depth + 1) (rw.DAG.links l.cid) (st₁.writeIf write n l) (some e) st' →
      Writes rw n depth (l :: links) st (some e) st'
  | deeper {n depth l links st write st₁ st₂ e st'} : rw.visit l.cid (depth + 1) st = (true, write, st₁) →
      rw.DAG.get l.cid = none →
      Writes rw l.cid (depth + 1) (rw.DAG.links l.cid) (st₁.writeIf write n l) none st₂ →
      Writes rw n depth links st₂ e st' → Writes rw n depth (l :: links) st e st'

/-- If the calls further down write what they should, then so do the calls for a list of links. -/
theorem writeLinks_writes {recurse : Cid → Nat → RefState → RefResult} {bound : Nat}
    (hrecurse : ∀ c depth st, rw.DAG.height c < bound →
      Writes rw c depth (rw.DAG.links c) st (recurse c depth st).err (recurse c depth st).st) :
    ∀ {links : List Link} {st : RefState}, (∀ l ∈ links, rw.DAG.height l.cid < bound) →
      Writes rw n depth links st (rw.writeLinks recurse n depth links st).err
        (rw.writeLinks recurse n depth links st).st
  | [], st, _ => .done n depth st
  | l :: links, st, hheight => by
    have hrest : ∀ {st : RefState}, Writes rw n depth links st (rw.writeLinks recurse n depth links st).err
        (rw.writeLinks recurse n depth links st).st :=
      writeLinks_writes hrecurse fun other hother => hheight other (List.mem_cons_of_mem l hother)
    unfold RefWriter.writeLinks
    cases hvisit : rw.visit l.cid (depth + 1) st with
    | mk deeper visited =>
      obtain ⟨write, st₁⟩ := visited
      cases hget : rw.DAG.get l.cid with
      | some text =>
        cases write <;> cases deeper
        · exact .skip hvisit hrest
        · exact .missing hvisit rfl hget
        · exact .missing hvisit rfl hget
        · exact .missing hvisit rfl hget
      | none =>
        cases deeper with
        | false =>
          cases write with
          | false => exact .skip hvisit hrest
          | true => exact .leaf hvisit hget hrest
        | true =>
          have hdeeper := hrecurse l.cid (depth + 1) (st₁.writeIf write n l) (hheight l List.mem_cons_self)
          have hon : ¬ (!write && !true) = true := by cases write <;> decide
          simp only [if_neg hon, if_true]
          unfold RefState.writeIf at hdeeper
          split
          · next e herr =>
            rw [herr] at hdeeper
            exact .stopped hvisit hget hdeeper
          · next herr =>
            rw [herr] at hdeeper
            exact .deeper hvisit hget hdeeper hrest

theorem writeRefsRecursive_writes : ∀ (fuel : Nat) (c : Cid) (depth : Nat) (st : RefState), rw.DAG.height c < fuel →
    Writes rw c depth (rw.DAG.links c) st (rw.writeRefsRecursive fuel c depth st).err
      (rw.writeRefsRecursive fuel c depth st).st
  | 0, _, _, _, hfuel => absurd hfuel (Nat.not_lt_zero _)
  | fuel + 1, _, _, _, hfuel =>
    writeLinks_writes (writeRefsRecursive_writes fuel) fun _ hl =>
      Nat.lt_of_lt_of_le (rw.DAG.height_lt hl) (Nat.le_of_lt_succ hfuel)

/-! ### What is written is there -/

def dsts (out : List RefWrapper) : List Cid :=
  out.filterMap fun
    | .ref edge => some edge.dst
    | .err _ => none

/-- The edge is a link, of a node that is less deep than the limit below one of the roots. -/
def RefEdge.Real (rw : RefWriter) (roots : List Cid) (edge : RefEdge) : Prop :=
  (∃ root ∈ roots, ∃ k, Path rw.DAG root k edge.src ∧ rw.Within (k + 1)) ∧
    ⟨edge.linkname, edge.dst⟩ ∈ rw.DAG.links edge.src

/-- The error is that of a node that the limit lets the command come to. -/
def RefError.Real (rw : RefWriter) (roots : List Cid) (err : RefError) : Prop :=
  ∃ root ∈ roots, ∃ k c text, Path rw.DAG root k c ∧ (k = 0 ∨ rw.Within k) ∧ rw.DAG.get c = some text ∧
    err = .get text

structure Listed (rw : RefWriter) (roots : List Cid) (st : RefState) : Prop where
  real : ∀ edge, .ref edge ∈ st.emitted → edge.Real rw roots
  failed : ∀ err, .err err ∈ st.emitted → err.Real rw roots
  seen : rw.Unique = true → ∀ c ∈ dsts st.emitted, st.seen c ≠ none
  nodup : rw.Unique = true → (dsts st.emitted).Nodup

variable {roots : List Cid}

theorem dsts_ref (out : List RefWrapper) (edge : RefEdge) : dsts (out ++ [.ref edge]) = dsts out ++ [edge.dst] := by
  simp [dsts]

theorem dsts_err (out : List RefWrapper) (err : RefError) : dsts (out ++ [.err err]) = dsts out := by
  simp [dsts]

theorem seen_see_self (st : RefState) : (st.see c depth).seen c = some depth := Function.update_self ..

theorem seen_see_of_ne (st : RefState) (h : d ≠ c) : (st.see c depth).seen d = st.seen d := Function.update_of_ne h ..

theorem seen_see_ne_none (st : RefState) (hseen : st.seen d ≠ none) : (st.see c depth).seen d ≠ none := by
  by_cases hd : d = c
  · rw [hd, seen_see_self]
    exact nofun
  · rwa [seen_see_of_ne st hd]

theorem Listed.see (h : Listed rw roots st) : Listed rw roots (st.see c depth) where
  real := h.real
  failed := h.failed
  seen hunique d hd := seen_see_ne_none st (h.seen hunique d hd)
  nodup := h.nodup

/-- A real edge that has not been written yet can be written. -/
theorem Listed.writeEdge (h : Listed rw roots st) (hreal : RefEdge.Real rw roots ⟨n, l.cid, l.name⟩)
    (hnew : rw.Unique = true → st.seen l.cid ≠ none ∧ l.cid ∉ dsts st.emitted) :
    Listed rw roots (st.WriteEdge n l.cid l.name) where
  real edge hedge := by
    cases List.mem_append.mp hedge with
    | inl hold => exact h.real edge hold
    | inr hlast =>
      cases List.mem_singleton.mp hlast
      exact hreal
  failed err herr := by
    cases List.mem_append.mp herr with
    | inl hold => exact h.failed err hold
    | inr hlast => cases List.mem_singleton.mp hlast
  seen hunique d hd := by
    rw [RefState.WriteEdge, RefState.Emit, dsts_ref, List.mem_append, List.mem_singleton] at hd
    rcases hd with hold | rfl
    · exact h.seen hunique d hold
    · exact (hnew hunique).1
  nodup hunique := by
    rw [RefState.WriteEdge, RefState.Emit, dsts_ref]
    refine List.nodup_append.mpr ⟨h.nodup hunique, List.nodup_singleton l.cid, fun d hd d' hd' heq => ?_⟩
    rw [heq, List.mem_singleton.mp hd'] at hd
    exact (hnew hunique).2 hd

/-- After a visit, and after what it says is written. -/
theorem Listed.visit {deeper write : Bool} (h : Listed rw roots st) (hn : ∃ root ∈ roots, Path rw.DAG root depth n)
    (hl : l ∈ rw.DAG.links n) (hvisit : rw.visit l.cid (depth + 1) st = (deeper, write, st')) :
    Listed rw roots st' ∧ Listed rw roots (st'.writeIf write n l) := by
  have hreal : rw.Within (depth + 1) → RefEdge.Real rw roots ⟨n, l.cid, l.name⟩ := fun hwithin =>
    ⟨hn.imp fun root hroot => ⟨hroot.1, depth, hroot.2, hwithin⟩, hl⟩
  have hcases := visit_visits rw l.cid (depth + 1) st
  rw [hvisit] at hcases
  cases hcases with
  | tooDeep _ | pruned _ _ _ => exact ⟨h, h⟩
  | plain hplain hwithin =>
    refine ⟨h, h.writeEdge (hreal hwithin) fun hunique => ?_⟩
    rw [hplain] at hunique
    cases hunique
  | again _ _ _ _ => exact ⟨h.see, h.see⟩
  | fresh hunique hwithin hseen =>
    refine ⟨h.see, h.see.writeEdge (hreal hwithin) fun _ => ⟨?_, fun hmem => h.seen hunique l.cid hmem hseen⟩⟩
    rw [seen_see_self]
    exact nofun

/-- Writing the links of a node that is reached keeps the list real. -/
theorem Writes.listed (h : Writes rw n depth links st e st') (hst : Listed rw roots st)
    (hn : ∃ root ∈ roots, Path rw.DAG root depth n) (hlinks : ∀ l ∈ links, l ∈ rw.DAG.links n) :
    Listed rw roots st' := by
  induction h with
  | done n depth st => exact hst
  | @skip n depth l _ _ _ _ _ hvisit _ ih =>
    exact ih (hst.visit hn (hlinks l List.mem_cons_self) hvisit).1 hn fun l' hl' =>
      hlinks l' (List.mem_cons_of_mem _ hl')
  | @missing n depth l _ _ _ _ _ _ hvisit _ _ => exact (hst.visit hn (hlinks l List.mem_cons_self) hvisit).1
  | @leaf n depth l _ _ _ _ _ hvisit _ _ ih =>
    exact ih (hst.visit hn (hlinks l List.mem_cons_self) hvisit).2 hn fun l' hl' =>
      hlinks l' (List.mem_cons_of_mem _ hl')
  | @stopped n depth l _ _ _ _ _ _ hvisit _ _ ih =>
    have hl := hlinks l List.mem_cons_self
    exact ih (hst.visit hn hl hvisit).2 (hn.imp fun root hroot => ⟨hroot.1, hroot.2.snoc hl⟩) fun _ hl' => hl'
  | @deeper n depth l _ _ _ _ _ _ _ hvisit _ _ _ ihdeeper ih =>
    have hl := hlinks l List.mem_cons_self
    have hdeeper := ihdeeper (hst.visit hn hl hvisit).2 (hn.imp fun root hroot => ⟨hroot.1, hroot.2.snoc hl⟩)
      fun _ hl' => hl'
    exact ih hdeeper hn fun l' hl' => hlinks l' (List.mem_cons_of_mem _ hl')

/-- A walk only ends early for a node within the limit that cannot be had. -/
theorem Writes.failed (h : Writes rw n depth links st e st') (hn : Path rw.DAG root depth n)
    (hlinks : ∀ l ∈ links, l ∈ rw.DAG.links n) {err : RefError} (herr : e = some err) :
    ∃ k c text, Path rw.DAG root k c ∧ rw.Within k ∧ rw.DAG.get c = some text ∧ err = .get text := by
  induction h with
  | done n depth st => cases herr
  | skip hvisit _ ih | leaf hvisit _ _ ih =>
    exact ih hn (fun l' hl' => hlinks l' (List.mem_cons_of_mem _ hl')) herr
  | @missing n depth l _ st _ _ _ _ hvisit hlook hget =>
    cases herr
    refine ⟨depth + 1, l.cid, _, hn.snoc (hlinks l List.mem_cons_self), ?_, hget, rfl⟩
    have hcases := visit_visits rw l.cid (depth + 1) st
    rw [hvisit] at hcases
    cases hcases with
    | tooDeep _ | pruned _ _ _ => cases hlook
    | plain _ hwithin | again _ hwithin _ _ | fresh _ hwithin _ => exact hwithin
  | @stopped n depth l _ _ _ _ _ _ hvisit _ _ ih =>
    exact ih (hn.snoc (hlinks l List.mem_cons_self)) (fun _ hl' => hl') herr
  | deeper hvisit _ _ _ _ ih => exact ih hn (fun l' hl' => hlinks l' (List.mem_cons_of_mem _ hl')) herr

/-! ### What is there is written -/

/-- The node has been looked at, and not too deep down. -/
def Covers (rw : RefWriter) (seen : Cid → Option Nat) (c : Cid) (depth : Nat) : Prop :=
  ∃ d, seen c = some d ∧ (rw.MaxDepth < 0 ∨ d ≤ depth)

/-- What has been seen at a new depth has been explored from there. -/
structure Explores (rw : RefWriter) (seen seen' : Cid → Option Nat) : Prop where
  covers : ∀ c depth, Covers rw seen c depth → Covers rw seen' c depth
  explored : ∀ c d, seen' c = some d →
    seen c = some d ∨ (rw.Within (d + 1) → ∀ l ∈ rw.DAG.links c, Covers rw seen' l.cid (d + 1))

variable {seen seen' seen'' : Cid → Option Nat}

theorem Explores.refl (rw : RefWriter) (seen : Cid → Option Nat) : Explores rw seen seen where
  covers _ _ h := h
  explored _ _ h := .inl h

theorem Explores.trans (h : Explores rw seen seen') (h' : Explores rw seen' seen'') : Explores rw seen seen'' where
  covers c depth hc := h'.covers c depth (h.covers c depth hc)
  explored c d hd := by
    cases h'.explored c d hd with
    | inr hnew => exact .inr hnew
    | inl hmid =>
      cases h.explored c d hmid with
      | inl hold => exact .inl hold
      | inr hnew => exact .inr fun hwithin l hl => h'.covers l.cid (d + 1) (hnew hwithin l hl)

/-- Seeing a node higher up than before keeps what is covered, if its links are covered again. -/
theorem explores_see (hunder : ∀ old, seen c = some old → depth < old)
    (h : Explores rw (Function.update seen c (some depth)) seen')
    (hlinks : rw.Within (depth + 1) → ∀ l ∈ rw.DAG.links c, Covers rw seen' l.cid (depth + 1)) :
    Explores rw seen seen' ∧ Covers rw seen' c depth := by
  have hself : Function.update seen c (some depth) c = some depth := Function.update_self ..
  refine ⟨⟨fun d depth' hd => h.covers d depth' ?_, fun d depth' hd => ?_⟩,
    h.covers c depth ⟨depth, hself, .inr (Nat.le_refl _)⟩⟩
  · obtain ⟨old, hold, hle⟩ := hd
    by_cases heq : d = c
    · subst heq
      have hlt := hunder old hold
      exact ⟨depth, hself, hle.imp_right (by omega)⟩
    · exact ⟨old, (Function.update_of_ne heq ..).trans hold, hle⟩
  · cases h.explored d depth' hd with
    | inr hnew => exact .inr hnew
    | inl hmid =>
      by_cases heq : d = c
      · subst heq
        rw [hself] at hmid
        cases hmid
        exact .inr hlinks
      · rw [Function.update_of_ne heq] at hmid
        exact .inl hmid

@[simp] theorem seen_writeIf (st : RefState) (write : Bool) (n : Cid) (l : Link) :
    (st.writeIf write n l).seen = st.seen := by
  cases write <;> rfl

/-- So a visit covers the node down to the limit, provided that its links are covered when it goes deeper. -/
theorem explores_visit {deeper write : Bool} (hunique : rw.Unique = true)
    (hvisit : rw.visit c depth st = (deeper, write, st')) (h : Explores rw st'.seen seen)
    (hlinks : deeper = true → ∀ l ∈ rw.DAG.links c, Covers rw seen l.cid (depth + 1)) :
    Explores rw st.seen seen ∧ (rw.Within depth → Covers rw seen c depth) := by
  have hcases := visit_visits rw c depth st
  rw [hvisit] at hcases
  cases hcases with
  | tooDeep hover => exact ⟨h, fun hwithin => absurd hwithin hover⟩
  | plain hplain _ =>
    rw [hunique] at hplain
    cases hplain
  | pruned _ hseen hle => exact ⟨h, fun _ => h.covers c depth ⟨_, hseen, hle⟩⟩
  | again _ _ hseen hlt =>
    refine (explores_see (fun old hold => ?_) h fun hwithin => hlinks (decide_eq_true hwithin)).imp_right fun hc _ => hc
    rw [hseen] at hold
    cases hold
    exact hlt
  | fresh _ _ hseen =>
    refine (explores_see (fun old hold => ?_) h fun hwithin => hlinks (decide_eq_true hwithin)).imp_right fun hc _ => hc
    rw [hseen] at hold
    cases hold

/-- A walk that comes to its end: with `unique` it has explored what it saw, and has written it. -/
structure Walked (rw : RefWriter) (depth : Nat) (links : List Link) (st st' : RefState) : Prop where
  explores : Explores rw st.seen st'.seen
  covers : rw.Within (depth + 1) → ∀ l ∈ links, Covers rw st'.seen l.cid (depth + 1)
  written : ∀ c, st'.seen c ≠ none → st.seen c ≠ none ∨ c ∈ dsts st'.emitted
  kept : ∀ c ∈ dsts st.emitted, c ∈ dsts st'.emitted

theorem dsts_writeIf_true (st : RefState) (n : Cid) (l : Link) :
    dsts (st.writeIf true n l).emitted = dsts st.emitted ++ [l.cid] := dsts_ref ..

/-- What is written stays written. -/
theorem kept_visit {deeper write : Bool} (hvisit : rw.visit l.cid (depth + 1) st = (deeper, write, st')) :
    ∀ c ∈ dsts st.emitted, c ∈ dsts (st'.writeIf write n l).emitted := by
  intro c hc
  have hemitted : st'.emitted = st.emitted := by
    have hcases := visit_visits rw l.cid (depth + 1) st
    rw [hvisit] at hcases
    cases hcases <;> rfl
  cases write with
  | false => exact hemitted ▸ hc
  | true =>
    rw [dsts_writeIf_true, hemitted]
    exact List.mem_append_left _ hc

/-- With `unique`, a node is noted and written at the same time. -/
theorem written_visit {deeper write : Bool} (hunique : rw.Unique = true)
    (hvisit : rw.visit l.cid (depth + 1) st = (deeper, write, st')) (hseen : st'.seen c ≠ none) :
    st.seen c ≠ none ∨ c ∈ dsts (st'.writeIf write n l).emitted := by
  have hcases := visit_visits rw l.cid (depth + 1) st
  rw [hvisit] at hcases
  cases hcases with
  | tooDeep _ | pruned _ _ _ => exact .inl hseen
  | plain hplain _ =>
    rw [hunique] at hplain
    cases hplain
  | again _ _ hold _ =>
    by_cases heq : c = l.cid
    · rw [heq, hold]
      exact .inl nofun
    · rw [seen_see_of_ne st heq] at hseen
      exact .inl hseen
  | fresh _ _ _ =>
    by_cases heq : c = l.cid
    · rw [dsts_writeIf_true, heq]
      exact .inr (List.mem_append_right _ (List.mem_singleton_self _))
    · rw [seen_see_of_ne st heq] at hseen
      exact .inl hseen

/-- A visit, the walk below what it found, and the rest of the walk. -/
theorem Walked.visit {deeper write : Bool} {st₁ st₂ : RefState} (hunique : rw.Unique = true)
    (hvisit : rw.visit l.cid (depth + 1) st = (deeper, write, st₁))
    (hdeeper : Walked rw (depth + 1) (if deeper then rw.DAG.links l.cid else []) (st₁.writeIf write n l) st₂)
    (h : Walked rw depth links st₂ st') (hwithin : deeper = true → rw.Within (depth + 2)) :
    Walked rw depth (l :: links) st st' := by
  have hexplores : Explores rw st₁.seen st₂.seen := by simpa using hdeeper.explores
  obtain ⟨hfirst, hcovers⟩ := explores_visit hunique hvisit hexplores fun hd other hother => by
    subst hd
    exact hdeeper.covers (hwithin rfl) other hother
  constructor
  · exact hfirst.trans h.explores
  · intro hnear other hother
    cases List.mem_cons.mp hother with
    | inl heq => exact heq ▸ h.explores.covers _ _ (hcovers hnear)
    | inr hmem => exact h.covers hnear other hmem
  · intro c hc
    rcases h.written c hc with hmid | hout
    · rcases hdeeper.written c hmid with hmid | hout
      · rw [seen_writeIf] at hmid
        exact (written_visit hunique hvisit hmid).imp_right fun hout => h.kept c (hdeeper.kept c hout)
      · exact .inr (h.kept c hout)
    · exact .inr hout
  · exact fun c hc => h.kept c (hdeeper.kept c (kept_visit hvisit c hc))

theorem Walked.nil (rw : RefWriter) (depth : Nat) (st : RefState) : Walked rw depth [] st st where
  explores := .refl rw st.seen
  covers _ _ hl := absurd hl List.not_mem_nil
  written _ hc := .inl hc
  kept _ hc := hc

theorem Writes.walked (h : Writes rw n depth links st e st') (hunique : rw.Unique = true) (he : e = none) :
    Walked rw depth links st st' := by
  induction h with
  | done n depth st => exact .nil rw depth st
  | @skip n depth l _ _ st₁ _ _ hvisit _ ih => exact .visit (n := n) hunique hvisit (.nil rw _ _) (ih he) nofun
  | missing | stopped => cases he
  | leaf hvisit _ _ ih => exact .visit hunique hvisit (.nil rw _ _) (ih he) nofun
  | @deeper n depth l _ st _ _ _ _ _ hvisit _ _ _ ihdeeper ih =>
    exact .visit hunique hvisit (ihdeeper rfl) (ih he) fun _ => within_of_deeper hvisit

theorem RefWriter.Within.of_add (h : rw.Within (depth + k)) : rw.Within depth := by
  unfold RefWriter.Within at *
  omega

/-- Without `unique`, all within the limit is written and followed. -/
theorem plain_visit {deeper write : Bool} (hplain : rw.Unique = false)
    (hvisit : rw.visit c depth st = (deeper, write, st')) (hwithin : rw.Within depth) :
    write = true ∧ deeper = decide (rw.Within (depth + 1)) := by
  have hcases := visit_visits rw c depth st
  rw [hvisit] at hcases
  cases hcases with
  | tooDeep hover => exact absurd hwithin hover
  | plain _ _ => exact ⟨rfl, rfl⟩
  | pruned hunique _ _ | again hunique _ _ _ | fresh hunique _ _ =>
    rw [hplain] at hunique
    cases hunique

/-- Without `unique` every path is walked. -/
theorem Writes.plain (h : Writes rw n depth links st e st') (hplain : rw.Unique = false) (he : e = none) :
    (∀ c ∈ dsts st.emitted, c ∈ dsts st'.emitted) ∧
      ∀ l ∈ links, ∀ k c, Path rw.DAG l.cid k c → rw.Within (depth + 1 + k) → c ∈ dsts st'.emitted := by
  induction h with
  | done n depth st => exact ⟨fun _ hc => hc, fun _ hl => absurd hl List.not_mem_nil⟩
  | @skip n depth l links st st₁ e st' hvisit _ ih =>
    obtain ⟨hkept, hlinks⟩ := ih he
    refine ⟨fun c hc => hkept c (kept_visit (n := n) hvisit c hc), fun other hother k c hpath hwithin => ?_⟩
    cases List.mem_cons.mp hother with
    | inr hmem => exact hlinks other hmem k c hpath hwithin
    | inl heq =>
      obtain ⟨hwrite, -⟩ := plain_visit hplain hvisit hwithin.of_add
      cases hwrite
  | missing | stopped => cases he
  | @leaf n depth l links st st₁ e st' hvisit _ _ ih =>
    obtain ⟨hkept, hlinks⟩ := ih he
    refine ⟨fun c hc => hkept c (kept_visit hvisit c hc), fun other hother k c hpath hwithin => ?_⟩
    cases List.mem_cons.mp hother with
    | inr hmem => exact hlinks other hmem k c hpath hwithin
    | inl heq =>
      subst heq
      cases hpath with
      | refl =>
        refine hkept other.cid ?_
        rw [dsts_writeIf_true]
        exact List.mem_append_right _ (List.mem_singleton_self _)
      | @link _ _ k l' hl' hrest =>
        -- below the limit there would have been more to look at
        obtain ⟨-, hdeeper⟩ := plain_visit hplain hvisit hwithin.of_add
        have hnext : rw.Within (depth + 1 + 1) := RefWriter.Within.of_add (k := k) (by convert hwithin using 1; omega)
        exact absurd hnext (decide_eq_false_iff_not.mp hdeeper.symm)
  | @deeper n depth l links st write st₁ st₂ e st' hvisit _ _ _ ihdeeper ih =>
    obtain ⟨hkept, hlinks⟩ := ih he
    obtain ⟨hkeptbelow, hbelow⟩ := ihdeeper rfl
    refine ⟨fun c hc => hkept c (hkeptbelow c (kept_visit hvisit c hc)), fun other hother k c hpath hwithin => ?_⟩
    cases List.mem_cons.mp hother with
    | inr hmem => exact hlinks other hmem k c hpath hwithin
    | inl heq =>
      subst heq
      refine hkept c ?_
      cases hpath with
      | refl =>
        obtain ⟨rfl, -⟩ := plain_visit hplain hvisit hwithin.of_add
        refine hkeptbelow other.cid ?_
        rw [dsts_writeIf_true]
        exact List.mem_append_right _ (List.mem_singleton_self _)
      | @link _ _ k l' hl' hrest =>
        exact hbelow l' hl' k c hrest (by convert hwithin using 1; omega)

/-! ## The command -/

/-- What the walks over some roots have done, when all of them came to their end. -/
structure AllWritten (rw : RefWriter) (roots : List Cid) (st : RefState) : Prop where
  closed : rw.Unique = true → ∀ c d, st.seen c = some d → rw.Within (d + 1) →
    ∀ l ∈ rw.DAG.links c, Covers rw st.seen l.cid (d + 1)
  starts : rw.Unique = true → ∀ root ∈ roots, rw.Within 1 → ∀ l ∈ rw.DAG.links root, Covers rw st.seen l.cid 1
  written : rw.Unique = true → ∀ c, st.seen c ≠ none → c ∈ dsts st.emitted
  plain : rw.Unique = false → ∀ root ∈ roots, ∀ l ∈ rw.DAG.links root, ∀ k c, Path rw.DAG l.cid k c →
    rw.Within (k + 1) → c ∈ dsts st.emitted

theorem allWritten_nil (rw : RefWriter) : AllWritten rw [] {} where
  closed _ _ _ h := by cases h
  starts _ _ h := absurd h List.not_mem_nil
  written _ _ h := absurd rfl h
  plain _ _ h := absurd h List.not_mem_nil

/-- One more root, whose links have been written down to the limit. -/
theorem AllWritten.snoc (h : AllWritten rw roots st) (hwrites : Writes rw root 0 (rw.DAG.links root) st none st') :
    AllWritten rw (roots ++ [root]) st' where
  closed hunique c d hd hwithin l hl := by
    have hwalked := hwrites.walked hunique rfl
    cases hwalked.explores.explored c d hd with
    | inl hold => exact hwalked.explores.covers _ _ (h.closed hunique c d hold hwithin l hl)
    | inr hnew => exact hnew hwithin l hl
  starts hunique other hother hwithin l hl := by
    have hwalked := hwrites.walked hunique rfl
    cases List.mem_append.mp hother with
    | inl hold => exact hwalked.explores.covers _ _ (h.starts hunique other hold hwithin l hl)
    | inr hlast =>
      cases List.mem_singleton.mp hlast
      exact hwalked.covers hwithin l hl
  written hunique c hc := by
    have hwalked := hwrites.walked hunique rfl
    cases hwalked.written c hc with
    | inl hold => exact hwalked.kept c (h.written hunique c hold)
    | inr hnew => exact hnew
  plain hplain other hother l hl k c hpath hwithin := by
    obtain ⟨hkept, hnew⟩ := hwrites.plain hplain rfl
    cases List.mem_append.mp hother with
    | inl hold => exact hkept c (h.plain hplain other hold l hl k c hpath hwithin)
    | inr hlast =>
      cases List.mem_singleton.mp hlast
      refine hnew l hl k c hpath ?_
      rwa [Nat.zero_add, Nat.add_comm]

/-- What is below a node that has been looked at has been looked at, too. -/
theorem covers_path (hclosed : ∀ c d, seen c = some d → rw.Within (d + 1) →
      ∀ l ∈ rw.DAG.links c, Covers rw seen l.cid (d + 1))
    (hpath : Path rw.DAG c k d) (hc : Covers rw seen c depth) (hwithin : rw.Within (depth + k)) :
    Covers rw seen d (depth + k) := by
  induction hpath generalizing depth with
  | refl c => exact hc
  | @link c d k l hl _ ih =>
    obtain ⟨old, hold, hle⟩ := hc
    have hnext : rw.Within (old + 1) := by
      unfold RefWriter.Within at *
      omega
    obtain ⟨new, hnew, hle'⟩ := hclosed c old hold hnext l hl
    have hcovers : Covers rw seen l.cid (depth + 1) := ⟨new, hnew, by omega⟩
    have hsame : depth + (k + 1) = depth + 1 + k := by omega
    rw [hsame] at hwithin ⊢
    exact ih hcovers hwithin

/-- All that a path within the limit leads to has been written. -/
theorem AllWritten.mem (h : AllWritten rw roots st) (hroot : root ∈ roots) (hpath : Path rw.DAG root (k + 1) c)
    (hwithin : rw.Within (k + 1)) : c ∈ dsts st.emitted := by
  cases hpath with
  | @link _ _ _ l hl hrest =>
    cases hunique : rw.Unique with
    | false => exact h.plain hunique root hroot l hl k c hrest hwithin
    | true =>
      rw [Nat.add_comm] at hwithin
      have hfirst := h.starts hunique root hroot hwithin.of_add l hl
      obtain ⟨d, hd, -⟩ := covers_path (h.closed hunique) hrest hfirst hwithin
      refine h.written hunique c ?_
      rw [hd]
      exact nofun

theorem listed_nil (rw : RefWriter) (roots : List Cid) : Listed rw roots {} where
  real _ h := absurd h List.not_mem_nil
  failed _ h := absurd h List.not_mem_nil
  seen _ _ h := absurd h List.not_mem_nil
  nodup _ := List.nodup_nil

/-- A real error can be written. -/
theorem Listed.emit (h : Listed rw roots st) {err : RefError} (hreal : err.Real rw roots) :
    Listed rw roots (st.Emit (.err err)) where
  real edge hedge := by
    cases List.mem_append.mp hedge with
    | inl hold => exact h.real edge hold
    | inr hlast => cases List.mem_singleton.mp hlast
  failed other hother := by
    cases List.mem_append.mp hother with
    | inl hold => exact h.failed other hold
    | inr hlast =>
      cases List.mem_singleton.mp hlast
      exact hreal
  seen hunique c hc := by
    rw [RefState.Emit, dsts_err] at hc
    exact h.seen hunique c hc
  nodup hunique := by
    rw [RefState.Emit, dsts_err]
    exact h.nodup hunique

theorem writeRefs_writes (hget : rw.DAG.get c = none) :
    Writes rw c 0 (rw.DAG.links c) st (rw.WriteRefs c st).err (rw.WriteRefs c st).st := by
  unfold RefWriter.WriteRefs
  rw [hget]
  exact writeRefsRecursive_writes _ c 0 st (Nat.lt_succ_self _)

theorem writeRefs_listed (h : Listed rw roots st) (hc : c ∈ roots) : Listed rw roots (rw.WriteRefs c st).st := by
  cases hget : rw.DAG.get c with
  | some text =>
    unfold RefWriter.WriteRefs
    rw [hget]
    exact h
  | none => exact (writeRefs_writes hget).listed h ⟨c, hc, .refl c⟩ fun _ hl => hl

/-- The error with which the writing of a root ends is real. -/
theorem writeRefs_failed {err : RefError} (hc : c ∈ roots) (h : (rw.WriteRefs c st).err = some err) :
    err.Real rw roots := by
  cases hget : rw.DAG.get c with
  | some text =>
    unfold RefWriter.WriteRefs at h
    rw [hget] at h
    cases h
    exact ⟨c, hc, 0, c, text, .refl c, .inl rfl, hget, rfl⟩
  | none =>
    obtain ⟨k, d, text, hpath, hwithin, hd, herr⟩ := (writeRefs_writes hget).failed (.refl c) (fun _ hl => hl) h
    exact ⟨c, hc, k, d, text, hpath, .inr hwithin, hd, herr⟩

theorem run_listed : ∀ {objs : List Cid} {st : RefState}, Listed rw roots st → (∀ o ∈ objs, o ∈ roots) →
    Listed rw roots (rw.run objs st)
  | [], _, h, _ => h
  | o :: objs, st, h, hobjs => by
    have hfirst := writeRefs_listed h (hobjs o List.mem_cons_self)
    have hrest : ∀ other ∈ objs, other ∈ roots := fun other hother => hobjs other (List.mem_cons_of_mem o hother)
    unfold RefWriter.run
    simp only
    split
    · next e herr => exact run_listed (hfirst.emit (writeRefs_failed (hobjs o List.mem_cons_self) herr)) hrest
    · exact run_listed hfirst hrest

/-- Every node that the limit lets the command come to can be had. -/
def AllThere (rw : RefWriter) (roots : List Cid) : Prop :=
  ∀ root ∈ roots, ∀ k c, Path rw.DAG root k c → (k = 0 ∨ rw.Within k) → rw.DAG.get c = none

theorem not_real_of_allThere (hthere : AllThere rw roots) (err : RefError) : ¬ err.Real rw roots := by
  rintro ⟨root, hroot, k, c, text, hpath, hwithin, hget, -⟩
  rw [hthere root hroot k c hpath hwithin] at hget
  cases hget

theorem writeRefs_ends (hthere : AllThere rw roots) (hc : c ∈ roots) (st : RefState) :
    (rw.WriteRefs c st).err = none := by
  cases herr : (rw.WriteRefs c st).err with
  | none => rfl
  | some err => exact absurd (writeRefs_failed hc herr) (not_real_of_allThere hthere err)

/-- Root by root, all within reach is written. -/
theorem run_allWritten (hthere : AllThere rw roots) : ∀ {objs before : List Cid} {st : RefState},
    AllWritten rw before st → (∀ o ∈ objs, o ∈ roots) → AllWritten rw (before ++ objs) (rw.run objs st)
  | [], before, st, h, _ => by
    rw [List.append_nil]
    exact h
  | o :: objs, before, st, h, hobjs => by
    have ho := hobjs o List.mem_cons_self
    have hend := writeRefs_ends hthere ho st
    have hwrites := @writeRefs_writes rw o st (hthere o ho 0 o (.refl o) (.inl rfl))
    rw [hend] at hwrites
    have hrest := run_allWritten hthere (h.snoc hwrites) fun other hother => hobjs other (List.mem_cons_of_mem o hother)
    rw [List.append_assoc] at hrest
    unfold RefWriter.run
    simp only [hend]
    exact hrest

/-- What is written are the ends of the edges in the output. -/
theorem mem_dsts_iff {out : List RefWrapper} : c ∈ dsts out ↔ ∃ edge, .ref edge ∈ out ∧ edge.dst = c := by
  constructor
  · intro hc
    obtain ⟨w, hw, hdst⟩ := List.mem_filterMap.mp hc
    cases w with
    | ref edge => exact ⟨edge, hw, Option.some.inj hdst⟩
    | err _ => cases hdst
  · rintro ⟨edge, hedge, rfl⟩
    exact List.mem_filterMap.mpr ⟨.ref edge, hedge, rfl⟩

/-- **What is written is what can be reached**: by one link at least, and by no more than the limit allows. The nodes
that were seen before, and how deep they were then, do not show. -/
theorem refs_written_iff (roots : List Cid) (hthere : AllThere rw roots) :
    (∀ err, .err err ∉ (rw.run roots {}).emitted) ∧
      ∀ c, c ∈ dsts (rw.run roots {}).emitted ↔
        ∃ root ∈ roots, ∃ k, Path rw.DAG root (k + 1) c ∧ rw.Within (k + 1) := by
  have hlisted : Listed rw roots (rw.run roots {}) := run_listed (listed_nil rw roots) fun _ ho => ho
  refine ⟨fun err herr => not_real_of_allThere hthere err (hlisted.failed err herr), fun c => ⟨fun hc => ?_, ?_⟩⟩
  · obtain ⟨edge, hedge, rfl⟩ := mem_dsts_iff.mp hc
    obtain ⟨⟨root, hroot, k, hpath, hwithin⟩, hlink⟩ := hlisted.real edge hedge
    exact ⟨root, hroot, k, hpath.snoc hlink, hwithin⟩
  · rintro ⟨root, hroot, k, hpath, hwithin⟩
    exact (run_allWritten hthere (allWritten_nil rw) fun _ ho => ho).mem hroot hpath hwithin

/-- Whatever cannot be had on the way: what is written is a link of a node that can be reached within the limit, with
`unique` no node is written twice, and an error is that of a node that can be reached so, too. -/
theorem refs_real (rw : RefWriter) (roots : List Cid) :
    (∀ edge, .ref edge ∈ (rw.run roots {}).emitted → edge.Real rw roots) ∧
      (∀ err, .err err ∈ (rw.run roots {}).emitted → err.Real rw roots) ∧
      (rw.Unique = true → (dsts (rw.run roots {}).emitted).Nodup) := by
  have hlisted : Listed rw roots (rw.run roots {}) := run_listed (listed_nil rw roots) fun _ ho => ho
  exact ⟨hlisted.real, hlisted.failed, hlisted.nodup⟩

end Proofs

/-! ## A node that is seen again higher up -/

namespace SmallRefs

def node (h : Multihash) : Cid := .v1 dagProtobuf h

def links (c : Cid) : List Link :=
  match c.hash.digest with
  | 4 => [⟨"a", node 3⟩, ⟨"b", node 2⟩]
  | 3 => [⟨"c", node 2⟩]
  | 2 => [⟨"d", node 1⟩]
  | _ => []

/-- In the example, links lead to smaller numbers. -/
theorem height_lt {c : Cid} {l : Link} (h : l ∈ links c) : l.cid.hash.digest < c.hash.digest := by
  unfold links at h
  split at h
  · next hc =>
    rw [hc]
    revert l
    decide
  · next hc =>
    rw [hc]
    revert l
    decide
  · next hc =>
    rw [hc]
    revert l
    decide
  · exact absurd h List.not_mem_nil

/-- Node 2 is found at the limit, below node 3, and then above it. -/
def writer : RefWriter where
  DAG := ⟨links, fun c => c.hash.digest, height_lt, fun _ => none⟩
  Unique := true
  MaxDepth := 2

theorem refs_written_small :
    (∀ err, .err err ∉ (writer.run [node 4] {}).emitted) ∧
      ∀ c, c ∈ dsts (writer.run [node 4] {}).emitted ↔
        ∃ root ∈ [node 4], ∃ k, Path writer.DAG root (k + 1) c ∧ writer.Within (k + 1) :=
  refs_written_iff [node 4] fun _ _ _ _ _ _ => rfl

example : dsts (writer.run [node 4] {}).emitted = [node 3, node 2, node 1] := by decide

end SmallRefs

end Kubo

end Kyneto
