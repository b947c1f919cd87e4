import Mathlib.Data.List.Basic

/-!
# Walks over a graph

Several workers walk a graph together. They share a set of keys and a list of nodes that are still to be visited. A
worker takes a node from the list; if the key of the node is in the set, then that is all, and otherwise the worker
puts it in and asks for the links of the node, which go on the list when they arrive. In which order the workers do
this is not known.

What a walk leaves in the set does not depend on it: `mem_set_of_done` says that a walk that comes to its end adds what
can be reached without a key that was in the set before, and nothing else. `reaches_append` puts one walk after another.
-/

namespace Kyneto

variable {Node Key ε : Type}

/-- A graph in which a node can have several names, which all have the same key and lead to the same keys. -/
structure Graph (Node Key : Type) where
  key : Node → Key
  succ : Node → List Node
  succ_congr : ∀ {m n : Node}, key m = key n → (succ m).map key = (succ n).map key

namespace Graph

variable {g : Graph Node Key} {roots roots' : List Node} {avoid avoid' : Key → Prop} {m n : Node} {k : Key}

/-- A path from one of `roots` to the node has no key to avoid. -/
inductive Reach (g : Graph Node Key) (roots : List Node) (avoid : Key → Prop) : Node → Prop where
  | root {n : Node} : n ∈ roots → ¬ avoid (g.key n) → Reach g roots avoid n
  | link {m n : Node} : Reach g roots avoid m → n ∈ g.succ m → ¬ avoid (g.key n) → Reach g roots avoid n

/-- A node with this key is reached. -/
def Reaches (g : Graph Node Key) (roots : List Node) (avoid : Key → Prop) (k : Key) : Prop :=
  ∃ n, g.Reach roots avoid n ∧ g.key n = k

theorem Reach.not_avoid (h : g.Reach roots avoid n) : ¬ avoid (g.key n) := by
  cases h with
  | root _ hn | link _ _ hn => exact hn

theorem Reaches.not_avoid (h : g.Reaches roots avoid k) : ¬ avoid k := by
  obtain ⟨n, hn, rfl⟩ := h
  exact hn.not_avoid

theorem Reach.mono (h : g.Reach roots avoid n) (hroots : ∀ r ∈ roots, r ∈ roots')
    (havoid : ∀ k, avoid' k → avoid k) : g.Reach roots' avoid' n := by
  induction h with
  | root hr hn => exact .root (hroots _ hr) fun h => hn (havoid _ h)
  | link _ hlink hn ih => exact .link ih hlink fun h => hn (havoid _ h)

theorem Reaches.mono (h : g.Reaches roots avoid k) (hroots : ∀ r ∈ roots, r ∈ roots')
    (havoid : ∀ k, avoid' k → avoid k) : g.Reaches roots' avoid' k := by
  obtain ⟨n, hn, hk⟩ := h
  exact ⟨n, hn.mono hroots havoid, hk⟩

/-- The keys of the successors depend on the key only. -/
theorem exists_succ_of_key (h : g.key m = g.key n) {x : Node} (hx : x ∈ g.succ m) :
    ∃ y ∈ g.succ n, g.key y = g.key x := by
  have hmem : g.key x ∈ (g.succ n).map g.key := g.succ_congr h ▸ List.mem_map_of_mem hx
  obtain ⟨y, hy, hkey⟩ := List.mem_map.mp hmem
  exact ⟨y, hy, hkey⟩

/-- A set of keys with the roots in it, from which links lead to its own keys or to keys to avoid, has all that is
reached. -/
theorem Reaches.mem_of_closed {S : Key → Prop} (h : g.Reaches roots avoid k)
    (hroots : ∀ r ∈ roots, ¬ avoid (g.key r) → S (g.key r))
    (hclosed : ∀ k, S k → ¬ avoid k → ∃ n, g.key n = k ∧ ∀ m ∈ g.succ n, ¬ avoid (g.key m) → S (g.key m)) : S k := by
  obtain ⟨n, hn, rfl⟩ := h
  induction hn with
  | root hr hn => exact hroots _ hr hn
  | @link m x hm hx hn ih =>
    obtain ⟨n, hkey, hlinks⟩ := hclosed _ ih hm.not_avoid
    obtain ⟨y, hy, hxy⟩ := exists_succ_of_key hkey.symm hx
    rw [← hxy] at hn ⊢
    exact hlinks y hy hn

/-- What two lists of roots reach is what the first one reaches, and what the second one reaches without it. -/
theorem reaches_append (roots roots' : List Node) :
    g.Reaches (roots ++ roots') avoid k ↔
      g.Reaches roots avoid k ∨ g.Reaches roots' (fun k => avoid k ∨ g.Reaches roots avoid k) k := by
  constructor
  · rintro ⟨n, hn, rfl⟩
    induction hn with
    | @root n hr hn =>
      by_cases hfirst : g.Reaches roots avoid (g.key n)
      · exact Or.inl hfirst
      · rcases List.mem_append.mp hr with hr | hr
        · exact Or.inl ⟨n, .root hr hn, rfl⟩
        · exact Or.inr ⟨n, .root hr fun h => h.elim hn hfirst, rfl⟩
    | @link m n _ hlink hn ih =>
      by_cases hfirst : g.Reaches roots avoid (g.key n)
      · exact Or.inl hfirst
      · rcases ih with ⟨x, hx, hkey⟩ | ⟨x, hx, hkey⟩
        · obtain ⟨y, hy, hyn⟩ := exists_succ_of_key hkey.symm hlink
          exact Or.inl ⟨y, .link hx hy (hyn ▸ hn), hyn⟩
        · obtain ⟨y, hy, hyn⟩ := exists_succ_of_key hkey.symm hlink
          exact Or.inr ⟨y, .link hx hy (hyn ▸ fun h => h.elim hn hfirst), hyn⟩
  · rintro (h | h)
    · exact h.mono (fun r hr => List.mem_append_left _ hr) fun _ h => h
    · exact h.mono (fun r hr => List.mem_append_right _ hr) fun _ h => Or.inl h

/-- If links do not lead out of what is to avoid, then it makes no difference which way is taken. -/
theorem or_reaches_of_closed (hclosed : ∀ n, avoid (g.key n) → ∀ m ∈ g.succ n, avoid (g.key m))
    (hkey : ∀ k, avoid k → ∃ n, g.key n = k) :
    avoid k ∨ g.Reaches roots avoid k ↔ avoid k ∨ g.Reaches roots (fun _ => False) k := by
  constructor
  · exact Or.imp_right fun h => h.mono (fun _ hr => hr) fun _ h => h.elim
  · rintro (h | h)
    · exact Or.inl h
    · refine h.mem_of_closed (S := fun k => avoid k ∨ g.Reaches roots avoid k) ?_ ?_
      · intro r hr _
        by_cases havoid : avoid (g.key r)
        · exact Or.inl havoid
        · exact Or.inr ⟨r, .root hr havoid, rfl⟩
      · rintro k (hk | ⟨n, hn, rfl⟩) -
        · obtain ⟨n, rfl⟩ := hkey k hk
          exact ⟨n, rfl, fun m hm _ => Or.inl (hclosed n hk m hm)⟩
        · refine ⟨n, rfl, ?_⟩
          intro m hm _
          by_cases havoid : avoid (g.key m)
          · exact Or.inl havoid
          · exact Or.inr ⟨m, .link hn hm havoid, rfl⟩

/-- Only the members of the list of roots count. -/
theorem reaches_congr (hroots : ∀ r, r ∈ roots ↔ r ∈ roots') (havoid : ∀ k, avoid k ↔ avoid' k) :
    g.Reaches roots avoid k ↔ g.Reaches roots' avoid' k :=
  ⟨fun h => h.mono (fun r hr => (hroots r).mp hr) fun k hk => (havoid k).mpr hk,
    fun h => h.mono (fun r hr => (hroots r).mpr hr) fun k hk => (havoid k).mp hk⟩

/-- Graphs that agree on what one of them reaches reach the same. -/
theorem reaches_of_agree {g' : Graph Node Key} (hkey : g'.key = g.key)
    (hsucc : ∀ m, g.Reach roots avoid m → g'.succ m = g.succ m) :
    g'.Reaches roots avoid k ↔ g.Reaches roots avoid k := by
  constructor
  · rintro ⟨n, hn, rfl⟩
    refine ⟨n, ?_, hkey ▸ rfl⟩
    induction hn with
    | root hr hn => exact .root hr (hkey ▸ hn)
    | @link m n _ hlink hn ih => exact .link ih (hsucc m ih ▸ hlink) (hkey ▸ hn)
  · rintro ⟨n, hn, rfl⟩
    refine ⟨n, ?_, hkey ▸ rfl⟩
    induction hn with
    | root hr hn => exact .root hr (hkey ▸ hn)
    | @link m n hm hlink hn ih => exact .link ih (hsucc m hm ▸ hlink) (hkey ▸ hn)

end Graph

/-! ## The walk -/

/-- The keys that have been seen, the nodes to visit, those whose links are on their way, and those whose links have
arrived or failed to, in the order in which they did. -/
structure Walk (Node Key : Type) where
  set : List Key
  todo : List Node
  fetching : List Node := []
  fetched : List Node := []

inductive WalkEvent where
  | visits (i : Nat)
  | fetches (i : Nat)
  deriving DecidableEq, Repr

namespace Walk

section Steps

variable [DecidableEq Key]

/-- One step of one worker. A worker with nothing to do leaves all as it is. -/
def step (key : Node → Key) (getLinks : Node → Except ε (List Node)) (w : Walk Node Key) :
    WalkEvent → Except ε (Walk Node Key)
  | .visits i =>
    match w.todo[i]? with
    | none => .ok w
    | some n =>
      if key n ∈ w.set then .ok { w with todo := w.todo.eraseIdx i }
      else .ok { w with set := key n :: w.set, todo := w.todo.eraseIdx i, fetching := w.fetching ++ [n] }
  | .fetches i =>
    match w.fetching[i]? with
    | none => .ok w
    | some n =>
      match getLinks n with
      | .ok links => .ok { w with
          todo := w.todo ++ links, fetching := w.fetching.eraseIdx i, fetched := w.fetched ++ [n] }
      | .error e => .error e

/-- The walk stops at the first node whose links are refused. -/
def run (key : Node → Key) (getLinks : Node → Except ε (List Node)) (w : Walk Node Key) :
    List WalkEvent → Walk Node Key × Option ε
  | [] => (w, none)
  | e :: es =>
    match w.step key getLinks e with
    | .ok w' => w'.run key getLinks es
    | .error err => (w, some err)

end Steps

def Done (w : Walk Node Key) : Prop := w.todo = [] ∧ w.fetching = []

instance (w : Walk Node Key) : Decidable w.Done :=
  decidable_of_iff (w.todo.isEmpty ∧ w.fetching.isEmpty) (by simp [Done])

/-- A walk that starts with `set` is under way. -/
structure Under (g : Graph Node Key) (set : List Key) (roots : List Node) (w : Walk Node Key) : Prop where
  set_mem : ∀ k ∈ set, k ∈ w.set
  todo_reach : ∀ n ∈ w.todo, g.key n ∉ set → g.Reach roots (· ∈ set) n
  root_mem : ∀ r ∈ roots, g.key r ∈ w.set ∨ r ∈ w.todo
  fetched_reach : ∀ n ∈ w.fetched, g.Reach roots (· ∈ set) n
  seen : ∀ k ∈ w.set, k ∈ set ∨ ∃ n, g.key n = k ∧ g.Reach roots (· ∈ set) n ∧
    (n ∈ w.fetching ∨ n ∈ w.fetched ∧ ∀ m ∈ g.succ n, g.key m ∈ w.set ∨ m ∈ w.todo)
  fetching_reach : ∀ n ∈ w.fetching, g.Reach roots (· ∈ set) n

section Proofs

variable {g : Graph Node Key} {getLinks : Node → Except ε (List Node)} {set : List Key} {roots : List Node}
  {w w' : Walk Node Key} {e : WalkEvent} {k : Key}

theorem under_start (g : Graph Node Key) (set : List Key) (roots : List Node) :
    Under g set roots { set, todo := roots } where
  set_mem _ h := h
  todo_reach _ h hn := .root h hn
  root_mem _ h := Or.inr h
  fetched_reach _ h := absurd h List.not_mem_nil
  seen _ h := Or.inl h
  fetching_reach _ h := absurd h List.not_mem_nil

theorem mem_eraseIdx_or {l : List Node} {i : Nat} {m n : Node} (h : l[i]? = some n) (hm : m ∈ l) :
    m ∈ l.eraseIdx i ∨ m = n := by
  obtain ⟨j, hj⟩ := List.mem_iff_getElem?.mp hm
  by_cases hij : j = i
  · subst hij
    exact Or.inr (Option.some.inj (hj.symm.trans h))
  · exact Or.inl (List.mem_eraseIdx_iff_getElem?.mpr ⟨j, hij, hj⟩)

theorem mem_of_mem_eraseIdx {l : List Node} {i : Nat} {m : Node} (h : m ∈ l.eraseIdx i) : m ∈ l :=
  (List.eraseIdx_sublist l i).mem h

/-- A node that is visited again is dropped, and its key is in the set already. -/
theorem under_seen {i : Nat} {n : Node} (hn : w.todo[i]? = some n) (hset : g.key n ∈ w.set)
    (h : Under g set roots w) : Under g set roots { w with todo := w.todo.eraseIdx i } where
  set_mem := h.set_mem
  todo_reach m hm := h.todo_reach m (mem_of_mem_eraseIdx hm)
  root_mem r hr := by
    rcases h.root_mem r hr with hr | hr
    · exact Or.inl hr
    · rcases mem_eraseIdx_or hn hr with hr | rfl
      · exact Or.inr hr
      · exact Or.inl hset
  fetched_reach := h.fetched_reach
  seen k hk := by
    rcases h.seen k hk with hk | ⟨m, hkey, hreach, hm | ⟨hm, hlinks⟩⟩
    · exact Or.inl hk
    · exact Or.inr ⟨m, hkey, hreach, Or.inl hm⟩
    · refine Or.inr ⟨m, hkey, hreach, Or.inr ⟨hm, ?_⟩⟩
      intro x hx
      rcases hlinks x hx with hx | hx
      · exact Or.inl hx
      · rcases mem_eraseIdx_or hn hx with hx | rfl
        · exact Or.inr hx
        · exact Or.inl hset
  fetching_reach := h.fetching_reach

/-- A node that is visited first goes into the set, and its links are asked for. -/
theorem under_visited {i : Nat} {n : Node} (hn : w.todo[i]? = some n) (hset : g.key n ∉ w.set)
    (h : Under g set roots w) :
    Under g set roots
      { w with set := g.key n :: w.set, todo := w.todo.eraseIdx i, fetching := w.fetching ++ [n] } := by
  have hreach : g.Reach roots (· ∈ set) n :=
    h.todo_reach n (List.mem_of_getElem? hn) fun hold => hset (h.set_mem _ hold)
  constructor
  · intro k hk
    exact List.mem_cons_of_mem _ (h.set_mem k hk)
  · intro m hm
    exact h.todo_reach m (mem_of_mem_eraseIdx hm)
  · intro r hr
    rcases h.root_mem r hr with hr | hr
    · exact Or.inl (List.mem_cons_of_mem _ hr)
    · rcases mem_eraseIdx_or hn hr with hr | rfl
      · exact Or.inr hr
      · exact Or.inl List.mem_cons_self
  · exact h.fetched_reach
  · intro k hk
    rcases List.mem_cons.mp hk with rfl | hk
    · exact Or.inr ⟨n, rfl, hreach, Or.inl (List.mem_append_right _ List.mem_cons_self)⟩
    · rcases h.seen k hk with hk | ⟨m, hkey, hm, hwhere | ⟨hwhere, hlinks⟩⟩
      · exact Or.inl hk
      · exact Or.inr ⟨m, hkey, hm, Or.inl (List.mem_append_left _ hwhere)⟩
      · refine Or.inr ⟨m, hkey, hm, Or.inr ⟨hwhere, ?_⟩⟩
        intro x hx
        rcases hlinks x hx with hx | hx
        · exact Or.inl (List.mem_cons_of_mem _ hx)
        · rcases mem_eraseIdx_or hn hx with hx | rfl
          · exact Or.inr hx
          · exact Or.inl List.mem_cons_self
  · intro m hm
    rcases List.mem_append.mp hm with hm | hm
    · exact h.fetching_reach m hm
    · exact List.mem_singleton.mp hm ▸ hreach

/-- The links of a node go on the list. -/
theorem under_fetched {i : Nat} {n : Node} (hn : w.fetching[i]? = some n) (h : Under g set roots w) :
    Under g set roots
      { w with todo := w.todo ++ g.succ n, fetching := w.fetching.eraseIdx i, fetched := w.fetched ++ [n] } := by
  have hreach := h.fetching_reach n (List.mem_of_getElem? hn)
  constructor
  · exact h.set_mem
  · intro m hm hold
    rcases List.mem_append.mp hm with hm | hm
    · exact h.todo_reach m hm hold
    · exact .link hreach hm hold
  · intro r hr
    exact (h.root_mem r hr).imp_right (List.mem_append_left _)
  · intro m hm
    rcases List.mem_append.mp hm with hm | hm
    · exact h.fetched_reach m hm
    · exact List.mem_singleton.mp hm ▸ hreach
  · intro k hk
    rcases h.seen k hk with hk | ⟨m, hkey, hm, hwhere | ⟨hwhere, hlinks⟩⟩
    · exact Or.inl hk
    · rcases mem_eraseIdx_or hn hwhere with hwhere | rfl
      · exact Or.inr ⟨m, hkey, hm, Or.inl hwhere⟩
      · refine Or.inr ⟨m, hkey, hm, Or.inr ⟨List.mem_append_right _ List.mem_cons_self, ?_⟩⟩
        intro x hx
        exact Or.inr (List.mem_append_right _ hx)
    · refine Or.inr ⟨m, hkey, hm, Or.inr ⟨List.mem_append_left _ hwhere, ?_⟩⟩
      intro x hx
      exact (hlinks x hx).imp_right (List.mem_append_left _)
  · intro m hm
    exact h.fetching_reach m (mem_of_mem_eraseIdx hm)

section Run

variable [DecidableEq Key]

/-- A step of a worker keeps the invariant of the walk. -/
theorem under_step (hlinks : ∀ n l, getLinks n = .ok l → l = g.succ n)
    (hstep : w.step g.key getLinks e = .ok w') (h : Under g set roots w) : Under g set roots w' := by
  cases e with
  | visits i =>
    simp only [step] at hstep
    split at hstep
    · cases hstep
      exact h
    · next n hn =>
      split at hstep
      · next hset =>
        cases hstep
        exact under_seen hn hset h
      · next hset =>
        cases hstep
        exact under_visited hn hset h
  | fetches i =>
    simp only [step] at hstep
    split at hstep
    · cases hstep
      exact h
    · next n hn =>
      split at hstep
      · next l hl =>
        cases hstep
        rw [hlinks n l hl]
        exact under_fetched hn h
      · cases hstep

theorem under_run (hlinks : ∀ n l, getLinks n = .ok l → l = g.succ n) (es : List WalkEvent)
    (h : Under g set roots w) : Under g set roots (w.run g.key getLinks es).1 := by
  induction es generalizing w with
  | nil => exact h
  | cons e es ih =>
    unfold run
    split
    · next w' hstep => exact ih (under_step hlinks hstep h)
    · exact h

end Run

/-- **What a walk adds** that comes to its end is what can be reached without a key that was there before, whatever the
workers do in which order. -/
theorem mem_set_of_done (h : Under g set roots w) (hdone : w.Done) :
    k ∈ w.set ↔ k ∈ set ∨ g.Reaches roots (· ∈ set) k := by
  obtain ⟨htodo, hfetching⟩ := hdone
  constructor
  · intro hk
    rcases h.seen k hk with hk | ⟨n, hkey, hn, -⟩
    · exact Or.inl hk
    · exact Or.inr ⟨n, hn, hkey⟩
  · rintro (hk | hk)
    · exact h.set_mem k hk
    · refine hk.mem_of_closed (S := (· ∈ w.set)) ?_ ?_
      · intro r hr _
        exact (h.root_mem r hr).resolve_right (htodo ▸ List.not_mem_nil)
      · intro k hk hold
        obtain ⟨n, hkey, -, hwhere⟩ := (h.seen k hk).resolve_left hold
        refine ⟨n, hkey, ?_⟩
        intro m hm _
        obtain ⟨-, hlinks⟩ := hwhere.resolve_left (hfetching ▸ List.not_mem_nil)
        exact (hlinks m hm).resolve_right (htodo ▸ List.not_mem_nil)

/-- At its end, a walk has fetched the links of a node of every key it has added. -/
theorem fetched_of_done (h : Under g set roots w) (hdone : w.Done) (hk : g.Reaches roots (· ∈ set) k) :
    ∃ n ∈ w.fetched, g.key n = k := by
  have hmem := (mem_set_of_done h hdone).mpr (Or.inr hk)
  obtain ⟨n, hkey, -, hwhere⟩ := (h.seen k hmem).resolve_left hk.not_avoid
  exact ⟨n, (hwhere.resolve_left (hdone.2 ▸ List.not_mem_nil)).1, hkey⟩

end Proofs

end Walk

end Kyneto
