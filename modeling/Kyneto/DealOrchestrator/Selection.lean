import Kyneto.DealOrchestrator.Diversity

/-!
# Selections that a deal can use

`createDeal` wants 15 providers, and all different. `selectProvidersForDeal` selects among the rows of a join, where a
provider with two pledges has two rows, and counts rows too. `usable_iff` says when its answer can be used.

Which rows it takes follows from the sizes of the regions. The regions take turns in laps, and a region that has no rows
left drops out. A region that has had its turn goes behind those that wait, but in front of those that have had theirs,
because sorting keeps the order of equal counts: from the second lap on, each lap goes in the opposite direction.
-/

namespace Kyneto

/-! ## Parts of a list -/

section Parts

variable {α β γ : Type}

/-- Each element that satisfies the condition contributes at least one element to the other list. -/
theorem length_filter_le_flatMap {P : α → Prop} [DecidablePred P] {f : α → List β} (l : List α)
    (h : ∀ a ∈ l, P a → 0 < (f a).length) : (l.filter P).length ≤ (l.flatMap f).length := by
  induction l with
  | nil => exact Nat.le_refl 0
  | cons a l ih =>
    have hrest := ih fun b hb => h b (List.mem_cons_of_mem _ hb)
    rw [List.flatMap_cons, List.length_append, List.filter_cons]
    split
    · next ha =>
      have hone := h a List.mem_cons_self (of_decide_eq_true ha)
      rw [List.length_cons]
      omega
    · omega

/-- Where equal values lie in one part, a list has no value twice if no part has. -/
theorem nodup_map_iff_parts [DecidableEq γ] {f : α → β} {g : α → γ} {l : List α}
    (h : ∀ a ∈ l, ∀ b ∈ l, f a = f b → g a = g b) :
    (l.map f).Nodup ↔ ∀ c, ((l.filter fun a => g a = c).map f).Nodup := by
  constructor
  · intro hnodup c
    exact hnodup.sublist (List.filter_sublist.map f)
  · intro hparts
    induction l with
    | nil => exact List.nodup_nil
    | cons a l ih =>
      have hrest := ih (fun b hb c hc => h b (List.mem_cons_of_mem _ hb) c (List.mem_cons_of_mem _ hc))
        fun c => (hparts c).sublist (((List.sublist_cons_self a l).filter _).map f)
      rw [List.map_cons, List.nodup_cons]
      refine ⟨?_, hrest⟩
      intro hmem
      obtain ⟨b, hb, hsame⟩ := List.mem_map.mp hmem
      have hpart := hparts (g a)
      rw [List.filter_cons, if_pos (decide_eq_true rfl), List.map_cons, List.nodup_cons] at hpart
      apply hpart.1
      have hb' : g b = g a := h b (List.mem_cons_of_mem _ hb) a List.mem_cons_self hsame
      exact List.mem_map.mpr ⟨b, List.mem_filter.mpr ⟨hb, decide_eq_true hb'⟩, hsame⟩

end Parts

/-! ## Stable sorting, after one key has grown -/

section StableSort

variable {α : Type} {f g : α → Nat} {a : α} {before after : List α}

/-- Into an ordered list, an element goes behind all that are smaller. -/
theorem orderedInsert_eq_filter (l : List α) (h : l.Pairwise fun b c => f b ≤ f c) :
    l.orderedInsert (fun b c => f b ≤ f c) a = l.filter (fun b => f b < f a) ++ a :: l.filter (fun b => f a ≤ f b) := by
  induction l with
  | nil => rfl
  | cons b l ih =>
    obtain ⟨hb, hl⟩ := List.pairwise_cons.mp h
    by_cases hle : f a ≤ f b
    · have hnone : (b :: l).filter (fun c => f c < f a) = [] := by
        apply List.filter_eq_nil_iff.mpr
        intro c hc
        rcases List.mem_cons.mp hc with rfl | hc
        · simpa using hle
        · simpa using hle.trans (hb c hc)
      have hall : (b :: l).filter (fun c => f a ≤ f c) = b :: l := by
        apply List.filter_eq_self.mpr
        intro c hc
        rcases List.mem_cons.mp hc with rfl | hc
        · simpa using hle
        · simpa using hle.trans (hb c hc)
      rw [List.orderedInsert_cons_of_le _ l hle, hnone, hall, List.nil_append]
    · have hlt : f b < f a := Nat.lt_of_not_le hle
      rw [List.orderedInsert_of_not_le _ l hle, ih hl]
      simp [hlt, hle]

/-- A part that is in order already, and comes before all the rest, stays where it is. -/
theorem insertionSort_append {r : α → α → Prop} [DecidableRel r] {before after : List α} (hbefore : before.Pairwise r)
    (h : ∀ b ∈ before, ∀ c ∈ after, r b c) : (before ++ after).insertionSort r = before ++ after.insertionSort r := by
  induction before with
  | nil => rfl
  | cons b before ih =>
    obtain ⟨hb, hbefore⟩ := List.pairwise_cons.mp hbefore
    have hrest := ih hbefore fun c hc => h c (List.mem_cons_of_mem _ hc)
    rw [List.cons_append, List.insertionSort_cons_of_forall_rel, hrest, List.cons_append]
    intro c hc
    rcases List.mem_append.mp hc with hc | hc
    · exact hb c hc
    · exact h b List.mem_cons_self c hc

/-- An element whose key grows goes behind the smaller keys, and in front of the equal ones. -/
theorem insertionSort_raise (hsorted : (before ++ a :: after).Pairwise fun b c => f b ≤ f c)
    (hsame : ∀ b ∈ before ++ after, g b = f b) (hgrows : f a ≤ g a) :
    (before ++ a :: after).insertionSort (fun b c => g b ≤ g c) =
      before ++ (after.filter (fun b => f b < g a) ++ a :: after.filter fun b => g a ≤ f b) := by
  obtain ⟨hbefore, hrest, hcross⟩ := List.pairwise_append.mp hsorted
  have hafter := (List.pairwise_cons.mp hrest).2
  have hbefore_same : ∀ b ∈ before, g b = f b := fun b hb => hsame b (List.mem_append_left _ hb)
  have hafter_same : ∀ b ∈ after, g b = f b := fun b hb => hsame b (List.mem_append_right _ hb)
  have hafter' : after.Pairwise fun b c => g b ≤ g c := by
    apply hafter.imp_of_mem
    intro b c hb hc hle
    rw [hafter_same b hb, hafter_same c hc]
    exact hle
  have hbefore' : before.Pairwise fun b c => g b ≤ g c := by
    apply hbefore.imp_of_mem
    intro b c hb hc hle
    rw [hbefore_same b hb, hbefore_same c hc]
    exact hle
  have : Std.Total fun b c : α => g b ≤ g c := ⟨fun _ _ => le_total _ _⟩
  rw [insertionSort_append hbefore', List.insertionSort_cons, hafter'.insertionSort_eq,
    orderedInsert_eq_filter _ hafter']
  · congr 2
    · apply List.filter_congr
      intro b hb
      rw [hafter_same b hb]
    · congr 1
      apply List.filter_congr
      intro b hb
      rw [hafter_same b hb]
  · intro b hb c hc
    rw [hbefore_same b hb]
    rcases List.mem_cons.mp hc with rfl | hc'
    · exact (hcross b hb c hc).trans hgrows
    · rw [hafter_same c hc']
      exact hcross b hb c hc

/-- Of the elements with a property, those with smaller keys than the raised one come first, and the others last. -/
theorem filter_insertionSort_raise {left left' : α → Bool} {smaller larger : List α}
    (hsorted : (before ++ a :: after).Pairwise fun b c => f b ≤ f c)
    (hsame : ∀ b ∈ before ++ after, g b = f b) (hgrows : f a ≤ g a)
    (hkept : ∀ b ∈ before ++ after, left' b = left b) (hbefore : before.filter left = [])
    (hafter : after.filter left = smaller ++ larger) (hsmaller : ∀ b ∈ smaller, f b < g a)
    (hlarger : ∀ b ∈ larger, g a ≤ f b) :
    ((before ++ a :: after).insertionSort fun b c => g b ≤ g c).filter left' =
      smaller ++ if left' a then a :: larger else larger := by
  have hkept_filter : ∀ l : List α, (∀ b ∈ l, b ∈ before ++ after) → l.filter left' = l.filter left :=
    fun l hl => List.filter_congr fun b hb => hkept b (hl b hb)
  have hnone : before.filter left' = [] := by
    rw [hkept_filter _ fun _ => List.mem_append_left _]
    exact hbefore
  have hfirst : (after.filter fun b => f b < g a).filter left' = smaller := by
    rw [hkept_filter _ fun _ hb => List.mem_append_right _ (List.mem_of_mem_filter hb), List.filter_comm, hafter,
      List.filter_append]
    have hall : smaller.filter (fun b => f b < g a) = smaller :=
      List.filter_eq_self.mpr fun b hb => decide_eq_true (hsmaller b hb)
    have hno : larger.filter (fun b => f b < g a) = [] :=
      List.filter_eq_nil_iff.mpr fun b hb => by simpa using hlarger b hb
    rw [hall, hno, List.append_nil]
  have hlast : (after.filter fun b => g a ≤ f b).filter left' = larger := by
    rw [hkept_filter _ fun _ hb => List.mem_append_right _ (List.mem_of_mem_filter hb), List.filter_comm, hafter,
      List.filter_append]
    have hno : smaller.filter (fun b => g a ≤ f b) = [] :=
      List.filter_eq_nil_iff.mpr fun b hb => by simpa using hsmaller b hb
    have hall : larger.filter (fun b => g a ≤ f b) = larger :=
      List.filter_eq_self.mpr fun b hb => decide_eq_true (hlarger b hb)
    rw [hno, hall, List.nil_append]
  rw [insertionSort_raise hsorted hsame hgrows, List.filter_append, List.filter_append, hnone, hfirst,
    List.nil_append, List.filter_cons, hlast]

end StableSort

/-! ## Taking turns -/

section Draft

variable {α : Type} {size : α → Nat}

/-- The next `n` turns, where each of `todo` has had `lap` turns and each of `done` has had one more. -/
def draft (size : α → Nat) : (n lap : Nat) → (todo done : List α) → List α
  | 0, _, _, _ => []
  | n + 1, lap, a :: todo, done => a :: draft size n lap todo (if lap + 1 < size a then a :: done else done)
  | n + 1, lap, [], a :: todo => a :: draft size n (lap + 1) todo (if lap + 1 + 1 < size a then [a] else [])
  | _ + 1, _, [], [] => []

/-- The turns of `k` laps. Each lap goes through those that are left, in the opposite direction. -/
def laps (size : α → Nat) : (k lap : Nat) → (todo : List α) → List α
  | 0, _, _ => []
  | k + 1, lap, todo => todo ++ laps size k (lap + 1) (todo.filter fun a => lap + 1 < size a).reverse

theorem laps_nil (k lap : Nat) : laps size k lap [] = [] := by
  induction k generalizing lap with
  | zero => rfl
  | succ k ih => exact ih (lap + 1)

/-- A lap has a turn at least, if there are any more: `k` laps have the first `k` turns. -/
theorem take_laps {k k' m lap : Nat} {todo : List α} (h : m ≤ k) (h' : m ≤ k') :
    (laps size k lap todo).take m = (laps size k' lap todo).take m := by
  induction k generalizing k' m lap todo with
  | zero =>
    obtain rfl : m = 0 := Nat.le_zero.mp h
    rw [List.take_zero, List.take_zero]
  | succ k ih =>
    cases k' with
    | zero =>
      obtain rfl : m = 0 := Nat.le_zero.mp h'
      rw [List.take_zero, List.take_zero]
    | succ k' =>
      cases todo with
      | nil => rw [laps_nil, laps_nil]
      | cons a todo =>
        show ((a :: todo) ++ laps size k _ _).take m = ((a :: todo) ++ laps size k' _ _).take m
        rw [List.take_append, List.take_append]
        congr 1
        apply ih
        · rw [List.length_cons]
          omega
        · rw [List.length_cons]
          omega

/-- The loop over the pool goes round in laps, in which each provider has its turn until its places are used
up. -/
theorem draft_eq_laps (n lap : Nat) (todo done : List α) :
    draft size n lap todo done =
      (todo ++ laps size n (lap + 1) ((todo.filter fun a => lap + 1 < size a).reverse ++ done)).take n := by
  induction n generalizing lap todo done with
  | zero => rw [draft, List.take_zero]
  | succ n ih =>
    cases todo with
    | cons a todo =>
      have hdone : ((a :: todo).filter fun a => lap + 1 < size a).reverse ++ done =
          (todo.filter fun a => lap + 1 < size a).reverse ++ (if lap + 1 < size a then a :: done else done) := by
        by_cases hleft : lap + 1 < size a
        · simp [hleft]
        · simp [hleft]
      rw [draft, ih, hdone, List.cons_append, List.take_succ_cons, List.take_append, List.take_append]
      congr 2
      exact take_laps (Nat.sub_le _ _) ((Nat.sub_le _ _).trans (Nat.le_succ n))
    | nil =>
      cases done with
      | nil =>
        show [] = (laps size (n + 1) (lap + 1) []).take (n + 1)
        rw [laps_nil, List.take_nil]
      | cons a done =>
        have hnext : ((a :: done).filter fun a => lap + 1 + 1 < size a).reverse =
            (done.filter fun a => lap + 1 + 1 < size a).reverse ++ (if lap + 1 + 1 < size a then [a] else []) := by
          by_cases hleft : lap + 1 + 1 < size a
          · simp [hleft]
          · simp [hleft]
        show draft size (n + 1) lap [] (a :: done) =
          ((a :: done) ++
            laps size n (lap + 1 + 1) ((a :: done).filter fun a => lap + 1 + 1 < size a).reverse).take (n + 1)
        rw [draft, ih, hnext, List.cons_append, List.take_succ_cons]

end Draft

namespace ReplicationOrchestrator

/-! ## Whose turn it is -/

section Turns

variable {providers : List Picked} {regions todo done : List (Option String)} {region : Option String} {s : Picking}
  {lap n : Nat}

/-- The regions with rows left, in their order: some wait for their turn in this lap, the others have had it. -/
structure Lap (providers : List Picked) (s : Picking) (regions : List (Option String)) (lap : Nat)
    (todo done : List (Option String)) : Prop where
  order : (sortRegions s regions).filter (fun region => s.regionCounts region < (rowsIn providers region).length) =
    todo ++ done
  waiting : ∀ region ∈ todo, s.regionCounts region = lap
  served : ∀ region ∈ done, s.regionCounts region = lap + 1

/-- When nobody waits any more, the next lap starts. -/
theorem Lap.next (h : Lap providers s regions lap [] done) : Lap providers s regions (lap + 1) done [] where
  order := h.order.trans (List.append_nil done).symm
  waiting := h.served
  served := nofun

/-- The region that waits at the front gets a row, and goes to the front of those that have had their turn. -/
theorem Lap.step (hnodup : providers.Nodup) (hregions : regions.Nodup) (hdraft : Drafting providers s)
    (h : Lap providers s regions lap (region :: todo) done) :
    ∃ p, ((sortRegions s regions).findSome? fun region => (s.findIn providers region).map fun p => (region, p)) =
        some (region, p) ∧
      s.findIn providers region = some p ∧
      Lap providers (s.push p region (s.regionCounts region + 1)) (sortRegions s regions) lap todo
        (if lap + 1 < (rowsIn providers region).length then region :: done else done) := by
  obtain ⟨before, after, hsplit, hbefore, hleft, hafter⟩ := List.filter_eq_cons_iff.mp h.order
  change _ = todo ++ done at hafter
  -- the regions before this one have no rows left
  have hnone : ∀ other ∈ before, (s.findIn providers other).map (fun p => (other, p)) = none := by
    intro other hother
    rw [Option.map_eq_none_iff, hdraft.findIn_eq_none hnodup]
    simpa using hbefore other hother
  -- a region that waits still has a row that has not been selected
  have hfound : ∃ p, s.findIn providers region = some p := by
    apply Option.ne_none_iff_exists'.mp
    intro hfind
    rw [hdraft.findIn_eq_none hnodup] at hfind
    simp only [decide_eq_true_eq] at hleft
    omega
  obtain ⟨p, hp⟩ := hfound
  have hlap : s.regionCounts region = lap := h.waiting region List.mem_cons_self
  refine ⟨p, ?_, hp, ?_⟩
  -- `findSome?` passes over the regions without rows
  · rw [hsplit]
    exact List.findSome?_eq_some_iff.mpr ⟨before, region, after, rfl, by rw [hp]; rfl, hnone⟩
  -- after the push the regions are sorted again, and only this one has moved
  · have hsorted := sortRegions_sorted s regions
    have hnodup' : (sortRegions s regions).Nodup := (List.perm_insertionSort _ regions).nodup_iff.mpr hregions
    rw [hsplit] at hsorted hnodup'
    have hother : ∀ other ∈ before ++ after, other ≠ region := by
      intro other hmem heq
      subst heq
      exact (List.nodup_cons.mp (List.nodup_middle.mp hnodup')).1 hmem
    generalize hs' : s.push p region (s.regionCounts region + 1) = s'
    have hcounts : ∀ other, other ≠ region → s'.regionCounts other = s.regionCounts other := by
      intro other hne
      rw [← hs']
      exact Function.update_of_ne hne ..
    have hraised : s'.regionCounts region = lap + 1 := by
      rw [← hs', ← hlap]
      exact Function.update_self ..
    have hsame : ∀ other ∈ before ++ after, s'.regionCounts other = s.regionCounts other :=
      fun other hmem => hcounts other (hother other hmem)
    have hgrows : s.regionCounts region ≤ s'.regionCounts region := by
      rw [hraised, hlap]
      exact Nat.le_succ lap
    have hmember : ∀ other ∈ todo ++ done, other ≠ region := by
      intro other hmem
      rw [← hafter] at hmem
      exact hother other (List.mem_append_right _ (List.mem_of_mem_filter hmem))
    have hwaiting : ∀ other ∈ todo, s.regionCounts other = lap := fun other hmem =>
      h.waiting other (List.mem_cons_of_mem _ hmem)
    constructor
    · rw [hsplit]
      show (List.insertionSort _ (before ++ region :: after)).filter _ = _
      rw [filter_insertionSort_raise hsorted hsame hgrows ?_ (List.filter_eq_nil_iff.mpr hbefore) hafter, hraised]
      · simp only [decide_eq_true_eq]
      · intro other hmem
        rw [hwaiting other hmem, hraised]
        exact Nat.lt_succ_self lap
      · intro other hmem
        rw [h.served other hmem, hraised]
      · -- whether rows are left has changed for one region only
        intro other hmem
        rw [hsame other hmem]
    · intro other hmem
      rw [hcounts other (hmember other (List.mem_append_left _ hmem)), hwaiting other hmem]
    · intro other hmem
      have hcase : other = region ∨ other ∈ done := by
        split at hmem
        · exact List.mem_cons.mp hmem
        · exact Or.inr hmem
      rcases hcase with rfl | hmem
      · exact hraised
      · rw [hcounts other (hmember other (List.mem_append_right _ hmem)), h.served other hmem]

/-- The second pass follows the draft. -/
theorem fillSlots_draft (hnodup : providers.Nodup) (hregions : regions.Nodup)
    (hall : ∀ p ∈ providers, p.2.region ∈ regions) (hdraft : Drafting providers s)
    (h : Lap providers s regions lap todo done) :
    (fillSlots providers n regions s).selected.map (fun p => p.2.region) =
      s.selected.map (fun p => p.2.region) ++
        draft (fun region => (rowsIn providers region).length) n lap todo done := by
  induction n generalizing s regions lap todo done with
  | zero => exact (List.append_nil _).symm
  | succ n ih =>
    have hregions' : (sortRegions s regions).Nodup := (List.perm_insertionSort _ regions).nodup_iff.mpr hregions
    have hall' : ∀ p ∈ providers, p.2.region ∈ sortRegions s regions := fun p hp => mem_sortRegions.mpr (hall p hp)
    -- one turn, for the region at the front
    have hturn : ∀ {region todo done lap}, Lap providers s regions lap (region :: todo) done →
        (fillSlots providers (n + 1) regions s).selected.map (fun p => p.2.region) =
          s.selected.map (fun p => p.2.region) ++
            region :: draft (fun region => (rowsIn providers region).length) n lap todo
              (if lap + 1 < (rowsIn providers region).length then region :: done else done) := by
      intro region todo done lap h
      obtain ⟨p, hfind, hp, hstep⟩ := h.step hnodup hregions hdraft
      unfold fillSlots
      simp only [hfind]
      rw [ih hregions' hall' (hdraft.push hnodup hp) hstep]
      show (s.selected ++ [p]).map (fun p => p.2.region) ++ _ = _
      rw [List.map_append, List.map_singleton, region_of_findIn hp, List.append_assoc, List.singleton_append]
    cases todo with
    | cons region todo => exact hturn h
    | nil =>
      cases done with
      | cons region done => exact hturn h.next
      | nil =>
        have hidle : ∀ other ∈ sortRegions s regions, (s.findIn providers other).map (fun p => (other, p)) = none := by
          intro other hother
          rw [Option.map_eq_none_iff, hdraft.findIn_eq_none hnodup]
          simpa using List.filter_eq_nil_iff.mp h.order other hother
        have hfind := List.findSome?_eq_none_iff.mpr hidle
        have hselected := hdraft.all_selected hnodup hall hfind
        have hfallback : providers.find? (fun p => p ∉ s.selected) = none := by
          apply List.find?_eq_none.mpr
          intro p hp
          simp [hselected p hp]
        unfold fillSlots
        simp only [hfind, hfallback]
        exact (List.append_nil _).symm

/-- The turns of the regions, from their sizes. Everybody has a turn in the first lap, and the second lap goes in the
same direction. -/
def turns (rows : List SelectionRow) (count : Nat) : List (Option String) :=
  let size := fun region => (rows.filter fun row => row.region = region).length
  (regionsOf rows ++ laps size count 1 ((regionsOf rows).filter fun region => 1 < size region)).take count

theorem map_rowsIn (rows : List SelectionRow) (region : Option String) :
    (rowsIn (candidates rows) region).map Prod.snd = rows.filter fun row => row.region = region := by
  have hrows : (candidates rows).map Prod.snd = rows := by
    unfold candidates
    rw [List.map_map]
    exact List.zipIdx_map_fst 0 rows
  conv_rhs => rw [← hrows, List.filter_map]
  rfl

theorem length_rowsIn (rows : List SelectionRow) (region : Option String) :
    (rowsIn (candidates rows) region).length = (rows.filter fun row => row.region = region).length := by
  rw [← map_rowsIn, List.length_map]

/-- After a first pass through all regions, all wait for the second lap. -/
theorem firstLap {rows : List SelectionRow} {count : Nat} (hroom : (regionsOf rows).length ≤ count) :
    Lap (candidates rows) (onePerRegion (candidates rows) count (regionsOf rows) {}) (regionsOf rows) 1
      ((regionsOf rows).filter fun region => 1 < (rows.filter fun row => row.region = region).length) [] := by
  obtain ⟨-, -, hfirst⟩ := firstPass rows count
  generalize onePerRegion (candidates rows) count (regionsOf rows) {} = s at hfirst
  have hone : ∀ region ∈ regionsOf rows, s.regionCounts region = 1 := by
    intro region hregion
    rw [hfirst.counts]
    apply if_pos
    show region ∈ (regionsOf rows).take count
    rw [List.take_of_length_le hroom]
    exact hregion
  have hsorted : (regionsOf rows).Pairwise fun a b => s.regionCounts a ≤ s.regionCounts b := by
    apply List.pairwise_of_forall_mem_list
    intro a ha b hb
    rw [hone a ha, hone b hb]
  constructor
  · have hsame : sortRegions s (regionsOf rows) = regionsOf rows := hsorted.insertionSort_eq
    rw [hsame, List.append_nil]
    apply List.filter_congr
    intro region hregion
    rw [hone region hregion, length_rowsIn]
  · intro region hregion
    exact hone region (List.mem_of_mem_filter hregion)
  · nofun

/-- The regions of the selected rows, in order. -/
theorem map_picks (rows : List SelectionRow) (count : Nat) :
    (picks rows count).map (fun p => p.2.region) = turns rows count := by
  obtain ⟨hdraft, -, hfirst⟩ := firstPass rows count
  have htaken := hfirst.taken
  have hlength := congrArg List.length htaken
  change _ = (regionsOf rows).take count at htaken
  change _ = ((regionsOf rows).take count).length at hlength
  rw [List.length_map, List.length_take] at hlength
  unfold picks turns
  simp only
  rw [List.map_take]
  rcases Nat.le_total count (regionsOf rows).length with hfull | hroom
  · have hslots : count - (onePerRegion (candidates rows) count (regionsOf rows) {}).selected.length = 0 := by omega
    rw [hslots, fillSlots, htaken, List.take_take, Nat.min_self, List.take_append_of_le_length hfull]
  · have hslots : count - (onePerRegion (candidates rows) count (regionsOf rows) {}).selected.length =
        count - (regionsOf rows).length := by omega
    have hsplit : ∀ l,
        (regionsOf rows ++ l).take count = regionsOf rows ++ l.take (count - (regionsOf rows).length) := by
      intro l
      rw [List.take_append, List.take_of_length_le hroom]
    rw [fillSlots_draft candidates_nodup regionsOf_nodup (fun _ => region_mem) hdraft (firstLap hroom), htaken,
      List.take_of_length_le hroom, hslots, draft_eq_laps, List.append_nil, hsplit, hsplit, List.take_take,
      Nat.min_self]
    congr 1
    simp only [length_rowsIn]
    -- the draft is the laps from the second on
    have hlaps : ∀ {size : Option String → Nat} {todo}, (laps size (count - (regionsOf rows).length + 1) 1 todo).take
        (count - (regionsOf rows).length) = (laps size count 1 todo).take (count - (regionsOf rows).length) :=
      take_laps (Nat.le_succ _) (Nat.sub_le _ _)
    exact hlaps

end Turns

/-! ## The service -/

structure ProviderSelection where
  shardIndex : Nat
  providerAddress : String
  region : Option String
  reputationScore : Nat
  deriving DecidableEq, Repr

/-- `selectProvidersForDeal`, with the rows as the query returns them. It counts rows. -/
def selectProvidersForDeal (rows : List SelectionRow) : Except String (List ProviderSelection) :=
  if rows.length < REQUIRED_SHARDS then
    .error s!"Insufficient providers: need {REQUIRED_SHARDS}, found {rows.length}"
  else
    .ok ((selectWithDiversity rows REQUIRED_SHARDS).mapIdx fun index p =>
      { shardIndex := index, providerAddress := p.address, region := p.region, reputationScore := p.reputationScore })

section Tables

variable (db : Database) (pledges : List PledgeRow) (perShardSize : ℚ)

/-- The column `reput_score`, read as `reputation_score`. -/
def scoreOf (address : String) : Int :=
  match db.providers.find? fun p => p.address = address with
  | some p => p.reputationScore
  | none => 0

/-- What the query can return. -/
structure Answers (rows : List SelectionRow) : Prop where
  joined : rows.Perm (selectionRows (scoreOf db) db pledges perShardSize)
  ordered : rows.Pairwise fun p q => q.reputationScore ≤ p.reputationScore

/-- A provider with room in a pledge. -/
def Eligible (p : ProviderRow) : Prop :=
  p.active = true ∧ MIN_REPUTATION ≤ p.reputationScore ∧
    ∃ cp ∈ pledges, cp.active = true ∧ p.address = cp.providerAddress ∧ perShardSize ≤ cp.capacityGb - cp.utilizationGb

instance : DecidablePred (Eligible pledges perShardSize) := fun p => by
  unfold Eligible
  infer_instance

/-- An answer that `createDeal` takes, or an error for want of providers. -/
structure Usable (rows : List SelectionRow) : Prop where
  indexed : ∀ entries, selectProvidersForDeal rows = .ok entries →
    entries.map ProviderSelection.shardIndex = List.range REQUIRED_SHARDS
  distinct : ∀ entries, selectProvidersForDeal rows = .ok entries →
    (entries.map ProviderSelection.providerAddress).Nodup
  thrown : ∀ e, selectProvidersForDeal rows = .error e →
    (db.providers.filter (Eligible pledges perShardSize)).length < REQUIRED_SHARDS

end Tables

/-- As many of the first rows of each region as it has turns belong to different providers. -/
def DistinctTurns (rows : List SelectionRow) : Prop :=
  ∀ region, (((rows.filter fun row => row.region = region).take
    ((turns rows REQUIRED_SHARDS).count region)).map SelectionRow.address).Nodup

section Service

variable {db : Database} {pledges : List PledgeRow} {perShardSize : ℚ} {rows : List SelectionRow}

/-- Addresses are keys, so a score can be looked up by the address. -/
theorem scoreOf_eq (hkey : (db.providers.map ProviderRow.address).Nodup) {p : ProviderRow} (hp : p ∈ db.providers) :
    scoreOf db p.address = p.reputationScore := by
  unfold scoreOf
  cases hfind : db.providers.find? fun q => q.address = p.address with
  | none =>
    have hnone := List.find?_eq_none.mp hfind p hp
    simp at hnone
  | some q =>
    have haddress : q.address = p.address := by simpa using List.find?_some hfind
    have heq : q = p := List.inj_on_of_nodup_map hkey (List.mem_of_find?_eq_some hfind) hp haddress
    rw [heq]

theorem mem_selectionRows {row : SelectionRow} (hrow : row ∈ selectionRows (scoreOf db) db pledges perShardSize) :
    ∃ p ∈ db.providers, row.address = p.address ∧ row.region = p.region := by
  unfold selectionRows at hrow
  obtain ⟨p, hp, hrow⟩ := List.mem_flatMap.mp hrow
  obtain ⟨cp, -, rfl⟩ := List.mem_map.mp hrow
  exact ⟨p, hp, rfl, rfl⟩

/-- All rows of a provider are in one region. -/
theorem Answers.region_eq (hkey : (db.providers.map ProviderRow.address).Nodup)
    (h : Answers db pledges perShardSize rows) {row row' : SelectionRow} (hrow : row ∈ rows) (hrow' : row' ∈ rows)
    (hsame : row.address = row'.address) :
    row.region = row'.region := by
  obtain ⟨p, hp, haddress, hregion⟩ := mem_selectionRows (h.joined.mem_iff.mp hrow)
  obtain ⟨p', hp', haddress', hregion'⟩ := mem_selectionRows (h.joined.mem_iff.mp hrow')
  have heq : p = p' := List.inj_on_of_nodup_map hkey hp hp' (haddress.symm.trans (hsame.trans haddress'))
  rw [hregion, hregion', heq]

/-- Every eligible provider has a row. -/
theorem Answers.eligible_le (hkey : (db.providers.map ProviderRow.address).Nodup)
    (h : Answers db pledges perShardSize rows) :
    (db.providers.filter (Eligible pledges perShardSize)).length ≤ rows.length := by
  rw [h.joined.length_eq]
  apply length_filter_le_flatMap
  intro p hp heligible
  obtain ⟨hactive, hscore, cp, hcp, hpledge, haddress, hroom⟩ := heligible
  rw [List.length_map]
  have hrow : cp ∈ pledges.filter fun cp => p.active = true ∧ (MIN_REPUTATION : Int) ≤ scoreOf db p.address ∧
      cp.active = true ∧ p.address = cp.providerAddress ∧ perShardSize ≤ cp.capacityGb - cp.utilizationGb := by
    rw [List.mem_filter, scoreOf_eq hkey hp]
    exact ⟨hcp, decide_eq_true ⟨hactive, Int.ofNat_le.mpr hscore, hpledge, haddress, hroom⟩⟩
  exact List.length_pos_of_mem hrow

/-- A selection that goes through has as many entries as a deal has shards, in their order. -/
theorem selectProvidersForDeal_eq_ok {entries : List ProviderSelection}
    (h : selectProvidersForDeal rows = .ok entries) :
    REQUIRED_SHARDS ≤ rows.length ∧ entries.map ProviderSelection.shardIndex = List.range REQUIRED_SHARDS ∧
      entries.map ProviderSelection.providerAddress = (picks rows REQUIRED_SHARDS).map fun p => p.2.address := by
  unfold selectProvidersForDeal at h
  split at h
  · cases h
  · next henough =>
    have hle : REQUIRED_SHARDS ≤ rows.length := Nat.le_of_not_lt henough
    have hselected : selectWithDiversity rows REQUIRED_SHARDS = (picks rows REQUIRED_SHARDS).map Prod.snd := rfl
    have hlength : (selectWithDiversity rows REQUIRED_SHARDS).length = REQUIRED_SHARDS := by
      rw [hselected, List.length_map, (picks_balanced rows REQUIRED_SHARDS).length, Nat.min_eq_left hle]
    obtain rfl := Except.ok.inj h
    refine ⟨hle, ?_, ?_⟩
    · apply List.ext_getElem
      · rw [List.length_map, List.length_mapIdx, hlength, List.length_range]
      · intro i hi _
        simp
    · rw [hselected]
      apply List.ext_getElem
      · simp
      · intro i hi _
        simp

/-- The rows of a region that are selected, by the number of its turns. -/
theorem rowsIn_picks (rows : List SelectionRow) (count : Nat) (region : Option String) :
    (rowsIn (picks rows count) region).map Prod.snd =
      (rows.filter fun row => row.region = region).take ((turns rows count).count region) := by
  have hturns : (turns rows count).count region = (rowsIn (picks rows count) region).length := by
    rw [← map_picks, List.count_eq_countP, List.countP_map, List.countP_eq_length_filter]
    apply congrArg List.length
    apply List.filter_congr
    intro p _
    exact Bool.beq_eq_decide_eq _ _
  rw [hturns, ← map_rowsIn, ← List.map_take, ← List.prefix_iff_eq_take.mp ((picks_balanced rows count).inOrder region)]

/-- The turns are those of different providers exactly if the selected addresses are different. -/
theorem distinctTurns_iff (hkey : (db.providers.map ProviderRow.address).Nodup)
    (h : Answers db pledges perShardSize rows) :
    DistinctTurns rows ↔ ((picks rows REQUIRED_SHARDS).map fun p => p.2.address).Nodup := by
  have hmem : ∀ p ∈ picks rows REQUIRED_SHARDS, p.2 ∈ rows := fun p hp =>
    List.mem_of_getElem? ((picks_balanced rows REQUIRED_SHARDS).listed p hp)
  rw [nodup_map_iff_parts (g := fun p => p.2.region)]
  · apply forall_congr'
    intro region
    rw [← rowsIn_picks, List.map_map]
    rfl
  · intro p hp q hq hsame
    exact h.region_eq hkey (hmem p hp) (hmem q hq) hsame

/-- **When the answer can be used**: exactly if no region has two rows of one provider among those whose turn comes. -/
theorem usable_iff (hkey : (db.providers.map ProviderRow.address).Nodup) (h : Answers db pledges perShardSize rows) :
    Usable db pledges perShardSize rows ↔ (REQUIRED_SHARDS ≤ rows.length → DistinctTurns rows) := by
  rw [distinctTurns_iff hkey h]
  constructor
  · intro husable henough
    have hok : ∃ entries, selectProvidersForDeal rows = .ok entries := by
      unfold selectProvidersForDeal
      rw [if_neg (Nat.not_lt.mpr henough)]
      exact ⟨_, rfl⟩
    obtain ⟨entries, hentries⟩ := hok
    obtain ⟨-, -, haddresses⟩ := selectProvidersForDeal_eq_ok hentries
    rw [← haddresses]
    exact husable.distinct entries hentries
  · intro hdistinct
    constructor
    · intro entries hentries
      exact (selectProvidersForDeal_eq_ok hentries).2.1
    · intro entries hentries
      obtain ⟨henough, -, haddresses⟩ := selectProvidersForDeal_eq_ok hentries
      rw [haddresses]
      exact hdistinct henough
    · intro e herror
      -- a provider counts once among the providers, and once at least among the rows
      have hle := h.eligible_le hkey
      unfold selectProvidersForDeal at herror
      split at herror
      · next hfew => exact lt_of_le_of_lt hle hfew
      · cases herror

end Service

/-! ### Fifteen providers and sixteen pledges -/

namespace SixteenPledges

def addressOf (i : Nat) : String := String.ofList ('0' :: 'x' :: Nat.digitChar i :: List.replicate 39 '0')

def db : Database := { providers := (List.range 15).map fun i => { address := addressOf i, region := some "EU" } }

/-- A pledge of each provider, and a second one of provider `i`. -/
def pledges (i : Nat) : List PledgeRow :=
  ((List.range 15) ++ [i]).map fun i => { providerAddress := addressOf i, capacityGb := 10 }

/-- For ten gigabytes, with the providers in the order of the table. -/
def rows (i : Nat) : List SelectionRow := selectionRows (scoreOf db) db (pledges i) 1

theorem db_key : (db.providers.map ProviderRow.address).Nodup := by decide +kernel

/-- All fifteen are eligible, but the first one has two of the first fifteen rows. -/
theorem first_selected_twice :
    Answers db (pledges 0) 1 (rows 0) ∧ (db.providers.filter (Eligible (pledges 0) 1)).length = 15 ∧
      (selectProvidersForDeal (rows 0)).toOption.map
        (fun entries => (entries.map ProviderSelection.providerAddress).take 2) = some [addressOf 0, addressOf 0] ∧
      ¬ Usable db (pledges 0) 1 (rows 0) := by
  have htwice : (selectProvidersForDeal (rows 0)).toOption.map
      (fun entries => (entries.map ProviderSelection.providerAddress).take 2) = some [addressOf 0, addressOf 0] := by
    decide +kernel
  refine ⟨⟨List.Perm.refl _, by decide +kernel⟩, by decide +kernel, htwice, ?_⟩
  intro h
  cases hentries : selectProvidersForDeal (rows 0) with
  | error e =>
    rw [hentries] at htwice
    cases htwice
  | ok entries =>
    rw [hentries] at htwice
    have htwo := (h.distinct entries hentries).sublist (List.take_sublist 2 _)
    have heq : (entries.map ProviderSelection.providerAddress).take 2 = [addressOf 0, addressOf 0] :=
      Option.some.inj htwice
    rw [heq] at htwo
    exact absurd htwo (by simp)

/-- The second row of the last provider comes too late to be selected. -/
theorem last_selected_once : Usable db (pledges 14) 1 (rows 14) := by
  have hanswer : Answers db (pledges 14) 1 (rows 14) := ⟨List.Perm.refl _, by decide +kernel⟩
  have hregions : ∀ row ∈ rows 14, row.region = some "EU" := by decide +kernel
  apply (usable_iff db_key hanswer).mpr
  intro _ region
  by_cases hregion : region = some "EU"
  · subst hregion
    decide +kernel
  · have hnone : (rows 14).filter (fun row => row.region = region) = [] := by
      apply List.filter_eq_nil_iff.mpr
      intro row hrow
      simpa [hregions row hrow] using Ne.symm hregion
    rw [hnone, List.take_nil]
    exact List.nodup_nil

end SixteenPledges

end ReplicationOrchestrator

end Kyneto
