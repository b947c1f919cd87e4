import Kyneto.DealOrchestrator.Basic

/-!
# Diversity of the selected providers

`selectWithDiversity` takes one row from each region, and then always the next row of a region with the fewest selected
rows. It sorts the regions before each choice, in place, and keeps the counts in a map beside the list.

The rows of a region are taken in the order of the list, the map has the lengths of the parts that are taken
(`Drafting`), and no region is two rows ahead of one that has rows left (`Balanced`). The search by regions finds a row
as long as there is one, so that the fallback has nothing to add.
-/

namespace Kyneto

/-- What is left without duplicates has none. -/
theorem nodup_eraseDups {α : Type} [BEq α] [LawfulBEq α] (l : List α) : l.eraseDups.Nodup := by
  induction hn : l.length using Nat.strong_induction_on generalizing l with
  | _ n ih =>
    cases l with
    | nil => exact List.nodup_nil
    | cons a l =>
      rw [List.eraseDups_cons, List.nodup_cons]
      constructor
      · rw [List.mem_eraseDups]
        simp
      · apply ih _ _ _ rfl
        rw [← hn, List.length_cons]
        exact Nat.lt_succ_of_le (List.length_filter_le _ _)

namespace ReplicationOrchestrator

/-! ## The rows of a region -/

def rowsIn (providers : List Picked) (region : Option String) : List Picked :=
  providers.filter fun p => p.2.region = region

theorem mem_rowsIn {providers : List Picked} {region : Option String} {p : Picked} :
    p ∈ rowsIn providers region ↔ p ∈ providers ∧ p.2.region = region := by
  simp [rowsIn]

theorem rowsIn_append (l l' : List Picked) (region : Option String) :
    rowsIn (l ++ l') region = rowsIn l region ++ rowsIn l' region := List.filter_append ..

theorem rowsIn_singleton (p : Picked) (region : Option String) :
    rowsIn [p] region = if p.2.region = region then [p] else [] := by
  simp [rowsIn, List.filter_singleton]

/-- The first rows of every region are selected, and the map counts them. -/
structure Drafting (providers : List Picked) (s : Picking) : Prop where
  rows : ∀ region, rowsIn s.selected region <+: rowsIn providers region
  counts : ∀ region, s.regionCounts region = (rowsIn s.selected region).length

/-- No region is two rows ahead of a region with a row left. -/
def Balanced (providers : List Picked) (s : Picking) : Prop :=
  ∀ region other, s.regionCounts region < (rowsIn providers region).length →
    s.regionCounts other ≤ s.regionCounts region + 1

section Picks

variable {providers : List Picked} {count n : Nat} {regions : List (Option String)} {region : Option String}
  {s : Picking} {p : Picked}

theorem drafting_empty : Drafting providers {} where
  rows _ := List.nil_prefix
  counts _ := rfl

theorem Drafting.mem (h : Drafting providers s) (hp : p ∈ s.selected) : p ∈ providers := by
  have hrow : p ∈ rowsIn s.selected p.2.region := mem_rowsIn.mpr ⟨hp, rfl⟩
  exact (mem_rowsIn.mp ((h.rows p.2.region).subset hrow)).1

/-- Nobody is selected twice, since every row is selected by its place. -/
theorem Drafting.nodup (hnodup : providers.Nodup) (h : Drafting providers s) : s.selected.Nodup := by
  apply List.nodup_iff_count_le_one.mpr
  intro p
  have hcount : ∀ l : List Picked, (rowsIn l p.2.region).count p = l.count p := by
    intro l
    exact List.count_filter (by simp)
  rw [← hcount]
  calc (rowsIn s.selected p.2.region).count p
      ≤ (rowsIn providers p.2.region).count p := (h.rows p.2.region).sublist.count_le p
    _ = providers.count p := hcount providers
    _ ≤ 1 := List.nodup_iff_count_le_one.mp hnodup p

theorem Drafting.length_le (hnodup : providers.Nodup) (h : Drafting providers s) :
    s.selected.length ≤ providers.length :=
  (List.subperm_of_subset (h.nodup hnodup) fun _ => h.mem).length_le

/-- The search for a region finds its next row. -/
theorem Drafting.findIn_eq (hnodup : providers.Nodup) (h : Drafting providers s) (region : Option String) :
    s.findIn providers region = (rowsIn providers region)[s.regionCounts region]? := by
  obtain ⟨rest, hrest⟩ := h.rows region
  have hsearch : s.findIn providers region = (rowsIn providers region).find? fun p => p ∉ s.selected := by
    unfold Picking.findIn rowsIn
    rw [List.find?_filter]
    congr 1
    funext p
    simp
  have htaken : (rowsIn s.selected region).find? (fun p => p ∉ s.selected) = none := by
    apply List.find?_eq_none.mpr
    intro p hp
    simp [(mem_rowsIn.mp hp).1]
  have hfree : ∀ p ∈ rest, p ∉ s.selected := by
    intro p hp hselected
    have hrows : (rowsIn s.selected region ++ rest).Nodup := by
      rw [hrest]
      exact hnodup.filter _
    have hregion : p.2.region = region := by
      have hmem : p ∈ rowsIn providers region := hrest ▸ List.mem_append_right _ hp
      exact (mem_rowsIn.mp hmem).2
    exact List.disjoint_of_nodup_append hrows (mem_rowsIn.mpr ⟨hselected, hregion⟩) hp
  rw [hsearch, ← hrest, List.find?_append, htaken, Option.none_or, h.counts, List.getElem?_append_right (le_refl _),
    Nat.sub_self]
  cases rest with
  | nil => rfl
  | cons p rest =>
    have hp := hfree p List.mem_cons_self
    simp [hp]

theorem Drafting.findIn_eq_none (hnodup : providers.Nodup) (h : Drafting providers s) :
    s.findIn providers region = none ↔ (rowsIn providers region).length ≤ s.regionCounts region := by
  rw [h.findIn_eq hnodup, List.getElem?_eq_none_iff]

theorem region_of_findIn (hfind : s.findIn providers region = some p) : p.2.region = region := by
  have hp := List.find?_some hfind
  simp only [decide_eq_true_eq] at hp
  exact hp.1

/-- Selecting one more provider, of those that are left, goes on with the draft. -/
theorem Drafting.push (hnodup : providers.Nodup) (h : Drafting providers s)
    (hfind : s.findIn providers region = some p) :
    Drafting providers (s.push p region (s.regionCounts region + 1)) := by
  have hregion := region_of_findIn hfind
  have hrows : ∀ other, rowsIn (s.selected ++ [p]) other =
      if other = region then rowsIn s.selected region ++ [p] else rowsIn s.selected other := by
    intro other
    rw [rowsIn_append, rowsIn_singleton, hregion]
    by_cases hother : other = region
    · subst hother
      rw [if_pos rfl, if_pos rfl]
    · rw [if_neg hother, if_neg (Ne.symm hother), List.append_nil]
  constructor
  · intro other
    show rowsIn (s.selected ++ [p]) other <+: rowsIn providers other
    rw [hrows]
    split
    · next hother =>
      subst hother
      obtain ⟨rest, hrest⟩ := h.rows other
      rw [h.findIn_eq hnodup, ← hrest, h.counts, List.getElem?_append_right (le_refl _), Nat.sub_self] at hfind
      cases rest with
      | nil => cases hfind
      | cons q rest =>
        obtain rfl : q = p := Option.some.inj hfind
        refine ⟨rest, ?_⟩
        rw [← hrest, List.append_assoc, List.singleton_append]
    · exact h.rows other
  · intro other
    show Function.update s.regionCounts region (s.regionCounts region + 1) other =
      (rowsIn (s.selected ++ [p]) other).length
    rw [hrows]
    split
    · next hother =>
      subst hother
      rw [Function.update_self, List.length_append, List.length_singleton, h.counts]
    · next hother => rw [Function.update_of_ne hother, h.counts]

/-! ## The first pass -/

/-- One from each region, in order, until there are enough. -/
structure FirstPass (count : Nat) (regions : List (Option String)) (s s' : Picking) : Prop where
  taken : s'.selected.map (fun p => p.2.region) =
    s.selected.map (fun p => p.2.region) ++ regions.take (count - s.selected.length)
  counts : ∀ region, s'.regionCounts region =
    if region ∈ regions.take (count - s.selected.length) then 1 else s.regionCounts region

/-- The first pass: at most one provider for each region, and one if there are places left. -/
theorem onePerRegion_spec (hnodup : providers.Nodup) (hregions : regions.Nodup)
    (hrows : ∀ region ∈ regions, 0 < (rowsIn providers region).length) (h : Drafting providers s)
    (hfresh : ∀ region ∈ regions, s.regionCounts region = 0) :
    Drafting providers (onePerRegion providers count regions s) ∧
      FirstPass count regions s (onePerRegion providers count regions s) := by
  induction regions generalizing s with
  | nil => exact ⟨h, by simp [onePerRegion], by simp [onePerRegion]⟩
  | cons region regions ih =>
    obtain ⟨hnew, hregions⟩ := List.nodup_cons.mp hregions
    unfold onePerRegion
    split
    · next hfull =>
      have hnone : count - s.selected.length = 0 := Nat.sub_eq_zero_of_le hfull
      refine ⟨h, ?_, ?_⟩
      · rw [hnone, List.take_zero, List.append_nil]
      · intro other
        rw [hnone, List.take_zero, if_neg List.not_mem_nil]
    · next hroom =>
      have hzero := hfresh region List.mem_cons_self
      cases hfind : s.findIn providers region with
      | none =>
        have hpos := hrows region List.mem_cons_self
        have hle := (h.findIn_eq_none hnodup).mp hfind
        omega
      | some p =>
        have hpush := h.push hnodup hfind
        rw [hzero] at hpush
        have hfresh' : ∀ other ∈ regions, (s.push p region 1).regionCounts other = 0 := by
          intro other hother
          have hne : other ≠ region := fun heq => hnew (heq ▸ hother)
          show Function.update s.regionCounts region 1 other = 0
          rw [Function.update_of_ne hne]
          exact hfresh other (List.mem_cons_of_mem _ hother)
        obtain ⟨hdraft, htaken, hcounts⟩ :=
          ih hregions (fun other hother => hrows other (List.mem_cons_of_mem _ hother)) hpush hfresh'
        have hslots : count - s.selected.length = count - (s.push p region 1).selected.length + 1 := by
          show count - s.selected.length = count - (s.selected ++ [p]).length + 1
          rw [List.length_append, List.length_singleton]
          omega
        refine ⟨hdraft, ?_, ?_⟩
        · rw [htaken, hslots, List.take_succ_cons]
          show (s.selected ++ [p]).map (fun p => p.2.region) ++ _ = _
          rw [List.map_append, List.append_assoc, List.map_singleton, region_of_findIn hfind, List.singleton_append]
        · intro other
          rw [hcounts, hslots, List.take_succ_cons]
          show (if _ then 1 else Function.update s.regionCounts region 1 other) = _
          by_cases hsame : other = region
          · subst hsame
            rw [Function.update_self, ite_self, if_pos List.mem_cons_self]
          · rw [Function.update_of_ne hsame]
            simp [hsame]

/-! ## The second pass -/

/-- The second pass as it would be without its fallback. -/
def fillByRegion (providers : List Picked) : Nat → List (Option String) → Picking → Picking
  | 0, _, s => s
  | n + 1, regions, s =>
    let sortedRegions := sortRegions s regions
    match sortedRegions.findSome? fun region => (s.findIn providers region).map fun p => (region, p) with
    | some (region, p) => fillByRegion providers n sortedRegions (s.push p region (s.regionCounts region + 1))
    | none => s

theorem mem_sortRegions : region ∈ sortRegions s regions ↔ region ∈ regions := List.mem_insertionSort _

theorem sortRegions_sorted (s : Picking) (regions : List (Option String)) :
    (sortRegions s regions).Pairwise fun a b => s.regionCounts a ≤ s.regionCounts b := by
  have : IsTrans (Option String) fun a b => s.regionCounts a ≤ s.regionCounts b := ⟨fun _ _ _ => le_trans⟩
  have : Std.Total fun a b : Option String => s.regionCounts a ≤ s.regionCounts b := ⟨fun _ _ => le_total _ _⟩
  exact List.pairwise_insertionSort _ regions

/-- The search goes through regions without rows left to one with a row. -/
theorem search_eq_some (hfind : ((sortRegions s regions).findSome? fun region =>
      (s.findIn providers region).map fun p => (region, p)) = some (region, p)) :
    ∃ before after, sortRegions s regions = before ++ region :: after ∧ s.findIn providers region = some p ∧
      ∀ other ∈ before, s.findIn providers other = none := by
  obtain ⟨before, other, after, hsplit, hother, hbefore⟩ := List.findSome?_eq_some_iff.mp hfind
  obtain ⟨q, hq, heq⟩ := Option.map_eq_some_iff.mp hother
  obtain ⟨rfl, rfl⟩ := Prod.mk.inj heq
  exact ⟨before, after, hsplit, hq, fun other hmem => Option.map_eq_none_iff.mp (hbefore other hmem)⟩

/-- A region that is found has the fewest rows of those with rows left. -/
theorem Drafting.fewest (hnodup : providers.Nodup) (hregions : ∀ p ∈ providers, p.2.region ∈ regions)
    (h : Drafting providers s)
    (hfind : ((sortRegions s regions).findSome? fun region =>
      (s.findIn providers region).map fun p => (region, p)) = some (region, p))
    {other : Option String} (hleft : s.regionCounts other < (rowsIn providers other).length) :
    s.regionCounts region ≤ s.regionCounts other := by
  obtain ⟨before, after, hsplit, -, hbefore⟩ := search_eq_some hfind
  have hmem : other ∈ before ++ region :: after := by
    rw [← hsplit, mem_sortRegions]
    obtain ⟨q, hq⟩ := List.exists_mem_of_length_pos (lt_of_le_of_lt (Nat.zero_le _) hleft)
    obtain ⟨hrow, rfl⟩ := mem_rowsIn.mp hq
    exact hregions q hrow
  have hsorted := sortRegions_sorted s regions
  rw [hsplit] at hsorted
  rcases List.mem_append.mp hmem with hold | hrest
  · have hnone := (h.findIn_eq_none hnodup).mp (hbefore other hold)
    omega
  · rcases List.mem_cons.mp hrest with rfl | hafter
    · exact le_refl _
    · exact List.rel_of_pairwise_cons (List.pairwise_append.mp hsorted).2.1 hafter

/-- Taking from the region with the fewest keeps the regions balanced. -/
theorem Balanced.push (hnodup : providers.Nodup) (hregions : ∀ p ∈ providers, p.2.region ∈ regions)
    (h : Drafting providers s) (hbalanced : Balanced providers s)
    (hfind : ((sortRegions s regions).findSome? fun region =>
      (s.findIn providers region).map fun p => (region, p)) = some (region, p)) :
    Balanced providers (s.push p region (s.regionCounts region + 1)) := by
  have hcounts : ∀ other, (s.push p region (s.regionCounts region + 1)).regionCounts other =
      if other = region then s.regionCounts region + 1 else s.regionCounts other := by
    intro other
    exact Function.update_apply ..
  intro a b hleft
  rw [hcounts] at hleft
  rw [hcounts, hcounts]
  have hleft' : s.regionCounts a < (rowsIn providers a).length := by
    split at hleft
    · next heq =>
      subst heq
      omega
    · exact hleft
  have hfewest := h.fewest hnodup hregions hfind hleft'
  have hold := hbalanced a b hleft'
  split
  · split
    · omega
    · next hne heq =>
      rw [if_neg heq] at hleft
      omega
  · split
    · next hne heq =>
      subst heq
      omega
    · exact hold

/-- Where the search finds nothing, everything is selected. -/
theorem Drafting.all_selected (hnodup : providers.Nodup) (hregions : ∀ p ∈ providers, p.2.region ∈ regions)
    (h : Drafting providers s)
    (hfind : ((sortRegions s regions).findSome? fun region =>
      (s.findIn providers region).map fun p => (region, p)) = none) : ∀ p ∈ providers, p ∈ s.selected := by
  intro p hp
  have hsearch := List.findSome?_eq_none_iff.mp hfind p.2.region (mem_sortRegions.mpr (hregions p hp))
  have hall := (h.findIn_eq_none hnodup).mp (Option.map_eq_none_iff.mp hsearch)
  rw [h.counts] at hall
  have hsame := (h.rows p.2.region).eq_of_length_le hall
  have hrow : p ∈ rowsIn s.selected p.2.region := by
    rw [hsame]
    exact mem_rowsIn.mpr ⟨hp, rfl⟩
  exact (mem_rowsIn.mp hrow).1

/-- What the second pass leaves. -/
structure SecondPass (providers : List Picked) (n : Nat) (s s' : Picking) : Prop where
  drafting : Drafting providers s'
  balanced : Balanced providers s'
  length : s'.selected.length = min (s.selected.length + n) providers.length

/-- The second pass comes to an end with the selection balanced, and does the same as a pass by regions. -/
theorem fillSlots_spec (hnodup : providers.Nodup) (hregions : ∀ p ∈ providers, p.2.region ∈ regions)
    (h : Drafting providers s) (hbalanced : Balanced providers s) :
    SecondPass providers n s (fillSlots providers n regions s) ∧
      fillSlots providers n regions s = fillByRegion providers n regions s := by
  induction n generalizing s regions with
  | zero =>
    refine ⟨⟨h, hbalanced, ?_⟩, rfl⟩
    show s.selected.length = min (s.selected.length + 0) providers.length
    have hle := h.length_le hnodup
    omega
  | succ n ih =>
    unfold fillSlots fillByRegion
    simp only
    have hsorted : ∀ p ∈ providers, p.2.region ∈ sortRegions s regions :=
      fun p hp => mem_sortRegions.mpr (hregions p hp)
    cases hfind : (sortRegions s regions).findSome? fun region =>
        (s.findIn providers region).map fun p => (region, p) with
    | some found =>
      obtain ⟨region, p⟩ := found
      obtain ⟨_, _, -, hp, -⟩ := search_eq_some hfind
      obtain ⟨⟨hdraft, hbal, hlength⟩, hsame⟩ := ih hsorted (h.push hnodup hp) (hbalanced.push hnodup hregions h hfind)
      refine ⟨⟨hdraft, hbal, ?_⟩, hsame⟩
      show _ = min _ _
      have hone : (s.push p region (s.regionCounts region + 1)).selected.length = s.selected.length + 1 := by
        show (s.selected ++ [p]).length = _
        rw [List.length_append, List.length_singleton]
      rw [hlength, hone]
      congr 1
      omega
    | none =>
      have hall := h.all_selected hnodup hregions hfind
      have hfallback : providers.find? (fun p => p ∉ s.selected) = none := by
        apply List.find?_eq_none.mpr
        intro p hp
        simp [hall p hp]
      simp only [hfallback]
      refine ⟨⟨h, hbalanced, ?_⟩, trivial⟩
      have hle := h.length_le hnodup
      have hge : providers.length ≤ s.selected.length := (List.subperm_of_subset hnodup fun p => hall p).length_le
      omega

end Picks

/-! ## The selection -/

/-- The rows with their positions. -/
def candidates (rows : List SelectionRow) : List Picked := rows.zipIdx.map Prod.swap

def regionsOf (rows : List SelectionRow) : List (Option String) := (rows.map SelectionRow.region).eraseDups

/-- The rows that are selected, with their positions. -/
def picks (rows : List SelectionRow) (count : Nat) : List Picked :=
  let s := onePerRegion (candidates rows) count (regionsOf rows) {}
  (fillSlots (candidates rows) (count - s.selected.length) (regionsOf rows) s).selected.take count

/-- `selectWithDiversity` as it would be without its fallback. -/
def selectByRegion (rows : List SelectionRow) (count : Nat) : List SelectionRow :=
  let s := onePerRegion (candidates rows) count (regionsOf rows) {}
  ((fillByRegion (candidates rows) (count - s.selected.length) (regionsOf rows) s).selected.take count).map Prod.snd

section Selection

variable {rows : List SelectionRow} {count : Nat}

/-- A candidate is a row with its place in the list. -/
theorem mem_candidates {p : Picked} : p ∈ candidates rows ↔ rows[p.1]? = some p.2 := by
  obtain ⟨i, row⟩ := p
  unfold candidates
  rw [List.mem_map]
  constructor
  · rintro ⟨⟨row', i'⟩, hmem, heq⟩
    obtain ⟨rfl, rfl⟩ := Prod.mk.inj heq
    exact List.mem_zipIdx_iff_getElem?.mp hmem
  · intro hrow
    exact ⟨(row, i), List.mem_zipIdx_iff_getElem?.mpr hrow, rfl⟩

theorem candidates_nodup : (candidates rows).Nodup := by
  have hpositions : ((candidates rows).map Prod.fst).Nodup := by
    unfold candidates
    rw [List.map_map]
    show (rows.zipIdx.map Prod.snd).Nodup
    rw [List.zipIdx_map_snd]
    exact List.nodup_range'
  exact hpositions.of_map _

theorem length_candidates : (candidates rows).length = rows.length := by
  simp [candidates]

theorem region_mem {p : Picked} (hp : p ∈ candidates rows) : p.2.region ∈ regionsOf rows := by
  unfold regionsOf
  rw [List.mem_eraseDups]
  exact List.mem_map_of_mem (List.mem_of_getElem? (mem_candidates.mp hp))

theorem regionsOf_nodup : (regionsOf rows).Nodup := nodup_eraseDups _

theorem rowsIn_pos {region : Option String} (h : region ∈ regionsOf rows) :
    0 < (rowsIn (candidates rows) region).length := by
  unfold regionsOf at h
  rw [List.mem_eraseDups] at h
  obtain ⟨row, hrow, rfl⟩ := List.mem_map.mp h
  obtain ⟨i, hi⟩ := List.mem_iff_getElem?.mp hrow
  have hmem : (i, row) ∈ rowsIn (candidates rows) row.region := mem_rowsIn.mpr ⟨mem_candidates.mpr hi, rfl⟩
  exact List.length_pos_of_mem hmem

/-- After the first pass, no region has more than one row. -/
theorem firstPass (rows : List SelectionRow) (count : Nat) :
    Drafting (candidates rows) (onePerRegion (candidates rows) count (regionsOf rows) {}) ∧
      Balanced (candidates rows) (onePerRegion (candidates rows) count (regionsOf rows) {}) ∧
      FirstPass count (regionsOf rows) {} (onePerRegion (candidates rows) count (regionsOf rows) {}) := by
  have hpos : ∀ region ∈ regionsOf rows, 0 < (rowsIn (candidates rows) region).length := fun _ => rowsIn_pos
  have hspec := @onePerRegion_spec (candidates rows) count (regionsOf rows) {} candidates_nodup regionsOf_nodup hpos
    drafting_empty (fun _ _ => rfl)
  obtain ⟨hdraft, hfirst⟩ := hspec
  refine ⟨hdraft, ?_, hfirst⟩
  intro region other _
  have hone : (onePerRegion (candidates rows) count (regionsOf rows) {}).regionCounts other ≤ 1 := by
    rw [hfirst.counts]
    split
    · exact le_refl 1
    · exact Nat.zero_le 1
  omega

/-- What is taken is everything that the second pass leaves: there is never too much. -/
theorem picks_spec (rows : List SelectionRow) (count : Nat) :
    ∃ s, picks rows count = s.selected ∧ Drafting (candidates rows) s ∧ Balanced (candidates rows) s ∧
      s.selected.length = min count rows.length ∧ selectWithDiversity rows count = selectByRegion rows count := by
  obtain ⟨hdraft, hbalanced, hfirst⟩ := firstPass rows count
  have hle : (onePerRegion (candidates rows) count (regionsOf rows) {}).selected.length ≤ count := by
    have hlength := congrArg List.length hfirst.taken
    rw [List.length_map, List.length_append, List.length_take] at hlength
    simp only [List.map_nil, List.length_nil] at hlength
    omega
  obtain ⟨⟨hdraft', hbalanced', hlength⟩, hsame⟩ :=
    fillSlots_spec (n := count - (onePerRegion (candidates rows) count (regionsOf rows) {}).selected.length)
      candidates_nodup (fun _ => region_mem) hdraft hbalanced
  rw [Nat.add_sub_cancel' hle, length_candidates] at hlength
  refine ⟨_, ?_, hdraft', hbalanced', hlength, ?_⟩
  · unfold picks
    exact List.take_of_length_le (hlength ▸ Nat.min_le_left _ _)
  · unfold selectWithDiversity selectByRegion
    simp only
    congr 2
    exact congrArg Picking.selected hsame

/-- A balanced selection of `count` rows, given by their positions. -/
structure BalancedSelection (rows : List SelectionRow) (count : Nat) (picked : List Picked) : Prop where
  /-- The picks are different rows of the list. -/
  distinct : (picked.map Prod.fst).Nodup
  listed : ∀ p ∈ picked, rows[p.1]? = some p.2
  length : picked.length = min count rows.length
  /-- The rows of a region are taken in the order of the list. -/
  inOrder : ∀ region, rowsIn picked region <+: rowsIn (candidates rows) region
  /-- A region with a row left is at most one row behind. -/
  fair : ∀ p ∈ candidates rows, p ∉ picked → ∀ other,
    (rowsIn picked other).length ≤ (rowsIn picked p.2.region).length + 1

/-- Both passes together are balanced, whatever the rows are. -/
theorem picks_balanced (rows : List SelectionRow) (count : Nat) : BalancedSelection rows count (picks rows count) := by
  obtain ⟨s, hpicks, hdraft, hbalanced, hlength, -⟩ := picks_spec rows count
  rw [hpicks]
  have hlisted : ∀ p ∈ s.selected, rows[p.1]? = some p.2 := fun p hp => mem_candidates.mp (hdraft.mem hp)
  constructor
  · apply List.Nodup.map_on _ (hdraft.nodup candidates_nodup)
    intro p hp q hq hposition
    have hrow := (hlisted p hp).symm.trans ((congrArg (rows[·]?) hposition).trans (hlisted q hq))
    exact Prod.ext hposition (Option.some.inj hrow)
  · exact hlisted
  · exact hlength
  · exact hdraft.rows
  · intro p hp hunpicked other
    rw [← hdraft.counts, ← hdraft.counts]
    apply hbalanced
    rw [hdraft.counts]
    -- a region that is taken as a whole has no row left
    apply Nat.lt_of_not_le
    intro hall
    have hsame := (hdraft.rows p.2.region).eq_of_length_le hall
    have hrow : p ∈ rowsIn s.selected p.2.region := by
      rw [hsame]
      exact mem_rowsIn.mpr ⟨hp, rfl⟩
    exact hunpicked (mem_rowsIn.mp hrow).1

/-- **The selection is balanced**, for every list of rows and every number, and the fallback never adds a row. -/
theorem selectWithDiversity_balanced (rows : List SelectionRow) (count : Nat) :
    selectWithDiversity rows count = (picks rows count).map Prod.snd ∧
      BalancedSelection rows count (picks rows count) ∧
      selectWithDiversity rows count = selectByRegion rows count := by
  obtain ⟨_, -, -, -, -, hfallback⟩ := picks_spec rows count
  exact ⟨rfl, picks_balanced rows count, hfallback⟩

end Selection

end ReplicationOrchestrator

end Kyneto
