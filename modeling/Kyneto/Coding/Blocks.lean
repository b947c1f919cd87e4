import Mathlib

/-!
# Buffers cut into blocks

A buffer of `n * size` symbols holds `n` blocks of equal size, one after the other. This file has what a
program does with such a buffer: read a block, copy one into its place, fill several places one after the
other, and put the blocks together again.
-/

namespace Kyneto.Coding

variable {α : Type}

/-- Block `i` of a buffer. -/
def block (size i : Nat) (buf : List α) : List α := (buf.drop (i * size)).take size

/-- Overwrite a buffer from an offset on. What does not fit is dropped. -/
def copyInto (buf src : List α) (offset : Nat) : List α :=
  buf.take offset ++ src.take (buf.length - offset) ++ buf.drop (offset + src.length)

/-- Copy blocks into their places, those of a list of indices that are there. -/
def fill (size : Nat) (blocks : Nat → Option (List α)) (buf : List α) (indices : List Nat) : List α :=
  indices.foldl (fun buf i =>
    match blocks i with
    | some src => copyInto buf src (i * size)
    | none => buf) buf

section Blocks

variable {size n i j : Nat} {buf src : List α}

theorem getElem?_block (j : Nat) :
    (block size i buf)[j]? = if j < size then buf[i * size + j]? else none := by
  unfold block
  rw [List.getElem?_take]
  split
  · rw [List.getElem?_drop]
  · rfl

theorem end_le_of_lt (h : i < n) : i * size + size ≤ n * size := by
  have hle : (i + 1) * size ≤ n * size := Nat.mul_le_mul_right size h
  rwa [Nat.add_mul, Nat.one_mul] at hle

theorem length_block (hlen : buf.length = n * size) (h : i < n) : (block size i buf).length = size := by
  have hend := @end_le_of_lt size n i h
  simp only [block, List.length_take, List.length_drop]
  omega

theorem length_copyInto (h : src.length + j ≤ buf.length) :
    (copyInto buf src j).length = buf.length := by
  simp only [copyInto, List.length_append, List.length_take, List.length_drop]
  omega

/-- A copy puts the source at its place, and leaves the rest. -/
theorem getElem?_copyInto (h : src.length + j ≤ buf.length) (m : Nat) :
    (copyInto buf src j)[m]? =
      if j ≤ m ∧ m < j + src.length then src[m - j]? else buf[m]? := by
  have htake : (buf.take j).length = j := by
    rw [List.length_take]
    omega
  have hsrc : src.take (buf.length - j) = src := List.take_of_length_le (by omega)
  unfold copyInto
  rw [hsrc]
  by_cases hbefore : m < j
  · rw [List.append_assoc, List.getElem?_append_left (by omega), List.getElem?_take, if_pos hbefore,
      if_neg (by omega)]
  · by_cases hin : m < j + src.length
    · rw [List.append_assoc, List.getElem?_append_right (by omega), htake,
        List.getElem?_append_left (by omega), if_pos ⟨by omega, hin⟩]
    · rw [List.getElem?_append_right (by simp only [List.length_append]; omega), List.getElem?_drop,
        if_neg (by omega)]
      congr 1
      simp only [List.length_append, htake]
      omega

/-- A block that is copied into its place is found there. -/
theorem block_copyInto_self (hlen : buf.length = n * size) (h : i < n) (hsrc : src.length = size) :
    block size i (copyInto buf src (i * size)) = src := by
  have hend := @end_le_of_lt size n i h
  apply List.ext_getElem?
  intro m
  rw [getElem?_block]
  split
  · next hm =>
    rw [getElem?_copyInto (by omega), if_pos ⟨by omega, by omega⟩]
    congr 1
    omega
  · next hm =>
    rw [eq_comm, List.getElem?_eq_none_iff]
    omega

/-- The other blocks stay as they are. -/
theorem block_copyInto_of_ne (hlen : buf.length = n * size) (h : i < n) (hsrc : src.length = size)
    (hne : j ≠ i) : block size j (copyInto buf src (i * size)) = block size j buf := by
  have hend := @end_le_of_lt size n i h
  apply List.ext_getElem?
  intro m
  rw [getElem?_block, getElem?_block]
  split
  · next hm =>
    rw [getElem?_copyInto (by omega), if_neg]
    rintro ⟨hfrom, hto⟩
    -- position `m` of block `j` lies in block `i` only if the blocks are the same
    rcases Nat.lt_or_gt_of_ne hne with hlt | hgt
    · have := @end_le_of_lt size i j hlt
      omega
    · have := @end_le_of_lt size j i hgt
      omega
  · rfl

/-- The blocks in order make up the buffer. -/
theorem flatten_blocks (size n : Nat) (buf : List α) :
    ((List.range n).map fun i => block size i buf).flatten = buf.take (n * size) := by
  induction n with
  | zero => simp
  | succ n ih =>
    have hsplit : (n + 1) * size = n * size + size := by rw [Nat.add_mul, Nat.one_mul]
    rw [List.range_succ, List.map_append, List.flatten_append, ih, hsplit, List.take_add]
    simp [block]

/-- Where a symbol of the buffer is, if the buffer is made up of blocks of one size. -/
theorem getElem?_flatten {blocks : List (List α)} (hsize : 0 < size) (h : ∀ b ∈ blocks, b.length = size) (m : Nat) :
    blocks.flatten[m]? = (blocks[m / size]?).bind fun b => b[m % size]? := by
  induction blocks generalizing m with
  | nil => simp
  | cons b rest ih =>
    have hb : b.length = size := h b List.mem_cons_self
    rw [List.flatten_cons]
    by_cases hm : m < size
    · rw [List.getElem?_append_left (by omega), Nat.div_eq_of_lt hm, Nat.mod_eq_of_lt hm]
      rfl
    · have hdiv : m / size = (m - size) / size + 1 := by
        rw [← Nat.add_div_right _ hsize, Nat.sub_add_cancel (by omega)]
      have hmod : m % size = (m - size) % size := Nat.mod_eq_sub_mod (by omega)
      rw [List.getElem?_append_right (by omega), hb, ih fun b' hb' => h b' (List.mem_cons_of_mem _ hb'), hdiv, hmod,
        List.getElem?_cons_succ]

/-- What comes after the blocks is not read. -/
theorem block_append_left (hlen : buf.length = n * size) (h : i < n) (rest : List α) :
    block size i (buf ++ rest) = block size i buf := by
  have hend := @end_le_of_lt size n i h
  apply List.ext_getElem?
  intro m
  rw [getElem?_block, getElem?_block]
  split
  · next hm => rw [List.getElem?_append_left (by omega)]
  · rfl

theorem length_flatten_blocks {indices : List Nat} (hlen : buf.length = n * size) (hlt : ∀ i ∈ indices, i < n) :
    (indices.map fun i => block size i buf).flatten.length = indices.length * size := by
  rw [List.length_flatten, List.map_map]
  calc _ = (indices.map fun _ => size).sum := by
        congr 1
        apply List.map_congr_left
        intro i hi
        exact length_block hlen (hlt i hi)
    _ = _ := by rw [List.map_const', List.sum_replicate, smul_eq_mul]

/-- Some blocks, one after the other, are the beginning of the buffer if each is equal to the one whose place it
takes. -/
theorem flatten_blocks_eq_iff {indices : List Nat} (hlen : buf.length = n * size) (hlt : ∀ i ∈ indices, i < n)
    (hle : indices.length ≤ n) :
    (indices.map fun i => block size i buf).flatten = buf.take (indices.length * size) ↔
      ∀ j i, indices[j]? = some i → block size i buf = block size j buf := by
  have hsame : (indices.map fun i => block size i buf) =
      ((List.range indices.length).map fun j => block size j buf) ↔
      ∀ j i, indices[j]? = some i → block size i buf = block size j buf := by
    constructor
    · intro h j i hi
      have hat := congrArg (·[j]?) h
      simp only [List.getElem?_map, hi] at hat
      rw [List.getElem?_range (List.getElem?_eq_some_iff.mp hi).1] at hat
      exact Option.some.inj hat
    · intro h
      apply List.ext_getElem
      · simp
      · intro j hj _
        rw [List.length_map] at hj
        simpa using h j _ (List.getElem?_eq_getElem hj)
  have hrange : ∀ j ∈ List.range indices.length, j < n := by
    intro j hj
    have := List.mem_range.mp hj
    omega
  -- the blocks are of one size, so that they can be read off the buffer
  have hsizes : ∀ {l : List Nat}, (∀ i ∈ l, i < n) →
      (l.map fun i => block size i buf).map List.length = List.replicate l.length size := by
    intro l hl
    rw [List.map_map, ← List.map_const']
    apply List.map_congr_left
    intro i hi
    exact length_block hlen (hl i hi)
  rw [← hsame, ← flatten_blocks, List.eq_iff_flatten_eq, hsizes hlt, hsizes hrange, List.length_range]
  exact (and_iff_left rfl).symm

/-- A buffer is known by its blocks. -/
theorem eq_of_blocks {other : List α} (hlen : buf.length = n * size) (hlen' : other.length = n * size)
    (h : ∀ i < n, block size i buf = block size i other) : buf = other := by
  have hbuf := flatten_blocks size n buf
  have hother := flatten_blocks size n other
  rw [List.take_of_length_le (by omega)] at hbuf hother
  rw [← hbuf, ← hother]
  congr 1
  apply List.map_congr_left
  intro i hi
  exact h i (List.mem_range.mp hi)

/-! ## Filling a buffer -/

/-- Filling in blocks of the right size does not change the length of the buffer. -/
theorem length_fill {blocks : Nat → Option (List α)} {indices : List Nat}
    (hlen : buf.length = n * size) (hlt : ∀ i ∈ indices, i < n)
    (hsize : ∀ i ∈ indices, ∀ src, blocks i = some src → src.length = size) :
    (fill size blocks buf indices).length = n * size := by
  induction indices generalizing buf with
  | nil => exact hlen
  | cons i rest ih =>
    rw [fill, List.foldl_cons]
    have hrest : ∀ i ∈ rest, i < n := fun i hi => hlt i (List.mem_cons_of_mem _ hi)
    have hsizes : ∀ i ∈ rest, ∀ src, blocks i = some src → src.length = size :=
      fun i hi => hsize i (List.mem_cons_of_mem _ hi)
    cases h : blocks i with
    | none => exact ih hlen hrest hsizes
    | some src =>
      apply ih _ hrest hsizes
      have hend := @end_le_of_lt size n i (hlt i List.mem_cons_self)
      rw [length_copyInto, hlen]
      rw [hsize i List.mem_cons_self src h]
      omega

/-- What a filled buffer holds: the blocks that were there, and what it held before in all other places. -/
theorem block_fill {blocks : Nat → Option (List α)} {indices : List Nat} (hnodup : indices.Nodup)
    (hlen : buf.length = n * size) (hlt : ∀ i ∈ indices, i < n)
    (hsize : ∀ i ∈ indices, ∀ src, blocks i = some src → src.length = size) :
    block size j (fill size blocks buf indices) =
      if j ∈ indices then (blocks j).getD (block size j buf) else block size j buf := by
  induction indices generalizing buf with
  | nil => simp [fill]
  | cons i rest ih =>
    rw [List.nodup_cons] at hnodup
    have hrest : ∀ i ∈ rest, i < n := fun i hi => hlt i (List.mem_cons_of_mem _ hi)
    have hsizes : ∀ i ∈ rest, ∀ src, blocks i = some src → src.length = size :=
      fun i hi => hsize i (List.mem_cons_of_mem _ hi)
    have hi : i < n := hlt i List.mem_cons_self
    rw [fill, List.foldl_cons]
    cases h : blocks i with
    | none =>
      have hih := ih hnodup.2 hlen hrest hsizes
      rw [fill] at hih
      rw [hih]
      rcases eq_or_ne j i with rfl | hne
      · simp [hnodup.1, h]
      · simp [hne]
    | some src =>
      have hsrc := hsize i List.mem_cons_self src h
      have hlen' : (copyInto buf src (i * size)).length = n * size := by
        have hend := @end_le_of_lt size n i hi
        rw [length_copyInto, hlen]
        omega
      have hih := ih hnodup.2 hlen' hrest hsizes
      rw [fill] at hih
      rw [hih]
      rcases eq_or_ne j i with rfl | hne
      · simp [hnodup.1, h, block_copyInto_self hlen hi hsrc]
      · simp [hne, block_copyInto_of_ne hlen hi hsrc hne]

end Blocks

end Kyneto.Coding
