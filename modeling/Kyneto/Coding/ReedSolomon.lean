import Kyneto.Coding.Blocks

/-!
# Reed–Solomon codes

The symbols of a word are the values of a polynomial at fixed points. `k` of them determine a polynomial of
degree less than `k`, and so all others: `extend` reads the value at any point off the known ones. A code
whose first `k` symbols are the message extends the message to the other points, and any `k` symbols of a
codeword extend to the same codeword (`extend_extend`).

A buffer of `n` blocks is encoded column by column (`extendBuffer`): the symbols at the same place in all
blocks are one word.
-/

namespace Kyneto.Coding

/-! ## Words -/

section Words

variable {F : Type} [Field F] {points : ℕ → F} {known other : Finset ℕ} {word damaged : ℕ → F} {i : ℕ}

/-- The value at point `i` of the polynomial through the known symbols. -/
noncomputable def extend (points : ℕ → F) (known : Finset ℕ) (word : ℕ → F) (i : ℕ) : F :=
  (Lagrange.interpolate known points word).eval (points i)

/-- The known symbols stay. -/
theorem extend_of_mem (hinj : Set.InjOn points known) (hi : i ∈ known) :
    extend points known word i = word i :=
  Lagrange.eval_interpolate_at_node word hinj hi

/-- As many other symbols as there were known ones extend to the same codeword. -/
theorem extend_extend (hinj : Set.InjOn points known) (hinj' : Set.InjOn points other)
    (hcard : known.card ≤ other.card) (hsame : ∀ i ∈ other, damaged i = extend points known word i) :
    extend points other damaged i = extend points known word i := by
  have hdegree : (Lagrange.interpolate known points word).degree < other.card := by
    apply lt_of_lt_of_le (Lagrange.degree_interpolate_lt word hinj)
    exact_mod_cast hcard
  have hpolynomial : Lagrange.interpolate known points word = Lagrange.interpolate other points damaged := by
    apply Lagrange.eq_interpolate_of_eval_eq damaged hinj' hdegree
    intro i hi
    exact (hsame i hi).symm
  rw [extend, extend, hpolynomial]

end Words

/-! ## Buffers -/

section Buffers

variable {α F : Type} [Inhabited α] [Field F]

/-- The word that the blocks hold in column `j`. -/
def column (size j : ℕ) (buf : List α) (i : ℕ) : α := buf.getD (i * size + j) default

/-- The known blocks of a buffer, extended to all `n`. -/
noncomputable def extendBuffer (code : α ≃ F) (points : ℕ → F) (known : Finset ℕ) (size n : ℕ)
    (buf : List α) : List α :=
  (List.range (n * size)).map fun m =>
    code.symm (extend points known (fun i => code (column size (m % size) buf i)) (m / size))

variable {code : α ≃ F} {points : ℕ → F} {known other : Finset ℕ} {size n i j : ℕ} {buf damaged : List α}

theorem length_extendBuffer : (extendBuffer code points known size n buf).length = n * size := by
  simp [extendBuffer]

theorem column_eq (hlen : buf.length = n * size) (hi : i < n) (hj : j < size) :
    buf[i * size + j]? = some (column size j buf i) := by
  have hend := @end_le_of_lt size n i hi
  have hlt : i * size + j < buf.length := by omega
  rw [column, List.getD_eq_getElem?_getD, List.getElem?_eq_getElem hlt]
  rfl

/-- Column by column, the buffer is extended by interpolation. -/
theorem column_extendBuffer (hi : i < n) (hj : j < size) :
    column size j (extendBuffer code points known size n buf) i =
      code.symm (extend points known (fun i => code (column size j buf i)) i) := by
  have hend := @end_le_of_lt size n i hi
  have hlt : i * size + j < n * size := by omega
  have hmod : (i * size + j) % size = j := by
    rw [Nat.mul_comm, Nat.mul_add_mod, Nat.mod_eq_of_lt hj]
  have hdiv : (i * size + j) / size = i := by
    rw [Nat.mul_comm, Nat.mul_add_div (by omega), Nat.div_eq_of_lt hj, Nat.add_zero]
  rw [column, extendBuffer, List.getD_eq_getElem?_getD, List.getElem?_map, List.getElem?_range hlt]
  simp only [Option.map_some, Option.getD_some, hmod, hdiv]

/-- Blocks are equal if their symbols are. -/
theorem block_eq_iff {other : List α} (hlen : buf.length = n * size) (hlen' : other.length = n * size)
    (hi : i < n) :
    block size i buf = block size i other ↔ ∀ j < size, column size j buf i = column size j other i := by
  constructor
  · intro h j hj
    have hat : (block size i buf)[j]? = (block size i other)[j]? := by rw [h]
    rw [getElem?_block, getElem?_block, if_pos hj, if_pos hj, column_eq hlen hi hj,
      column_eq hlen' hi hj] at hat
    exact Option.some.inj hat
  · intro h
    apply List.ext_getElem?
    intro j
    rw [getElem?_block, getElem?_block]
    split
    · next hj => rw [column_eq hlen hi hj, column_eq hlen' hi hj, h j hj]
    · rfl

/-- The known blocks stay. -/
theorem block_extendBuffer (hlen : buf.length = n * size) (hinj : Set.InjOn points known) (hi : i < n)
    (hknown : i ∈ known) :
    block size i (extendBuffer code points known size n buf) = block size i buf := by
  rw [block_eq_iff length_extendBuffer hlen hi]
  intro j hj
  rw [column_extendBuffer hi hj, extend_of_mem hinj hknown, Equiv.symm_apply_apply]

/-- As many other blocks as there were known ones extend to the same buffer. -/
theorem extendBuffer_extendBuffer (hlen : damaged.length = n * size) (hinj : Set.InjOn points known)
    (hinj' : Set.InjOn points other) (hcard : known.card ≤ other.card) (hlt : ∀ i ∈ other, i < n)
    (hsame : ∀ i ∈ other,
      block size i damaged = block size i (extendBuffer code points known size n buf)) :
    extendBuffer code points other size n damaged = extendBuffer code points known size n buf := by
  apply eq_of_blocks length_extendBuffer length_extendBuffer
  intro i hi
  rw [block_eq_iff length_extendBuffer length_extendBuffer hi]
  intro j hj
  rw [column_extendBuffer hi hj, column_extendBuffer hi hj]
  congr 1
  apply extend_extend hinj hinj' hcard
  intro i hi
  have hcolumn := (block_eq_iff hlen length_extendBuffer (hlt i hi)).mp (hsame i hi) j hj
  rw [hcolumn, column_extendBuffer (hlt i hi) hj, Equiv.apply_symm_apply]

end Buffers

end Kyneto.Coding
