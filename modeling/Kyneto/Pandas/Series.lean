import Mathlib

/-!
# Columns of numbers in pandas

A cell of a numeric column is a rational number, an infinity, or missing (NaN). A series has cells at the rows of its
index; an operation on two series aligns them, so that a row only one of them has is missing in the result. This file
has the operations with their special values, exact otherwise, and what they are on numbers.
-/

namespace Kyneto.Pandas

inductive Cell where
  | nan
  | inf (negative : Bool)
  | num (q : ℚ)
  deriving DecidableEq

namespace Cell

/-! ## Arithmetic -/

def neg : Cell → Cell
  | nan => nan
  | inf s => inf !s
  | num a => num (-a)

def add : Cell → Cell → Cell
  | num a, num b => num (a + b)
  | inf s, inf t => if s = t then inf s else nan
  | inf s, num _ | num _, inf s => inf s
  | _, _ => nan

def sub (x y : Cell) : Cell := x.add y.neg

def mul : Cell → Cell → Cell
  | num a, num b => num (a * b)
  | inf s, inf t => inf (s != t)
  | inf s, num a | num a, inf s => if a = 0 then nan else inf (s != decide (a < 0))
  | _, _ => nan

def div : Cell → Cell → Cell
  | num a, num b => if b ≠ 0 then num (a / b) else if a = 0 then nan else inf (decide (a < 0))
  | num _, inf _ => num 0
  | inf s, num b => inf (s != decide (b < 0))
  | _, _ => nan

/-! ## Cleaning -/

/-- `clip(lower=lo)`. -/
def clipLower (lo : ℚ) : Cell → Cell
  | nan => nan
  | inf negative => if negative then num lo else inf false
  | num a => num (max a lo)

/-- `clip(lo, hi)`. -/
def clip (lo hi : ℚ) : Cell → Cell
  | nan => nan
  | inf negative => if negative then num lo else num hi
  | num a => num (min (max a lo) hi)

def fillna (v : ℚ) : Cell → Cell
  | nan => num v
  | x => x

/-- `replace([np.inf, -np.inf], v)`. -/
def replaceInf (v : ℚ) : Cell → Cell
  | inf _ => num v
  | x => x

section Numbers

variable (a b lo hi v : ℚ)

@[simp] theorem add_num : (num a).add (num b) = num (a + b) := rfl

@[simp] theorem sub_num : (num a).sub (num b) = num (a - b) := by
  rw [sub_eq_add_neg]
  rfl

@[simp] theorem mul_num : (num a).mul (num b) = num (a * b) := rfl

theorem div_num (h : b ≠ 0) : (num a).div (num b) = num (a / b) := if_pos h

@[simp] theorem clipLower_num : (num a).clipLower lo = num (max a lo) := rfl

@[simp] theorem clip_num : (num a).clip lo hi = num (min (max a lo) hi) := rfl

@[simp] theorem fillna_num : (num a).fillna v = num a := rfl

@[simp] theorem replaceInf_num : (num a).replaceInf v = num a := rfl

/-- Clipping leaves a number that is not below the range as it is exactly if it is not above it. -/
theorem clip_eq_self_iff (h : lo ≤ a) : (num a).clip lo hi = num a ↔ a ≤ hi := by
  rw [clip_num, max_eq_left h, num.injEq, min_eq_left_iff]

end Numbers

end Cell

/-! ## Series -/

/-- The cells of a series, at the rows of its index. -/
abbrev Series := Nat → Option Cell

namespace Series

/-- `pd.Series(v)`: one row, with the label 0. -/
def single (v : ℚ) : Series := fun i => if i = 0 then some (.num v) else none

def map (f : Cell → Cell) (s : Series) : Series := fun i => (s i).map f

/-- An operation on two series, aligned by their indices. -/
def align (op : Cell → Cell → Cell) (s t : Series) : Series := fun i =>
  match s i, t i with
  | some x, some y => some (op x y)
  | none, none => none
  | _, _ => some .nan

section Rows

variable {s t : Series} {i : Nat} {x y : Cell}

theorem map_eq_some (f : Cell → Cell) (h : s i = some x) : s.map f i = some (f x) := by
  rw [map, h, Option.map_some]

theorem align_eq_some (op : Cell → Cell → Cell) (hs : s i = some x) (ht : t i = some y) :
    s.align op t i = some (op x y) := by
  rw [align, hs, ht]

end Rows

end Series

end Kyneto.Pandas
