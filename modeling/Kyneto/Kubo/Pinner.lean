import Kyneto.Evm.Basic

/-!
# Identifiers and pins

A block has its hash for a name, and an identifier adds how the block is to be read. Blocks link to others by their
identifiers. Only a hash that is the block itself needs no block in the store.

The pinner is a library. It keeps two sets of identifiers: those that are pinned with all that they link to, and those
that are pinned alone. Asked whether an identifier is pinned, it does not mind which of the two it finds, nor whether it
comes to the identifier from another pin.
-/

namespace Kyneto

namespace Kubo

open Evm

/-! ## Content identifiers -/

/-- The code of a hash function and what it makes of a block. -/
structure Multihash where
  code : Nat
  digest : Nat
  deriving DecidableEq, Repr

/-- A number stands for a SHA-256 hash. -/
instance (n : Nat) : OfNat Multihash n := ⟨⟨0x12, n⟩⟩

/-- The digest is the block. -/
def Multihash.isIdentity (hash : Multihash) : Bool := hash.code = 0

abbrev Codec := Nat

def rawCodec : Codec := 0x55

def dagProtobuf : Codec := 0x70

inductive Cid where
  | v0 (hash : Multihash)
  | v1 (codec : Codec) (hash : Multihash)
  deriving DecidableEq, Repr

namespace Cid

def hash : Cid → Multihash
  | v0 hash => hash
  | v1 _ hash => hash

def type : Cid → Codec
  | v0 _ => dagProtobuf
  | v1 codec _ => codec

def toCidV1 : Cid → Cid
  | v0 hash => v1 dagProtobuf hash
  | c => c

def toRawCid (c : Cid) : Cid := v1 rawCodec c.hash

@[simp] theorem hash_toCidV1 (c : Cid) : c.toCidV1.hash = c.hash := by cases c <;> rfl

@[simp] theorem type_toCidV1 (c : Cid) : c.toCidV1.type = c.type := by cases c <;> rfl

@[simp] theorem toRawCid_inj {c d : Cid} : c.toRawCid = d.toRawCid ↔ c.hash = d.hash := by
  simp [toRawCid]

end Cid

/-- What is linked from the block of a hash, if it is read with a codec. -/
abbrev Links := Codec → Multihash → List Cid

/-- The second identifier is linked from the block of the first. -/
def Links.Leads (links : Links) (c d : Cid) : Prop := d ∈ links c.type c.hash

/-- The second identifier is the first, or links lead to it from there. -/
abbrev Links.Within (links : Links) : Cid → Cid → Prop := Relation.ReflTransGen links.Leads

/-! ## Pins -/

structure Pins where
  recursive : List Cid := []
  direct : List Cid := []
  deriving DecidableEq, Repr

namespace Pins

/-- A recursive pin takes the place of a direct one. -/
def add (pins : Pins) (c : Cid) : Pins where
  recursive := pins.recursive.insert c
  direct := pins.direct.filter (· ≠ c)

def addDirect (pins : Pins) (c : Cid) : Tx Pins := do
  require (c ∉ pins.recursive) "already pinned recursively"
  return { pins with direct := pins.direct.insert c }

def rm (pins : Pins) (c : Cid) (recursive : Bool) : Tx Pins := do
  if c ∈ pins.recursive then require (recursive = true) "is pinned recursively"
  else require (c ∈ pins.direct) "not pinned or pinned indirectly"
  return { recursive := pins.recursive.filter (· ≠ c), direct := pins.direct.filter (· ≠ c) }

def update (pins : Pins) (src dst : Cid) (unpin : Bool) : Tx Pins := do
  require (src ∈ pins.recursive) "'from' cid was not recursively pinned already"
  if src = dst then return pins
  require (dst ∉ pins.recursive) "'to' cid was already recursively pinned"
  return { pins with
    recursive := (if unpin then pins.recursive.filter (· ≠ src) else pins.recursive).insert dst }

/-- Pinned in one way or another. -/
def Has (links : Links) (pins : Pins) (c : Cid) : Prop :=
  c ∈ pins.direct ∨ ∃ r ∈ pins.recursive, links.Within r c

end Pins

/-- The pinner finds what is pinned. -/
structure Pinner (links : Links) where
  checkIfPinned : Pins → Cid → Bool
  checkIfPinned_iff : ∀ {pins c}, checkIfPinned pins c = true ↔ pins.Has links c

namespace Pins

variable {links : Links} {pins pins' : Pins} {c d : Cid}

theorem mem_recursive_add : d ∈ (pins.add c).recursive ↔ d = c ∨ d ∈ pins.recursive := List.mem_insert_iff

theorem mem_direct_add : d ∈ (pins.add c).direct ↔ d ∈ pins.direct ∧ d ≠ c := by
  rw [add, List.mem_filter, decide_eq_true_eq]

/-- With a new recursive pin, all that it leads to is pinned as well. -/
theorem has_add : (pins.add c).Has links d ↔ links.Within c d ∨ pins.Has links d := by
  unfold Has
  simp only [mem_recursive_add, mem_direct_add, or_and_right, exists_or, exists_eq_left]
  constructor
  · rintro (⟨hdirect, -⟩ | hwithin | hold)
    · exact Or.inr (Or.inl hdirect)
    · exact Or.inl hwithin
    · exact Or.inr (Or.inr hold)
  · rintro (hwithin | hdirect | hold)
    · exact Or.inr (Or.inl hwithin)
    · -- the direct pin of `c` is gone, but `c` leads to itself
      by_cases hdc : d = c
      · exact Or.inr (Or.inl (hdc ▸ Relation.ReflTransGen.refl))
      · exact Or.inl ⟨hdirect, hdc⟩
    · exact Or.inr (Or.inr hold)

/-- A removal that goes through takes away both pins of the identifier. -/
theorem rm_eq_ok {recursive : Bool} : pins.rm c recursive = .ok pins' ↔
    (c ∈ pins.recursive ∧ recursive = true ∨ c ∉ pins.recursive ∧ c ∈ pins.direct) ∧
      pins' = { recursive := pins.recursive.filter (· ≠ c), direct := pins.direct.filter (· ≠ c) } := by
  unfold rm
  by_cases hc : c ∈ pins.recursive
  · simp only [if_pos hc, bind_eq_ok, require_eq_ok, pure_eq_ok, exists_const]
    simp [hc, eq_comm]
  · simp only [if_neg hc, bind_eq_ok, require_eq_ok, pure_eq_ok, exists_const]
    simp [hc, eq_comm]

/-- Whether it goes through or not, a removal leaves all other pins and none of the identifier. -/
theorem rm_filter (pins : Pins) (c : Cid) : (match pins.rm c true with
      | .ok pins' => pins'
      | .error _ => pins) =
    { recursive := pins.recursive.filter (· ≠ c), direct := pins.direct.filter (· ≠ c) } := by
  split
  · next pins' hrm => exact (rm_eq_ok.mp hrm).2
  · next e hrm =>
    -- a removal fails where there is nothing to remove
    have hnone : c ∉ pins.recursive ∧ c ∉ pins.direct := by
      have hnot : ∀ pins', pins.rm c true ≠ .ok pins' := by simp [hrm]
      have hboth := hnot { recursive := pins.recursive.filter (· ≠ c), direct := pins.direct.filter (· ≠ c) }
      rw [Ne, rm_eq_ok] at hboth
      tauto
    have hsame : ∀ l : List Cid, c ∉ l → l.filter (· ≠ c) = l := by
      intro l hl
      refine List.filter_eq_self.mpr fun d hd => decide_eq_true ?_
      exact fun heq => hl (heq ▸ hd)
    rw [hsame _ hnone.1, hsame _ hnone.2]

end Pins

end Kubo

end Kyneto
