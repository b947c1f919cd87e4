import Kyneto.Evm.Keccak

/-!
# Addresses as texts

An address is written in hexadecimal. Client libraries spell it with a checksum (EIP-55): a letter is a capital where
the digit of the hash of the small spelling at its place is 8 or more. Two spellings of an address differ in capitals
only, and two addresses have no spelling in common.
-/

namespace Kyneto.Evm

/-- The last `n` hexadecimal digits of a number, most significant first. -/
def hexDigits (n v : Nat) : List Nat :=
  match n with
  | 0 => []
  | k + 1 => hexDigits k (v / 16) ++ [v % 16]

/-- The address in small letters, without `0x`. -/
def smallDigits (a : Address) : List Char := (hexDigits 40 a.toNat).map Nat.digitChar

/-- Letters become capitals where the hash has a digit from 8 on. -/
def capitalize : List Char → List Nat → List Char :=
  List.zipWith fun c h => if 8 ≤ h then c.toUpper else c

def hexAddress (a : Address) : String := String.ofList ('0' :: 'x' :: smallDigits a)

/-- The spelling with a checksum. -/
@[irreducible] def toChecksum (a : Address) : String :=
  let hash := keccak256 ((smallDigits a).map fun c => BitVec.ofNat 8 c.toNat)
  String.ofList ('0' :: 'x' :: capitalize (smallDigits a) (hexDigits 64 hash.toNat))

@[simp] theorem hexDigits_length (n v : Nat) : (hexDigits n v).length = n := by
  induction n generalizing v with
  | zero => rfl
  | succ k ih => simp [hexDigits, ih]

theorem lt_of_mem_hexDigits {n v d : Nat} (h : d ∈ hexDigits n v) : d < 16 := by
  induction n generalizing v with
  | zero => cases h
  | succ k ih =>
    rcases List.mem_append.mp h with h | h
    · exact ih h
    · rw [List.mem_singleton.mp h]
      exact Nat.mod_lt _ (by decide)

theorem hexDigits_inj {n v w : Nat} (hv : v < 16 ^ n) (hw : w < 16 ^ n) (h : hexDigits n v = hexDigits n w) :
    v = w := by
  induction n generalizing v w with
  | zero => omega
  | succ k ih =>
    obtain ⟨hinit, hlast⟩ := List.append_inj' h rfl
    have hdiv : v / 16 = w / 16 := ih (by omega) (by omega) hinit
    have hmod : v % 16 = w % 16 := List.singleton_inj.mp hlast
    omega

theorem digitChar_toUpper_toLower : ∀ d < 16, (Nat.digitChar d).toUpper.toLower = Nat.digitChar d := by decide

theorem digitChar_toLower : ∀ d < 16, (Nat.digitChar d).toLower = Nat.digitChar d := by decide

theorem digitChar_inj : ∀ d < 16, ∀ e < 16, Nat.digitChar d = Nat.digitChar e → d = e := by decide

/-- Digits are written in different characters. -/
theorem map_digitChar_inj {ds es : List Nat} (hds : ∀ d ∈ ds, d < 16) (hes : ∀ e ∈ es, e < 16)
    (h : ds.map Nat.digitChar = es.map Nat.digitChar) : ds = es := by
  induction ds generalizing es with
  | nil => exact (List.map_eq_nil_iff.mp h.symm).symm
  | cons d ds ih =>
    cases es with
    | nil => cases h
    | cons e es =>
      obtain ⟨hhead, htail⟩ := List.cons.inj h
      have hde := digitChar_inj d (hds d List.mem_cons_self) e (hes e List.mem_cons_self) hhead
      rw [hde, ih (fun x hx => hds x (List.mem_cons_of_mem _ hx)) (fun x hx => hes x (List.mem_cons_of_mem _ hx))
        htail]

/-- Capitals are all that the checksum changes. -/
theorem map_toLower_capitalize {ds hs : List Nat} (hds : ∀ d ∈ ds, d < 16) (hlen : ds.length ≤ hs.length) :
    (capitalize (ds.map Nat.digitChar) hs).map Char.toLower = ds.map Nat.digitChar := by
  induction ds generalizing hs with
  | nil => rfl
  | cons d ds ih =>
    cases hs with
    | nil => simp at hlen
    | cons h hs =>
      have hd := hds d List.mem_cons_self
      have hrest := ih (fun e he => hds e (List.mem_cons_of_mem _ he)) (Nat.le_of_succ_le_succ hlen)
      have hhead : (if 8 ≤ h then (Nat.digitChar d).toUpper else Nat.digitChar d).toLower = Nat.digitChar d := by
        split
        · exact digitChar_toUpper_toLower d hd
        · exact digitChar_toLower d hd
      simp only [capitalize, List.map_cons, List.zipWith_cons_cons, hhead] at hrest ⊢
      rw [hrest]

theorem smallDigits_inj {a b : Address} (h : smallDigits a = smallDigits b) : a = b := by
  have hdigits : hexDigits 40 a.toNat = hexDigits 40 b.toNat :=
    map_digitChar_inj (fun d hd => lt_of_mem_hexDigits hd) (fun e he => lt_of_mem_hexDigits he) h
  exact BitVec.eq_of_toNat_eq (hexDigits_inj a.isLt b.isLt hdigits)

/-- Without its capital letters the checksum is gone. -/
theorem toLower_toChecksum (a : Address) : (toChecksum a).toLower = hexAddress a := by
  apply String.ext
  simp only [String.toLower, toChecksum, hexAddress, String.toList_map, String.toList_ofList, List.map_cons]
  have hsmall : (capitalize (smallDigits a)
      (hexDigits 64 (keccak256 ((smallDigits a).map fun c => BitVec.ofNat 8 c.toNat)).toNat)).map Char.toLower =
        smallDigits a :=
    map_toLower_capitalize (fun d hd => lt_of_mem_hexDigits hd) (by simp)
  rw [hsmall]
  rfl

/-- Addresses in small letters have no capital letters. -/
@[simp] theorem toLower_hexAddress (a : Address) : (hexAddress a).toLower = hexAddress a := by
  have hsmall : (smallDigits a).map Char.toLower = smallDigits a := by
    unfold smallDigits
    rw [List.map_map]
    apply List.map_congr_left
    intro d hd
    exact digitChar_toLower d (lt_of_mem_hexDigits hd)
  apply String.ext
  simp only [String.toLower, hexAddress, String.toList_map, String.toList_ofList, List.map_cons, hsmall]
  rfl

/-- What a text column for addresses asks for. -/
theorem toChecksum_fits (a : Address) : (toChecksum a).length = 42 ∧ '\x00' ∉ (toChecksum a).toList := by
  have hdigits : ∀ d < 16, Nat.digitChar d ≠ '\x00' ∧ (Nat.digitChar d).toUpper ≠ '\x00' := by decide
  rw [← String.length_toList]
  simp only [toChecksum, String.toList_ofList, capitalize, smallDigits, List.length_cons, List.length_zipWith,
    List.length_map, hexDigits_length, List.mem_cons, not_or]
  refine ⟨by decide, by decide, by decide, ?_⟩
  intro hmem
  rw [← List.map_uncurry_zip_eq_zipWith] at hmem
  obtain ⟨⟨c, h⟩, hch, hzero⟩ := List.mem_map.mp hmem
  obtain ⟨d, hd, rfl⟩ := List.mem_map.mp (List.of_mem_zip hch).1
  obtain ⟨hsmall, hcapital⟩ := hdigits d (lt_of_mem_hexDigits hd)
  dsimp only [Function.uncurry_apply_pair] at hzero
  split at hzero
  · exact hcapital hzero
  · exact hsmall hzero

/-- An address fits a column of 42 characters. -/
theorem hexAddress_fits (a : Address) : (hexAddress a).length = 42 ∧ '\x00' ∉ (hexAddress a).toList := by
  have hdigits : ∀ d < 16, Nat.digitChar d ≠ '\x00' := by decide
  rw [← String.length_toList]
  simp only [hexAddress, smallDigits, String.toList_ofList, List.length_cons, List.length_map, hexDigits_length,
    List.mem_cons, not_or, true_and]
  refine ⟨by decide, by decide, ?_⟩
  intro hmem
  obtain ⟨d, hd, hzero⟩ := List.mem_map.mp hmem
  exact hdigits d (lt_of_mem_hexDigits hd) hzero

theorem hexAddress_inj {a b : Address} (h : hexAddress a = hexAddress b) : a = b := by
  have hlist := String.ofList_inj.mp h
  simp only [List.cons.injEq, true_and] at hlist
  exact smallDigits_inj hlist

theorem toChecksum_inj {a b : Address} (h : toChecksum a = toChecksum b) : a = b := by
  apply hexAddress_inj
  rw [← toLower_toChecksum, ← toLower_toChecksum, h]

example : toChecksum 0x5aaeb6053f3e94c9b9a09f33669435e7ef1beaed =
    "0x5aAeb6053F3E94C9b9A09f33669435E7Ef1BeAed" := by decide +kernel

end Kyneto.Evm
