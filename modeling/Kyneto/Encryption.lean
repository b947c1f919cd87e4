import Kyneto.Evm.Checksum

/-!
# Encryption in the browser

`dashboard/kyneto-encrypt-browser.js` encrypts a file with a fresh AES key and wraps the key: it is XORed with the hash
of a signature. The message that the wallet signs is the same for every file, and so is the hash.

A file can be decrypted with the wallet that has encrypted it (`decryptFile_encryptFile`). But the wrapped keys of two
files differ as the keys themselves do, so that the key of one file gives the key of every other one
(`secondKey_determined`). Anyone can ask the API for wrapped keys: `getKey` takes no signature.
-/

namespace Kyneto

open Evm

/-- What `crypto.subtle` does. Encryption appends the tag, which has 16 bytes. Decryption imports the key first, and is
`none` where either of them throws. -/
structure Subtle where
  digest : ByteArray → Vector (BitVec 8) 32
  encrypt : (aesKey : Vector (BitVec 8) 32) → (iv : Vector (BitVec 8) 12) → (data : Bytes) →
    { buffer : Bytes // 16 ≤ buffer.length }
  decrypt : (rawKey iv data : Bytes) → Option Bytes

structure Subtle.Lawful (subtle : Subtle) : Prop where
  decrypt_encrypt : ∀ aesKey iv data,
    subtle.decrypt aesKey.toList iv.toList (subtle.encrypt aesKey iv data).val = some data

/-- A wallet signs the same message always in the same way. -/
structure Web3Provider where
  signMessage : String → String

structure EncryptedFile where
  encryptedData : Bytes
  encryptedKey : String
  iv : String
  authTag : String
  deriving DecidableEq, Repr

namespace KynetoEncrypt

/-! ## Hex utilities -/

def arrayToHex (arr : Bytes) : String :=
  String.ofList (arr.flatMap fun b => (hexDigits 2 b.toNat).map Nat.digitChar)

def hexValue (c : Char) : Option Nat :=
  if '0' ≤ c ∧ c ≤ '9' then some (c.toNat - '0'.toNat)
  else if 'a' ≤ c ∧ c ≤ 'f' then some (c.toNat - 'a'.toNat + 10)
  else if 'A' ≤ c ∧ c ≤ 'F' then some (c.toNat - 'A'.toNat + 10)
  else none

/-- The blanks of the language. -/
def isSpace (c : Char) : Bool :=
  c ∈ ['\t', '\n', '\x0b', '\x0c', '\r', ' ', '\u00a0', '\u1680', '\u2028', '\u2029', '\u202f', '\u205f', '\u3000',
    '\ufeff'] ∨ '\u2000' ≤ c ∧ c ≤ '\u200a'

/-- `parseInt` of two characters, as an entry of a `Uint8Array` has it: it stops at the first character
that is no digit, and without digits there is a zero. Blanks and a sign may stand in front. -/
def parseByte (c d : Char) : BitVec 8 :=
  match hexValue c, hexValue d with
  | some high, some low => BitVec.ofNat 8 (16 * high + low)
  | some high, none => if c = '0' ∧ (d = 'x' ∨ d = 'X') then 0 else BitVec.ofNat 8 high
  | none, some low =>
    if c = '-' then -BitVec.ofNat 8 low
    else if c = '+' ∨ isSpace c = true then BitVec.ofNat 8 low
    else 0
  | none, none => 0

/-- A single character at the end is out of the bounds of the array. -/
def parseBytes : List Char → Bytes
  | c :: d :: rest => parseByte c d :: parseBytes rest
  | _ => []

def hexToArray (hex : String) : Bytes := parseBytes hex.toList

/-! ## Key wrapping -/

def WRAP_MESSAGE : String :=
  "Kyneto Encryption Key Derivation v1\n\nSign this message to encrypt/decrypt your files.\nThis does NOT cost any gas."

section Functions

variable (subtle : Subtle) (wallet : Web3Provider)

def deriveWrappingKey : Vector (BitVec 8) 32 := subtle.digest (wallet.signMessage WRAP_MESSAGE).toUTF8

def wrapKeyWithWallet (rawAesKey : Bytes) : Bytes :=
  let wrappingKey := deriveWrappingKey subtle wallet
  rawAesKey.mapIdx fun i b => b ^^^ wrappingKey.get ⟨i % 32, Nat.mod_lt i (by decide)⟩

def unwrapKeyWithWallet (wrappedKey : Bytes) : Bytes := wrapKeyWithWallet subtle wallet wrappedKey

/-! ## Files -/

/-- The key and the initialization vector are random. -/
def encryptFile (aesKey : Vector (BitVec 8) 32) (iv : Vector (BitVec 8) 12) (fileBuffer : Bytes) : EncryptedFile :=
  let encryptedBuffer := (subtle.encrypt aesKey iv fileBuffer).val
  { encryptedData := encryptedBuffer.take (encryptedBuffer.length - 16)
    encryptedKey := arrayToHex (wrapKeyWithWallet subtle wallet aesKey.toList)
    iv := arrayToHex iv.toList
    authTag := arrayToHex (encryptedBuffer.drop (encryptedBuffer.length - 16)) }

def decryptFile (encryptedData : Bytes) (encryptedKeyHex ivHex authTagHex : String) : Option Bytes :=
  let rawKey := unwrapKeyWithWallet subtle wallet (hexToArray encryptedKeyHex)
  subtle.decrypt rawKey (hexToArray ivHex) (encryptedData ++ hexToArray authTagHex)

end Functions

/-! ## One file -/

theorem hexValue_digitChar : ∀ d < 16, hexValue (Nat.digitChar d) = some d := by decide

/-- Two digits for a byte, read two by two, are the bytes again. -/
theorem parseBytes_hexDigits (arr : Bytes) :
    parseBytes (arr.flatMap fun b => (hexDigits 2 b.toNat).map Nat.digitChar) = arr := by
  induction arr with
  | nil => rfl
  | cons b rest ih =>
    have hlt := b.isLt
    have hpair : (hexDigits 2 b.toNat).map Nat.digitChar =
        [Nat.digitChar (b.toNat / 16 % 16), Nat.digitChar (b.toNat % 16)] := rfl
    have hhigh := hexValue_digitChar (b.toNat / 16 % 16) (Nat.mod_lt _ (by decide))
    have hlow := hexValue_digitChar (b.toNat % 16) (Nat.mod_lt _ (by decide))
    have hbyte : parseByte (Nat.digitChar (b.toNat / 16 % 16)) (Nat.digitChar (b.toNat % 16)) = b := by
      unfold parseByte
      rw [hhigh, hlow]
      apply BitVec.eq_of_toNat_eq
      simp only [BitVec.toNat_ofNat]
      omega
    rw [List.flatMap_cons, hpair, List.cons_append, List.cons_append, List.nil_append]
    show parseByte _ _ :: parseBytes _ = b :: rest
    rw [hbyte, ih]

@[simp] theorem hexToArray_arrayToHex (arr : Bytes) : hexToArray (arrayToHex arr) = arr := by
  unfold hexToArray arrayToHex
  rw [String.toList_ofList]
  exact parseBytes_hexDigits arr

/-- Byte by byte. -/
def xorBytes : Bytes → Bytes → Bytes := List.zipWith fun b c => b ^^^ c

/-- What a byte is XORed with twice goes away. -/
theorem xorBytes_cancel {a b : Bytes} (h : a.length ≤ b.length) : xorBytes (xorBytes a b) b = a := by
  induction a generalizing b with
  | nil => rfl
  | cons x a ih =>
    cases b with
    | nil => cases h
    | cons y b =>
      show (x ^^^ y ^^^ y) :: xorBytes (xorBytes a b) b = x :: a
      rw [BitVec.xor_assoc, BitVec.xor_self, BitVec.xor_zero, ih (Nat.le_of_succ_le_succ h)]

theorem xorBytes_comm (a b : Bytes) : xorBytes a b = xorBytes b a :=
  List.zipWith_comm_of_comm BitVec.xor_comm

theorem length_xorBytes (a b : Bytes) : (xorBytes a b).length = min a.length b.length := List.length_zipWith

section Files

variable {subtle : Subtle} {wallet : Web3Provider}

/-- The wrapping key is as long as an AES key, so that no byte of it is used twice. -/
theorem wrapKeyWithWallet_eq {rawAesKey : Bytes} (h : rawAesKey.length ≤ 32) :
    wrapKeyWithWallet subtle wallet rawAesKey = xorBytes rawAesKey (deriveWrappingKey subtle wallet).toList := by
  apply List.ext_getElem
  · simp [wrapKeyWithWallet, length_xorBytes, h]
  · intro i hi _
    have hlt : i < 32 := by
      rw [wrapKeyWithWallet, List.length_mapIdx] at hi
      exact lt_of_lt_of_le hi h
    simp [wrapKeyWithWallet, xorBytes, Vector.get_eq_getElem, Nat.mod_eq_of_lt hlt]

/-- A key of any length: a byte is XORed twice with the byte at its place. -/
theorem unwrapKeyWithWallet_wrap (rawAesKey : Bytes) :
    unwrapKeyWithWallet subtle wallet (wrapKeyWithWallet subtle wallet rawAesKey) = rawAesKey := by
  unfold unwrapKeyWithWallet wrapKeyWithWallet
  apply List.ext_getElem
  · rw [List.length_mapIdx, List.length_mapIdx]
  · intro i _ _
    rw [List.getElem_mapIdx, List.getElem_mapIdx, BitVec.xor_assoc, BitVec.xor_self, BitVec.xor_zero]

/-- The tag is cut off and appended again. -/
theorem encryptFile_rejoined (aesKey : Vector (BitVec 8) 32) (iv : Vector (BitVec 8) 12) (fileBuffer : Bytes) :
    (encryptFile subtle wallet aesKey iv fileBuffer).encryptedData ++
        hexToArray (encryptFile subtle wallet aesKey iv fileBuffer).authTag =
      (subtle.encrypt aesKey iv fileBuffer).val := by
  simp only [encryptFile, hexToArray_arrayToHex]
  exact List.take_append_drop _ _

/-- The wallet that has encrypted a file decrypts it. -/
theorem decryptFile_encryptFile (hlawful : subtle.Lawful) (aesKey : Vector (BitVec 8) 32)
    (iv : Vector (BitVec 8) 12) (fileBuffer : Bytes) :
    let encrypted := encryptFile subtle wallet aesKey iv fileBuffer
    decryptFile subtle wallet encrypted.encryptedData encrypted.encryptedKey encrypted.iv encrypted.authTag =
      some fileBuffer := by
  have hkey : unwrapKeyWithWallet subtle wallet
      (hexToArray (encryptFile subtle wallet aesKey iv fileBuffer).encryptedKey) = aesKey.toList := by
    simp only [encryptFile, hexToArray_arrayToHex]
    exact unwrapKeyWithWallet_wrap _
  have hiv : hexToArray (encryptFile subtle wallet aesKey iv fileBuffer).iv = iv.toList := by
    simp only [encryptFile, hexToArray_arrayToHex]
  intro encrypted
  unfold decryptFile
  rw [hkey, hiv, encryptFile_rejoined]
  exact hlawful.decrypt_encrypt aesKey iv fileBuffer

end Files

/-- **The round trip in the browser**: every step of `encryptFile` is undone, and so is the whole. -/
theorem browser_roundTrip {subtle : Subtle} (hlawful : subtle.Lawful) (wallet : Web3Provider) :
    (∀ aesKey iv fileBuffer,
      let encrypted := encryptFile subtle wallet aesKey iv fileBuffer
      decryptFile subtle wallet encrypted.encryptedData encrypted.encryptedKey encrypted.iv encrypted.authTag =
        some fileBuffer) ∧
      (∀ aesKey iv fileBuffer,
        let encrypted := encryptFile subtle wallet aesKey iv fileBuffer
        encrypted.encryptedData ++ hexToArray encrypted.authTag = (subtle.encrypt aesKey iv fileBuffer).val) ∧
      (∀ arr, hexToArray (arrayToHex arr) = arr) ∧
      ∀ rawAesKey, unwrapKeyWithWallet subtle wallet (wrapKeyWithWallet subtle wallet rawAesKey) = rawAesKey :=
  ⟨decryptFile_encryptFile hlawful, encryptFile_rejoined, hexToArray_arrayToHex, unwrapKeyWithWallet_wrap⟩

namespace EmptyFile

/-- The hash of the signature below. -/
def signatureHash : Vector (BitVec 8) 32 :=
  ⟨(bytesOf 32 0x0950d18e9efec00e7bf6a8c0d72ac58b3891f431938da44ecd3e8605c494a459).toArray, by simp⟩

/-- The tag of the empty file under the zero key. -/
def emptyTag : Bytes := bytesOf 16 0x530f8afbc74536b9a963b4f1c4cb738b

/-- The real values for this signature, and for the empty file under the zero key. On other data the
cipher appends a tag of zeros. -/
def subtle : Subtle where
  digest _ := signatureHash
  encrypt aesKey iv data :=
    if aesKey = .replicate 32 0 ∧ iv = .replicate 12 0 ∧ data = [] then ⟨emptyTag, by decide⟩
    else ⟨data ++ List.replicate 16 0, by simp⟩
  decrypt rawKey iv data :=
    if data = emptyTag then
      if rawKey = List.replicate 32 0 ∧ iv = List.replicate 12 0 then some [] else none
    else some (data.take (data.length - 16))

/-- The example of a library for encryption keeps the laws. -/
theorem subtle_lawful : subtle.Lawful where
  decrypt_encrypt := by
    intro aesKey iv data
    unfold subtle
    simp only
    split
    · next hempty =>
      obtain ⟨rfl, rfl, rfl⟩ := hempty
      rfl
    · have hother : data ++ List.replicate 16 0 ≠ emptyTag := by
        intro heq
        have hlast := congrArg List.getLast? heq
        rw [List.getLast?_append] at hlast
        change some (0 : BitVec 8) = some 0x8b at hlast
        exact absurd hlast (by decide)
      rw [if_neg hother, List.length_append, List.length_replicate, Nat.add_sub_cancel, List.take_left]

def wallet : Web3Provider where
  signMessage _ := "0x5189"

/-- The empty file comes back, and a key of 40 bytes is unwrapped. -/
theorem browser_emptyFile :
    let encrypted := encryptFile subtle wallet (.replicate 32 0) (.replicate 12 0) []
    decryptFile subtle wallet encrypted.encryptedData encrypted.encryptedKey encrypted.iv encrypted.authTag = some [] ∧
      unwrapKeyWithWallet subtle wallet (wrapKeyWithWallet subtle wallet (List.replicate 40 15)) =
        List.replicate 40 15 := by
  obtain ⟨hfile, -, -, hkey⟩ := browser_roundTrip subtle_lawful wallet
  exact ⟨hfile (.replicate 32 0) (.replicate 12 0) [], hkey (List.replicate 40 15)⟩

end EmptyFile

/-! ## Two files -/

/-- A file with this key has this wrapped key, if it is encrypted with the wallet. -/
def Wraps (subtle : Subtle) (wallet : Web3Provider) (aesKey : Vector (BitVec 8) 32) (wrapped : String) : Prop :=
  ∃ iv fileBuffer, (encryptFile subtle wallet aesKey iv fileBuffer).encryptedKey = wrapped

/-- Two wallets agree with what is seen, and have different keys for the second file. -/
def Independent (subtle : Subtle) (wrapped₁ wrapped₂ : String) (aesKey₁ : Vector (BitVec 8) 32) : Prop :=
  ∃ wallet wallet' aesKey₂ aesKey₂', Wraps subtle wallet aesKey₁ wrapped₁ ∧ Wraps subtle wallet aesKey₂ wrapped₂ ∧
    Wraps subtle wallet' aesKey₁ wrapped₁ ∧ Wraps subtle wallet' aesKey₂' wrapped₂ ∧ aesKey₂ ≠ aesKey₂'

/-- The key of the second file, from the key of the first one and what anyone can read. -/
def secondKey (wrapped₁ wrapped₂ : String) (aesKey₁ : Vector (BitVec 8) 32) : Bytes :=
  xorBytes (hexToArray wrapped₂) (xorBytes (hexToArray wrapped₁) aesKey₁.toList)

section Observers

variable {subtle : Subtle} {wallet : Web3Provider} {wrapped₁ wrapped₂ : String} {aesKey₁ aesKey₂ : Vector (BitVec 8) 32}

theorem hexToArray_of_wraps (h : Wraps subtle wallet aesKey₁ wrapped₁) :
    hexToArray wrapped₁ = xorBytes aesKey₁.toList (deriveWrappingKey subtle wallet).toList := by
  obtain ⟨iv, fileBuffer, rfl⟩ := h
  show hexToArray (arrayToHex (wrapKeyWithWallet subtle wallet aesKey₁.toList)) = _
  rw [hexToArray_arrayToHex, wrapKeyWithWallet_eq (le_of_eq Vector.length_toList)]

/-- Two keys that are wrapped with one wallet key differ as their wrapped forms do. -/
theorem secondKey_eq (h₁ : Wraps subtle wallet aesKey₁ wrapped₁) (h₂ : Wraps subtle wallet aesKey₂ wrapped₂) :
    secondKey wrapped₁ wrapped₂ aesKey₁ = aesKey₂.toList := by
  have hlength : ∀ v w : Vector (BitVec 8) 32, v.toList.length ≤ w.toList.length := by
    intro v w
    rw [Vector.length_toList, Vector.length_toList]
  -- the first file gives the wrapping key away
  have hwrapping : xorBytes (hexToArray wrapped₁) aesKey₁.toList = (deriveWrappingKey subtle wallet).toList := by
    rw [hexToArray_of_wraps h₁, xorBytes_comm aesKey₁.toList]
    exact xorBytes_cancel (hlength _ _)
  unfold secondKey
  rw [hwrapping, hexToArray_of_wraps h₂]
  exact xorBytes_cancel (hlength _ _)

theorem not_independent : ¬ Independent subtle wrapped₁ wrapped₂ aesKey₁ := by
  rintro ⟨wallet, wallet', aesKey₂, aesKey₂', h₁, h₂, h₁', h₂', hne⟩
  apply hne
  apply Vector.toList_inj.mp
  rw [← secondKey_eq h₁ h₂, secondKey_eq h₁' h₂']

end Observers

/-- **One key gives the others away.** Whatever the hash is: the two wrapped keys and the key of the first
file leave one key for the second file, and anyone can compute it. -/
theorem secondKey_determined (subtle : Subtle) (wrapped₁ wrapped₂ : String) (aesKey₁ : Vector (BitVec 8) 32) :
    ¬ Independent subtle wrapped₁ wrapped₂ aesKey₁ ∧
      ∀ wallet aesKey₂, Wraps subtle wallet aesKey₁ wrapped₁ → Wraps subtle wallet aesKey₂ wrapped₂ →
        secondKey wrapped₁ wrapped₂ aesKey₁ = aesKey₂.toList :=
  ⟨not_independent, fun _ _ => secondKey_eq⟩

namespace TwoFiles

/-- The hash is always the same, and a tag has zeros only. -/
def subtle : Subtle where
  digest _ := Vector.replicate 32 0x5a
  encrypt _ _ data := ⟨data ++ List.replicate 16 0, by simp⟩
  decrypt _ _ data := some (data.take (data.length - 16))

def wallet : Web3Provider where
  signMessage _ := "0x5189"

def iv : Vector (BitVec 8) 12 := Vector.replicate 12 7

def first : EncryptedFile := encryptFile subtle wallet (Vector.replicate 32 1) iv [1, 2, 3]
def second : EncryptedFile := encryptFile subtle wallet (Vector.replicate 32 2) iv [4]

/-- The wallet has encrypted two files. Their wrapped keys and the key of the first one give the key of the second. -/
theorem second_determined :
    Wraps subtle wallet (Vector.replicate 32 1) first.encryptedKey ∧
      Wraps subtle wallet (Vector.replicate 32 2) second.encryptedKey ∧
        ¬ Independent subtle first.encryptedKey second.encryptedKey (Vector.replicate 32 1) ∧
          secondKey first.encryptedKey second.encryptedKey (Vector.replicate 32 1) = List.replicate 32 2 := by
  have h₁ : Wraps subtle wallet (Vector.replicate 32 1) first.encryptedKey := ⟨iv, [1, 2, 3], rfl⟩
  have h₂ : Wraps subtle wallet (Vector.replicate 32 2) second.encryptedKey := ⟨iv, [4], rfl⟩
  exact ⟨h₁, h₂, not_independent, secondKey_eq h₁ h₂⟩

theorem second_from_first :
    ¬ Independent subtle first.encryptedKey second.encryptedKey (Vector.replicate 32 1) ∧
      secondKey first.encryptedKey second.encryptedKey (Vector.replicate 32 1) = List.replicate 32 2 := by
  obtain ⟨hdetermined, hkey⟩ :=
    secondKey_determined subtle first.encryptedKey second.encryptedKey (Vector.replicate 32 1)
  exact ⟨hdetermined, hkey wallet (Vector.replicate 32 2) ⟨iv, [1, 2, 3], rfl⟩ ⟨iv, [4], rfl⟩⟩

end TwoFiles

end KynetoEncrypt

end Kyneto
