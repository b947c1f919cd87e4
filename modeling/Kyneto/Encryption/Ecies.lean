import Kyneto.Encryption

/-!
# Encryption on a node

`services/encryption/kyneto-encrypt.ts` encrypts a file with a fresh AES key, and the AES key for a public key of
secp256k1: the secret that an ephemeral key shares with the public key is hashed to a second AES key. The ephemeral
public key, the initialization vector, the tag and the ciphertext are packed into one buffer, which travels as hex.

Whoever has the private key gets the file back (`node_roundTrip`), however the two keys are spelled.
-/

namespace Kyneto

open Evm

namespace NodeEncrypt

/-- What the module uses of Node's `crypto`, where `κ` are the private keys of secp256k1. What throws is `none`. -/
structure NodeCrypto (κ : Type) where
  setPrivateKey : Bytes → Option κ
  /-- The uncompressed form. -/
  getPublicKey : κ → Vector (BitVec 8) 65
  computeSecret : κ → Bytes → Option Bytes
  sha256 : Bytes → Vector (BitVec 8) 32
  /-- `update`, `final` and `getAuthTag` of a cipher for AES-256-GCM. -/
  cipher : (key : Vector (BitVec 8) 32) → (iv : Vector (BitVec 8) 12) → (data : Bytes) → Bytes × Vector (BitVec 8) 16
  decipher : (key iv tag data : Bytes) → Option Bytes

variable {κ : Type}

structure NodeCrypto.Lawful (crypto : NodeCrypto κ) : Prop where
  uncompressed : ∀ k, (crypto.getPublicKey k).toList.head? = some 4
  /-- Either side computes the secret of two keys. -/
  symmetric : ∀ k k', ∃ secret, crypto.computeSecret k (crypto.getPublicKey k').toList = some secret ∧
    crypto.computeSecret k' (crypto.getPublicKey k).toList = some secret
  decipher_cipher : ∀ key iv data, crypto.decipher key.toList iv.toList (crypto.cipher key iv data).2.toList
    (crypto.cipher key iv data).1 = some data

/-! ## Buffers -/

/-- `toString('hex')` of a buffer. -/
def toHex (buffer : Bytes) : String := KynetoEncrypt.arrayToHex buffer

/-- The pairs of digits up to the first one that is none. -/
def parsePairs : List Char → Bytes
  | c :: d :: rest =>
    match KynetoEncrypt.hexValue c, KynetoEncrypt.hexValue d with
    | some high, some low => BitVec.ofNat 8 (16 * high + low) :: parsePairs rest
    | _, _ => []
  | _ => []

/-- `Buffer.from(hex, 'hex')`. -/
def fromHex (hex : String) : Bytes := parsePairs hex.toList

def subarray (buffer : Bytes) (start stop : Nat) : Bytes := (buffer.take stop).drop start

/-- The `length` of a string counts UTF-16 units. -/
def utf16Length (s : List Char) : Nat := (s.map fun c => if c.toNat < 0x10000 then 1 else 2).sum

/-! ## Helpers -/

/-- Both kinds of keys may start with `0x`. -/
def withoutZeroX : List Char → List Char
  | '0' :: 'x' :: hex => hex
  | key => key

def normalizePrivateKey (key : String) : String := String.ofList (withoutZeroX key.toList)

def normalizePublicKey (key : String) : Bytes :=
  let hex := withoutZeroX key.toList
  let hex := if utf16Length hex = 128 then '0' :: '4' :: hex else hex
  fromHex (String.ofList hex)

/-! ## ECIES -/

/-- A payload, unpacked. -/
structure Payload where
  ephemeralPub : Bytes
  iv : Bytes
  tag : Bytes
  ciphertext : Bytes
  deriving DecidableEq, Repr

def Payload.pack (p : Payload) : Bytes := p.ephemeralPub ++ p.iv ++ p.tag ++ p.ciphertext

def Payload.unpack (encryptedPayload : Bytes) : Payload where
  ephemeralPub := subarray encryptedPayload 0 65
  iv := subarray encryptedPayload 65 (65 + 12)
  tag := subarray encryptedPayload (65 + 12) (65 + 12 + 16)
  ciphertext := encryptedPayload.drop (65 + 12 + 16)

structure EncryptedFile where
  encryptedData : Bytes
  encryptedKey : String
  iv : String
  authTag : String
  deriving DecidableEq, Repr

section Functions

variable (crypto : NodeCrypto κ)

/-- The ephemeral key and the initialization vector are random. -/
def eciesEncrypt (publicKeyHex : String) (data : Bytes) (ephemeral : κ) (iv : Vector (BitVec 8) 12) : Option Bytes := do
  let pubKey := normalizePublicKey publicKeyHex
  let sharedSecret ← crypto.computeSecret ephemeral pubKey
  let derivedKey := crypto.sha256 sharedSecret
  let (encrypted, tag) := crypto.cipher derivedKey iv data
  let ephemeralPub := crypto.getPublicKey ephemeral
  return Payload.pack ⟨ephemeralPub.toList, iv.toList, tag.toList, encrypted⟩

def eciesDecrypt (privateKeyHex : String) (encryptedPayload : Bytes) : Option Bytes := do
  let p := Payload.unpack encryptedPayload
  let privateKey ← crypto.setPrivateKey (fromHex privateKeyHex)
  let sharedSecret ← crypto.computeSecret privateKey p.ephemeralPub
  let derivedKey := crypto.sha256 sharedSecret
  crypto.decipher derivedKey.toList p.iv p.tag p.ciphertext

/-! ## Files -/

/-- The AES key and both initialization vectors are random, and so is the ephemeral key. -/
def encryptFile (fileBuffer : Bytes) (ethPublicKeyHex : String) (aesKey : Vector (BitVec 8) 32)
    (iv : Vector (BitVec 8) 12) (ephemeral : κ) (keyIv : Vector (BitVec 8) 12) : Option EncryptedFile := do
  let (encryptedData, authTag) := crypto.cipher aesKey iv fileBuffer
  let encryptedKey ← eciesEncrypt crypto ethPublicKeyHex aesKey.toList ephemeral keyIv
  return { encryptedData, encryptedKey := toHex encryptedKey, iv := toHex iv.toList, authTag := toHex authTag.toList }

def decryptFile (encryptedData : Bytes) (encryptedKeyHex ivHex authTagHex ethPrivateKeyHex : String) :
    Option Bytes := do
  let encryptedKey := fromHex encryptedKeyHex
  let privateKey := normalizePrivateKey ethPrivateKeyHex
  let aesKey ← eciesDecrypt crypto privateKey encryptedKey
  crypto.decipher aesKey (fromHex ivHex) (fromHex authTagHex) encryptedData

end Functions

/-! ## Spellings -/

/-- A spelling of a buffer in hex, with small or capital letters. -/
structure Spells (hex : List Char) (buffer : Bytes) : Prop where
  length : hex.length = 2 * buffer.length
  parsed : parsePairs hex = buffer

/-- The accepted spellings of a private key. -/
def SpellsPrivate (crypto : NodeCrypto κ) (k : κ) (key : String) : Prop :=
  ∃ hex buffer, Spells hex buffer ∧ crypto.setPrivateKey buffer = some k ∧
    (key.toList = hex ∨ key.toList = '0' :: 'x' :: hex)

/-- The accepted spellings of a public key: the first byte may be missing. -/
def SpellsPublic (crypto : NodeCrypto κ) (k : κ) (key : String) : Prop :=
  ∃ hex, (Spells hex (crypto.getPublicKey k).toList ∨ Spells hex (crypto.getPublicKey k).toList.tail) ∧
    (key.toList = hex ∨ key.toList = '0' :: 'x' :: hex)

theorem parsePairs_cons {c d : Char} {rest : List Char} {b : BitVec 8} {bs : Bytes}
    (h : parsePairs (c :: d :: rest) = b :: bs) :
    (∃ high low, KynetoEncrypt.hexValue c = some high ∧ KynetoEncrypt.hexValue d = some low) ∧
      parsePairs rest = bs := by
  unfold parsePairs at h
  split at h
  · next high low hc hd => exact ⟨⟨high, low, hc, hd⟩, (List.cons.inj h).2⟩
  · cases h

/-- All characters of a spelling are digits. -/
theorem Spells.digits {hex : List Char} {buffer : Bytes} (h : Spells hex buffer) :
    ∀ c ∈ hex, ∃ v, KynetoEncrypt.hexValue c = some v := by
  obtain ⟨hlength, hparsed⟩ := h
  induction buffer generalizing hex with
  | nil =>
    obtain rfl : hex = [] := List.eq_nil_of_length_eq_zero hlength
    intro c hc
    cases hc
  | cons b bs ih =>
    match hex, hlength, hparsed with
    | c :: d :: rest, hlength, hparsed =>
      obtain ⟨⟨high, low, hc, hd⟩, hrest⟩ := parsePairs_cons hparsed
      have hlength' : rest.length = 2 * bs.length := by
        simp only [List.length_cons] at hlength
        omega
      intro x hx
      rcases List.mem_cons.mp hx with rfl | hx
      · exact ⟨high, hc⟩
      · rcases List.mem_cons.mp hx with rfl | hx
        · exact ⟨low, hd⟩
        · exact ih hlength' hrest x hx

/-- An `x` is no digit. -/
theorem withoutZeroX_spelling {hex key : List Char} {buffer : Bytes} (h : Spells hex buffer)
    (hkey : key = hex ∨ key = '0' :: 'x' :: hex) : withoutZeroX key = hex := by
  rcases hkey with rfl | rfl
  · unfold withoutZeroX
    split
    · next rest =>
      obtain ⟨v, hv⟩ := h.digits 'x' (by simp)
      cases hv
    · rfl
  · rfl

/-- A hexadecimal digit is no character behind the letter f. -/
theorem toNat_le_of_hexValue {c : Char} {v : Nat} (h : KynetoEncrypt.hexValue c = some v) : c.toNat ≤ 'f'.toNat := by
  unfold KynetoEncrypt.hexValue at h
  split at h
  · next hdigit =>
    have hle : c.toNat ≤ '9'.toNat := hdigit.2
    exact hle.trans (by decide)
  · split at h
    · next hsmall => exact hsmall.2
    · split at h
      · next hcapital =>
        have hle : c.toNat ≤ 'F'.toNat := hcapital.2
        exact hle.trans (by decide)
      · cases h

/-- A digit is one unit. -/
theorem utf16Length_spelling {hex : List Char} {buffer : Bytes} (h : Spells hex buffer) :
    utf16Length hex = 2 * buffer.length := by
  have hones : (hex.map fun c => if c.toNat < 0x10000 then 1 else 2) = hex.map fun _ => 1 := by
    apply List.map_congr_left
    intro c hc
    obtain ⟨v, hv⟩ := h.digits c hc
    have hle := toNat_le_of_hexValue hv
    have hsmall : c.toNat < 0x10000 := lt_of_le_of_lt hle (by decide)
    rw [if_pos hsmall]
  unfold utf16Length
  rw [hones, List.map_const', List.sum_replicate, h.length, smul_eq_mul, Nat.mul_one]

/-! ## Round trips -/

/-- What is written in hexadecimal digits is read back. -/
@[simp] theorem fromHex_toHex (buffer : Bytes) : fromHex (toHex buffer) = buffer := by
  unfold fromHex toHex KynetoEncrypt.arrayToHex
  rw [String.toList_ofList]
  induction buffer with
  | nil => rfl
  | cons b rest ih =>
    have hlt := b.isLt
    have hpair : (hexDigits 2 b.toNat).map Nat.digitChar =
        [Nat.digitChar (b.toNat / 16 % 16), Nat.digitChar (b.toNat % 16)] := rfl
    have hhigh := KynetoEncrypt.hexValue_digitChar (b.toNat / 16 % 16) (Nat.mod_lt _ (by decide))
    have hlow := KynetoEncrypt.hexValue_digitChar (b.toNat % 16) (Nat.mod_lt _ (by decide))
    have hbyte : BitVec.ofNat 8 (16 * (b.toNat / 16 % 16) + b.toNat % 16) = b := by
      apply BitVec.eq_of_toNat_eq
      simp only [BitVec.toNat_ofNat]
      omega
    rw [List.flatMap_cons, hpair, List.cons_append, List.cons_append, List.nil_append, parsePairs]
    simp only [hhigh, hlow]
    rw [hbyte, ih]

/-- What was packed comes out, by the lengths of the first three parts. -/
theorem unpack_pack {p : Payload} (hpub : p.ephemeralPub.length = 65) (hiv : p.iv.length = 12)
    (htag : p.tag.length = 16) : Payload.unpack p.pack = p := by
  obtain ⟨pub, iv, tag, ciphertext⟩ := p
  simp only at hpub hiv htag
  have hends : (pub ++ iv).length = 65 + 12 := by rw [List.length_append, hpub, hiv]
  have hends' : (pub ++ iv ++ tag).length = 65 + 12 + 16 := by rw [List.length_append, hends, htag]
  have hivs : (pub ++ iv ++ tag ++ ciphertext).take (65 + 12) = pub ++ iv := by
    rw [List.append_assoc (pub ++ iv)]
    exact List.take_left' hends
  have htags : (pub ++ iv ++ tag ++ ciphertext).take (65 + 12 + 16) = pub ++ iv ++ tag := List.take_left' hends'
  show Payload.mk _ _ _ _ = _
  congr 1
  · show ((pub ++ iv ++ tag ++ ciphertext).take 65).drop 0 = pub
    rw [List.drop_zero, List.append_assoc, List.append_assoc]
    exact List.take_left' hpub
  · show ((pub ++ iv ++ tag ++ ciphertext).take (65 + 12)).drop 65 = iv
    rw [hivs]
    exact List.drop_left' hpub
  · show ((pub ++ iv ++ tag ++ ciphertext).take (65 + 12 + 16)).drop (65 + 12) = tag
    rw [htags]
    exact List.drop_left' hends
  · exact List.drop_left' hends'

section Keys

variable {crypto : NodeCrypto κ} {k : κ} {key : String}

theorem setPrivateKey_normalize (h : SpellsPrivate crypto k key) :
    crypto.setPrivateKey (fromHex (normalizePrivateKey key)) = some k := by
  obtain ⟨hex, buffer, hspells, hset, hkey⟩ := h
  unfold normalizePrivateKey fromHex
  rw [withoutZeroX_spelling hspells hkey, String.toList_ofList, hspells.parsed]
  exact hset

/-- The first byte says that the key is not compressed. -/
theorem toList_getPublicKey (hlawful : crypto.Lawful) :
    (crypto.getPublicKey k).toList = 4 :: (crypto.getPublicKey k).toList.tail := by
  obtain ⟨rest, hrest⟩ := List.head?_eq_some_iff.mp (hlawful.uncompressed k)
  rw [hrest]
  rfl

/-- The length tells whether the first byte is missing. -/
theorem normalizePublicKey_spelling (hlawful : crypto.Lawful) (h : SpellsPublic crypto k key) :
    normalizePublicKey key = (crypto.getPublicKey k).toList := by
  obtain ⟨hex, hspells, hkey⟩ := h
  have hfull : (crypto.getPublicKey k).toList.length = 65 := Vector.length_toList
  unfold normalizePublicKey fromHex
  simp only [String.toList_ofList]
  rcases hspells with hspells | hspells
  · rw [withoutZeroX_spelling hspells hkey]
    have hlength := utf16Length_spelling hspells
    have hlong : ¬ utf16Length hex = 128 := by omega
    simp only [if_neg hlong]
    exact hspells.parsed
  · rw [withoutZeroX_spelling hspells hkey]
    have hlength := utf16Length_spelling hspells
    rw [List.length_tail, hfull] at hlength
    simp only [if_pos hlength]
    rw [toList_getPublicKey hlawful]
    show BitVec.ofNat 8 (16 * 0 + 4) :: parsePairs hex = _
    rw [hspells.parsed]
    rfl

end Keys

section Files

variable {crypto : NodeCrypto κ} {k : κ} {publicKey privateKey : String}

/-- What is packed, and what is unpacked. -/
theorem unpack_eciesEncrypt {data payload : Bytes} {ephemeral : κ} {iv : Vector (BitVec 8) 12}
    (h : eciesEncrypt crypto publicKey data ephemeral iv = some payload) :
    ∃ secret, crypto.computeSecret ephemeral (normalizePublicKey publicKey) = some secret ∧
      Payload.unpack payload = ⟨(crypto.getPublicKey ephemeral).toList, iv.toList,
        (crypto.cipher (crypto.sha256 secret) iv data).2.toList, (crypto.cipher (crypto.sha256 secret) iv data).1⟩ := by
  obtain ⟨secret, hsecret, hpacked⟩ := Option.bind_eq_some_iff.mp h
  refine ⟨secret, hsecret, ?_⟩
  obtain rfl := Option.some.inj hpacked
  exact unpack_pack Vector.length_toList Vector.length_toList Vector.length_toList

/-- What is encrypted for a public key can be decrypted with its private key, in whatever way the two are
spelled. -/
theorem eciesDecrypt_eciesEncrypt (hlawful : crypto.Lawful) (hpublic : SpellsPublic crypto k publicKey)
    (hprivate : SpellsPrivate crypto k privateKey) (data : Bytes) (ephemeral : κ) (iv : Vector (BitVec 8) 12) :
    ∃ payload, eciesEncrypt crypto publicKey data ephemeral iv = some payload ∧
      eciesDecrypt crypto (normalizePrivateKey privateKey) payload = some data := by
  obtain ⟨secret, hsecret, hsecret'⟩ := hlawful.symmetric ephemeral k
  rw [← normalizePublicKey_spelling hlawful hpublic] at hsecret
  have hencrypt : ∃ payload, eciesEncrypt crypto publicKey data ephemeral iv = some payload := by
    unfold eciesEncrypt
    simp only [hsecret]
    exact ⟨_, rfl⟩
  obtain ⟨payload, hpayload⟩ := hencrypt
  obtain ⟨_, hsame, hunpack⟩ := unpack_eciesEncrypt hpayload
  obtain rfl := Option.some.inj (hsecret.symm.trans hsame)
  refine ⟨payload, hpayload, ?_⟩
  unfold eciesDecrypt
  simp only [setPrivateKey_normalize hprivate, hunpack]
  show (crypto.computeSecret k (crypto.getPublicKey ephemeral).toList >>= _) = _
  rw [hsecret']
  exact hlawful.decipher_cipher _ _ _

/-- **The round trip on a node**: the matching private key gives the file back, and a payload is unpacked into the parts
that it was packed from. -/
theorem node_roundTrip (hlawful : crypto.Lawful) :
    (∀ k publicKey privateKey fileBuffer aesKey iv ephemeral keyIv, SpellsPublic crypto k publicKey →
      SpellsPrivate crypto k privateKey →
        ∃ encrypted, encryptFile crypto fileBuffer publicKey aesKey iv ephemeral keyIv = some encrypted ∧
          decryptFile crypto encrypted.encryptedData encrypted.encryptedKey encrypted.iv encrypted.authTag privateKey =
            some fileBuffer) ∧
      ∀ publicKey data ephemeral iv payload, eciesEncrypt crypto publicKey data ephemeral iv = some payload →
        ∃ secret, crypto.computeSecret ephemeral (normalizePublicKey publicKey) = some secret ∧
          Payload.unpack payload = ⟨(crypto.getPublicKey ephemeral).toList, iv.toList,
            (crypto.cipher (crypto.sha256 secret) iv data).2.toList,
            (crypto.cipher (crypto.sha256 secret) iv data).1⟩ := by
  constructor
  · intro k publicKey privateKey fileBuffer aesKey iv ephemeral keyIv hpublic hprivate
    obtain ⟨payload, hpayload, hback⟩ :=
      eciesDecrypt_eciesEncrypt hlawful hpublic hprivate aesKey.toList ephemeral keyIv
    unfold encryptFile
    simp only [hpayload]
    refine ⟨_, rfl, ?_⟩
    unfold decryptFile
    simp only [fromHex_toHex, hback]
    exact hlawful.decipher_cipher _ _ _
  · intro publicKey data ephemeral iv payload hpayload
    exact unpack_eciesEncrypt hpayload

end Files

/-! ### The keys 1 and 2 -/

namespace TwoKeys

/-- The first coordinates of the generator of the curve, of its double and of its fourfold. -/
def xOf : Nat → Nat
  | 1 => 0x79be667ef9dcbbac55a06295ce870b07029bfcdb2dce28d959f2815b16f81798
  | 2 => 0xc6047f9441ed7d6d3045406e95c07cd85c778e4b8cef3ca7abac09b95c709ee5
  | 4 => 0xe493dbf1c10d80f3581e4904930b1404cc6c13900ee0758474fa94abe8c4cd13
  | _ => 0

def yOf : Nat → Nat
  | 1 => 0x483ada7726a3c4655da4fbfc0e1108a8fd17b448a68554199c47d08ffb10d4b8
  | 2 => 0x1ae168fea63dc339a3c58419466ceaeef7f632653266d0e1236431a950cfe52a
  | _ => 0

def getPublicKey (k : Fin 2) : Vector (BitVec 8) 65 :=
  ⟨(4 :: (bytesOf 32 (xOf (k + 1)) ++ bytesOf 32 (yOf (k + 1)))).toArray, by simp⟩

def zeroKey : Vector (BitVec 8) 32 := .replicate 32 0
def zeroIv : Vector (BitVec 8) 12 := .replicate 12 0
def zeroTag : Vector (BitVec 8) 16 := .replicate 16 0

def vectorOf (n v : Nat) : Vector (BitVec 8) n := ⟨(bytesOf n v).toArray, by simp⟩

/-- The hash of the secret of the two keys. -/
def derivedKey : Vector (BitVec 8) 32 :=
  vectorOf 32 0x0135da2f8acf7b9e3090939432e47684eb888ea38c2173054d4eedffdf152ca5

/-- The zero key under the derived key. -/
def keyCiphertext : Bytes := bytesOf 32 0xacbc140924c6d9f9b2118e31ac98595b3fc592cb5d15eef35ef390799dcc7636
def keyTag : Vector (BitVec 8) 16 := vectorOf 16 0x25e951437e38dc72df693883c695b708

/-- The empty file under the zero key. -/
def fileTag : Vector (BitVec 8) 16 := vectorOf 16 0x530f8afbc74536b9a963b4f1c4cb738b

/-- The real values for the zero key and the empty file. On other data the cipher does nothing. -/
def crypto : NodeCrypto (Fin 2) where
  setPrivateKey buffer := if buffer = bytesOf 32 1 then some 0 else if buffer = bytesOf 32 2 then some 1 else none
  getPublicKey := getPublicKey
  computeSecret k pub :=
    if pub = (getPublicKey 0).toList then some (bytesOf 32 (xOf (k + 1)))
    else if pub = (getPublicKey 1).toList then some (bytesOf 32 (xOf (2 * (k + 1))))
    else none
  sha256 secret := if secret = bytesOf 32 (xOf 2) then derivedKey else zeroKey
  cipher key iv data :=
    if key = derivedKey ∧ iv = zeroIv ∧ data = zeroKey.toList then (keyCiphertext, keyTag)
    else if key = zeroKey ∧ iv = zeroIv ∧ data = [] then ([], fileTag)
    else (data, zeroTag)
  decipher key iv tag data :=
    if tag = keyTag.toList then
      if key = derivedKey.toList ∧ iv = zeroIv.toList ∧ data = keyCiphertext then some zeroKey.toList else none
    else if tag = fileTag.toList then
      if key = zeroKey.toList ∧ iv = zeroIv.toList ∧ data = [] then some [] else none
    else if tag = zeroTag.toList then some data
    else none

/-- The example of a library for the curve keeps the laws. -/
theorem crypto_lawful : crypto.Lawful where
  uncompressed := by decide +kernel
  symmetric := by
    have hsecret : ∀ k k' : Fin 2, crypto.computeSecret k (crypto.getPublicKey k').toList =
        some (bytesOf 32 (xOf ((k + 1) * (k' + 1)))) := by decide +kernel
    intro k k'
    refine ⟨_, hsecret k k', ?_⟩
    rw [hsecret k' k, Nat.mul_comm]
  decipher_cipher := by
    intro key iv data
    unfold crypto
    simp only
    split
    · next hsealed =>
      obtain ⟨rfl, rfl, rfl⟩ := hsealed
      rw [if_pos rfl, if_pos ⟨rfl, rfl, rfl⟩]
    · split
      · next hfile =>
        obtain ⟨rfl, rfl, rfl⟩ := hfile
        have hother : fileTag.toList ≠ keyTag.toList := by decide +kernel
        rw [if_neg hother, if_pos rfl, if_pos ⟨rfl, rfl, rfl⟩]
      · have hother : zeroTag.toList ≠ keyTag.toList := by decide +kernel
        have hother' : zeroTag.toList ≠ fileTag.toList := by decide +kernel
        rw [if_neg hother, if_neg hother', if_pos rfl]

/-- The generator without its first byte, in capitals. -/
def publicKey : String :=
  "0x79BE667EF9DCBBAC55A06295CE870B07029BFCDB2DCE28D959F2815B16F81798" ++
    "483ADA7726A3C4655DA4FBFC0E1108A8FD17B448A68554199C47D08FFB10D4B8"

def privateKey : String := "0000000000000000000000000000000000000000000000000000000000000001"

theorem node_emptyFile :
    ∃ encrypted, encryptFile crypto [] publicKey zeroKey zeroIv 1 zeroIv = some encrypted ∧
      decryptFile crypto encrypted.encryptedData encrypted.encryptedKey encrypted.iv encrypted.authTag privateKey =
        some [] := by
  have hpublic : SpellsPublic crypto 0 publicKey :=
    ⟨publicKey.toList.drop 2, .inr ⟨by decide +kernel, by decide +kernel⟩, .inr (by decide +kernel)⟩
  have hprivate : SpellsPrivate crypto 0 privateKey :=
    ⟨privateKey.toList, bytesOf 32 1, ⟨by decide +kernel, by decide +kernel⟩, by decide +kernel, .inl rfl⟩
  exact (node_roundTrip crypto_lawful).1 0 publicKey privateKey [] zeroKey zeroIv 1 zeroIv hpublic hprivate

end TwoKeys

end NodeEncrypt

end Kyneto
