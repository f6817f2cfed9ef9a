import Pysnmp.Foundation.BlockModes
import Pysnmp.Foundation.Effect
import Pysnmp.Proto.Types

/-!
# The privacy services

`encryptData` and `decryptData` of `rfc3414/priv/des.py`, `eso/priv/des3.py` and
`rfc3826/priv/aes.py`; the AES services of `eso/priv` inherit those of the last with a longer key.
The ciphers are those of the package behind `cipherbackend.getCipher`, which may be missing; its
objects refuse keys, initialization vectors and strings that they cannot work with. `encryptCbc`,
`decryptCbc`, `encryptCfb` and `decryptCfb` are the modes that the package documents, over block
ciphers that are permutations for each key; that it refuses a 3DES key of which two neighbouring
parts are the same is left out.

`decryptData_encryptData`: a service decrypts what it encrypted with the same key, boots and time,
up to the padding of the block modes, and it refuses a salt that is not of eight octets and in the
block modes a string that is not of whole blocks.
-/

set_option autoImplicit false
set_option relaxedAutoImplicit false

namespace Pysnmp.Proto.Secmod.Privacy

open Foundation Foundation.Effect Foundation.BlockModes

/-- How a privacy service fails; the last is the package's. -/
inductive PrivacyError
  | statusInformation (errorIndication : ErrorIndication)
  | valueError
  deriving DecidableEq, Repr

/-- `privParameters`: the engine's boots and time, and the salt. -/
structure PrivParameters where
  snmpEngineBoots : ℕ
  snmpEngineTime : ℕ
  salt : Octets
  deriving DecidableEq, Repr

/-- Methods of a service, whose state is the integer that the next salt is made of. -/
abbrev PrivacyOp (α : Type) := Effect ℕ PrivacyError α

/-- The ciphers of the package. -/
structure CipherBackend where
  des : BlockCipher 8
  des3 : BlockCipher 8
  aes : BlockCipher 16

/-! ### Objects of the package -/

/-- `encrypt` of an object in CBC mode. -/
def encryptCbc (cipher : BlockCipher 8) (keyLength : ℕ) (key iv plaintext : Octets) :
    Except PrivacyError Octets :=
  if key.length = keyLength ∧ iv.length = 8 ∧ plaintext.length % 8 = 0 then
    .ok (cbcEncrypt cipher key (plaintext.length / 8) iv plaintext)
  else
    .error .valueError

/-- `decrypt` of an object in CBC mode. -/
def decryptCbc (cipher : BlockCipher 8) (keyLength : ℕ) (key iv ciphertext : Octets) :
    Except PrivacyError Octets :=
  if key.length = keyLength ∧ iv.length = 8 ∧ ciphertext.length % 8 = 0 then
    .ok (cbcDecrypt cipher key (ciphertext.length / 8) iv ciphertext)
  else
    .error .valueError

/-- `encrypt` of an AES object in CFB mode with segments of a block. -/
def encryptCfb (cipher : BlockCipher 16) (key iv plaintext : Octets) : Except PrivacyError Octets :=
  if key.length ∈ [16, 24, 32] ∧ iv.length = 16 then
    .ok (cfbEncrypt cipher key ((plaintext.length + 15) / 16) iv plaintext)
  else
    .error .valueError

/-- `decrypt` of an AES object in CFB mode with segments of a block. -/
def decryptCfb (cipher : BlockCipher 16) (key iv ciphertext : Octets) :
    Except PrivacyError Octets :=
  if key.length ∈ [16, 24, 32] ∧ iv.length = 16 then
    .ok (cfbDecrypt cipher key ((ciphertext.length + 15) / 16) iv ciphertext)
  else
    .error .valueError

/-! ### Salts -/

/-- Octets of an integer, each by how far it is shifted. -/
def octetsOfInt (shifts : List ℕ) (value : ℕ) : Octets :=
  shifts.map fun shift ↦ UInt8.ofNat (value >>> shift &&& 0xff)

/-- The shifts of four octets. -/
def shifts32 : List ℕ := [24, 16, 8, 0]

/-- The shifts of eight octets. -/
def shifts64 : List ℕ := [56, 48, 40, 32, 24, 16, 8, 0]

/-- The integer after a salt was made of it; it wraps behind its last value. -/
def nextLocalInt (last localInt : ℕ) : ℕ :=
  if localInt = last then 0 else localInt + 1

/-! ### The block modes -/

/-- `__getEncryptionKey` of DES and 3DES, by the length of the cipher's key: that key, the salt and
the initialization vector. -/
def getEncryptionKeyCbc (keyLength : ℕ) (privKey : Octets) (snmpEngineBoots : ℕ) :
    PrivacyOp (Octets × Octets × Octets) := do
  let localInt ← get
  let preIV := (privKey.drop keyLength).take 8
  let salt := octetsOfInt shifts32 snmpEngineBoots ++ octetsOfInt shifts32 localInt
  modify (nextLocalInt 0xffffffff)
  pure (privKey.take keyLength, salt, xorOctets salt preIV)

/-- `__getDecryptionKey` of DES and 3DES: the cipher's key and the initialization vector. -/
def getDecryptionKeyCbc (keyLength : ℕ) (privKey salt : Octets) : Octets × Octets :=
  (privKey.take keyLength, xorOctets salt ((privKey.drop keyLength).take 8))

/-- The zeros that bring a string to whole blocks. -/
def padding (dataToEncrypt : Octets) : Octets :=
  List.replicate (8 - dataToEncrypt.length % 8) 0

/-- `encryptData` of DES and 3DES: the ciphertext and the salt. -/
def encryptDataCbc (cipher : Option (BlockCipher 8)) (keyLength : ℕ) (encryptKey : Octets)
    (privParameters : PrivParameters) (dataToEncrypt : Octets) : PrivacyOp (Octets × Octets) :=
  match cipher with
  | none => raise (.statusInformation .encryptionError)
  | some cipher => do
    let (key, salt, iv) ← getEncryptionKeyCbc keyLength encryptKey privParameters.snmpEngineBoots
    let ciphertext ← liftExcept
      (encryptCbc cipher keyLength key iv (dataToEncrypt ++ padding dataToEncrypt))
    pure (ciphertext, salt)

/-- `decryptData` of DES and 3DES. -/
def decryptDataCbc (cipher : Option (BlockCipher 8)) (keyLength : ℕ) (decryptKey : Octets)
    (privParameters : PrivParameters) (encryptedData : Octets) : Except PrivacyError Octets :=
  match cipher with
  | none => .error (.statusInformation .decryptionError)
  | some cipher =>
    if privParameters.salt.length ≠ 8 then
      .error (.statusInformation .decryptionError)
    else
      let (key, iv) := getDecryptionKeyCbc keyLength decryptKey privParameters.salt
      if encryptedData.length % 8 ≠ 0 then
        .error (.statusInformation .decryptionError)
      else
        decryptCbc cipher keyLength key iv encryptedData

/-! ### AES -/

/-- `Aes.__getDecryptionKey`: the cipher's key and the initialization vector. -/
def getDecryptionKeyAes (keySize : ℕ) (privKey : Octets) (snmpEngineBoots snmpEngineTime : ℕ)
    (salt : Octets) : Octets × Octets :=
  (privKey.take keySize,
    octetsOfInt shifts32 snmpEngineBoots ++ octetsOfInt shifts32 snmpEngineTime ++ salt)

/-- `Aes.__getEncryptionKey`: the cipher's key, the initialization vector and the salt. -/
def getEncryptionKeyAes (keySize : ℕ) (privKey : Octets) (snmpEngineBoots snmpEngineTime : ℕ) :
    PrivacyOp (Octets × Octets × Octets) := do
  let localInt ← get
  let salt := octetsOfInt shifts64 localInt
  modify (nextLocalInt 0xffffffffffffffff)
  let (key, iv) := getDecryptionKeyAes keySize privKey snmpEngineBoots snmpEngineTime salt
  pure (key, iv, salt)

/-- `Aes.encryptData`: the ciphertext and the salt. -/
def encryptDataAes (cipher : Option (BlockCipher 16)) (keySize : ℕ) (encryptKey : Octets)
    (privParameters : PrivParameters) (dataToEncrypt : Octets) : PrivacyOp (Octets × Octets) :=
  match cipher with
  | none => raise (.statusInformation .encryptionError)
  | some cipher => do
    let (key, iv, salt) ← getEncryptionKeyAes keySize encryptKey privParameters.snmpEngineBoots
      privParameters.snmpEngineTime
    let ciphertext ← liftExcept (encryptCfb cipher key iv dataToEncrypt)
    pure (ciphertext, salt)

/-- `Aes.decryptData`. -/
def decryptDataAes (cipher : Option (BlockCipher 16)) (keySize : ℕ) (decryptKey : Octets)
    (privParameters : PrivParameters) (encryptedData : Octets) : Except PrivacyError Octets :=
  match cipher with
  | none => .error (.statusInformation .decryptionError)
  | some cipher =>
    if privParameters.salt.length ≠ 8 then
      .error (.statusInformation .decryptionError)
    else
      let (key, iv) := getDecryptionKeyAes keySize decryptKey privParameters.snmpEngineBoots
        privParameters.snmpEngineTime privParameters.salt
      decryptCfb cipher key iv encryptedData

/-! ### The services -/

/-- The services, of AES those with the keys of the two drafts among them. -/
inductive PrivacyService
  | des
  | des3
  | aes
  | aes192
  | aes256
  deriving DecidableEq, Repr

namespace PrivacyService

/-- How long a localized key of a service is. -/
def keySize : PrivacyService → ℕ
  | des => 16
  | des3 => 32
  | aes => 16
  | aes192 => 24
  | aes256 => 32

/-- Whether a service works on whole blocks. -/
def isBlockMode : PrivacyService → Bool
  | des => true
  | des3 => true
  | _ => false

/-- `encryptData` of a service. -/
def encryptData (service : PrivacyService) (backend : Option CipherBackend) :
    Octets → PrivParameters → Octets → PrivacyOp (Octets × Octets) :=
  match service with
  | des => encryptDataCbc (backend.map CipherBackend.des) 8
  | des3 => encryptDataCbc (backend.map CipherBackend.des3) 24
  | aes => encryptDataAes (backend.map CipherBackend.aes) 16
  | aes192 => encryptDataAes (backend.map CipherBackend.aes) 24
  | aes256 => encryptDataAes (backend.map CipherBackend.aes) 32

/-- `decryptData` of a service. -/
def decryptData (service : PrivacyService) (backend : Option CipherBackend) :
    Octets → PrivParameters → Octets → Except PrivacyError Octets :=
  match service with
  | des => decryptDataCbc (backend.map CipherBackend.des) 8
  | des3 => decryptDataCbc (backend.map CipherBackend.des3) 24
  | aes => decryptDataAes (backend.map CipherBackend.aes) 16
  | aes192 => decryptDataAes (backend.map CipherBackend.aes) 24
  | aes256 => decryptDataAes (backend.map CipherBackend.aes) 32

end PrivacyService

/-! ### Round trips of the package's objects -/

/-- An object in CBC mode decrypts what one with the same key and initialization vector
encrypted. -/
theorem decryptCbc_encryptCbc (cipher : BlockCipher 8) {keyLength : ℕ} {key iv plaintext : Octets}
    (hkey : key.length = keyLength) (hiv : iv.length = 8) (hplaintext : plaintext.length % 8 = 0) :
    ∃ ciphertext, encryptCbc cipher keyLength key iv plaintext = .ok ciphertext ∧
      ciphertext.length = plaintext.length ∧
      decryptCbc cipher keyLength key iv ciphertext = .ok plaintext := by
  have hblocks : plaintext.length = plaintext.length / 8 * 8 := by omega
  have hlength : (cbcEncrypt cipher key (plaintext.length / 8) iv plaintext).length =
      plaintext.length := (length_cbcEncrypt hiv hblocks).trans hblocks.symm
  refine ⟨_, if_pos ⟨hkey, hiv, hplaintext⟩, hlength, ?_⟩
  rw [decryptCbc, hlength, if_pos ⟨hkey, hiv, hplaintext⟩, cbcDecrypt_cbcEncrypt hiv hblocks]

/-- An object in CFB mode decrypts what one with the same key and initialization vector
encrypted. -/
theorem decryptCfb_encryptCfb (cipher : BlockCipher 16) {key iv : Octets} (plaintext : Octets)
    (hkey : key.length ∈ [16, 24, 32]) (hiv : iv.length = 16) :
    ∃ ciphertext, encryptCfb cipher key iv plaintext = .ok ciphertext ∧
      decryptCfb cipher key iv ciphertext = .ok plaintext := by
  have hsegments : plaintext.length ≤ (plaintext.length + 15) / 16 * 16 := by omega
  refine ⟨_, if_pos ⟨hkey, hiv⟩, ?_⟩
  rw [decryptCfb, if_pos ⟨hkey, hiv⟩, length_cfbEncrypt hiv hsegments,
    cfbDecrypt_cfbEncrypt hiv hsegments]

/-! ### Round trips of the services -/

@[simp] theorem length_octetsOfInt (shifts : List ℕ) (value : ℕ) :
    (octetsOfInt shifts value).length = shifts.length :=
  List.length_map _

/-- A padded string is of whole blocks, one at least. -/
theorem length_append_padding (plaintext : Octets) :
    (plaintext ++ padding plaintext).length = (plaintext.length / 8 + 1) * 8 := by
  rw [List.length_append, padding, List.length_replicate]
  omega

/-- What a block mode service encrypts it decrypts to the padded plaintext. -/
theorem decryptDataCbc_encryptDataCbc (cipher : BlockCipher 8) {keyLength : ℕ} {key : Octets}
    (hkey : key.length = keyLength + 8) (privParameters : PrivParameters) (plaintext : Octets)
    (localInt : ℕ) :
    ∃ ciphertext salt after,
      (encryptDataCbc (some cipher) keyLength key privParameters plaintext).run localInt =
        (.ok (ciphertext, salt), after) ∧
      ciphertext ≠ [] ∧ ciphertext.length % 8 = 0 ∧
      decryptDataCbc (some cipher) keyLength key { privParameters with salt } ciphertext =
        .ok (plaintext ++ padding plaintext) := by
  have hcipherKey : (key.take keyLength).length = keyLength := by
    rw [List.length_take, hkey]
    exact min_eq_left (Nat.le_add_right _ _)
  have hpreIV : ((key.drop keyLength).take 8).length = 8 := by
    rw [List.length_take, List.length_drop, hkey, Nat.add_sub_cancel_left, min_self]
  have hplaintext := length_append_padding plaintext
  let salt := octetsOfInt shifts32 privParameters.snmpEngineBoots ++ octetsOfInt shifts32 localInt
  have hsalt : salt.length = 8 := by
    rw [List.length_append, length_octetsOfInt, length_octetsOfInt]
    rfl
  have hiv : (xorOctets salt ((key.drop keyLength).take 8)).length = 8 := by
    rw [length_xorOctets, hsalt, hpreIV, min_self]
  obtain ⟨ciphertext, hencrypt, hlength, hdecrypt⟩ := decryptCbc_encryptCbc cipher hcipherKey hiv
    (by rw [hplaintext]; exact Nat.mul_mod_left _ _)
  rw [hplaintext] at hlength
  refine ⟨ciphertext, salt, nextLocalInt 0xffffffff localInt, ?_, ?_, ?_, ?_⟩
  · have hkeys : (getEncryptionKeyCbc keyLength key privParameters.snmpEngineBoots).run localInt =
        (.ok (key.take keyLength, salt, xorOctets salt ((key.drop keyLength).take 8)),
          nextLocalInt 0xffffffff localInt) := rfl
    unfold encryptDataCbc
    rw [bind_run_of_ok hkeys]
    dsimp only
    rw [hencrypt]
    rfl
  · exact List.ne_nil_of_length_pos (by omega)
  · rw [hlength]
    exact Nat.mul_mod_left _ _
  · have hwhole : ¬ ciphertext.length % 8 ≠ 0 := by
      rw [hlength, Nat.mul_mod_left]
      exact not_not.mpr rfl
    rw [decryptDataCbc, if_neg (not_not.mpr hsalt)]
    dsimp only [getDecryptionKeyCbc]
    rw [if_neg hwhole, hdecrypt]

/-- What an AES service encrypts it decrypts. -/
theorem decryptDataAes_encryptDataAes (cipher : BlockCipher 16) {keySize : ℕ} {key : Octets}
    (hkeySize : keySize ∈ [16, 24, 32]) (hkey : key.length = keySize)
    (privParameters : PrivParameters) (plaintext : Octets) (localInt : ℕ) :
    ∃ ciphertext salt after,
      (encryptDataAes (some cipher) keySize key privParameters plaintext).run localInt =
        (.ok (ciphertext, salt), after) ∧
      decryptDataAes (some cipher) keySize key { privParameters with salt } ciphertext =
        .ok plaintext := by
  have hcipherKey : (key.take keySize).length ∈ [16, 24, 32] := by
    rwa [List.length_take, hkey, min_self]
  let salt := octetsOfInt shifts64 localInt
  let iv := octetsOfInt shifts32 privParameters.snmpEngineBoots ++
    octetsOfInt shifts32 privParameters.snmpEngineTime ++ salt
  have hsalt : salt.length = 8 := length_octetsOfInt _ _
  have hiv : iv.length = 16 := by
    rw [List.length_append, List.length_append, length_octetsOfInt, length_octetsOfInt, hsalt]
    rfl
  obtain ⟨ciphertext, hencrypt, hdecrypt⟩ := decryptCfb_encryptCfb cipher plaintext hcipherKey hiv
  refine ⟨ciphertext, salt, nextLocalInt 0xffffffffffffffff localInt, ?_, ?_⟩
  · have hkeys : (getEncryptionKeyAes keySize key privParameters.snmpEngineBoots
        privParameters.snmpEngineTime).run localInt =
          (.ok (key.take keySize, iv, salt), nextLocalInt 0xffffffffffffffff localInt) := rfl
    unfold encryptDataAes
    rw [bind_run_of_ok hkeys]
    dsimp only
    rw [hencrypt]
    rfl
  · rw [decryptDataAes, if_neg (not_not.mpr hsalt)]
    exact hdecrypt

/-- Whether the package is there or not, a salt of another length is refused, and in the block modes
a string that is not of whole blocks. -/
theorem decryptDataCbc_eq_error (cipher : Option (BlockCipher 8)) (keyLength : ℕ) (key : Octets)
    {privParameters : PrivParameters} {encryptedData : Octets}
    (hrefused : privParameters.salt.length ≠ 8 ∨ encryptedData.length % 8 ≠ 0) :
    decryptDataCbc cipher keyLength key privParameters encryptedData =
      .error (.statusInformation .decryptionError) := by
  cases cipher with
  | none => rfl
  | some cipher =>
    rw [decryptDataCbc]
    split_ifs with hsalt hlength
    · rfl
    · rfl
    · exact absurd (hrefused.resolve_left hsalt) hlength

theorem decryptDataAes_eq_error (cipher : Option (BlockCipher 16)) (keySize : ℕ) (key : Octets)
    {privParameters : PrivParameters} (encryptedData : Octets)
    (hrefused : privParameters.salt.length ≠ 8) :
    decryptDataAes cipher keySize key privParameters encryptedData =
      .error (.statusInformation .decryptionError) := by
  cases cipher with
  | none => rfl
  | some cipher => rw [decryptDataAes, if_pos hrefused]

/-- A service decrypts what it encrypted under the same key, boots and time, with the padding of the
block modes behind it. -/
theorem exists_encryptData_decryptData (backend : CipherBackend) (service : PrivacyService)
    {key : Octets} (hkey : key.length = service.keySize) (privParameters : PrivParameters)
    (plaintext : Octets) (localInt : ℕ) :
    ∃ ciphertext salt after,
      (service.encryptData (some backend) key privParameters plaintext).run localInt =
        (.ok (ciphertext, salt), after) ∧
      (service.isBlockMode = true → ciphertext ≠ [] ∧ ciphertext.length % 8 = 0) ∧
      service.decryptData (some backend) key { privParameters with salt } ciphertext =
        .ok (plaintext ++ if service.isBlockMode then padding plaintext else []) := by
  cases service with
  | des =>
    obtain ⟨ciphertext, salt, after, hrun, hne, hwhole, hdecrypt⟩ :=
      decryptDataCbc_encryptDataCbc backend.des hkey privParameters plaintext localInt
    exact ⟨ciphertext, salt, after, hrun, fun _ ↦ ⟨hne, hwhole⟩, hdecrypt⟩
  | des3 =>
    obtain ⟨ciphertext, salt, after, hrun, hne, hwhole, hdecrypt⟩ :=
      decryptDataCbc_encryptDataCbc backend.des3 hkey privParameters plaintext localInt
    exact ⟨ciphertext, salt, after, hrun, fun _ ↦ ⟨hne, hwhole⟩, hdecrypt⟩
  | aes | aes192 | aes256 =>
    obtain ⟨ciphertext, salt, after, hrun, hdecrypt⟩ :=
      decryptDataAes_encryptDataAes backend.aes (by decide) hkey privParameters plaintext localInt
    exact ⟨ciphertext, salt, after, hrun, nofun,
      hdecrypt.trans (congrArg Except.ok (List.append_nil plaintext).symm)⟩

/-- A service refuses a salt that is not of eight octets, and in the block modes a string that is
not of whole blocks. -/
theorem decryptData_eq_error (backend : CipherBackend) (service : PrivacyService) (key : Octets)
    {received : PrivParameters} {encryptedData : Octets}
    (hrefused : received.salt.length ≠ 8 ∨
      service.isBlockMode = true ∧ encryptedData.length % 8 ≠ 0) :
    service.decryptData (some backend) key received encryptedData =
      .error (.statusInformation .decryptionError) := by
  have hstream : service.isBlockMode = false → received.salt.length ≠ 8 := fun hmode ↦
    hrefused.resolve_right fun hblocks ↦ Bool.false_ne_true (hmode.symm.trans hblocks.1)
  have hblock := hrefused.imp_right And.right
  cases service with
  | des => exact decryptDataCbc_eq_error (some backend.des) 8 key hblock
  | des3 => exact decryptDataCbc_eq_error (some backend.des3) 24 key hblock
  | aes => exact decryptDataAes_eq_error (some backend.aes) 16 key encryptedData (hstream rfl)
  | aes192 => exact decryptDataAes_eq_error (some backend.aes) 24 key encryptedData (hstream rfl)
  | aes256 => exact decryptDataAes_eq_error (some backend.aes) 32 key encryptedData (hstream rfl)

/-- With the package, a service decrypts what it encrypted under the same key, boots and time: the
plaintext, and in the block modes the padding after it, of a ciphertext of whole blocks, one at
least. It refuses a salt that is not of eight octets and in the block modes a string that is not of
whole blocks. -/
theorem decryptData_encryptData (backend : CipherBackend) (service : PrivacyService)
    (key : Octets) (hkey : key.length = service.keySize) (privParameters : PrivParameters)
    (plaintext : Octets) (localInt : ℕ) :
    (∃ ciphertext salt after,
      (service.encryptData (some backend) key privParameters plaintext).run localInt =
        (.ok (ciphertext, salt), after) ∧
      (service.isBlockMode = true → ciphertext ≠ [] ∧ ciphertext.length % 8 = 0) ∧
      service.decryptData (some backend) key { privParameters with salt } ciphertext =
        .ok (plaintext ++ if service.isBlockMode then padding plaintext else [])) ∧
    ∀ received encryptedData,
      received.salt.length ≠ 8 ∨ service.isBlockMode = true ∧ encryptedData.length % 8 ≠ 0 →
      service.decryptData (some backend) key received encryptedData =
        .error (.statusInformation .decryptionError) := by
  constructor
  · exact exists_encryptData_decryptData backend service hkey privParameters plaintext localInt
  · intro received encryptedData hrefused
    exact decryptData_eq_error backend service key hrefused

/-! ### A published block -/

/-- A cipher that exchanges two blocks under every key. -/
def exchanging {size : ℕ} (first second : Octets) (hfirst : first.length = size)
    (hsecond : second.length = size) : BlockCipher size where
  encryptBlock := fun _ block ↦
    if block = first then second else if block = second then first else block
  decryptBlock := fun _ block ↦
    if block = first then second else if block = second then first else block
  length_encryptBlock := by
    intro _ block hblock
    split_ifs
    · exact hsecond
    · exact hfirst
    · exact hblock
  decryptBlock_encryptBlock := by
    intro _ block _
    by_cases hone : block = first
    · by_cases hsame : second = first
      · simp [hone, hsame]
      · simp [hone, hsame]
    · by_cases hother : block = second
      · simp [hother]
      · simp [hone, hother]

/-- Two ciphers one after the other, under one key. -/
def inTurn {size : ℕ} (first second : BlockCipher size) : BlockCipher size where
  encryptBlock := fun key block ↦ second.encryptBlock key (first.encryptBlock key block)
  decryptBlock := fun key block ↦ first.decryptBlock key (second.decryptBlock key block)
  length_encryptBlock := fun key block hblock ↦
    second.length_encryptBlock key _ (first.length_encryptBlock key block hblock)
  decryptBlock_encryptBlock := fun key block hblock ↦ by
    rw [second.decryptBlock_encryptBlock key _ (first.length_encryptBlock key block hblock),
      first.decryptBlock_encryptBlock key block hblock]

/-- The ciphers as they are on one published block each: of DES under the key of zeros, of 3DES
under the three keys `0123456789abcdef`, `23456789abcdef01` and `456789abcdef0123`, and of AES under
`2b7e151628aed2a6abf7158809cf4f3c`. -/
def publishedBackend : CipherBackend where
  des := exchanging [0, 0, 0, 0, 0, 0, 0, 0]
    [0x8c, 0xa6, 0x4d, 0xe9, 0xc1, 0xb1, 0x23, 0xa7] rfl rfl
  des3 := exchanging [0x54, 0x68, 0x65, 0x20, 0x71, 0x75, 0x66, 0x63]
    [0xa8, 0x26, 0xfd, 0x8c, 0xe5, 0x3b, 0x85, 0x5f] rfl rfl
  aes := exchanging [0x6b, 0xc1, 0xbe, 0xe2, 0x2e, 0x40, 0x9f, 0x96, 0xe9, 0x3d, 0x7e, 0x11, 0x73,
      0x93, 0x17, 0x2a]
    [0x3a, 0xd7, 0x7b, 0xb4, 0x0d, 0x7a, 0x36, 0x60, 0xa8, 0x9e, 0xca, 0xf3, 0x24, 0x66, 0xef, 0x97]
    rfl rfl

/-- A DES key of zeros and a pre-IV that is the salt of boots 1. -/
def publishedKey : Octets := [0, 0, 0, 0, 0, 0, 0, 0, 0, 0, 0, 1, 0, 0, 0, 0]

/-- Three blocks and a part of one. -/
def publishedPlaintext : Octets := (List.range 29).map UInt8.ofNat

theorem decryptData_encryptData_published :
    (∃ ciphertext salt after,
      (PrivacyService.des.encryptData (some publishedBackend) publishedKey ⟨1, 0, []⟩
          publishedPlaintext).run 0 = (.ok (ciphertext, salt), after) ∧
      (PrivacyService.des.isBlockMode = true → ciphertext ≠ [] ∧ ciphertext.length % 8 = 0) ∧
      PrivacyService.des.decryptData (some publishedBackend) publishedKey ⟨1, 0, salt⟩ ciphertext =
        .ok (publishedPlaintext ++
          if PrivacyService.des.isBlockMode then padding publishedPlaintext else [])) ∧
    ∀ received encryptedData, received.salt.length ≠ 8 ∨
        PrivacyService.des.isBlockMode = true ∧ encryptedData.length % 8 ≠ 0 →
      PrivacyService.des.decryptData (some publishedBackend) publishedKey received encryptedData =
        .error (.statusInformation .decryptionError) :=
  decryptData_encryptData publishedBackend .des publishedKey rfl ⟨1, 0, []⟩ publishedPlaintext 0

example :
    (PrivacyService.des.encryptData (some publishedBackend) publishedKey ⟨1, 0, []⟩ []).run 0 =
    (.ok ([0x8c, 0xa6, 0x4d, 0xe9, 0xc1, 0xb1, 0x23, 0xa7], [0, 0, 0, 1, 0, 0, 0, 0]), 1) := by
  decide

end Pysnmp.Proto.Secmod.Privacy
