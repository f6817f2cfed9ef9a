import Mathlib.Data.Nat.ModEq
import Pysnmp.Foundation.BigEndian
import Pysnmp.Proto.Secmod.Privacy

/-!
# Initialization vectors do not repeat

A privacy service makes the salt of an encryption of an integer that it steps by hand, and the
initialization vector of the salt (`getEncryptionKey`). Modulo its period the integer counts the
encryptions, its wrap included (`nextLocalInt_add_modEq`), and the salt tells the integer modulo the
period, as the vector does with the key (`MadeFrom`).

`pairwise_differ_history`: of as many encryptions as the period has no two have one salt, and no two
under one key have one initialization vector. Neither the boots nor the time of the engine have to
be the same for that.
-/

set_option autoImplicit false
set_option relaxedAutoImplicit false

namespace Pysnmp.Proto.Secmod.InitializationVectors

open Foundation Foundation.Effect Foundation.BigEndian Foundation.BlockModes Privacy

/-! ### The history of a service -/

/-- An encryption that a service is asked for. -/
structure Encryption where
  encryptKey : Octets
  privParameters : PrivParameters
  dataToEncrypt : Octets

/-- `__getEncryptionKey` of a service: the cipher's key, the initialization vector and the salt. -/
def getEncryptionKey (service : PrivacyService) (encryptKey : Octets)
    (privParameters : PrivParameters) : PrivacyOp (Octets × Octets × Octets) :=
  let cbc (keyLength : ℕ) : PrivacyOp (Octets × Octets × Octets) := do
    let (key, salt, iv) ← getEncryptionKeyCbc keyLength encryptKey privParameters.snmpEngineBoots
    pure (key, iv, salt)
  let aes (keySize : ℕ) : PrivacyOp (Octets × Octets × Octets) :=
    getEncryptionKeyAes keySize encryptKey privParameters.snmpEngineBoots
      privParameters.snmpEngineTime
  match service with
  | .des => cbc 8
  | .des3 => cbc 24
  | .aes => aes 16
  | .aes192 => aes 24
  | .aes256 => aes 32

/-- `encrypt` of the object that a service makes of a key and an initialization vector, on what the
service makes of the data. -/
def encryptWith (service : PrivacyService) (backend : CipherBackend)
    (key iv dataToEncrypt : Octets) : Except PrivacyError Octets :=
  match service with
  | .des => encryptCbc backend.des 8 key iv (dataToEncrypt ++ padding dataToEncrypt)
  | .des3 => encryptCbc backend.des3 24 key iv (dataToEncrypt ++ padding dataToEncrypt)
  | .aes | .aes192 | .aes256 => encryptCfb backend.aes key iv dataToEncrypt

/-- An encryption that returned: the key it was asked under, the initialization vector and the
salt. -/
structure Encrypted where
  encryptKey : Octets
  iv : Octets
  salt : Octets
  deriving DecidableEq, Repr

/-- `encryptData`, with the initialization vector of its object. -/
def encrypt (service : PrivacyService) (backend : Option CipherBackend) (encryption : Encryption) :
    PrivacyOp Encrypted := do
  let localInt ← get
  let (_, salt) ← service.encryptData backend encryption.encryptKey encryption.privParameters
    encryption.dataToEncrypt
  match ((getEncryptionKey service encryption.encryptKey encryption.privParameters).run localInt).1
  with
  | .error exception => raise exception
  | .ok (_, iv, _) => pure ⟨encryption.encryptKey, iv, salt⟩

/-- The encryptions that return, of those a service is asked for one after the other; others leave
the service as their exception does. -/
def history (service : PrivacyService) (backend : Option CipherBackend) :
    List Encryption → ℕ → List Encrypted
  | [], _ => []
  | encryption :: encryptions, localInt =>
    let result := (encrypt service backend encryption).run localInt
    result.1.toOption.toList ++ history service backend encryptions result.2

/-- After how many encryptions the integer of a service comes back. -/
def period : PrivacyService → ℕ
  | .des | .des3 => 2 ^ 32
  | .aes | .aes192 | .aes256 => 2 ^ 64

/-! ### The integer counts encryptions -/

/-- The integer is stepped by one modulo its period, at the wrap too. -/
theorem nextLocalInt_modEq (last localInt : ℕ) :
    nextLocalInt last localInt ≡ localInt + 1 [MOD last + 1] := by
  unfold nextLocalInt
  split_ifs with hwrap
  · rw [hwrap]
    exact (Nat.modEq_zero_iff_dvd.mpr (dvd_refl _)).symm
  · rfl

/-- The same, with the period of a service and steps that follow. -/
theorem nextLocalInt_add_modEq (service : PrivacyService) (localInt index : ℕ) :
    nextLocalInt (period service - 1) localInt + index ≡
      localInt + (index + 1) [MOD period service] := by
  have hstep := nextLocalInt_modEq (period service - 1) localInt
  have hperiod : period service - 1 + 1 = period service := by
    cases service <;> rfl
  rw [hperiod] at hstep
  rw [← add_assoc, add_right_comm]
  exact hstep.add_right index

/-- Two integers that are at most a period apart and leave the same remainder are the same. -/
theorem eq_of_add_modEq {modulus localInt first second : ℕ} (hfirst : first < modulus)
    (hsecond : second < modulus) (hmod : localInt + first ≡ localInt + second [MOD modulus]) :
    first = second :=
  (Nat.ModEq.add_left_cancel' localInt hmod).eq_of_lt_of_lt hfirst hsecond

/-! ### Salts tell the integer -/

theorem toNat_ofNat_and (value : ℕ) : (UInt8.ofNat (value &&& 0xff)).toNat = value % 256 := by
  have hmask : value &&& 0xff = value % 256 := Nat.and_two_pow_sub_one_eq_mod value 8
  rw [hmask]
  exact UInt8.toNat_ofNat_of_lt' (Nat.mod_lt value (by decide))

/-- The shifts that make a number of octets of an integer. -/
def shiftsOf : ℕ → List ℕ
  | 0 => []
  | width + 1 => 8 * width :: shiftsOf width

theorem length_shiftsOf (width : ℕ) : (shiftsOf width).length = width := by
  induction width with
  | zero => rfl
  | succ width ih => rw [shiftsOf, List.length_cons, ih]

/-- Octets are read back as the integer modulo what their width holds. -/
theorem fromBytes_octetsOfInt (width value : ℕ) :
    fromBytes (octetsOfInt (shiftsOf width) value) = value % 256 ^ width := by
  induction width with
  | zero => exact (Nat.mod_one value).symm
  | succ width ih =>
    have hlength : (octetsOfInt (shiftsOf width) value).length = width :=
      (length_octetsOfInt _ _).trans (length_shiftsOf width)
    have hpow : 2 ^ (8 * width) = 256 ^ width := pow_mul 2 8 width
    show fromBytes (UInt8.ofNat (value >>> (8 * width) &&& 0xff) ::
      octetsOfInt (shiftsOf width) value) = value % 256 ^ (width + 1)
    rw [fromBytes_cons, toNat_ofNat_and, hlength, ih, Nat.shiftRight_eq_div_pow, hpow,
      Nat.mod_pow_succ, Nat.add_comm, Nat.mul_comm]

/-- Four octets are read back as the integer modulo `2 ^ 32`. -/
theorem fromBytes_octetsOfInt_shifts32 (value : ℕ) :
    fromBytes (octetsOfInt shifts32 value) = value % 2 ^ 32 :=
  fromBytes_octetsOfInt 4 value

/-- Eight octets are read back as the integer modulo `2 ^ 64`. -/
theorem fromBytes_octetsOfInt_shifts64 (value : ℕ) :
    fromBytes (octetsOfInt shifts64 value) = value % 2 ^ 64 :=
  fromBytes_octetsOfInt 8 value

/-- The pre-IV of a localized key; the services without blocks have none. -/
def preIV (service : PrivacyService) (encryptKey : Octets) : Octets :=
  match service with
  | .des => (encryptKey.drop 8).take 8
  | .des3 => (encryptKey.drop 24).take 8
  | .aes | .aes192 | .aes256 => []

/-- The salt that an initialization vector was made of. -/
def saltOfVector (service : PrivacyService) (encryptKey iv : Octets) : Octets :=
  if service.isBlockMode then xorOctets iv (preIV service encryptKey) else iv.drop 8

/-- What a salt tells of the integer it was made of. -/
def counterOfSalt (service : PrivacyService) (salt : Octets) : ℕ :=
  if service.isBlockMode then fromBytes (salt.drop 4) else fromBytes salt

/-! ### One encryption -/

/-- A salt is read back from the vector it was mixed into, if that is no shorter. -/
theorem xorOctets_of_length {salt preIV : Octets} (hsalt : salt.length = 8)
    (hlength : (xorOctets salt preIV).length = 8) :
    xorOctets (xorOctets salt preIV) preIV = salt := by
  refine xorOctets_xorOctets_self ?_
  rw [length_xorOctets, hsalt] at hlength
  rw [hsalt]
  exact min_eq_left_iff.mp hlength

/-- `encryptData` makes a key, an initialization vector and a salt, and encrypts with the first
two. -/
theorem encryptData_eq (service : PrivacyService) (backend : CipherBackend) (encryptKey : Octets)
    (privParameters : PrivParameters) (dataToEncrypt : Octets) :
    service.encryptData (some backend) encryptKey privParameters dataToEncrypt = (do
      let (key, iv, salt) ← getEncryptionKey service encryptKey privParameters
      let ciphertext ← liftExcept (encryptWith service backend key iv dataToEncrypt)
      pure (ciphertext, salt)) := by
  cases service <;> rfl

/-- The integer is stepped whether the cipher accepts what it is given or not; the salt tells the
integer, and so does the vector with the key if the cipher accepts its length. -/
theorem getEncryptionKey_run (service : PrivacyService) (encryptKey : Octets)
    (privParameters : PrivParameters) (localInt : ℕ) :
    ∃ key iv salt, (getEncryptionKey service encryptKey privParameters).run localInt =
        (.ok (key, iv, salt), nextLocalInt (period service - 1) localInt) ∧
      counterOfSalt service salt = localInt % period service ∧
      ((service.isBlockMode = true → iv.length = 8) →
        saltOfVector service encryptKey iv = salt) := by
  cases service with
  | des | des3 =>
    have hboots : (octetsOfInt shifts32 privParameters.snmpEngineBoots).length = 4 :=
      length_octetsOfInt _ _
    refine ⟨_, _, _, rfl, ?_, fun hlength ↦ xorOctets_of_length ?_ (hlength rfl)⟩
    · change fromBytes (List.drop 4 _) = _
      rw [List.drop_left' hboots]
      exact fromBytes_octetsOfInt_shifts32 localInt
    · rw [List.length_append, hboots, length_octetsOfInt]
      rfl
  | aes | aes192 | aes256 =>
    refine ⟨_, _, _, rfl, fromBytes_octetsOfInt_shifts64 localInt, fun _ ↦ ?_⟩
    exact List.drop_left' (List.length_append.trans rfl)

/-- A cipher in CBC mode encrypts with vectors of eight octets only. -/
theorem length_of_encryptWith {service : PrivacyService} {backend : CipherBackend}
    {key iv dataToEncrypt ciphertext : Octets} (hblock : service.isBlockMode = true)
    (hencrypt : encryptWith service backend key iv dataToEncrypt = .ok ciphertext) :
    iv.length = 8 := by
  have hcbc {cipher : BlockCipher 8} {keyLength : ℕ} {plaintext : Octets}
      (hencrypted : encryptCbc cipher keyLength key iv plaintext = .ok ciphertext) :
      iv.length = 8 := by
    rw [encryptCbc] at hencrypted
    split_ifs at hencrypted with haccepted
    exact haccepted.2.1
  cases service with
  | des | des3 => exact hcbc hencrypt
  | aes | aes192 | aes256 => cases hblock

/-- What an encryption that returned has of the integer of the service. -/
structure MadeFrom (service : PrivacyService) (localInt : ℕ) (encrypted : Encrypted) : Prop where
  saltOfVector_eq :
    saltOfVector service encrypted.encryptKey encrypted.iv = encrypted.salt
  counterOfSalt_eq : counterOfSalt service encrypted.salt = localInt % period service

/-- With the package, the integer is stepped, and what is returned is made from it. -/
theorem encrypt_run (service : PrivacyService) (backend : CipherBackend) (encryption : Encryption)
    (localInt : ℕ) :
    ((encrypt service (some backend) encryption).run localInt).2 =
        nextLocalInt (period service - 1) localInt ∧
      ∀ encrypted ∈ ((encrypt service (some backend) encryption).run localInt).1.toOption,
        MadeFrom service localInt encrypted := by
  obtain ⟨encryptKey, privParameters, dataToEncrypt⟩ := encryption
  obtain ⟨key, iv, salt, hrun, hcounter, hvector⟩ :=
    getEncryptionKey_run service encryptKey privParameters localInt
  have hdata := congrArg (fun program ↦ program.run localInt)
    (encryptData_eq service backend encryptKey privParameters dataToEncrypt)
  simp only [bind_run_of_ok hrun] at hdata
  unfold encrypt
  rw [bind_run_of_ok (get_run localInt)]
  dsimp only
  cases hencrypt : encryptWith service backend key iv dataToEncrypt with
  | error exception =>
    rw [hencrypt, bind_run_of_error (liftExcept_run _ _)] at hdata
    rw [bind_run_of_error hdata]
    exact ⟨rfl, nofun⟩
  | ok ciphertext =>
    rw [hencrypt, bind_run_of_ok (liftExcept_run _ _), pure_run] at hdata
    rw [bind_run_of_ok hdata]
    simp only [hrun, pure_run, Except.toOption, Option.mem_def, Option.some.injEq, forall_eq']
    exact ⟨trivial, hvector fun hblock ↦ length_of_encryptWith hblock hencrypt, hcounter⟩

/-! ### A history -/

/-- Two encryptions differ in their salts, and in their initialization vectors if they are made
under one key. -/
def Differ (first second : Encrypted) : Prop :=
  first.salt ≠ second.salt ∧ (first.encryptKey = second.encryptKey → first.iv ≠ second.iv)

theorem differ_of_madeFrom {service : PrivacyService} {counter other : ℕ}
    {first second : Encrypted} (hfirst : MadeFrom service counter first)
    (hsecond : MadeFrom service other second) (hne : ¬ counter ≡ other [MOD period service]) :
    Differ first second := by
  have hsalt : first.salt ≠ second.salt := by
    intro heq
    refine hne (hfirst.counterOfSalt_eq.symm.trans ?_)
    rw [heq]
    exact hsecond.counterOfSalt_eq
  refine ⟨hsalt, fun hkey hiv ↦ hsalt ?_⟩
  rw [← hfirst.saltOfVector_eq, ← hsecond.saltOfVector_eq, hkey, hiv]

/-- Every encryption of a history is made from an integer that is as far from the first, modulo the
period, as the encryption is from the beginning. -/
theorem exists_madeFrom_of_mem_history {service : PrivacyService} {backend : CipherBackend}
    {encryptions : List Encryption} {localInt : ℕ} {encrypted : Encrypted}
    (hmem : encrypted ∈ history service (some backend) encryptions localInt) :
    ∃ index < encryptions.length, ∃ counter,
      counter ≡ localInt + index [MOD period service] ∧ MadeFrom service counter encrypted := by
  induction encryptions generalizing localInt with
  | nil => cases hmem
  | cons encryption encryptions ih =>
    obtain ⟨hnext, hmade⟩ := encrypt_run service backend encryption localInt
    rw [history, hnext, List.mem_append, Option.mem_toList] at hmem
    rcases hmem with hhere | hlater
    · exact ⟨0, Nat.zero_lt_succ _, localInt, Nat.ModEq.rfl, hmade encrypted hhere⟩
    · obtain ⟨index, hindex, counter, hcounter, hfrom⟩ := ih hlater
      exact ⟨index + 1, Nat.succ_lt_succ hindex, counter,
        hcounter.trans (nextLocalInt_add_modEq service localInt index), hfrom⟩

theorem history_none (service : PrivacyService) (encryptions : List Encryption) (localInt : ℕ) :
    history service none encryptions localInt = [] := by
  induction encryptions generalizing localInt with
  | nil => rfl
  | cons encryption encryptions ih =>
    have hraise : ((encrypt service none encryption).run localInt).1.toOption = none := by
      cases service <;> rfl
    rw [history, hraise, ih]
    rfl

/-- Of at most as many encryptions as the period has, whatever integer the service starts with, no
two have one salt, and no two under one key have one initialization vector. -/
theorem pairwise_differ_history (service : PrivacyService) (backend : Option CipherBackend)
    (encryptions : List Encryption) (localInt : ℕ)
    (hperiod : encryptions.length ≤ period service) :
    (history service backend encryptions localInt).Pairwise Differ := by
  cases backend with
  | none =>
    rw [history_none]
    exact List.Pairwise.nil
  | some backend =>
    induction encryptions generalizing localInt with
    | nil => exact List.Pairwise.nil
    | cons encryption encryptions ih =>
      obtain ⟨hnext, hmade⟩ := encrypt_run service backend encryption localInt
      rw [history, List.pairwise_append]
      refine ⟨?_, ih _ (Nat.le_of_succ_le hperiod), fun first hfirst second hsecond ↦ ?_⟩
      · cases ((encrypt service (some backend) encryption).run localInt).1.toOption with
        | none => exact List.Pairwise.nil
        | some _ => exact List.pairwise_singleton _ _
      · obtain ⟨index, hindex, counter, hcounter, hfrom⟩ := exists_madeFrom_of_mem_history hsecond
        refine differ_of_madeFrom (hmade first (Option.mem_toList.mp hfirst)) hfrom fun hsame ↦ ?_
        rw [hnext] at hcounter
        -- the later encryption is ahead of the first by less than a period
        have hahead : localInt + 0 ≡ localInt + (index + 1) [MOD period service] :=
          (hsame.trans hcounter).trans (nextLocalInt_add_modEq service localInt index)
        have hlength : encryptions.length + 1 ≤ period service := hperiod
        exact absurd (eq_of_add_modEq (by omega) (by omega) hahead) (Nat.succ_ne_zero index).symm

/-- Two encryptions of nothing, at boots 1. -/
def wrappingEncryptions : List Encryption :=
  List.replicate 2 ⟨publishedKey, ⟨1, 0, []⟩, []⟩

/-- The integer wraps between them. -/
theorem pairwise_differ_history_wrapping :
    (history .des (some publishedBackend) wrappingEncryptions 0xffffffff).Pairwise Differ :=
  pairwise_differ_history .des (some publishedBackend) wrappingEncryptions 0xffffffff
    (by norm_num [wrappingEncryptions, period])

example : (history .des (some publishedBackend) wrappingEncryptions 0xffffffff).map
    Encrypted.salt = [[0, 0, 0, 1, 255, 255, 255, 255], [0, 0, 0, 1, 0, 0, 0, 0]] := by
  decide

end Pysnmp.Proto.Secmod.InitializationVectors
