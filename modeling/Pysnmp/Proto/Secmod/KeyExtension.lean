import Pysnmp.Foundation.Binary64
import Pysnmp.Foundation.Loop
import Pysnmp.Foundation.PieceStream
import Pysnmp.Proto.Secmod.LocalKey

/-!
# Extending a localized key

`localizeKey` of the privacy services in `eso/priv/aesbase.py` and `eso/priv/des3.py`. The digest of
the authentication protocol may be shorter than the key of the cipher. Blumenthal appends the hash
of the key so far, as often as a quotient of floating-point numbers says; Reeder and 3DES append
the localized passphrase hash of the key so far until it is long enough. What is left over is cut
off.

`localizeKey_streamed`: both return and give the beginning of a stream, which is that of the draft
for Blumenthal and, as long as two digests make up a key, for Reeder too.
-/

set_option autoImplicit false
set_option relaxedAutoImplicit false

namespace Pysnmp.Proto.Secmod.KeyExtension

open Foundation.Binary64 Foundation.Loop Foundation.PieceStream LocalKey

/-! ### Services and hashes -/

/-- The privacy services that extend a key. -/
inductive Service
  | aesBlumenthal192
  | aesBlumenthal256
  | aes192
  | aes256
  | des3
  deriving DecidableEq, Repr

/-- `keySize`. -/
def Service.keySize : Service → ℕ
  | aesBlumenthal192 => 24
  | aesBlumenthal256 => 32
  | aes192 => 24
  | aes256 => 32
  | des3 => 32

/-- The service is derived from `AbstractAesBlumenthal`. -/
def Service.isBlumenthal : Service → Bool
  | aesBlumenthal192 => true
  | aesBlumenthal256 => true
  | aes192 => false
  | aes256 => false
  | des3 => false

/-- The hash functions of `hashlib`. -/
structure HashLib (η : Type) where
  md5 : HashFunc η
  sha1 : HashFunc η
  sha224 : HashFunc η
  sha256 : HashFunc η
  sha384 : HashFunc η
  sha512 : HashFunc η

/-- How `localizeKey` of a service fails. -/
inductive PrivKeyError
  | protocolError (authProtocol : Oid)
  | localKey (error : LocalKeyError)
  deriving DecidableEq, Repr

/-- `HmacMd5.serviceID`. -/
def hmacMd5ServiceID : Oid := [1, 3, 6, 1, 6, 3, 10, 1, 1, 2]

/-- `HmacSha.serviceID`. -/
def hmacShaServiceID : Oid := [1, 3, 6, 1, 6, 3, 10, 1, 1, 3]

variable {η : Type}

/-- `HmacSha2.hashAlgorithms`. -/
def hashAlgorithms (hashlib : HashLib η) : List (Oid × HashFunc η) :=
  [([1, 3, 6, 1, 6, 3, 10, 1, 1, 4], hashlib.sha224),
    ([1, 3, 6, 1, 6, 3, 10, 1, 1, 5], hashlib.sha256),
    ([1, 3, 6, 1, 6, 3, 10, 1, 1, 6], hashlib.sha384),
    ([1, 3, 6, 1, 6, 3, 10, 1, 1, 7], hashlib.sha512)]

/-- The hash that an authentication protocol uses. -/
def hashAlgoOf (hashlib : HashLib η) (authProtocol : Oid) : Except PrivKeyError (HashFunc η) :=
  if authProtocol = hmacMd5ServiceID then .ok hashlib.md5
  else if authProtocol = hmacShaServiceID then .ok hashlib.sha1
  else
    match (hashAlgorithms hashlib).lookup authProtocol with
    | some hashAlgo => .ok hashAlgo
    | none => .error (.protocolError authProtocol)

/-- `hashAlgo(octets).digest()`. -/
def digestOf (hashAlgo : HashFunc η) (octets : Octets) : Octets :=
  hashAlgo.digest (hashAlgo.update hashAlgo.new octets)

/-- `localkey.localizeKey`. -/
def localizePassKey (passKey snmpEngineId : Octets) (hashFunc : HashFunc η) : Octets :=
  digestOf hashFunc (passKey ++ snmpEngineId ++ passKey)

/-! ### The loops -/

/-- The turns of the loop in Blumenthal's variant, `range(1, ceil(keySize * 1.0 / length))`. -/
def blumenthalTurns (keySize length : ℕ) : ℕ :=
  (⌈roundBinary (roundBinary keySize / roundBinary length)⌉ - 1).toNat

/-- The end of `AbstractAesBlumenthal.localizeKey`. -/
def extendBlumenthal (keySize : ℕ) (hashAlgo : HashFunc η) (localPrivKey : Octets) :
    Except PrivKeyError Octets :=
  if localPrivKey.length = 0 then
    .error (.localKey .zeroDivisionError)
  else
    .ok (((fun localPrivKey ↦ localPrivKey ++ digestOf hashAlgo localPrivKey)^[
      blumenthalTurns keySize localPrivKey.length] localPrivKey).take keySize)

/-- A turn of the loop in `AbstractAesReeder.localizeKey` and `Des3.localizeKey`. -/
def reederTurn (keySize : ℕ) (snmpEngineID : Octets) (hashAlgo : HashFunc η)
    (localPrivKey : Octets) : Octets ⊕ Except PrivKeyError Octets :=
  if localPrivKey.length < keySize then
    match hashPassphrase localPrivKey hashAlgo with
    | .error error => .inr (.error (.localKey error))
    | .ok newKey => .inl (localPrivKey ++ localizePassKey newKey snmpEngineID hashAlgo)
  else
    .inr (.ok (localPrivKey.take keySize))

/-- `localizeKey` of a service, in a number of turns. -/
def localizeKeyWithin (service : Service) (hashlib : HashLib η) (authProtocol : Oid)
    (privKey snmpEngineID : Octets) (turns : ℕ) : Option (Except PrivKeyError Octets) :=
  match hashAlgoOf hashlib authProtocol with
  | .error error => some (.error error)
  | .ok hashAlgo =>
    if service.isBlumenthal then
      some (extendBlumenthal service.keySize hashAlgo
        (localizePassKey privKey snmpEngineID hashAlgo))
    else
      within (reederTurn service.keySize snmpEngineID hashAlgo) turns
        (localizePassKey privKey snmpEngineID hashAlgo)

/-- `localizeKey` comes to an end with this result. -/
def Localizes (service : Service) (hashlib : HashLib η) (authProtocol : Oid)
    (privKey snmpEngineID : Octets) (result : Except PrivKeyError Octets) : Prop :=
  ∃ turns, localizeKeyWithin service hashlib authProtocol privKey snmpEngineID turns = some result

/-! ### The streams -/

/-- What Reeder makes of octets: the password-to-key algorithm, with the octets for the password. -/
def passwordToKey (snmpEngineID : Octets) (hashAlgo : HashFunc η) (octets : Octets) : Octets :=
  match hashPassphrase octets hashAlgo with
  | .error _ => []
  | .ok newKey => localizePassKey newKey snmpEngineID hashAlgo

/-- The stream of a draft. Blumenthal appends the hash of the key so far; Reeder runs the
password-to-key algorithm on its previous output. -/
def draftStream (service : Service) (hashAlgo : HashFunc η) (privKey snmpEngineID : Octets) :
    ℕ → Octets :=
  if service.isBlumenthal then
    accumulated (digestOf hashAlgo) (localizePassKey privKey snmpEngineID hashAlgo)
  else
    chained (passwordToKey snmpEngineID hashAlgo) (localizePassKey privKey snmpEngineID hashAlgo)

/-- The stream of the code, whose next piece is made from the key so far in either variant. -/
def codeStream (service : Service) (hashAlgo : HashFunc η) (privKey snmpEngineID : Octets) :
    ℕ → Octets :=
  if service.isBlumenthal then
    accumulated (digestOf hashAlgo) (localizePassKey privKey snmpEngineID hashAlgo)
  else
    accumulated (passwordToKey snmpEngineID hashAlgo)
      (localizePassKey privKey snmpEngineID hashAlgo)

/-- The key has the size of the service and is the beginning of a stream, and it begins as the plain
localized key does. -/
structure Streamed (stream : ℕ → Octets) (plainKey : Octets) (keySize : ℕ) (key : Octets) :
    Prop where
  length_eq : key.length = keySize
  streamed : ∃ pieces, key <+: stream pieces
  begins : key.take (min keySize plainKey.length) = plainKey.take (min keySize plainKey.length)

/-! ### The quotient of floating-point numbers -/

/-- The loop makes enough turns. -/
theorem le_blumenthalTurns {keySize length : ℕ} (hkeySize : keySize ≤ 32) (hlength : 0 < length) :
    keySize ≤ length * (blumenthalTurns keySize length + 1) := by
  rcases le_or_gt keySize length with hle | hgt
  · exact hle.trans (Nat.le_mul_of_pos_right _ (Nat.succ_pos _))
  · by_contra hshort
    rw [not_le] at hshort
    set quotient : ℚ := keySize / length with hquotient
    set turns := blumenthalTurns keySize length with hturns
    have hlengthCast : (0 : ℚ) < length := by exact_mod_cast hlength
    have hone : 1 ≤ quotient := by
      rw [hquotient, one_le_div₀ hlengthCast]
      exact_mod_cast hgt.le
    have hupper : quotient ≤ 32 := by
      rw [hquotient, div_le_iff₀ hlengthCast]
      have hcast : (keySize : ℚ) ≤ 32 := by exact_mod_cast hkeySize
      have hlengthOne : (1 : ℚ) ≤ length := by exact_mod_cast hlength
      linarith
    -- The quotient is above the turns by a 32nd at least, and rounding moves it by far less.
    have hgap : (turns : ℚ) + 1 + 1 / 32 ≤ quotient := by
      have hsucc : length * (turns + 1) + 1 ≤ keySize := hshort
      have hcast : (length : ℚ) * (turns + 1) + 1 ≤ keySize := by exact_mod_cast hsucc
      have hinverse : (1 : ℚ) / 32 ≤ 1 / length := by
        apply one_div_le_one_div_of_le hlengthCast
        have hlt : length ≤ 32 := by omega
        exact_mod_cast hlt
      calc (turns : ℚ) + 1 + 1 / 32 ≤ turns + 1 + 1 / length := by linarith
        _ = (length * (turns + 1) + 1) / length := by field_simp
        _ ≤ quotient := div_le_div_of_nonneg_right hcast hlengthCast.le
    have hround := (abs_le.mp (abs_roundBinary_sub_le_of_one_le hone)).1
    have hrounded : (turns : ℚ) + 1 < roundBinary quotient := by
      have herror : quotient / 2 ^ 52 ≤ 32 / 2 ^ 52 := by gcongr
      have hsmall : (32 : ℚ) / 2 ^ 52 < 1 / 32 := by norm_num
      linarith
    have hceil : (turns : ℤ) + 1 < ⌈roundBinary quotient⌉ := by
      rw [Int.lt_ceil]
      exact_mod_cast hrounded
    have hdef : turns = (⌈roundBinary quotient⌉ - 1).toNat := by
      rw [hturns, blumenthalTurns, roundBinary_natCast (by omega), roundBinary_natCast (by omega)]
    omega

/-! ### What the loops return -/

section Extension

variable {hashAlgo : HashFunc η} {keySize digestLength : ℕ} {snmpEngineID localPrivKey : Octets}

theorem passwordToKey_of_ne_nil (hashAlgo : HashFunc η) (snmpEngineID : Octets)
    (hkey : localPrivKey ≠ []) :
    ∃ newKey, hashPassphrase localPrivKey hashAlgo = .ok newKey ∧
      passwordToKey snmpEngineID hashAlgo localPrivKey =
        localizePassKey newKey snmpEngineID hashAlgo := by
  have hlength : ¬ localPrivKey.length = 0 := mt List.length_eq_zero_iff.mp hkey
  refine ⟨_, if_neg hlength, ?_⟩
  rw [passwordToKey, hashPassphrase, if_neg hlength]

/-- A key of the code's stream that is long enough, cut off. -/
theorem streamed_take {next : Octets → Octets} {plainKey : Octets} {pieces : ℕ}
    (henough : keySize ≤ (accumulated next plainKey pieces).length) :
    Streamed (accumulated next plainKey) plainKey keySize
      ((accumulated next plainKey pieces).take keySize) := by
  refine ⟨List.length_take_of_le henough, ⟨pieces, List.take_prefix _ _⟩, ?_⟩
  obtain ⟨rest, hrest⟩ : accumulated next plainKey 0 <+: accumulated next plainKey pieces :=
    accumulated_begins (Nat.zero_le pieces)
  rw [List.take_take, min_eq_left (min_le_left _ _), ← hrest, accumulated_zero,
    List.take_append_of_le_length (min_le_right _ _)]

theorem extendBlumenthal_streamed (hkeySize : keySize ≤ 32)
    (hdigest : ∀ hasher, (hashAlgo.digest hasher).length = digestLength) (hpos : 0 < digestLength)
    (hlength : localPrivKey.length = digestLength) :
    ∃ key, extendBlumenthal keySize hashAlgo localPrivKey = .ok key ∧
      Streamed (accumulated (digestOf hashAlgo) localPrivKey) localPrivKey keySize key := by
  refine ⟨_, if_neg (by omega), streamed_take ?_⟩
  have hwidth : ∀ octets, octets ≠ [] → (digestOf hashAlgo octets).length = digestLength :=
    fun octets _ ↦ hdigest _
  rw [length_accumulated hlength hwidth hpos, hlength]
  exact le_blumenthalTurns hkeySize hpos

theorem length_passwordToKey (hdigest : ∀ hasher, (hashAlgo.digest hasher).length = digestLength)
    (hkey : localPrivKey ≠ []) :
    (passwordToKey snmpEngineID hashAlgo localPrivKey).length = digestLength := by
  obtain ⟨newKey, -, heq⟩ := passwordToKey_of_ne_nil hashAlgo snmpEngineID hkey
  rw [heq]
  exact hdigest _

/-- A turn that goes on appends the next piece of the stream. -/
theorem reederTurn_inl {next : Octets} (hkey : localPrivKey ≠ [])
    (hturn : reederTurn keySize snmpEngineID hashAlgo localPrivKey = .inl next) :
    localPrivKey.length < keySize ∧
      next = localPrivKey ++ passwordToKey snmpEngineID hashAlgo localPrivKey := by
  obtain ⟨newKey, hhash, heq⟩ := passwordToKey_of_ne_nil hashAlgo snmpEngineID hkey
  rw [reederTurn, hhash] at hturn
  split_ifs at hturn with hshort
  exact ⟨hshort, by rw [heq, Sum.inl.inj hturn]⟩

/-- The last turn cuts off what is left over. -/
theorem reederTurn_inr {result : Except PrivKeyError Octets} (hkey : localPrivKey ≠ [])
    (hturn : reederTurn keySize snmpEngineID hashAlgo localPrivKey = .inr result) :
    keySize ≤ localPrivKey.length ∧ result = .ok (localPrivKey.take keySize) := by
  obtain ⟨newKey, hhash, -⟩ := passwordToKey_of_ne_nil hashAlgo snmpEngineID hkey
  rw [reederTurn, hhash] at hturn
  split_ifs at hturn with hshort
  exact ⟨not_lt.mp hshort, (Sum.inr.inj hturn).symm⟩

/-- The loop stays in the stream, and each turn makes the key longer. -/
theorem reederTurns_streamed (keySize : ℕ) (snmpEngineID : Octets)
    (hdigest : ∀ hasher, (hashAlgo.digest hasher).length = digestLength) (hpos : 0 < digestLength)
    (hlength : localPrivKey.length = digestLength) :
    ∃ turns key, within (reederTurn keySize snmpEngineID hashAlgo) turns localPrivKey =
        some (.ok key) ∧
      Streamed (accumulated (passwordToKey snmpEngineID hashAlgo) localPrivKey) localPrivKey
        keySize key := by
  have hwidth : ∀ octets, octets ≠ [] →
      (passwordToKey snmpEngineID hashAlgo octets).length = digestLength :=
    fun octets ↦ length_passwordToKey hdigest
  have hstream (pieces : ℕ) :
      (accumulated (passwordToKey snmpEngineID hashAlgo) localPrivKey pieces).length =
        digestLength * (pieces + 1) :=
    length_accumulated hlength hwidth hpos
  have hne (pieces : ℕ) :
      accumulated (passwordToKey snmpEngineID hashAlgo) localPrivKey pieces ≠ [] := by
    rw [← List.length_pos_iff, hstream]
    positivity
  have hnext : ∀ state next,
      (∃ pieces, state = accumulated (passwordToKey snmpEngineID hashAlgo) localPrivKey pieces) →
        reederTurn keySize snmpEngineID hashAlgo state = .inl next →
        (∃ pieces, next = accumulated (passwordToKey snmpEngineID hashAlgo) localPrivKey pieces) ∧
          keySize - next.length < keySize - state.length := by
    rintro _ next ⟨pieces, rfl⟩ hturn
    obtain ⟨hshort, hnext⟩ := reederTurn_inl (hne pieces) hturn
    rw [← accumulated_succ] at hnext
    refine ⟨⟨pieces + 1, hnext⟩, ?_⟩
    rw [hnext, hstream (pieces + 1)]
    rw [hstream] at hshort ⊢
    have hlonger : digestLength * (pieces + 1) < digestLength * (pieces + 1 + 1) :=
      Nat.mul_lt_mul_of_pos_left (Nat.lt_succ_self _) hpos
    omega
  have hlast : ∀ state result,
      (∃ pieces, state = accumulated (passwordToKey snmpEngineID hashAlgo) localPrivKey pieces) →
        reederTurn keySize snmpEngineID hashAlgo state = .inr result →
        ∃ key, result = .ok key ∧
          Streamed (accumulated (passwordToKey snmpEngineID hashAlgo) localPrivKey) localPrivKey
            keySize key := by
    rintro _ result ⟨pieces, rfl⟩ hturn
    obtain ⟨henough, hresult⟩ := reederTurn_inr (hne pieces) hturn
    exact ⟨_, hresult, streamed_take henough⟩
  obtain ⟨result, hwithin, key, hresult, hstreamed⟩ :=
    within_of_measure hnext hlast ⟨0, rfl⟩ (Nat.lt_succ_self _)
  exact ⟨_, key, hresult ▸ hwithin, hstreamed⟩

end Extension

/-! ### What the services return -/

section Services

variable {service : Service} {hashlib : HashLib η} {authProtocol : Oid} {hashAlgo : HashFunc η}
  {digestLength : ℕ}

theorem Service.keySize_le (service : Service) : service.keySize ≤ 32 := by
  cases service <;> decide

/-- A key in the stream of the code is one in the stream of the draft, unless a third piece of
Reeder's is in it. -/
theorem Streamed.ofDraft {privKey snmpEngineID key : Octets}
    (hdigest : ∀ hasher, (hashAlgo.digest hasher).length = digestLength) (hpos : 0 < digestLength)
    (hstreamed : Streamed (codeStream service hashAlgo privKey snmpEngineID)
      (localizePassKey privKey snmpEngineID hashAlgo) service.keySize key)
    (henough : service.isBlumenthal ∨ service.keySize ≤ 2 * digestLength) :
    Streamed (draftStream service hashAlgo privKey snmpEngineID)
      (localizePassKey privKey snmpEngineID hashAlgo) service.keySize key := by
  refine ⟨hstreamed.length_eq, ?_, hstreamed.begins⟩
  obtain ⟨pieces, hbegins⟩ := hstreamed.streamed
  unfold codeStream at hbegins
  unfold draftStream
  by_cases hblumenthal : service.isBlumenthal
  · rw [if_pos hblumenthal] at hbegins ⊢
    exact ⟨pieces, hbegins⟩
  · rw [if_neg hblumenthal] at hbegins ⊢
    refine ⟨1, ?_⟩
    rw [chained_one]
    have hplain : (localizePassKey privKey snmpEngineID hashAlgo).length = digestLength :=
      hdigest _
    have hwidth : ∀ octets, octets ≠ [] →
        (passwordToKey snmpEngineID hashAlgo octets).length = digestLength :=
      fun octets ↦ length_passwordToKey hdigest
    have hlength : key.length ≤ (accumulated (passwordToKey snmpEngineID hashAlgo)
        (localizePassKey privKey snmpEngineID hashAlgo) 1).length := by
      rw [length_accumulated hplain hwidth hpos, hstreamed.length_eq]
      have hshort := henough.resolve_left hblumenthal
      omega
    exact prefix_of_begins accumulated_begins hbegins List.prefix_rfl hlength

/-- Every service comes to an end with a key of its size, which is the beginning of the code's
stream, and of the draft's for Blumenthal and where two digests make up a key. -/
theorem localizeKey_streamed (hselected : hashAlgoOf hashlib authProtocol = .ok hashAlgo)
    (hdigest : ∀ hasher, (hashAlgo.digest hasher).length = digestLength) (hpos : 1 ≤ digestLength)
    (privKey snmpEngineID : Octets) :
    ∃ key, Localizes service hashlib authProtocol privKey snmpEngineID (.ok key) ∧
      Streamed (codeStream service hashAlgo privKey snmpEngineID)
        (localizePassKey privKey snmpEngineID hashAlgo) service.keySize key ∧
      (service.isBlumenthal ∨ service.keySize ≤ 2 * digestLength →
        Streamed (draftStream service hashAlgo privKey snmpEngineID)
          (localizePassKey privKey snmpEngineID hashAlgo) service.keySize key) := by
  have hplain : (localizePassKey privKey snmpEngineID hashAlgo).length = digestLength := hdigest _
  suffices hcode : ∃ key, Localizes service hashlib authProtocol privKey snmpEngineID (.ok key) ∧
      Streamed (codeStream service hashAlgo privKey snmpEngineID)
        (localizePassKey privKey snmpEngineID hashAlgo) service.keySize key by
    obtain ⟨key, hlocalizes, hstreamed⟩ := hcode
    exact ⟨key, hlocalizes, hstreamed, hstreamed.ofDraft hdigest hpos⟩
  unfold Localizes localizeKeyWithin codeStream
  rw [hselected]
  by_cases hblumenthal : service.isBlumenthal
  · obtain ⟨key, hkey, hstreamed⟩ :=
      extendBlumenthal_streamed service.keySize_le hdigest hpos hplain
    simp only [if_pos hblumenthal]
    exact ⟨key, ⟨0, congrArg some hkey⟩, hstreamed⟩
  · obtain ⟨turns, key, hkey, hstreamed⟩ := reederTurns_streamed service.keySize snmpEngineID
      hdigest hpos hplain
    simp only [if_neg hblumenthal]
    exact ⟨key, ⟨turns, hkey⟩, hstreamed⟩

end Services

/-! ### A hash of one octet -/

/-- A hash whose digest is one more than the first octet. -/
def firstOctetHash : HashFunc (Option UInt8) where
  new := none
  update := fun hasher octets ↦ hasher.or octets.head?
  digest := fun hasher ↦ [hasher.getD 0 + 1]

/-- One hash for every protocol. -/
def firstOctetLib : HashLib (Option UInt8) where
  md5 := firstOctetHash
  sha1 := firstOctetHash
  sha224 := firstOctetHash
  sha256 := firstOctetHash
  sha384 := firstOctetHash
  sha512 := firstOctetHash

theorem foldl_update_firstOctetHash (updates : List Octets) (hasher : Option UInt8) :
    updates.foldl firstOctetHash.update hasher = hasher.or updates.flatten.head? := by
  induction updates generalizing hasher with
  | nil => exact (Option.or_none).symm
  | cons octets rest ih =>
    rw [List.foldl_cons, ih, List.flatten_cons, List.head?_append]
    exact Option.or_assoc

theorem hashPassphrase_firstOctetHash (octet : UInt8) (rest : Octets) :
    hashPassphrase (octet :: rest) firstOctetHash = .ok [octet + 1] := by
  obtain ⟨⟨updates, hupdates, hhash⟩, -⟩ := hashPassphrase_feeds (List.cons_ne_nil octet rest)
  have hfirst : updates.flatten.head? = some octet := by
    rw [hupdates, Foundation.Repetition.segment, List.head?_map, List.head?_range]
    exact congrArg some (Foundation.Repetition.repeated_of_lt _ (Nat.succ_pos _))
  rw [hhash, foldl_update_firstOctetHash, hfirst]
  rfl

theorem passwordToKey_firstOctetHash (octet : UInt8) (rest : Octets) :
    passwordToKey [] firstOctetHash (octet :: rest) = [octet + 1 + 1] := by
  rw [passwordToKey, hashPassphrase_firstOctetHash]
  rfl

theorem accumulated_firstOctetHash :
    accumulated (passwordToKey [] firstOctetHash) [1] 2 = [1, 3, 3] := by
  rw [accumulated_succ, accumulated_succ, accumulated_zero, passwordToKey_firstOctetHash,
    List.singleton_append, passwordToKey_firstOctetHash]
  rfl

theorem chained_firstOctetHash :
    chained (passwordToKey [] firstOctetHash) [1] 2 = [1, 3, 5] := by
  rw [chained_succ, chained_succ, chained_zero, Function.iterate_succ_apply,
    Function.iterate_succ_apply, Function.iterate_succ_apply, Function.iterate_zero,
    passwordToKey_firstOctetHash, passwordToKey_firstOctetHash]
  rfl

/-- The third piece of Reeder's stream is not the one that the code makes. -/
theorem not_streamed_draftStream :
    (∀ hasher, (firstOctetHash.digest hasher).length = 1) ∧
      ¬ ∃ key, Localizes .aes192 firstOctetLib hmacMd5ServiceID [0] [] (.ok key) ∧
        Streamed (draftStream .aes192 firstOctetHash [0] [])
          (localizePassKey [0] [] firstOctetHash) Service.aes192.keySize key := by
  refine ⟨fun _ ↦ rfl, ?_⟩
  rintro ⟨key, hlocalizes, hdraft⟩
  have hplain : localizePassKey [0] [] firstOctetHash = [1] := by decide
  have hdigest : ∀ hasher, (firstOctetHash.digest hasher).length = 1 := fun _ ↦ rfl
  obtain ⟨turns, other, hturns, hcode⟩ := reederTurns_streamed 24 [] hdigest Nat.one_pos
    (congrArg List.length hplain)
  have hkey : key = other :=
    Except.ok.inj (EndsWith.unique hlocalizes ⟨turns, hturns⟩)
  subst hkey
  obtain ⟨pieces, hbegins⟩ := hcode.streamed
  obtain ⟨more, hmore⟩ := hdraft.streamed
  have hlength (third : Octets) (hthird : third.length = 3) : third.length ≤ key.length := by
    rw [hthird, hcode.length_eq]
    decide
  have hthirdCode : [1, 3, 3] <+: key := by
    rw [hplain] at hbegins
    rw [← accumulated_firstOctetHash]
    refine prefix_of_begins accumulated_begins List.prefix_rfl hbegins (hlength _ ?_)
    rw [accumulated_firstOctetHash]
    rfl
  have hthirdDraft : [1, 3, 5] <+: key := by
    rw [draftStream, if_neg (by decide), hplain] at hmore
    rw [← chained_firstOctetHash]
    refine prefix_of_begins chained_begins List.prefix_rfl hmore (hlength _ ?_)
    rw [chained_firstOctetHash]
    rfl
  have hthird := List.prefix_of_prefix_length_le hthirdCode hthirdDraft le_rfl
  exact absurd hthird (by decide)

/-- Blumenthal's stream has many pieces of such a hash. -/
theorem localizeKey_streamed_firstOctet :
    ∃ key, Localizes .aesBlumenthal256 firstOctetLib hmacShaServiceID [7] [0x80] (.ok key) ∧
      Streamed (codeStream .aesBlumenthal256 firstOctetHash [7] [0x80])
        (localizePassKey [7] [0x80] firstOctetHash) 32 key ∧
      (Service.isBlumenthal .aesBlumenthal256 ∨ 32 ≤ 2 * 1 →
        Streamed (draftStream .aesBlumenthal256 firstOctetHash [7] [0x80])
          (localizePassKey [7] [0x80] firstOctetHash) 32 key) :=
  @localizeKey_streamed _ .aesBlumenthal256 _ _ _ _ rfl (fun _ ↦ rfl) le_rfl [7] [0x80]

end Pysnmp.Proto.Secmod.KeyExtension
