import Pysnmp.Foundation.FirstOccurrence
import Pysnmp.Proto.Types

/-!
# Writing and checking the message digest

The HMAC services of USM (`rfc3414/auth/hmacmd5.py`, `rfc3414/auth/hmacsha.py`,
`rfc7860/auth/hmacsha2.py`). The caller serializes a message with as many zero octets as the digest
is long in `msgAuthenticationParameters`; `authenticateOutgoingMsg` looks for that run of zeros in
the serialized message and writes the digest over it, and `authenticateIncomingMsg` looks for the
digest, writes zeros over it and computes the digest again.

The three services differ in the keyed hash and in the texts of two errors, so they are one
`DigestService` each (`hmacMd5`, `hmacSha`, `hmacSha2`) and the two operations are written once.
The hash functions of `hashlib` are parameters that return digests of their own size; `hmacNew` is
the construction of the `hmac` module over them.

The field is found by its contents and not by its position. `authenticateOutgoingMsg_eq_iff` says
when the digest ends up in the field of `head ++ zeros ++ tail`: when no run of zeros starts before
it, or the digest is that run. `authenticateIncomingMsg_isOk_iff` says when the receiver accepts,
and `placesDigest_iff` puts the two together.
-/

set_option autoImplicit false
set_option relaxedAutoImplicit false

namespace Pysnmp.Proto.Secmod.DigestPlacement

open Foundation.FirstOccurrence

/-- A hash function of `hashlib`: digests of a fixed number of octets. -/
structure HashFunction (size : ℕ) where
  digest : Octets → Octets
  length_digest : ∀ message, (digest message).length = size

/-- What an authentication or a privacy service raises. The other exceptions are those of the
libraries under it, such as the `ValueError` of a cipher for a key of a length it does not take. -/
inductive ServiceError
  | protocolError (text : String)
  | statusInformation (errorIndication : ErrorIndication)
  | otherException
  deriving DecidableEq, Repr

/-- `except error.StatusInformation` catches it. -/
def ServiceError.isStatusInformation : ServiceError → Bool
  | .statusInformation _ => true
  | _ => false

/-- An HMAC authentication service: the number of octets of digest that go on the wire, the keyed
digest cut to that number, and the texts of its two protocol errors. -/
structure DigestService where
  digestLength : ℕ
  digestLength_pos : 0 < digestLength
  mac : Octets → Octets → Octets
  length_mac : ∀ authKey wholeMsg, (mac authKey wholeMsg).length = digestLength
  placeholderMissing : String
  digestMissing : String

namespace DigestService

/-- The run of zero octets that stands for the digest while it is computed. -/
def placeHolder (service : DigestService) : Octets :=
  List.replicate service.digestLength 0

@[simp] theorem length_placeHolder (service : DigestService) :
    service.placeHolder.length = service.digestLength :=
  List.length_replicate

/-- Compute the digest of the message and write it over the first run of zeros. -/
def authenticateOutgoingMsg (service : DigestService) (authKey wholeMsg : Octets) :
    Except ServiceError Octets :=
  match find service.placeHolder wholeMsg with
  | none => .error (.protocolError service.placeholderMissing)
  | some idx =>
    let wholeHead := wholeMsg.take idx
    let wholeTail := wholeMsg.drop (idx + service.digestLength)
    .ok (wholeHead ++ service.mac authKey wholeMsg ++ wholeTail)

/-- Write zeros over the first occurrence of the received digest and compare it with the digest of
the result, which is returned. -/
def authenticateIncomingMsg (service : DigestService) (authKey authParameters wholeMsg : Octets) :
    Except ServiceError Octets :=
  if authParameters.length ≠ service.digestLength then
    .error (.statusInformation .authenticationError)
  else
    match find authParameters wholeMsg with
    | none => .error (.protocolError service.digestMissing)
    | some idx =>
      let wholeHead := wholeMsg.take idx
      let wholeTail := wholeMsg.drop (idx + service.digestLength)
      let authenticatedWholeMsg := wholeHead ++ service.placeHolder ++ wholeTail
      if service.mac authKey authenticatedWholeMsg ≠ authParameters then
        .error (.statusInformation .authenticationFailure)
      else
        .ok authenticatedWholeMsg

end DigestService

/-! ### The services -/

/-- The keyed digest both RFC 3414 services compute: the key extended by a number of zeros and
combined with the two pads of 64 octets, hashed around the message, cut to twelve octets. -/
def keyedDigest {size : ℕ} (hash : HashFunction size) (zeros : ℕ) (authKey wholeMsg : Octets) :
    Octets :=
  let extendedAuthKey := authKey ++ List.replicate zeros 0
  let k1 := List.zipWith (· ^^^ ·) extendedAuthKey (List.replicate 64 0x36)
  let k2 := List.zipWith (· ^^^ ·) extendedAuthKey (List.replicate 64 0x5C)
  let d1 := hash.digest (k1 ++ wholeMsg)
  let d2 := hash.digest (k2 ++ d1)
  d2.take 12

/-- HMAC-MD5-96. -/
def hmacMd5 (md5 : HashFunction 16) : DigestService where
  digestLength := 12
  digestLength_pos := by decide
  mac := keyedDigest md5 48
  length_mac := fun _ _ ↦ by simp [keyedDigest, md5.length_digest]
  placeholderMissing := "Cant locate digest placeholder"
  digestMissing := "Cant locate digest in wholeMsg"

/-- HMAC-SHA-96. -/
def hmacSha (sha1 : HashFunction 20) : DigestService where
  digestLength := 12
  digestLength_pos := by decide
  mac := keyedDigest sha1 44
  length_mac := fun _ _ ↦ by simp [keyedDigest, sha1.length_digest]
  placeholderMissing := "Cant locate digest placeholder"
  digestMissing := "Cant locate digest in wholeMsg"

/-- The SHA-2 variants, one for each service identifier. -/
inductive Sha2Variant
  | sha224
  | sha256
  | sha384
  | sha512
  deriving DecidableEq, Repr

namespace Sha2Variant

/-- Octets of digest on the wire. -/
def digestLength : Sha2Variant → ℕ
  | sha224 => 16
  | sha256 => 24
  | sha384 => 32
  | sha512 => 48

/-- Octets the hash function returns. -/
def digestSize : Sha2Variant → ℕ
  | sha224 => 28
  | sha256 => 32
  | sha384 => 48
  | sha512 => 64

/-- Octets of the block the hash function works on. -/
def blockSize : Sha2Variant → ℕ
  | sha224 => 64
  | sha256 => 64
  | sha384 => 128
  | sha512 => 128

theorem digestLength_le_digestSize (variant : Sha2Variant) :
    variant.digestLength ≤ variant.digestSize := by
  cases variant <;> decide

end Sha2Variant

/-- `hmac.new(key, message, hash).digest()`: a key longer than a block is hashed first, a shorter
one is filled with zeros. -/
def hmacNew {size : ℕ} (hash : HashFunction size) (blockSize : ℕ) (key message : Octets) :
    Octets :=
  let shortKey := if blockSize < key.length then hash.digest key else key
  let blockKey := shortKey ++ List.replicate (blockSize - shortKey.length) 0
  hash.digest (blockKey.map (· ^^^ 0x5C) ++ hash.digest (blockKey.map (· ^^^ 0x36) ++ message))

/-- HMAC-SHA-2 at one of its four lengths. -/
def hmacSha2 (variant : Sha2Variant) (hashAlgo : HashFunction variant.digestSize) :
    DigestService where
  digestLength := variant.digestLength
  digestLength_pos := by cases variant <;> decide
  mac := fun authKey wholeMsg ↦
    (hmacNew hashAlgo variant.blockSize authKey wholeMsg).take variant.digestLength
  length_mac := fun _ _ ↦ by
    rw [List.length_take, hmacNew, hashAlgo.length_digest,
      min_eq_left variant.digestLength_le_digestSize]
  placeholderMissing := "Can't locate digest placeholder"
  digestMissing := "Can't locate digest in wholeMsg"

/-! ### Where the digest goes -/

section Placement

variable (service : DigestService) (authKey head tail : Octets)

/-- The serialized message before the digest is computed. -/
def serializedMsg : Octets :=
  head ++ service.placeHolder ++ tail

/-- The digest of the serialized message. -/
def messageDigest : Octets :=
  service.mac authKey (serializedMsg service head tail)

/-- The message with its digest in `msgAuthenticationParameters`. -/
def authenticatedMsg : Octets :=
  head ++ messageDigest service authKey head tail ++ tail

/-- The law of the two operations on a message with the field between `head` and `tail`: the
sender puts the digest into the field, and the receiver with the same key accepts the result. -/
def PlacesDigest : Prop :=
  service.authenticateOutgoingMsg authKey (serializedMsg service head tail) =
      .ok (authenticatedMsg service authKey head tail) ∧
    ∃ restored, service.authenticateIncomingMsg authKey (messageDigest service authKey head tail)
      (authenticatedMsg service authKey head tail) = .ok restored

/-- The first run of zeros of the serialized message is the content of the field. -/
def PlaceholderFoundAtField : Prop :=
  find service.placeHolder (serializedMsg service head tail) = some head.length

instance : Decidable (PlaceholderFoundAtField service head tail) :=
  inferInstanceAs (Decidable (find service.placeHolder _ = some head.length))

/-- The message the receiver computes its digest over: zeros written over the first occurrence of
the digest. -/
def restoredMsg : Option Octets :=
  (find (messageDigest service authKey head tail)
    (authenticatedMsg service authKey head tail)).map fun idx ↦
      overwrite (authenticatedMsg service authKey head tail) idx service.placeHolder

@[simp] theorem length_messageDigest :
    (messageDigest service authKey head tail).length = service.digestLength :=
  service.length_mac _ _

/-- The field holds a run of zeros, so the sender finds one, in the field or before it. -/
theorem exists_find_placeHolder :
    ∃ idx ≤ head.length,
      find service.placeHolder (serializedMsg service head tail) = some idx :=
  find_le_of_occursAt (occursAt_append head service.placeHolder tail)

/-- The field holds the digest, so the receiver finds one, in the field or before it. -/
theorem exists_find_messageDigest :
    ∃ idx ≤ head.length,
      find (messageDigest service authKey head tail) (authenticatedMsg service authKey head tail) =
        some idx :=
  find_le_of_occursAt (occursAt_append head (messageDigest service authKey head tail) tail)

/-- The sender returns the authenticated message exactly when the first run of zeros is the field,
or the digest itself is a run of zeros. -/
theorem authenticateOutgoingMsg_eq_iff :
    service.authenticateOutgoingMsg authKey (serializedMsg service head tail) =
        .ok (authenticatedMsg service authKey head tail) ↔
      PlaceholderFoundAtField service head tail ∨
        messageDigest service authKey head tail = service.placeHolder := by
  obtain ⟨idx, _, hfind⟩ := exists_find_placeHolder service head tail
  have hlength := length_messageDigest service authKey head tail
  have hplace : service.placeHolder =
      List.replicate (messageDigest service authKey head tail).length 0 := by
    rw [hlength, DigestService.placeHolder]
  have hfindRun : find (List.replicate (messageDigest service authKey head tail).length (0 : UInt8))
      (head ++ List.replicate (messageDigest service authKey head tail).length 0 ++ tail) =
        some idx := by
    rw [← hplace]
    exact hfind
  have hrun := overwrite_run_eq_iff hfindRun
  rw [← hplace] at hrun
  rw [DigestService.authenticateOutgoingMsg, PlaceholderFoundAtField, hfind]
  simp only [Except.ok.injEq, Option.some.injEq]
  rw [← hrun, overwrite, hlength]
  rfl

/-- The receiver accepts the authenticated message exactly when the message it restores has the
digest it was sent. -/
theorem authenticateIncomingMsg_isOk_iff :
    (∃ restored, service.authenticateIncomingMsg authKey
        (messageDigest service authKey head tail)
        (authenticatedMsg service authKey head tail) = .ok restored) ↔
      ∃ restored ∈ restoredMsg service authKey head tail,
        service.mac authKey restored = messageDigest service authKey head tail := by
  obtain ⟨idx, _, hfind⟩ := exists_find_messageDigest service authKey head tail
  rw [DigestService.authenticateIncomingMsg, restoredMsg, hfind,
    if_neg (not_not.mpr (length_messageDigest service authKey head tail))]
  simp only [Option.map_some, Option.mem_some_iff, exists_eq_left']
  rw [overwrite, DigestService.length_placeHolder]
  split_ifs with hmismatch
  · refine ⟨?_, fun hequal ↦ absurd hequal hmismatch⟩
    rintro ⟨_, hok⟩
    cases hok
  · exact ⟨fun _ ↦ not_not.mp hmismatch, fun _ ↦ ⟨_, rfl⟩⟩

/-- A digest found in the field restores the serialized message. -/
theorem restoredMsg_eq_serializedMsg
    (hfind : find (messageDigest service authKey head tail)
      (authenticatedMsg service authKey head tail) = some head.length) :
    restoredMsg service authKey head tail = some (serializedMsg service head tail) := by
  rw [restoredMsg, hfind, Option.map_some, authenticatedMsg, serializedMsg,
    overwrite_append head _ tail (by simp)]

/-- Writing zeros over an occurrence of the digest before the field gives another message, unless
the digest is a run of zeros. -/
theorem restoredMsg_ne_serializedMsg {idx : ℕ}
    (hfind : find (messageDigest service authKey head tail)
      (authenticatedMsg service authKey head tail) = some idx)
    (hidx : idx < head.length) (hdigest : messageDigest service authKey head tail ≠
      service.placeHolder) :
    overwrite (authenticatedMsg service authKey head tail) idx service.placeHolder ≠
      serializedMsg service head tail := by
  have hplace : service.placeHolder =
      List.replicate (messageDigest service authKey head tail).length 0 := by
    rw [length_messageDigest, DigestService.placeHolder]
  intro hrestored
  rw [serializedMsg, hplace] at hrestored
  refine hdigest ((word_eq_run_of_overwrite_eq hidx ?_ hrestored).trans hplace.symm)
  exact (find_eq_some_iff.mp hfind).1

/-- The restored message has the digest exactly when the digest is first found at the field or is a
run of zeros, or when the restored message is another one with the same digest. -/
theorem exists_restoredMsg_iff :
    (∃ restored ∈ restoredMsg service authKey head tail,
        service.mac authKey restored = messageDigest service authKey head tail) ↔
      find (messageDigest service authKey head tail)
          (authenticatedMsg service authKey head tail) = some head.length ∨
        messageDigest service authKey head tail = service.placeHolder ∨
        ∃ restored ∈ restoredMsg service authKey head tail,
          restored ≠ serializedMsg service head tail ∧
            service.mac authKey restored = messageDigest service authKey head tail := by
  obtain ⟨idx, hle, hfind⟩ := exists_find_messageDigest service authKey head tail
  constructor
  · rintro ⟨restored, hrestored, hmac⟩
    rcases hle.eq_or_lt with rfl | hlt
    · exact Or.inl hfind
    by_cases hdigest : messageDigest service authKey head tail = service.placeHolder
    · exact Or.inr (Or.inl hdigest)
    · refine Or.inr (Or.inr ⟨restored, hrestored, ?_, hmac⟩)
      rw [restoredMsg, hfind, Option.map_some, Option.mem_some_iff] at hrestored
      rw [← hrestored]
      exact restoredMsg_ne_serializedMsg service authKey head tail hfind hlt hdigest
  · rintro (hfield | hdigest | ⟨restored, hrestored, -, hmac⟩)
    · exact ⟨_, restoredMsg_eq_serializedMsg service authKey head tail hfield, rfl⟩
    · refine ⟨serializedMsg service head tail, ?_, rfl⟩
      have hoccurs := (find_eq_some_iff.mp hfind).1
      rw [restoredMsg, hfind, Option.map_some, Option.mem_some_iff, ← hdigest,
        overwrite_of_occursAt hoccurs, authenticatedMsg, serializedMsg, hdigest]
    · exact ⟨restored, hrestored, hmac⟩

/-- The digest is placed and accepted exactly when the first run of zeros of the serialized message
is the field (or the digest is a run of zeros), and the message restored by writing zeros over the
first occurrence of the digest has that digest. `exists_restoredMsg_iff` says when it has. -/
theorem placesDigest_iff :
    PlacesDigest service authKey head tail ↔
      (PlaceholderFoundAtField service head tail ∨
          messageDigest service authKey head tail = service.placeHolder) ∧
        ∃ restored ∈ restoredMsg service authKey head tail,
          service.mac authKey restored = messageDigest service authKey head tail := by
  rw [PlacesDigest, authenticateOutgoingMsg_eq_iff, authenticateIncomingMsg_isOk_iff]

/-- A message in which neither a run of zeros nor the digest starts before the field is placed and
accepted, whatever the hash function. -/
theorem placesDigest_of_found_at_field
    (hplace : PlaceholderFoundAtField service head tail)
    (hfind : find (messageDigest service authKey head tail)
      (authenticatedMsg service authKey head tail) = some head.length) :
    service.authenticateOutgoingMsg authKey (serializedMsg service head tail) =
        .ok (authenticatedMsg service authKey head tail) ∧
      service.authenticateIncomingMsg authKey (messageDigest service authKey head tail)
        (authenticatedMsg service authKey head tail) = .ok (serializedMsg service head tail) := by
  refine ⟨(authenticateOutgoingMsg_eq_iff service authKey head tail).mpr (Or.inl hplace), ?_⟩
  have hrestored := restoredMsg_eq_serializedMsg service authKey head tail hfind
  rw [restoredMsg, hfind, Option.map_some, Option.some.injEq, overwrite,
    DigestService.length_placeHolder] at hrestored
  rw [DigestService.authenticateIncomingMsg, hfind,
    if_neg (not_not.mpr (length_messageDigest service authKey head tail))]
  simp only [hrestored]
  exact if_neg (not_not.mpr rfl)

end Placement

/-! ### An engine identifier with a run of zeros -/

section ZerosInEngineId

/-- A serialized SNMPv3 request up to the content of `msgAuthenticationParameters`, its engine
identifier `80 00 1f 88 04` followed by twelve zero octets. -/
def zerosEngineIdHead : Octets :=
  [48, 103, 2, 1, 3, 48, 14, 2, 1, 1, 2, 3, 0, 255, 227, 4, 1, 5, 2, 1, 3, 4, 46, 48, 44, 4, 17,
    128, 0, 31, 136, 4, 0, 0, 0, 0, 0, 0, 0, 0, 0, 0, 0, 0, 2, 1, 1, 2, 1, 1, 4, 1, 117, 4, 12]

/-- The rest of that request. -/
def zerosEngineIdTail : Octets :=
  [4, 0, 48, 34, 4, 17, 128, 0, 31, 136, 4, 0, 0, 0, 0, 0, 0, 0, 0, 0, 0, 0, 0, 4, 0, 160, 11, 2,
    1, 1, 2, 1, 0, 2, 1, 0, 48, 0]

/-- The localized key of the request. -/
def zerosEngineIdKey : Octets :=
  [1, 2, 3, 4, 5, 6, 7, 8, 9, 10, 11, 12, 13, 14, 15, 16]

/-- MD5 on the two inputs that the digest of the request hashes: an input that ends with the
request is the inner one, any other the outer one. -/
def md5Sample : HashFunction 16 where
  digest := fun input ↦
    if input.length = 169 then
      [207, 156, 238, 147, 131, 243, 189, 98, 93, 219, 129, 91, 118, 24, 32, 211]
    else
      [133, 19, 56, 144, 8, 19, 38, 125, 53, 172, 59, 7, 242, 206, 19, 120]
  length_digest := fun input ↦ by split_ifs <;> rfl

/-- The digest of the request goes into its engine identifier, and not into the field. -/
theorem not_placesDigest_zerosEngineId :
    ¬ PlacesDigest (hmacMd5 md5Sample) zerosEngineIdKey zerosEngineIdHead zerosEngineIdTail := by
  rintro ⟨houtgoing, _⟩
  rcases (authenticateOutgoingMsg_eq_iff _ _ _ _).mp houtgoing with hplace | hzeros
  · exact absurd hplace (by decide +kernel)
  · exact absurd hzeros (by decide +kernel)

end ZerosInEngineId

end Pysnmp.Proto.Secmod.DigestPlacement
