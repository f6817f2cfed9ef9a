import Pysnmp.Foundation.Effect
import Pysnmp.Proto.Secmod.DhAgreement

/-!
# The texts of a key change

What `rfc2786` writes is read back: the instance of a cell as the engine identifier and the user
name in it, and the value of a set as the two public values. An instance is taken apart only if it
was put together (`parseKeyChangeInstance_eq_ok_iff`), and the second public value comes back as
wide as the first one, with zeros in front. An agent that has published nothing is refused.
-/

set_option autoImplicit false
set_option relaxedAutoImplicit false

namespace Pysnmp.Proto.Secmod.DhAgreement

open Foundation Foundation.BigEndian

/-! ### Instances -/

/-- Numbers that make octets are those of the octets. -/
theorem toBytesObject_eq_ok_iff {numbers : List ℕ} {octets : Octets} :
    toBytesObject numbers = .ok octets ↔ numbers = octets.map UInt8.toNat := by
  constructor
  · intro hoctets
    rw [toBytesObject] at hoctets
    split_ifs at hoctets with hrange
    obtain rfl := Except.ok.inj hoctets
    rw [List.map_map]
    refine ((List.map_congr_left fun number hnumber ↦ ?_).trans (List.map_id numbers)).symm
    exact UInt8.toNat_ofNat_of_lt' (hrange number hnumber)
  · rintro rfl
    exact toBytesObject_map octets

/-- What is taken apart was put together. -/
theorem eq_keyChangeInstance_of_parse {column keyInstance : Oid}
    {securityEngineId userName : Octets}
    (hparse : parseKeyChangeInstance column keyInstance = .ok (securityEngineId, userName)) :
    keyInstance = keyChangeInstance column securityEngineId userName := by
  rw [parseKeyChangeInstance] at hparse
  split_ifs at hparse with hcolumn
  have hinstance := List.take_append_drop column.length keyInstance
  rw [not_not.mp hcolumn] at hinstance
  rw [← hinstance]
  cases hindex : keyInstance.drop column.length with
  | nil =>
    rw [hindex] at hparse
    cases hparse
  | cons engineIdLength index =>
    simp only [hindex] at hparse
    split_ifs at hparse with hengine
    cases hrest : index.drop engineIdLength with
    | nil =>
      rw [hrest] at hparse
      cases hparse
    | cons userNameLength rest =>
      simp only [hrest] at hparse
      split_ifs at hparse with hname
      obtain ⟨hnameLength, hwhole⟩ := not_or.mp hname
      obtain ⟨engineOctets, hengineOctets, hparse⟩ := exists_of_bind_eq_ok hparse
      obtain ⟨nameOctets, hnameOctets, hparse⟩ := exists_of_bind_eq_ok hparse
      obtain ⟨rfl, rfl⟩ := Prod.mk.inj (Except.ok.inj hparse)
      have hall : rest.take userNameLength = rest :=
        List.take_of_length_le (not_not.mp hwhole).le
      rw [toBytesObject_eq_ok_iff] at hengineOctets hnameOctets
      rw [hall] at hnameOctets
      have hsplit := List.take_append_drop engineIdLength index
      rw [hrest, hengineOctets, hnameOctets] at hsplit
      rw [hengineOctets, List.length_map, not_not] at hengine
      rw [hnameOctets, List.length_map, not_not] at hwhole
      rw [← hsplit, ← hengine, ← hwhole]
      simp [keyChangeInstance]

/-- An instance of a column is that of the engine identifier and the user name that it is taken
apart into. -/
theorem parseKeyChangeInstance_eq_ok_iff {column keyInstance : Oid}
    {securityEngineId userName : Octets} :
    parseKeyChangeInstance column keyInstance = .ok (securityEngineId, userName) ↔
      keyInstance = keyChangeInstance column securityEngineId userName :=
  ⟨eq_keyChangeInstance_of_parse, fun heq ↦
    heq ▸ parseKeyChangeInstance_keyChangeInstance column securityEngineId userName⟩

/-! ### Values -/

/-- A public value with zeros in front. -/
def padTo (width : ℕ) (octets : Octets) : Octets :=
  List.replicate (width - octets.length) 0 ++ octets

@[simp] theorem fromBytes_padTo (width : ℕ) (octets : Octets) :
    fromBytes (padTo width octets) = fromBytes octets :=
  fromBytes_replicate_append _ _

theorem length_padTo {width : ℕ} {octets : Octets} (hfits : octets.length ≤ width) :
    (padTo width octets).length = width := by
  rw [padTo, List.length_append, List.length_replicate]
  omega

/-- The value of a set is split into the public values it was made of. -/
theorem splitKeyChangeValue_of_build {peerPublic ownPublic value : Octets}
    (hbuild : buildKeyChangeValue peerPublic ownPublic = .ok value) :
    splitKeyChangeValue value = .ok (peerPublic, padTo peerPublic.length ownPublic) := by
  rw [buildKeyChangeValue] at hbuild
  split_ifs at hbuild with hne hwide
  obtain rfl := Except.ok.inj hbuild
  exact splitKeyChangeValue_append hne (length_padTo (not_lt.mp hwide))

/-- A value is built of public values that fit, if the agent has published one. -/
theorem exists_buildKeyChangeValue {peerPublic ownPublic : Octets} (hne : peerPublic ≠ [])
    (hfits : ownPublic.length ≤ peerPublic.length) :
    ∃ value, buildKeyChangeValue peerPublic ownPublic = .ok value :=
  ⟨_, by rw [buildKeyChangeValue, if_neg hne, if_neg hfits.not_gt]⟩

/-! ### Both codecs -/

/-- The values that fit are built and come back, the second one as wide as the first. -/
def ValueRoundTrips (peerPublic ownPublic : Octets) : Prop :=
  ∃ value padded, buildKeyChangeValue peerPublic ownPublic = .ok value ∧
    splitKeyChangeValue value = .ok (peerPublic, padded) ∧
    padded = List.replicate (peerPublic.length - ownPublic.length) 0 ++ ownPublic ∧
    fromBytes padded = fromBytes ownPublic

/-- Instances are read as what they were made of and nothing else is read; values come back if the
agent has published one. -/
theorem codecs_roundTrip (column : Oid) (securityEngineId userName : Octets)
    {peerPublic ownPublic : Octets} (hne : peerPublic ≠ [])
    (hfits : ownPublic.length ≤ peerPublic.length) :
    parseKeyChangeInstance column (keyChangeInstance column securityEngineId userName) =
        .ok (securityEngineId, userName) ∧
      (∀ keyInstance engineId name, parseKeyChangeInstance column keyInstance =
        .ok (engineId, name) → keyInstance = keyChangeInstance column engineId name) ∧
      ValueRoundTrips peerPublic ownPublic := by
  refine ⟨parseKeyChangeInstance_keyChangeInstance column securityEngineId userName,
    fun _ _ _ ↦ eq_keyChangeInstance_of_parse, ?_⟩
  obtain ⟨value, hbuild⟩ := exists_buildKeyChangeValue hne hfits
  exact ⟨value, _, hbuild, splitKeyChangeValue_of_build hbuild, rfl, fromBytes_padTo _ _⟩

theorem codecs_roundTrip_sample :
    parseKeyChangeInstance [1, 3] (keyChangeInstance [1, 3] [128, 0] [98, 111, 98]) =
        .ok ([128, 0], [98, 111, 98]) ∧
      (∀ keyInstance engineId name, parseKeyChangeInstance [1, 3] keyInstance =
        .ok (engineId, name) → keyInstance = keyChangeInstance [1, 3] engineId name) ∧
      ValueRoundTrips [1, 2, 3] [7] :=
  codecs_roundTrip [1, 3] [128, 0] [98, 111, 98] (by decide) (by decide)

/-- With nothing published no value is built, not even of an empty public value. -/
theorem not_valueRoundTrips_empty :
    ¬ ∀ peerPublic ownPublic : Octets, ownPublic.length ≤ peerPublic.length →
      ValueRoundTrips peerPublic ownPublic := by
  intro hall
  obtain ⟨value, padded, hbuild, -⟩ := hall [] [] le_rfl
  cases hbuild

end Pysnmp.Proto.Secmod.DhAgreement
