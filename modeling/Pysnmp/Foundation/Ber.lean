import Pysnmp.Foundation.BigEndian

/-!
# Values with tags and lengths

Values as the basic encoding rules write them: a tag, the number of octets of the contents and the
contents. The number stands in one octet if it is below 128 and otherwise in as many as it takes,
with their own number in front, of which there is room for 126. Whatever follows an encoded value is
left over by the decoder (`decode_encode`).

Integers are written in two's complement and in as few octets as that allows, object identifiers in
septets, the first two arcs as one number.
-/

set_option autoImplicit false
set_option relaxedAutoImplicit false

namespace Pysnmp.Foundation.Ber

open BigEndian

private theorem toNat_ofNat {value : ℕ} (hvalue : value < 256) :
    (UInt8.ofNat value).toNat = value :=
  UInt8.toNat_ofNat_of_lt' hvalue

/-! ### Lengths -/

/-- The octets that a number is written in without a sign. -/
def unsignedWidth (value : ℕ) : ℕ :=
  value.log2 / 8 + 1

theorem lt_pow_unsignedWidth (value : ℕ) : value < 256 ^ unsignedWidth value := by
  calc value < 2 ^ (value.log2 + 1) := Nat.lt_log2_self
    _ ≤ 2 ^ (8 * unsignedWidth value) :=
      Nat.pow_le_pow_right (by decide) (by rw [unsignedWidth]; omega)
    _ = 256 ^ unsignedWidth value := by rw [pow_mul]; norm_num

/-- A length, in the short or in the long form; the long form has its limit too. -/
def encodeLength (length : ℕ) : Option (List UInt8) :=
  if length < 128 then
    some [UInt8.ofNat length]
  else if unsignedWidth length ≤ 126 then
    some (UInt8.ofNat (128 + unsignedWidth length) :: toBytes (unsignedWidth length) length)
  else
    none

/-- A length at the head of octets, and what follows it. -/
def decodeLength : List UInt8 → Option (ℕ × List UInt8)
  | [] => none
  | first :: rest =>
    if first.toNat < 128 then
      some (first.toNat, rest)
    else if first.toNat = 128 ∨ rest.length < first.toNat - 128 then
      none
    else
      some (fromBytes (rest.take (first.toNat - 128)), rest.drop (first.toNat - 128))

theorem decodeLength_encodeLength {length : ℕ} {octets : List UInt8}
    (hencode : encodeLength length = some octets) (rest : List UInt8) :
    decodeLength (octets ++ rest) = some (length, rest) := by
  unfold encodeLength at hencode
  split_ifs at hencode with hshort hwidth
  · obtain rfl := Option.some.inj hencode
    have hfirst : (UInt8.ofNat length).toNat = length := toNat_ofNat (by omega)
    rw [List.singleton_append, decodeLength, hfirst, if_pos hshort]
  · obtain rfl := Option.some.inj hencode
    have hpos : 0 < unsignedWidth length := Nat.succ_pos _
    have hfirst : (UInt8.ofNat (128 + unsignedWidth length)).toNat =
        128 + unsignedWidth length := toNat_ofNat (by omega)
    have hcount : 128 + unsignedWidth length - 128 = unsignedWidth length := by omega
    have hroom : unsignedWidth length ≤
        (toBytes (unsignedWidth length) length ++ rest).length := by
      rw [List.length_append, length_toBytes]
      exact Nat.le_add_right _ _
    rw [List.cons_append, decodeLength, hfirst, if_neg (by omega), hcount, if_neg (by omega),
      List.take_left' (length_toBytes _ _), List.drop_left' (length_toBytes _ _),
      fromBytes_toBytes (lt_pow_unsignedWidth length)]

/-! ### Values -/

/-- A value: its tag, the length of its contents and the contents. -/
def encode (tag : UInt8) (contents : List UInt8) : Option (List UInt8) :=
  (encodeLength contents.length).map fun lengthOctets ↦ tag :: (lengthOctets ++ contents)

/-- The value at the head of octets, by tag and contents, and what follows it. -/
def decode : List UInt8 → Option (UInt8 × List UInt8 × List UInt8)
  | [] => none
  | tag :: octets =>
    match decodeLength octets with
    | none => none
    | some (length, rest) =>
      if rest.length < length then none else some (tag, rest.take length, rest.drop length)

/-- The contents of a value that has to be of one tag. -/
def decodeAs (tag : UInt8) (octets : List UInt8) : Option (List UInt8 × List UInt8) :=
  match decode octets with
  | none => none
  | some (found, contents, rest) => if found = tag then some (contents, rest) else none

theorem decode_encode {tag : UInt8} {contents octets : List UInt8}
    (hencode : encode tag contents = some octets) (rest : List UInt8) :
    decode (octets ++ rest) = some (tag, contents, rest) := by
  obtain ⟨lengthOctets, hlength, rfl⟩ := Option.map_eq_some_iff.mp hencode
  rw [List.cons_append, List.append_assoc, decode, decodeLength_encodeLength hlength]
  simp only
  rw [if_neg (by rw [List.length_append]; omega), List.take_left, List.drop_left]

theorem decodeAs_encode {tag : UInt8} {contents octets : List UInt8}
    (hencode : encode tag contents = some octets) (rest : List UInt8) :
    decodeAs tag (octets ++ rest) = some (contents, rest) := by
  rw [decodeAs, decode_encode hencode]
  exact if_pos rfl

/-- Contents of one length are encoded alike but for themselves. -/
theorem encode_eq_some_iff {tag : UInt8} {contents octets : List UInt8} :
    encode tag contents = some octets ↔
      ∃ lengthOctets, encodeLength contents.length = some lengthOctets ∧
        octets = tag :: (lengthOctets ++ contents) := by
  rw [encode, Option.map_eq_some_iff]
  exact exists_congr fun _ ↦ and_congr_right fun _ ↦ eq_comm

/-! ### Integers -/

/-- The octets that an integer is written in, with room for its sign. -/
def signedWidth : ℤ → ℕ
  | .ofNat value => (value.log2 + 1) / 8 + 1
  | .negSucc value => (value.log2 + 1) / 8 + 1

/-- An integer in two's complement. -/
def integerOctets (value : ℤ) : List UInt8 :=
  toBytes (signedWidth value) (value % 256 ^ signedWidth value).toNat

/-- The integer that octets are in two's complement. -/
def integerOf (octets : List UInt8) : ℤ :=
  if 256 ^ octets.length ≤ 2 * fromBytes octets then
    fromBytes octets - 256 ^ octets.length
  else
    fromBytes octets

/-- Half of what the octets have room for is above the number. -/
theorem two_mul_lt_pow {value width : ℕ} (hwidth : width = (value.log2 + 1) / 8 + 1) :
    2 * value < 256 ^ width := by
  calc 2 * value < 2 * 2 ^ (value.log2 + 1) := by
        have hlog : value < 2 ^ (value.log2 + 1) := Nat.lt_log2_self
        omega
    _ = 2 ^ (value.log2 + 2) := by rw [← pow_succ']
    _ ≤ 2 ^ (8 * width) := Nat.pow_le_pow_right (by decide) (by omega)
    _ = 256 ^ width := by rw [pow_mul]; norm_num

theorem integerOf_integerOctets (value : ℤ) : integerOf (integerOctets value) = value := by
  have hpos : (0 : ℤ) < 256 ^ signedWidth value := by positivity
  have hread : ((fromBytes (integerOctets value) : ℕ) : ℤ) = value % 256 ^ signedWidth value := by
    have hlt : (value % 256 ^ signedWidth value).toNat < 256 ^ signedWidth value := by
      zify
      rw [Int.toNat_of_nonneg (Int.emod_nonneg _ hpos.ne')]
      exact Int.emod_lt_of_pos _ hpos
    rw [integerOctets, fromBytes_toBytes hlt, Int.toNat_of_nonneg (Int.emod_nonneg _ hpos.ne')]
  have hlength : (integerOctets value).length = signedWidth value := length_toBytes _ _
  have hcond : 256 ^ (integerOctets value).length ≤ 2 * fromBytes (integerOctets value) ↔
      (256 : ℤ) ^ signedWidth value ≤ 2 * (value % 256 ^ signedWidth value) := by
    rw [hlength, ← hread]
    norm_cast
  rw [integerOf, if_congr hcond rfl rfl, hread, hlength]
  cases value with
  | ofNat value =>
    have hhalf : (2 * value : ℤ) < 256 ^ signedWidth (.ofNat value) := by
      exact_mod_cast two_mul_lt_pow rfl
    have hmod : (Int.ofNat value) % 256 ^ signedWidth (.ofNat value) = value :=
      Int.emod_eq_of_lt (Int.natCast_nonneg _) (by push_cast [Int.ofNat_eq_natCast] at *; omega)
    rw [hmod, if_neg (by omega)]
    rfl
  | negSucc value =>
    have hhalf : (2 * value : ℤ) < 256 ^ signedWidth (.negSucc value) := by
      exact_mod_cast two_mul_lt_pow rfl
    have hvalue : Int.negSucc value = -(value + 1) := Int.negSucc_eq value
    have heven : (256 : ℤ) ^ signedWidth (.negSucc value) =
        2 * (128 * 256 ^ ((value.log2 + 1) / 8)) := by
      rw [signedWidth, pow_succ]
      ring
    have hmod : Int.negSucc value % 256 ^ signedWidth (.negSucc value) =
        256 ^ signedWidth (.negSucc value) - (value + 1) := by
      rw [← Int.add_emod_right, Int.emod_eq_of_lt (by omega) (by omega)]
      omega
    rw [hmod, if_pos (by omega)]
    omega

/-! ### Object identifiers -/

/-- An arc in septets of which every one but the last has the high bit. -/
def septets : ℕ → ℕ → List UInt8
  | 0, _ => []
  | 1, value => [UInt8.ofNat value]
  | width + 2, value =>
    UInt8.ofNat (128 + value / 128 ^ (width + 1)) :: septets (width + 1) (value % 128 ^ (width + 1))

/-- An arc in as few septets as it takes. -/
def arcOctets (arc : ℕ) : List UInt8 :=
  septets (arc.log2 / 7 + 1) arc

/-- The arcs that octets are, after the septets of one that has been begun. -/
def arcsOf (begun : ℕ) : List UInt8 → Option (List ℕ)
  | [] => if begun = 0 then some [] else none
  | octet :: octets =>
    if octet.toNat < 128 then
      (arcsOf 0 octets).map ((128 * begun + octet.toNat) :: ·)
    else
      arcsOf (128 * begun + (octet.toNat - 128)) octets

/-- The contents of an object identifier, which has two arcs at least. -/
def oidOctets : List ℕ → Option (List UInt8)
  | first :: second :: arcs =>
    if first < 2 ∧ second < 40 ∨ first = 2 then
      some (((40 * first + second) :: arcs).flatMap arcOctets)
    else
      none
  | _ => none

/-- The object identifier that contents are. -/
def oidOf (contents : List UInt8) : Option (List ℕ) :=
  match arcsOf 0 contents with
  | some (number :: arcs) =>
    some (if number < 40 then 0 :: number :: arcs
      else if number < 80 then 1 :: (number - 40) :: arcs
      else 2 :: (number - 80) :: arcs)
  | _ => none

theorem arcsOf_septets (width value begun : ℕ) (rest : List UInt8)
    (hvalue : value < 128 ^ (width + 1)) :
    arcsOf begun (septets (width + 1) value ++ rest) =
      (arcsOf 0 rest).map ((128 ^ (width + 1) * begun + value) :: ·) := by
  induction width generalizing value begun with
  | zero =>
    have hoctet : (UInt8.ofNat value).toNat = value := toNat_ofNat (by omega)
    rw [septets, List.singleton_append, arcsOf, hoctet, if_pos (by omega)]
    rfl
  | succ width ih =>
    have hpos : 0 < 128 ^ (width + 1) := Nat.pow_pos (by decide)
    have hhead : value / 128 ^ (width + 1) < 128 := by
      rw [Nat.div_lt_iff_lt_mul hpos, mul_comm, ← pow_succ]
      exact hvalue
    have hoctet : (UInt8.ofNat (128 + value / 128 ^ (width + 1))).toNat =
        128 + value / 128 ^ (width + 1) := toNat_ofNat (by omega)
    have hlast : ¬ 128 + value / 128 ^ (width + 1) < 128 := Nat.not_lt.mpr (Nat.le_add_right _ _)
    rw [septets, List.cons_append, arcsOf, hoctet, if_neg hlast,
      ih _ _ (Nat.mod_lt value hpos)]
    have hsum : 128 ^ (width + 1) * (128 * begun + (128 + value / 128 ^ (width + 1) - 128)) +
        value % 128 ^ (width + 1) = 128 ^ (width + 1 + 1) * begun + value := by
      have hdiv := Nat.div_add_mod value (128 ^ (width + 1))
      rw [Nat.add_sub_cancel_left, pow_succ (n := width + 1)]
      linarith
    rw [hsum]

theorem arcsOf_arcOctets (arc : ℕ) (rest : List UInt8) :
    arcsOf 0 (arcOctets arc ++ rest) = (arcsOf 0 rest).map (arc :: ·) := by
  have harc : arc < 128 ^ (arc.log2 / 7 + 1) := by
    calc arc < 2 ^ (arc.log2 + 1) := Nat.lt_log2_self
      _ ≤ 2 ^ (7 * (arc.log2 / 7 + 1)) := Nat.pow_le_pow_right (by decide) (by omega)
      _ = 128 ^ (arc.log2 / 7 + 1) := by rw [pow_mul]; norm_num
  rw [arcOctets, arcsOf_septets _ _ _ _ harc, mul_zero, zero_add]

theorem arcsOf_flatMap (arcs : List ℕ) : arcsOf 0 (arcs.flatMap arcOctets) = some arcs := by
  induction arcs with
  | nil => rfl
  | cons arc arcs ih => rw [List.flatMap_cons, arcsOf_arcOctets, ih, Option.map_some]

theorem oidOf_oidOctets {oid : List ℕ} {contents : List UInt8}
    (hcontents : oidOctets oid = some contents) : oidOf contents = some oid := by
  match oid, hcontents with
  | first :: second :: arcs, hcontents =>
    simp only [oidOctets] at hcontents
    split_ifs at hcontents with harcs
    obtain rfl := Option.some.inj hcontents
    rw [oidOf, arcsOf_flatMap]
    simp only [Option.some.injEq]
    rcases harcs with ⟨hfirst, hsecond⟩ | rfl
    · interval_cases first
      · rw [if_pos (by omega), mul_zero, zero_add]
      · rw [if_neg (by omega), if_pos (by omega), mul_one, Nat.add_sub_cancel_left]
    · rw [if_neg (by omega), if_neg (by omega), Nat.add_sub_cancel_left]

end Pysnmp.Foundation.Ber
