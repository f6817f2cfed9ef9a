import Pysnmp.Foundation.LongestPrefix
import Pysnmp.Smi.ViewIndex

/-!
# Labels as stems and names

The pass of `indexMib` puts in front of the name of a symbol what it takes for the label of the
parent. Which object identifier that is depends on the one before in the order (`parentOf`): it is
the one before, where that is one number shorter; its parent, where both are of one length; and the
object identifier without its last number, where the one before is longer. Its label is that of its
longest prefix in the index with the remaining numbers (`stem`).

Where no object identifier is too long for the one before (`Structured`), labels made of these stems
have one member for each number (`Follows.length_eq`) and extend each other as the object
identifiers do (`Follows.label_prefix`), and they differ unless two symbols of one name have one
parent (`Follows.injective`).
-/

set_option autoImplicit false
set_option relaxedAutoImplicit false

namespace Pysnmp.Smi.LabelStems

open Foundation Proto ViewIndex PrefixOrder

/-! ### Node names -/

/-- The name ends in the name of a symbol. -/
def EndsInName (nodeName : NodeName) : Prop :=
  ∃ before symName, nodeName = before ++ symbolLabel symName

/-- A name in arcs is as long as its OID. -/
@[simp] theorem length_arcs (oid : Oid) : (arcs oid).length = oid.length :=
  List.length_map _

/-- The label of a symbol is one part of a name. -/
@[simp] theorem length_symbolLabel (symName : SymbolName) : (symbolLabel symName).length = 1 :=
  rfl

/-- Arcs are written one after the other. -/
theorem arcs_append (first second : Oid) : arcs (first ++ second) = arcs first ++ arcs second :=
  List.map_append

/-- The arcs of a name give its OID back. -/
theorem arcs_injective : Function.Injective arcs :=
  List.map_injective_iff.mpr fun _ _ heq ↦ NamePart.arc.inj heq

/-- A name that is all arcs is its own OID. -/
theorem oidOf_arcs (oid : Oid) : oidOf (arcs oid) = some oid := by
  rw [oidOf, arcs, List.mapM_map]
  exact List.mapM_pure.trans (congrArg some (List.map_id oid))

/-- What ends in an arc does not end in a name. -/
theorem not_endsInName_append_arc (before : NodeName) (number : ℕ) :
    ¬ EndsInName (before ++ [.arc number]) := by
  rintro ⟨other, symName, heq⟩
  cases (List.append_inj_right' heq rfl : [NamePart.arc number] = symbolLabel symName)

/-- A name that is all arcs ends in none. -/
theorem not_endsInName_arcs (oid : Oid) : ¬ EndsInName (arcs oid) := by
  rcases List.eq_nil_or_concat oid with rfl | ⟨before, last, rfl⟩
  · rintro ⟨other, symName, heq⟩
    cases other <;> cases heq
  · rw [List.concat_eq_append, arcs_append]
    exact not_endsInName_append_arc (arcs before) last

/-- No number is printed as the name of a symbol. -/
theorem not_endsInName_append_str (before : NodeName) (number : ℕ) :
    ¬ EndsInName (before ++ [NamePart.str (.arc number)]) := by
  rintro ⟨other, symName, heq⟩
  have hlast : [NamePart.str (.arc number)] = symbolLabel symName := List.append_inj_right' heq rfl
  have htext : toString number = symName.text := NamePart.text.inj (List.cons.inj hlast).1
  obtain ⟨char, hmem, hchar⟩ := symName.has_nondigit
  rw [← htext, Nat.toString_eq_repr, Nat.toList_repr] at hmem
  rw [Nat.isDigit_of_mem_toDigits (by decide) (by decide) hmem] at hchar
  cases hchar

/-- A label and the numbers after it can be told apart. -/
theorem eq_of_append_arcs {first second : NodeName} {firstRest secondRest : Oid}
    (hfirst : EndsInName first) (hsecond : EndsInName second)
    (heq : first ++ arcs firstRest = second ++ arcs secondRest) :
    first = second ∧ firstRest = secondRest := by
  have hshort : ∀ {one other : NodeName} {oneRest otherRest : Oid}, EndsInName other →
      one ++ arcs oneRest = other ++ arcs otherRest → other.length ≤ one.length := by
    intro one other oneRest otherRest hother heq
    by_contra hlt
    obtain ⟨middle, rfl⟩ := List.prefix_of_prefix_length_le (List.prefix_append one (arcs oneRest))
      (heq ▸ List.prefix_append other (arcs otherRest)) (not_le.mp hlt).le
    rw [List.append_assoc, List.append_cancel_left_eq] at heq
    obtain ⟨numbers, -, hrest, hmiddle, -⟩ := List.map_eq_append_iff.mp heq
    rcases List.eq_nil_or_concat numbers with rfl | ⟨before, last, rfl⟩
    · rw [← hmiddle, List.map_nil, List.append_nil] at hlt
      exact hlt le_rfl
    · rw [← hmiddle, List.concat_eq_append, List.map_append, ← List.append_assoc] at hother
      exact not_endsInName_append_arc _ last hother
  have hlength : first.length = second.length :=
    le_antisymm (hshort hfirst heq.symm) (hshort hsecond heq)
  obtain ⟨hlabel, hrest⟩ := List.append_inj heq hlength
  exact ⟨hlabel, arcs_injective hrest⟩

/-! ### Stems -/

/-- The label of the longest prefix in the index, with the remaining numbers. -/
def stem (index : Oid → Option NodeName) (oid : Oid) : NodeName :=
  match longestPrefix (fun key ↦ (index key).isSome) oid with
  | some (key, rest) => (index key).getD [] ++ arcs rest
  | none => []

variable {index : Oid → Option NodeName} {oid key : Oid} {label : NodeName}

/-- The empty OID has an empty stem. -/
@[simp] theorem stem_nil : stem index [] = [] :=
  rfl

/-- The stem is the label of the longest known prefix, followed by the arcs below it. -/
theorem stem_of_isLongestPrefix
    (hkey : IsLongestPrefix (fun key ↦ (index key).isSome) oid key)
    (hlabel : index key = some label) :
    stem index oid = label ++ arcs (oid.drop key.length) := by
  obtain ⟨rest, rfl⟩ := hkey.begins
  rw [stem, longestPrefix_eq_some_iff.mpr ⟨hkey, rfl⟩, List.drop_left]
  simp only [hlabel, Option.getD_some]

/-- An OID with a label of its own has that label for its stem. -/
theorem stem_self (hne : oid ≠ []) (hlabel : index oid = some label) : stem index oid = label := by
  have hself : IsLongestPrefix (fun key ↦ (index key).isSome) oid oid :=
    isLongestPrefix_self hne (by rw [hlabel]; rfl)
  rw [stem_of_isLongestPrefix hself hlabel, List.drop_length]
  exact List.append_nil label

/-- A stem reads the index at the prefixes only. -/
theorem stem_congr {other : Oid → Option NodeName}
    (hagree : ∀ key, key <+: oid → index key = other key) :
    stem index oid = stem other oid := by
  rw [stem, stem, longestPrefix_congr fun key hbegins ↦ by rw [hagree key hbegins]]
  cases hfound : longestPrefix (fun key ↦ ((other key).isSome : Prop)) oid with
  | none => rfl
  | some found =>
    obtain ⟨hlongest, -⟩ := longestPrefix_eq_some_iff.mp hfound
    simp only [hagree found.1 hlongest.begins]

/-- Below a known OID there is a longest known prefix. -/
theorem exists_isLongestPrefix (hne : key ≠ []) (hkey : (index key).isSome)
    (hbegins : key <+: oid) :
    ∃ longest label, IsLongestPrefix (fun key ↦ (index key).isSome) oid longest ∧
      index longest = some label := by
  cases hfound : longestPrefix (fun key ↦ ((index key).isSome : Prop)) oid with
  | none => exact absurd hbegins (longestPrefix_eq_none_iff.mp hfound key hne hkey)
  | some found =>
    obtain ⟨hlongest, -⟩ := longestPrefix_eq_some_iff.mp hfound
    obtain ⟨label, hlabel⟩ := Option.isSome_iff_exists.mp hlongest.mem
    exact ⟨found.1, label, hlongest, hlabel⟩

/-- The `while` loop finds the stem of the key without its last number. -/
theorem gapLabel_eq_stem (labels : OidOrderedDict NodeName) (key : Oid) :
    gapLabel labels key (key.length - 1) = stem labels.get? key.dropLast := by
  have hloop : ∀ i ≤ key.length - 1, gapLabel labels key i =
      match longestPrefix (fun key ↦ (labels.get? key).isSome) (key.take i) with
      | some (found, rest) => (labels.get? found).getD [] ++ arcs (rest ++ key.dropLast.drop i)
      | none => [] := by
    intro i
    induction i with
    | zero =>
      intro _
      rfl
    | succ i ih =>
      intro hi
      have hlt : i < key.length := by omega
      rw [gapLabel, List.take_succ_eq_append_getElem hlt, longestPrefix_concat]
      cases hlabel : labels.get? (key.take i ++ [key[i]]) with
      | some label =>
        rw [if_pos Option.isSome_some]
        simp only [hlabel, Option.getD_some, List.nil_append]
        split_ifs with hend
        · rfl
        · rw [List.drop_eq_nil_of_le (by rw [List.length_dropLast]; omega)]
          exact (List.append_nil label).symm
      | none =>
        rw [if_neg (by simp)]
        simp only [ih (by omega)]
        cases longestPrefix (fun key ↦ ((labels.get? key).isSome : Prop)) (key.take i) with
        | none => rfl
        | some found =>
          have hdrop : key.dropLast.drop i = key[i] :: key.dropLast.drop (i + 1) := by
            rw [List.drop_eq_getElem_cons (by rw [List.length_dropLast]; omega),
              List.getElem_dropLast]
          simp only [Option.map_some, hdrop, List.append_assoc, List.singleton_append]
  rw [hloop _ le_rfl, stem, ← List.dropLast_eq_take]
  cases longestPrefix (fun key ↦ ((labels.get? key).isSome : Prop)) key.dropLast with
  | none => rfl
  | some found =>
    rw [List.drop_eq_nil_of_le (by rw [List.length_dropLast])]
    simp only [List.append_nil]

/-! ### Parents -/

/-- The object identifier whose label the pass takes for that of the parent of the first of these,
which are listed downwards. -/
def parentOf : List Oid → Oid
  | [] => []
  | [_] => []
  | oid :: prevOid :: earlier =>
    if prevOid.length < oid.length then prevOid
    else if oid.length < prevOid.length then oid.dropLast
    else parentOf (prevOid :: earlier)

/-- The first object identifier has one number, each other one at most one more than the one before
it, and one that is shorter than that has a proper prefix among those before, if it has more than
one number. The object identifiers are listed downwards. -/
def Structured : List Oid → Prop
  | [] => True
  | [oid] => oid.length = 1
  | oid :: prevOid :: earlier =>
    Structured (prevOid :: earlier) ∧ oid.length ≤ prevOid.length + 1 ∧
      (oid.length < prevOid.length →
        oid.length = 1 ∨ ∃ other ∈ prevOid :: earlier, other ≠ [] ∧ other <+: oid)

/-- Checking one object identifier after the other. -/
def decideStructured : (oids : List Oid) → Decidable (Structured oids)
  | [] => .isTrue trivial
  | [oid] => inferInstanceAs (Decidable (oid.length = 1))
  | _ :: prevOid :: earlier =>
    let _ := decideStructured (prevOid :: earlier)
    inferInstanceAs (Decidable (_ ∧ _ ∧ _))

instance : DecidablePred Structured :=
  decideStructured

variable {earlier oids : List Oid} {other prevOid : Oid}

/-- A list of OIDs stays structured without its first one. -/
theorem Structured.tail (hstructured : Structured (oid :: earlier)) : Structured earlier := by
  cases earlier with
  | nil => trivial
  | cons prevOid earlier => exact hstructured.1

/-- What comes before in a structured list is structured. -/
theorem Structured.of_suffix (hstructured : Structured oids) (hsuffix : earlier <:+ oids) :
    Structured earlier := by
  obtain ⟨later, rfl⟩ := hsuffix
  induction later with
  | nil => exact hstructured
  | cons oid later ih => exact ih hstructured.tail

/-- The parent is one number shorter. -/
theorem Structured.length_parentOf (hstructured : Structured (oid :: earlier)) :
    (parentOf (oid :: earlier)).length + 1 = oid.length := by
  induction earlier generalizing oid with
  | nil =>
    have hlength : oid.length = 1 := hstructured
    rw [hlength]
    rfl
  | cons prevOid earlier ih =>
    obtain ⟨hprev, hle, hgap⟩ := hstructured
    rw [parentOf]
    split_ifs with hlt hgt
    · omega
    · have hpos : 0 < oid.length := by
        rcases hgap hgt with hone | ⟨other, -, hne, hbegins⟩
        · omega
        · exact (List.length_pos_of_ne_nil hne).trans_le hbegins.length_le
      rw [List.length_dropLast]
      omega
    · rw [ih hprev]
      omega

/-- The empty OID is in no structured list. -/
theorem Structured.ne_nil (hstructured : Structured (oid :: earlier)) : oid ≠ [] := by
  rintro rfl
  exact absurd hstructured.length_parentOf (Nat.succ_ne_zero _)

/-- The parent comes before. -/
theorem parentOf_lt (hsorted : (oid :: earlier).Pairwise (· > ·)) (hne : oid ≠ []) :
    parentOf (oid :: earlier) < oid := by
  induction earlier generalizing oid with
  | nil =>
    obtain ⟨head, tail, rfl⟩ := List.exists_cons_of_ne_nil hne
    exact List.nil_lt_cons head tail
  | cons prevOid earlier ih =>
    obtain ⟨hbefore, hsorted⟩ := List.pairwise_cons.mp hsorted
    have hlt : prevOid < oid := hbefore prevOid List.mem_cons_self
    rw [parentOf]
    split_ifs with hshort hlong
    · exact hlt
    · refine lt_of_le_of_ne (PrefixOrder.le_of_prefix (List.dropLast_prefix oid)) fun heq ↦ ?_
      have hlength := congrArg List.length heq
      rw [List.length_dropLast] at hlength
      have hpos := List.length_pos_of_ne_nil hne
      omega
    · have hprev : prevOid ≠ [] := by
        rintro rfl
        exact hshort (List.length_pos_of_ne_nil hne)
      exact (ih hsorted hprev).trans hlt

/-- A proper prefix is a prefix of the parent. -/
theorem prefix_dropLast (hbegins : other <+: oid) (hne : other ≠ oid) : other <+: oid.dropLast := by
  rcases List.eq_nil_or_concat oid with rfl | ⟨before, last, rfl⟩
  · exact hbegins
  · rw [List.concat_eq_append] at hbegins hne ⊢
    rw [List.dropLast_concat]
    exact (List.prefix_concat_iff.mp hbegins).resolve_left hne

/-- A prefix that comes before the one before is a prefix of that, too. -/
theorem prefix_of_le_of_lt (hle : other ≤ prevOid) (hlt : prevOid < oid) (hbegins : other <+: oid) :
    other <+: prevOid := by
  by_contra hnot
  have hother : other < prevOid := lt_of_le_of_ne hle fun heq ↦ hnot (heq ▸ List.prefix_refl _)
  exact lt_asymm hlt (PrefixOrder.lt_of_lt_of_not_prefix hother hnot hbegins (List.prefix_refl _))

/-- Every prefix among those before is a prefix of the parent. -/
theorem prefix_parentOf (hsorted : (oid :: earlier).Pairwise (· > ·)) (hother : other ∈ earlier)
    (hbegins : other <+: oid) : other <+: parentOf (oid :: earlier) := by
  induction earlier generalizing oid with
  | nil => cases hother
  | cons prevOid earlier ih =>
    obtain ⟨hbefore, hsorted⟩ := List.pairwise_cons.mp hsorted
    have hlt : prevOid < oid := hbefore prevOid List.mem_cons_self
    have hle : other ≤ prevOid := by
      rcases List.mem_cons.mp hother with rfl | hearlier
      · exact le_rfl
      · exact ((List.pairwise_cons.mp hsorted).1 other hearlier).le
    have hprev : other <+: prevOid := prefix_of_le_of_lt hle hlt hbegins
    rw [parentOf]
    split_ifs with hshort hlong
    · exact hprev
    · exact prefix_dropLast hbegins (hle.trans_lt hlt).ne
    · have hne : other ≠ prevOid := by
        rintro rfl
        have hlength : other.length = oid.length := by omega
        exact hlt.ne (hbegins.eq_of_length hlength)
      exact ih hsorted ((List.mem_cons.mp hother).resolve_left hne) hprev

/-- The parent is empty or has a prefix among those before. -/
theorem Structured.exists_prefix_parentOf (hstructured : Structured (oid :: earlier))
    (hsorted : (oid :: earlier).Pairwise (· > ·)) :
    parentOf (oid :: earlier) = [] ∨
      ∃ other ∈ earlier, other ≠ [] ∧ other <+: parentOf (oid :: earlier) := by
  induction earlier generalizing oid with
  | nil => exact Or.inl rfl
  | cons prevOid earlier ih =>
    obtain ⟨hprev, -, hgap⟩ := hstructured
    obtain ⟨hbefore, hprevSorted⟩ := List.pairwise_cons.mp hsorted
    rw [parentOf]
    split_ifs with hshort hlong
    · exact Or.inr ⟨prevOid, List.mem_cons_self, hprev.ne_nil, List.prefix_refl _⟩
    · rcases hgap hlong with hone | ⟨other, hother, hne, hbegins⟩
      · exact Or.inl (List.eq_nil_of_length_eq_zero (by rw [List.length_dropLast, hone]))
      · exact Or.inr ⟨other, hother, hne, prefix_dropLast hbegins (hbefore other hother).ne⟩
    · rcases ih hprev hprevSorted with hnil | ⟨other, hother, hfound⟩
      · exact Or.inl hnil
      · exact Or.inr ⟨other, List.mem_cons_of_mem _ hother, hfound⟩

/-! ### Labels of stems and names -/

/-- The labels of the object identifiers, which are listed downwards, are the stems of their parents
with their names. -/
def Follows (names : Oid → Option SymbolName) (index : Oid → Option NodeName) (oids : List Oid) :
    Prop :=
  ∀ oid earlier, oid :: earlier <:+ oids → ∃ symName, names oid = some symName ∧
    index oid = some (stem index (parentOf (oid :: earlier)) ++ symbolLabel symName)

/-- The object identifiers, listed downwards, are those of the index up to some point. -/
structure IsInitial (index : Oid → Option NodeName) (oids : List Oid) : Prop where
  sorted : oids.Pairwise (· > ·)
  mem : ∀ oid ∈ oids, ∀ other, (index other).isSome → other < oid → other ∈ oids

variable {names : Oid → Option SymbolName}

/-- Every OID of the list was the latest at some time. -/
theorem exists_suffix_of_mem (hmem : oid ∈ oids) : ∃ earlier, oid :: earlier <:+ oids := by
  obtain ⟨later, earlier, rfl⟩ := List.append_of_mem hmem
  exact ⟨earlier, List.suffix_append later _⟩

/-- OIDs that sort before another one were indexed earlier. -/
theorem IsInitial.mem_earlier (hinitial : IsInitial index oids) (hsuffix : oid :: earlier <:+ oids)
    (hother : (index other).isSome) (hlt : other < oid) : other ∈ earlier := by
  have hmem := hinitial.mem oid (hsuffix.subset List.mem_cons_self) other hother hlt
  obtain ⟨later, rfl⟩ := hsuffix
  rcases List.mem_append.mp hmem with hlater | hhere
  · exact absurd hlt ((List.pairwise_append.mp hinitial.sorted).2.2 other hlater oid
      List.mem_cons_self).asymm
  · exact (List.mem_cons.mp hhere).resolve_left hlt.ne

/-- The OIDs indexed so far are sorted, the latest first. -/
theorem IsInitial.sorted_suffix (hinitial : IsInitial index oids) (hsuffix : earlier <:+ oids) :
    earlier.Pairwise (· > ·) :=
  hinitial.sorted.sublist hsuffix.sublist

/-- An index that follows all its OIDs follows the earlier ones. -/
theorem Follows.of_suffix (hfollows : Follows names index oids) (hsuffix : earlier <:+ oids) :
    Follows names index earlier :=
  fun oid before hbefore ↦ hfollows oid before (hbefore.trans hsuffix)

/-- Every OID of the list has been indexed. -/
theorem Follows.isSome (hfollows : Follows names index oids) (hmem : oid ∈ oids) :
    (index oid).isSome := by
  obtain ⟨earlier, hsuffix⟩ := exists_suffix_of_mem hmem
  obtain ⟨symName, -, hlabel⟩ := hfollows oid earlier hsuffix
  exact Option.isSome_of_eq_some hlabel

/-- What a label is made of: nothing or the label of a shorter object identifier, the remaining
numbers of the parent, and the name. -/
theorem Follows.stem_parentOf (hfollows : Follows names index oids)
    (hinitial : IsInitial index oids) (hstructured : Structured oids)
    (hsuffix : oid :: earlier <:+ oids) :
    parentOf (oid :: earlier) = [] ∨ ∃ longest ∈ earlier, ∃ label, index longest = some label ∧
      IsLongestPrefix (fun key ↦ (index key).isSome) (parentOf (oid :: earlier)) longest ∧
      stem index (parentOf (oid :: earlier)) =
        label ++ arcs ((parentOf (oid :: earlier)).drop longest.length) := by
  have hhere := hstructured.of_suffix hsuffix
  have hsorted := hinitial.sorted_suffix hsuffix
  rcases hhere.exists_prefix_parentOf hsorted with hnil | ⟨other, hother, hne, hbegins⟩
  · exact Or.inl hnil
  · have hsome := hfollows.isSome (hsuffix.subset (List.mem_cons_of_mem _ hother))
    obtain ⟨longest, label, hlongest, hlabel⟩ := exists_isLongestPrefix hne hsome hbegins
    have hlt : longest < oid :=
      (PrefixOrder.le_of_prefix hlongest.begins).trans_lt (parentOf_lt hsorted hhere.ne_nil)
    exact Or.inr ⟨longest, hinitial.mem_earlier hsuffix hlongest.mem hlt, label, hlabel, hlongest,
      stem_of_isLongestPrefix hlongest hlabel⟩

/-- A label has one member for each number. -/
theorem Follows.length_eq (hfollows : Follows names index oids) (hinitial : IsInitial index oids)
    (hstructured : Structured oids) (hmem : oid ∈ oids) (hlabel : index oid = some label) :
    label.length = oid.length := by
  induction hsize : oid.length using Nat.strong_induction_on generalizing oid label with
  | h size ih =>
    obtain ⟨earlier, hsuffix⟩ := exists_suffix_of_mem hmem
    obtain ⟨symName, -, hmade⟩ := hfollows oid earlier hsuffix
    have hparent := (hstructured.of_suffix hsuffix).length_parentOf
    have hstem : (stem index (parentOf (oid :: earlier))).length =
        (parentOf (oid :: earlier)).length := by
      rcases hfollows.stem_parentOf hinitial hstructured hsuffix with
        hnil | ⟨longest, hlongestMem, found, hfound, hlongest, hstem⟩
      · rw [hnil, stem_nil, List.length_nil, List.length_nil]
      · have hle := hlongest.begins.length_le
        rw [hstem, List.length_append, length_arcs, List.length_drop,
          ih longest.length (by omega) (hsuffix.subset (List.mem_cons_of_mem _ hlongestMem)) hfound
            rfl]
        omega
    obtain rfl := Option.some.inj (hmade.symm.trans hlabel)
    rw [List.length_append, hstem, length_symbolLabel]
    omega

/-- Labels extend each other as the object identifiers do. -/
theorem Follows.label_prefix (hfollows : Follows names index oids)
    (hinitial : IsInitial index oids) (hstructured : Structured oids) (hmem : oid ∈ oids)
    (hlabel : index oid = some label) {otherLabel : NodeName}
    (hother : index other = some otherLabel)
    (hne : other ≠ []) (hbegins : other <+: oid) : otherLabel <+: label := by
  induction hsize : oid.length using Nat.strong_induction_on generalizing oid label with
  | h size ih =>
    rcases eq_or_ne other oid with rfl | hproper
    · rw [Option.some.inj (hother.symm.trans hlabel)]
    obtain ⟨earlier, hsuffix⟩ := exists_suffix_of_mem hmem
    obtain ⟨symName, -, hmade⟩ := hfollows oid earlier hsuffix
    have hhere := hstructured.of_suffix hsuffix
    have hlt : other < oid := lt_of_le_of_ne (PrefixOrder.le_of_prefix hbegins) hproper
    have hsome : (index other).isSome := Option.isSome_of_eq_some hother
    have hparent : other <+: parentOf (oid :: earlier) :=
      prefix_parentOf (hinitial.sorted_suffix hsuffix) (hinitial.mem_earlier hsuffix hsome hlt)
        hbegins
    obtain rfl := Option.some.inj (hmade.symm.trans hlabel)
    refine List.IsPrefix.trans ?_ (List.prefix_append _ (symbolLabel symName))
    rcases hfollows.stem_parentOf hinitial hstructured hsuffix with
      hnil | ⟨longest, hlongestMem, found, hfound, hlongest, hstem⟩
    · exact absurd (List.prefix_nil.mp (hnil ▸ hparent)) hne
    · have hshort : longest.length < oid.length := by
        have hle := hlongest.begins.length_le
        have hlength := hhere.length_parentOf
        omega
      have hlongestBegins : other <+: longest :=
        List.prefix_of_prefix_length_le hparent hlongest.begins
          (hlongest.longest other hsome hparent)
      rw [hstem]
      exact (ih longest.length (hsize ▸ hshort)
        (hsuffix.subset (List.mem_cons_of_mem _ hlongestMem)) hfound hlongestBegins rfl).trans
        (List.prefix_append _ _)

/-- No two object identifiers with one parent have one name. The object identifiers are listed
downwards. -/
def NamesApart (names : Oid → Option SymbolName) (oids : List Oid) : Prop :=
  ∀ first firstEarlier second secondEarlier, first :: firstEarlier <:+ oids →
    second :: secondEarlier <:+ oids →
    parentOf (first :: firstEarlier) = parentOf (second :: secondEarlier) →
    names first = names second → first = second

/-- A label that was given to an OID ends in a name. -/
theorem Follows.endsInName (hfollows : Follows names index oids) (hmem : oid ∈ oids)
    (hlabel : index oid = some label) : EndsInName label := by
  obtain ⟨earlier, hsuffix⟩ := exists_suffix_of_mem hmem
  obtain ⟨symName, -, hmade⟩ := hfollows oid earlier hsuffix
  exact ⟨_, symName, Option.some.inj (hlabel.symm.trans hmade)⟩

/-- The label of a symbol says which symbol it is. -/
theorem symbolLabel_injective : Function.Injective symbolLabel := by
  rintro ⟨first, hfirst⟩ ⟨second, hsecond⟩ heq
  cases NamePart.text.inj (List.cons.inj heq).1
  rfl

/-- The labels differ where the names under each parent do. -/
theorem Follows.injective (hfollows : Follows names index oids) (hinitial : IsInitial index oids)
    (hstructured : Structured oids) (hnames : NamesApart names oids) {first second : Oid}
    (hfirst : first ∈ oids) (hsecond : second ∈ oids) (hfirstLabel : index first = some label)
    (hsecondLabel : index second = some label) : first = second := by
  induction hsize : first.length using Nat.strong_induction_on
    generalizing first second label with
  | h size ih =>
    obtain ⟨firstEarlier, hfirstSuffix⟩ := exists_suffix_of_mem hfirst
    obtain ⟨secondEarlier, hsecondSuffix⟩ := exists_suffix_of_mem hsecond
    obtain ⟨firstName, hfirstName, hfirstMade⟩ := hfollows first firstEarlier hfirstSuffix
    obtain ⟨secondName, hsecondName, hsecondMade⟩ := hfollows second secondEarlier hsecondSuffix
    obtain ⟨hstems, hlast⟩ := List.append_inj'
      (Option.some.inj ((hfirstMade.symm.trans hfirstLabel).trans
        (hsecondLabel.symm.trans hsecondMade))) rfl
    have hsame : first.length = second.length :=
      (hfollows.length_eq hinitial hstructured hfirst hfirstLabel).symm.trans
        (hfollows.length_eq hinitial hstructured hsecond hsecondLabel)
    have hfirstParent := (hstructured.of_suffix hfirstSuffix).length_parentOf
    have hsecondParent := (hstructured.of_suffix hsecondSuffix).length_parentOf
    refine hnames first firstEarlier second secondEarlier hfirstSuffix hsecondSuffix ?_
      (by rw [hfirstName, hsecondName, symbolLabel_injective hlast])
    rcases hfollows.stem_parentOf hinitial hstructured hfirstSuffix with
      hfirstNil | ⟨firstLongest, hfirstMem, firstFound, hfirstFound, hfirstBest, hfirstStem⟩
    · rw [hfirstNil, List.length_nil] at hfirstParent
      rw [hfirstNil, List.eq_nil_of_length_eq_zero (by omega :
        (parentOf (second :: secondEarlier)).length = 0)]
    rcases hfollows.stem_parentOf hinitial hstructured hsecondSuffix with
      hsecondNil | ⟨secondLongest, hsecondMem, secondFound, hsecondFound, hsecondBest, hsecondStem⟩
    · rw [hsecondNil, List.length_nil] at hsecondParent
      rw [hsecondNil, List.eq_nil_of_length_eq_zero (by omega :
        (parentOf (first :: firstEarlier)).length = 0)]
    have hfirstLongest := hfirstSuffix.subset (List.mem_cons_of_mem first hfirstMem)
    have hsecondLongest := hsecondSuffix.subset (List.mem_cons_of_mem second hsecondMem)
    rw [hfirstStem, hsecondStem] at hstems
    obtain ⟨rfl, hrest⟩ := eq_of_append_arcs (hfollows.endsInName hfirstLongest hfirstFound)
      (hfollows.endsInName hsecondLongest hsecondFound) hstems
    have hle := hfirstBest.begins.length_le
    obtain rfl := ih firstLongest.length (by omega) hfirstLongest hsecondLongest hfirstFound
      hsecondFound rfl
    rw [← List.prefix_iff_eq_append.mp hfirstBest.begins, hrest,
      List.prefix_iff_eq_append.mp hsecondBest.begins]

end Pysnmp.Smi.LabelStems
