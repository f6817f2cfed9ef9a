import Pysnmp.Smi.IndexOutcomes
import Pysnmp.Smi.NameResolution
import Pysnmp.Smi.ViewLabels

/-!
# The names of a response

What resolving a peer's object identifiers comes to. The caches of the rows do not show in the
result, so a resolution is a function of the view (`yields_resolveWithMib`,
`yields_unmakeVarBinds`). It stops at a name that is longer than its longest prefix by more than the
interpreter allows, at an index that raises anything but a `PyAsn1Error`, and at a column whose row
is not loaded; and of an index that is refused after others have been read, only what these left
over is kept. `resolves_iff` says that nothing else goes wrong.
-/

set_option autoImplicit false
set_option relaxedAutoImplicit false

namespace Pysnmp.Smi.NameResolution

open Foundation Foundation.Effect Proto
open IndexEncoding hiding setFromName getAsName readIndices indicesOf instIdOf
  getIndicesFromInstId getInstIdFromIndices
open IndexDecoding IndexOutcomes
open IndexRoundTrip (Call)

/-! ### Resolved names and bindings -/

/-- The symbol has the longest loaded prefix. -/
structure IsNearest (view : MibView) (oid : Oid) (symbol : MibSymbol) : Prop where
  longest : IsLongestPrefix view.IsLoaded oid symbol.name
  symbolAt : view.symbolAt symbol.name = some symbol

/-- The suffix below a column is the index of its row, all of it. -/
def Decodes (view : MibView) (symbol : MibSymbol) (suffix : Oid) : Prop :=
  ∃ clone rowNode indexNames, symbol.mibNode = .column clone ∧
    IsNearest view symbol.name.dropLast rowNode ∧ rowNode.mibNode = .row indexNames ∧
      IsRead indexNames [] (suffix.map Nat.cast)

/-- The suffix is kept as it is. -/
def KeepsRaw (suffix : Oid) (indices : Indices) : Prop :=
  indices = opaqueIndex suffix ∨ indices = .remainder (suffix.map Nat.cast)

/-- A name is resolved as an object identifier should be. -/
structure NameResolved (view : MibView) (oid : Oid) (identity : ObjectIdentity) : Prop where
  oid_eq : identity.oid = oid
  nearest : IsNearest view oid identity.symbol
  kept : ∀ suffix, identity.symbol.name ++ suffix = oid → suffix ≠ [] →
    ¬ Decodes view identity.symbol suffix → KeepsRaw suffix identity.indices

/-- A binding is resolved: its name is, and so is a value that is shown by name. -/
structure BindingResolved (view : MibView) (varBind : Oid × BindingValue)
    (resolved : ObjectType) : Prop where
  name : NameResolved view varBind.1 resolved.name
  value : ∀ identity, resolved.value = .identity identity →
    ∃ clone pointer, resolved.name.symbol.mibNode.getSyntax = some clone ∧
      castValue clone true varBind.2 = .ok (.objectIdentifier pointer) ∧
        NameResolved view pointer identity

/-- `resolveWithMib` returns a resolved name. -/
def Resolves (view : MibView) (caches : RowCaches) (oid : Oid) : Prop :=
  ∃ identity after,
    (ObjectIdentity.resolveWithMib view oid).run caches = (.ok identity, after) ∧
      NameResolved view oid identity

/-- `unmakeVarBinds` returns a resolved binding for each one. -/
def Unmakes (view : MibView) (caches : RowCaches) (varBinds : List (Oid × BindingValue)) : Prop :=
  ∃ resolved after, (unmakeVarBinds view true varBinds).run caches = (.ok resolved, after) ∧
    List.Forall₂ (BindingResolved view) varBinds resolved

/-! ### Names and bindings in order -/

/-- The symbol has the longest loaded prefix, and no more than so many numbers follow it. -/
structure IsWithin (view : MibView) (depth : ℕ) (oid : Oid) (symbol : MibSymbol) (suffix : Oid) :
    Prop where
  nearest : IsNearest view oid symbol
  append_eq : symbol.name ++ suffix = oid
  length_le : suffix.length ≤ depth

/-- No symbol has a prefix of the object identifier, of which no more than so many numbers follow
the first. -/
structure IsOutside (view : MibView) (depth : ℕ) (oid : Oid) : Prop where
  forall_not : ∀ symbol, ¬ IsNearest view oid symbol
  length_le : oid.length ≤ depth + 1

/-- What follows the prefix is no index of a row, or one of a loaded row that keeps it whole. -/
def IndexOk (view : MibView) (symbol : MibSymbol) (suffix : Oid) : Prop :=
  suffix = [] ∨ ∀ clone, symbol.mibNode = .column clone →
    ∃ rowNode rest indexNames, IsWithin view view.locationDepth symbol.name.dropLast rowNode rest ∧
      rowNode.mibNode = .row indexNames ∧ KeepsWhole indexNames (suffix.map Nat.cast)

/-- The object identifier has a loaded prefix, and nothing is wrong with what follows it. -/
def NameOk (view : MibView) (oid : Oid) : Prop :=
  ∃ symbol suffix, IsWithin view view.nameDepth oid symbol suffix ∧ IndexOk view symbol suffix

/-- The object identifier, or the row of its column, has no loaded prefix. -/
def IsUnknown (view : MibView) (oid : Oid) : Prop :=
  IsOutside view view.nameDepth oid ∨
    ∃ symbol suffix clone, IsWithin view view.nameDepth oid symbol suffix ∧ suffix ≠ [] ∧
      symbol.mibNode = .column clone ∧ symbol.name.dropLast ≠ [] ∧
        IsOutside view view.locationDepth symbol.name.dropLast

/-- The name can be resolved; and the value, if it is cast to the syntax of an object, raises at
most a `PyAsn1Error` and gives no object identifier that cannot be resolved or left alone. -/
def BindingOk (view : MibView) (varBind : Oid × BindingValue) : Prop :=
  NameOk view varBind.1 ∧ ∀ symbol clone, IsNearest view varBind.1 symbol →
    symbol.mibNode.getSyntax = some clone → isException varBind.2 = false →
      (∀ error, clone varBind.2 = .error error → error = .pyAsn1Error) ∧
        ∀ pointer, castValue clone true varBind.2 = .ok (.objectIdentifier pointer) →
          NameOk view pointer ∨ IsUnknown view pointer

/-! ### The indices of a row -/

/-- Every index reads its value, and this is left. -/
inductive ReadsTo : List Index → List Value → Arcs → Arcs → Prop
  | nil {parentIndices : List Value} {instId : Arcs} : ReadsTo [] parentIndices instId instId
  | cons {index : Index} {row : List Index} {parentIndices : List Value} {instId rest left : Arcs}
      {value : Value} (hread : index.setFromName parentIndices instId = .ok (value, rest))
      (hrest : ReadsTo row (parentIndices ++ [value]) rest left) :
      ReadsTo (index :: row) parentIndices instId left

/-- An index raises a `PyAsn1Error`, and those before it have left this. -/
inductive Refuses : List Index → List Value → Arcs → Arcs → Prop
  | here {index : Index} {row : List Index} {parentIndices : List Value} {instId : Arcs}
      {exception : MibException}
      (hraised : index.setFromName parentIndices instId = .error exception)
      (hcaught : isPyAsn1Error exception) : Refuses (index :: row) parentIndices instId instId
  | later {index : Index} {row : List Index} {parentIndices : List Value} {instId rest left : Arcs}
      {value : Value} (hread : index.setFromName parentIndices instId = .ok (value, rest))
      (hrest : Refuses row (parentIndices ++ [value]) rest left) :
      Refuses (index :: row) parentIndices instId left

section Row

variable {indexNames : List Index} {parentIndices : List Value} {instId left : Arcs}

/-- Indices that are read give values and leave the rest. -/
theorem ReadsTo.readIndices_eq (hreads : ReadsTo indexNames parentIndices instId left) :
    ∃ values, readIndices indexNames parentIndices instId = .ok (.values values, left) := by
  induction hreads with
  | nil => exact ⟨[], rfl⟩
  | @cons _ _ _ _ _ _ value hread _ ih =>
    obtain ⟨others, hothers⟩ := ih
    refine ⟨value :: others, ?_⟩
    rw [readIndices, hread]
    simp only [hothers]

/-- An index that refuses leaves the remainder as it found it. -/
theorem Refuses.readIndices_eq (hrefuses : Refuses indexNames parentIndices instId left) :
    readIndices indexNames parentIndices instId = .ok (.remainder left, []) := by
  induction hrefuses with
  | here hraised hcaught =>
    rw [readIndices, hraised]
    exact if_pos hcaught
  | later hread _ ih =>
    rw [readIndices, hread]
    simp only [ih]

/-- A row reads its indices, refuses one of them, or raises. -/
theorem readsTo_or_refuses_or_raises (indexNames : List Index) (parentIndices : List Value)
    (instId : Arcs) :
    (∃ left, ReadsTo indexNames parentIndices instId left) ∨
      (∃ left, Refuses indexNames parentIndices instId left) ∨
        ∃ error, readIndices indexNames parentIndices instId = .error (.python error) := by
  induction indexNames generalizing parentIndices instId with
  | nil => exact .inl ⟨instId, .nil⟩
  | cons index row ih =>
    cases hread : index.setFromName parentIndices instId with
    | error exception =>
      refine .inr ?_
      by_cases hcaught : isPyAsn1Error exception
      · exact .inl ⟨instId, .here hread hcaught⟩
      · cases exception with
        | smi error => exact absurd rfl hcaught
        | python error =>
          refine .inr ⟨error, ?_⟩
          rw [readIndices, hread]
          exact if_neg hcaught
    | ok result =>
      obtain ⟨value, rest⟩ := result
      rcases ih (parentIndices ++ [value]) rest with ⟨left, hreads⟩ | ⟨left, hrefuses⟩ | hraises
      · exact .inl ⟨left, .cons hread hreads⟩
      · exact .inr (.inl ⟨left, .later hread hrefuses⟩)
      · obtain ⟨error, herror⟩ := hraises
        refine .inr (.inr ⟨error, ?_⟩)
        rw [readIndices, hread]
        simp only [herror]

/-- An identifier is read as a whole if nothing is left over. -/
theorem isRead_iff_readsTo : IsRead indexNames parentIndices instId ↔
    ReadsTo indexNames parentIndices instId [] := by
  constructor
  · intro hread
    induction hread with
    | nil => exact .nil
    | cons hread _ ih => exact .cons hread ih
  · intro hreads
    generalize hleft : ([] : Arcs) = left at hreads
    induction hreads with
    | nil =>
      subst hleft
      exact .nil
    | cons hread _ ih => exact .cons hread (ih hleft)

/-- Behind the first index the others read on. -/
theorem ReadsTo.head {index : Index} {row : List Index} {rest : Arcs} {value : Value}
    (hreads : ReadsTo (index :: row) parentIndices instId left)
    (hread : index.setFromName parentIndices instId = .ok (value, rest)) :
    ReadsTo row (parentIndices ++ [value]) rest left := by
  cases hreads with
  | cons hother hrest =>
    rw [hread] at hother
    obtain ⟨rfl, rfl⟩ := Prod.mk.inj (Except.ok.inj hother)
    exact hrest

/-- Behind the first index one of the others refuses. -/
theorem Refuses.head {index : Index} {row : List Index} {rest : Arcs} {value : Value}
    (hrefuses : Refuses (index :: row) parentIndices instId left)
    (hread : index.setFromName parentIndices instId = .ok (value, rest)) :
    Refuses row (parentIndices ++ [value]) rest left := by
  cases hrefuses with
  | here hraised _ =>
    rw [hread] at hraised
    cases hraised
  | later hother hrest =>
    rw [hread] at hother
    obtain ⟨rfl, rfl⟩ := Prod.mk.inj (Except.ok.inj hother)
    exact hrest

/-- The first indices of a row that are left are the row itself, or left after its first value. -/
theorem Reaches.cons_iff {index : Index} {row later : List Index} {values : List Value}
    {rest : Arcs} {value : Value} (hreads : Reads index parentIndices instId value rest) :
    Reaches (index :: row) parentIndices instId later values left ↔
      (later = index :: row ∧ values = parentIndices ∧ left = instId) ∨
        Reaches row (parentIndices ++ [value]) rest later values left := by
  constructor
  · intro hreaches
    cases hreaches with
    | refl => exact .inl ⟨rfl, rfl, rfl⟩
    | read hother hrest =>
      have hsame := hother.setFromName_eq
      rw [hreads.setFromName_eq] at hsame
      obtain ⟨rfl, rfl⟩ := Prod.mk.inj (Except.ok.inj hsame)
      exact .inr hrest
  · rintro (⟨rfl, rfl, rfl⟩ | hrest)
    · exact .refl
    · exact .read hreads hrest

/-- Where no index breaks and one that has no value finds the identifier whole, all of them are read
or one is refused before anything has been taken. -/
theorem forall_reaches_iff (indexNames : List Index) (parentIndices : List Value)
    (instId whole : Arcs) :
    (∀ index row values rest, Reaches indexNames parentIndices instId (index :: row) values rest →
        ¬ Breaks index values rest ∧
          ((∀ value left, ¬ Reads index values rest value left) → rest = whole)) ↔
      (∃ left, ReadsTo indexNames parentIndices instId left) ∨
        Refuses indexNames parentIndices instId whole := by
  induction indexNames generalizing parentIndices instId with
  | nil =>
    refine iff_of_true ?_ (.inl ⟨instId, .nil⟩)
    intro index row values rest hreaches
    cases hreaches
  | cons index row ih =>
    rcases reads_or_breaks_or_isRefused index parentIndices instId with
      ⟨value, rest, hreads⟩ | hbreaks | hrefused
    · have hread := hreads.setFromName_eq
      have hhead : (∃ left, ReadsTo (index :: row) parentIndices instId left) ∨
            Refuses (index :: row) parentIndices instId whole ↔
          (∃ left, ReadsTo row (parentIndices ++ [value]) rest left) ∨
            Refuses row (parentIndices ++ [value]) rest whole := by
        refine or_congr (exists_congr fun left ↦ ?_) ?_
        · exact ⟨fun hall ↦ hall.head hread, .cons hread⟩
        · exact ⟨fun hrefuses ↦ hrefuses.head hread, .later hread⟩
      rw [hhead, ← ih]
      constructor
      · intro hall first others values left hreaches
        exact hall first others values left ((Reaches.cons_iff hreads).mpr (.inr hreaches))
      · intro hall first others values left hreaches
        rcases (Reaches.cons_iff hreads).mp hreaches with ⟨hrow, rfl, rfl⟩ | hrest
        · obtain ⟨rfl, rfl⟩ := List.cons.inj hrow
          exact ⟨fun hbreaks ↦ hbreaks.not_reads hreads,
            fun hnone ↦ absurd hreads (hnone value rest)⟩
        · exact hall first others values left hrest
    · obtain ⟨error, herror, hne⟩ := hbreaks.setFromName_eq
      refine iff_of_false (fun hall ↦ (hall index row parentIndices instId .refl).1 hbreaks) ?_
      rintro (⟨left, hreads⟩ | hrefuses)
      · cases hreads with
        | cons hread hrest =>
          rw [herror] at hread
          cases hread
      · cases hrefuses with
        | here hraised hcaught =>
          rw [herror] at hraised
          rw [← Except.error.inj hraised, isPyAsn1Error_python hne] at hcaught
          cases hcaught
        | later hread hrest =>
          rw [herror] at hread
          cases hread
    · obtain ⟨exception, hraised, hcaught⟩ := id hrefused
      constructor
      · intro hall
        have hwhole := (hall index row parentIndices instId .refl).2 fun value left ↦
          hrefused.not_reads
        subst hwhole
        exact .inr (.here hraised hcaught)
      · rintro (⟨left, hreads⟩ | hrefuses)
        · cases hreads with
          | cons hread hrest =>
            rw [hraised] at hread
            cases hread
        · have hwhole : instId = whole := by
            cases hrefuses with
            | here _ _ => rfl
            | later hread hrest =>
              rw [hraised] at hread
              cases hread
          intro first others values left hreaches
          cases hreaches with
          | refl => exact ⟨hrefused.not_breaks, fun _ ↦ hwhole⟩
          | read hreads hrest => exact absurd hreads hrefused.not_reads

/-- An identifier is kept whole where the loop over the indices reads all of them or refuses one
before anything has been taken. -/
theorem keepsWhole_iff : KeepsWhole indexNames instId ↔
    (∃ left, ReadsTo indexNames [] instId left) ∨ Refuses indexNames [] instId instId :=
  forall_reaches_iff indexNames [] instId instId

end Row

/-- What `keepUndecoded` makes of an exception. -/
def undecoded (suffix : Oid) : MibException → Except MibException Indices
  | .smi _ => .ok (opaqueIndex suffix)
  | .python error => .error (.python error)

/-- `rowIndices` without the cache of the row. -/
def rowResult (rowNode : MibSymbol) (suffix : Oid) : Except MibException Indices :=
  match rowNode.mibNode with
  | .row indexNames =>
    tryCatch (indicesOf indexNames (suffix.map Nat.cast)) (undecoded suffix)
  | _ => .error (.python .attributeError)

/-- A row gives the indices that it reads, or the suffix as it is, exactly where it reads all of
them or refuses one before anything has been taken. -/
theorem rowResult_iff {rowNode : MibSymbol} {indexNames : List Index} (suffix : Oid)
    (hrow : rowNode.mibNode = .row indexNames) :
    (∃ indices, rowResult rowNode suffix = .ok indices ∧
        (¬ IsRead indexNames [] (suffix.map Nat.cast) → KeepsRaw suffix indices)) ↔
      KeepsWhole indexNames (suffix.map Nat.cast) := by
  rw [keepsWhole_iff]
  simp only [rowResult, hrow]
  rcases readsTo_or_refuses_or_raises indexNames [] (suffix.map Nat.cast) with
    ⟨left, hreads⟩ | ⟨left, hrefuses⟩ | ⟨error, herror⟩
  · refine iff_of_true ?_ (.inl ⟨left, hreads⟩)
    obtain ⟨values, hvalues⟩ := hreads.readIndices_eq
    rw [indicesOf, hvalues]
    by_cases hleft : left = []
    · subst hleft
      exact ⟨.values values, rfl, fun hnot ↦ absurd (isRead_iff_readsTo.mpr hreads) hnot⟩
    · simp only [if_neg hleft]
      exact ⟨opaqueIndex suffix, rfl, fun _ ↦ .inl rfl⟩
  · have hread := hrefuses.readIndices_eq
    have hnot : ¬ IsRead indexNames [] (suffix.map Nat.cast) := by
      intro hisRead
      obtain ⟨values, hvalues⟩ := isRead_iff.mp hisRead
      rw [hread] at hvalues
      cases hvalues
    have hindices : indicesOf indexNames (suffix.map Nat.cast) = .ok (.remainder left) := by
      rw [indicesOf, hread]
      rfl
    rw [hindices]
    constructor
    · rintro ⟨indices, hresult, hkept⟩
      obtain rfl : Indices.remainder left = indices := Except.ok.inj hresult
      rcases hkept hnot with hopaque | hremainder
      · cases hopaque
      · rw [Indices.remainder.inj hremainder] at hrefuses
        exact .inr hrefuses
    · rintro (⟨other, hreads⟩ | hwhole)
      · obtain ⟨values, hvalues⟩ := hreads.readIndices_eq
        rw [hread] at hvalues
        cases hvalues
      · rw [hwhole.readIndices_eq] at hread
        exact ⟨_, rfl, fun _ ↦ .inr (Prod.mk.inj (Except.ok.inj hread)).1.symm⟩
  · have hindices : indicesOf indexNames (suffix.map Nat.cast) = .error (.python error) := by
      rw [indicesOf, herror]
    rw [hindices]
    refine iff_of_false ?_ ?_
    · rintro ⟨indices, hresult, -⟩
      cases hresult
    · rintro (⟨left, hreads⟩ | hrefuses)
      · obtain ⟨values, hvalues⟩ := hreads.readIndices_eq
        rw [herror] at hvalues
        cases hvalues
      · rw [hrefuses.readIndices_eq] at herror
        cases herror

/-! ### Lookups -/

section Lookups

variable {view : MibView} {oid suffix : Oid} {symbol other : MibSymbol}

/-- A symbol is found under its own name. -/
theorem name_of_symbolAt (hsymbol : view.symbolAt oid = some symbol) : symbol.name = oid := by
  simpa using List.find?_some hsymbol

/-- There is one nearest symbol. -/
theorem IsNearest.eq (hsymbol : IsNearest view oid symbol) (hother : IsNearest view oid other) :
    symbol = other := by
  have hname := hsymbol.longest.eq hother.longest
  have hsame := hsymbol.symbolAt
  rw [hname, hother.symbolAt] at hsame
  exact (Option.some.inj hsame).symm

/-- The longest prefix in the index is the name of a symbol. -/
theorem exists_isNearest {key : Oid} (hlongest : IsLongestPrefix view.IsLoaded oid key) :
    ∃ symbol, IsNearest view oid symbol ∧ symbol.name = key := by
  obtain ⟨symbol, hsymbol⟩ := Option.isSome_iff_exists.mp hlongest.mem
  obtain rfl := name_of_symbolAt hsymbol
  exact ⟨symbol, ⟨hlongest, hsymbol⟩, rfl⟩

/-- How often the lookup of a name calls itself: for each number after the longest prefix in the
index, or for each after the first. -/
def selfCalls (view : MibView) (nodeName : Oid) : ℕ :=
  match longestPrefix view.IsLoaded nodeName with
  | some (_, suffix) => suffix.length
  | none => nodeName.length - 1

section Calls

variable {number : ℕ}

/-- A loaded name needs no further call. -/
theorem getOidLabel_of_isLoaded (hloaded : view.IsLoaded (oid ++ [number])) (depth : ℕ) :
    view.getOidLabel depth (oid ++ [number]) = .ok (some (oid ++ [number], [])) := by
  rw [MibView.getOidLabel, List.reverse_append, List.reverse_singleton, List.singleton_append,
    MibView.getOidLabelOfReverse.eq_def]
  simp only [List.reverse_reverse, if_pos hloaded]

/-- Of a single number that is not in the index, nothing is. -/
theorem getOidLabel_singleton (hnot : ¬ view.IsLoaded [number]) (depth : ℕ) :
    view.getOidLabel depth [number] = .ok none := by
  rw [MibView.getOidLabel, List.reverse_singleton, MibView.getOidLabelOfReverse.eq_def]
  simp only [List.reverse_nil, List.nil_append, if_neg hnot, if_true]

/-- A name that is not loaded needs one. -/
theorem getOidLabel_zero (hnot : ¬ view.IsLoaded (oid ++ [number])) (hne : oid ≠ []) :
    view.getOidLabel 0 (oid ++ [number]) = .error (.python .recursionError) := by
  rw [MibView.getOidLabel, List.reverse_append, List.reverse_singleton, List.singleton_append,
    MibView.getOidLabelOfReverse.eq_def]
  simp only [List.reverse_reverse, if_neg hnot, List.reverse_eq_nil_iff, if_neg hne]

/-- The lookup calls itself with all numbers but the last. -/
theorem getOidLabel_succ (hnot : ¬ view.IsLoaded (oid ++ [number])) (hne : oid ≠ [])
    (depth : ℕ) :
    view.getOidLabel (depth + 1) (oid ++ [number]) =
      (view.getOidLabel depth oid).map fun found ↦
        found.map fun found ↦ (found.1, found.2 ++ [number]) := by
  rw [MibView.getOidLabel, List.reverse_append, List.reverse_singleton, List.singleton_append,
    MibView.getOidLabelOfReverse.eq_def]
  simp only [List.reverse_reverse, if_neg hnot, List.reverse_eq_nil_iff, if_neg hne]
  rfl

/-- Each arc behind the loaded prefix costs a call. -/
theorem selfCalls_concat (hnot : ¬ view.IsLoaded (oid ++ [number])) (hne : oid ≠ []) :
    selfCalls view (oid ++ [number]) = selfCalls view oid + 1 := by
  have hpos := List.length_pos_of_ne_nil hne
  rw [selfCalls, selfCalls, longestPrefix_concat, if_neg hnot]
  cases longestPrefix view.IsLoaded oid with
  | some found => exact List.length_append
  | none =>
    change (oid ++ [number]).length - 1 = oid.length - 1 + 1
    rw [List.length_append, List.length_singleton, Nat.add_sub_cancel, Nat.sub_add_cancel hpos]

/-- A lookup finds the longest prefix in the index, if it may call itself often enough. -/
theorem getOidLabel_eq (view : MibView) (depth : ℕ) (oid : Oid) :
    view.getOidLabel depth oid =
      if selfCalls view oid ≤ depth then .ok (longestPrefix view.IsLoaded oid)
      else .error (.python .recursionError) := by
  induction oid using List.reverseRecOn generalizing depth with
  | nil =>
    have hcalls : selfCalls view [] ≤ depth := Nat.zero_le depth
    rw [if_pos hcalls]
    cases depth with
    | zero => rfl
    | succ depth => rfl
  | append_singleton oid number ih =>
    by_cases hloaded : view.IsLoaded (oid ++ [number])
    · rw [getOidLabel_of_isLoaded hloaded, selfCalls, longestPrefix_concat, if_pos hloaded]
      exact (if_pos (Nat.zero_le depth)).symm
    rcases eq_or_ne oid [] with rfl | hne
    · have hnone : longestPrefix view.IsLoaded ([] ++ [number]) = none := by
        rw [longestPrefix_concat, if_neg hloaded]
        rfl
      have hcalls : selfCalls view ([] ++ [number]) ≤ depth := by
        rw [selfCalls, hnone]
        exact Nat.zero_le depth
      rw [if_pos hcalls, hnone]
      exact getOidLabel_singleton hloaded depth
    rw [selfCalls_concat hloaded hne, longestPrefix_concat, if_neg hloaded]
    cases depth with
    | zero => rw [getOidLabel_zero hloaded hne, if_neg (Nat.not_succ_le_zero _)]
    | succ depth =>
      rw [getOidLabel_succ hloaded hne, ih depth]
      simp only [Nat.add_le_add_iff_right]
      split_ifs <;> rfl

end Calls

/-- The symbol that a lookup finds. -/
theorem IsWithin.eq {depth : ℕ} {rest : Oid} (hsymbol : IsWithin view depth oid symbol suffix)
    (hother : IsWithin view depth oid other rest) : symbol = other ∧ suffix = rest := by
  obtain rfl := hsymbol.nearest.eq hother.nearest
  exact ⟨rfl, List.append_cancel_left (hsymbol.append_eq.trans hother.append_eq.symm)⟩

theorem IsOutside.not_isWithin {depth : ℕ} (houtside : IsOutside view depth oid) :
    ¬ IsWithin view depth oid symbol suffix :=
  fun hwithin ↦ houtside.forall_not symbol hwithin.nearest

/-- A lookup finds the nearest symbol and what follows its name. -/
theorem IsWithin.getNodeNameByOid_eq {depth : ℕ} (hwithin : IsWithin view depth oid symbol suffix) :
    view.getNodeNameByOid depth oid = .ok (symbol, suffix) := by
  have hsplit : longestPrefix view.IsLoaded oid = some (symbol.name, suffix) :=
    longestPrefix_eq_some_iff.mpr ⟨hwithin.nearest.longest, hwithin.append_eq⟩
  have hcalls : selfCalls view oid ≤ depth := by
    rw [selfCalls, hsplit]
    exact hwithin.length_le
  rw [MibView.getNodeNameByOid, getOidLabel_eq, if_pos hcalls, hsplit]
  simp only [bind, Except.bind, hwithin.nearest.symbolAt]

/-- A name without a symbol has no loaded prefix. -/
theorem IsOutside.longestPrefix_eq_none {depth : ℕ} (houtside : IsOutside view depth oid) :
    longestPrefix view.IsLoaded oid = none := by
  cases hfound : longestPrefix view.IsLoaded oid with
  | none => rfl
  | some found =>
    obtain ⟨key, suffix⟩ := found
    obtain ⟨hlongest, -⟩ := longestPrefix_eq_some_iff.mp hfound
    obtain ⟨node, hnearest, -⟩ := exists_isNearest hlongest
    exact absurd hnearest (houtside.forall_not node)

/-- A lookup finds nothing for want of a symbol. -/
theorem IsOutside.getNodeNameByOid_eq {depth : ℕ} (houtside : IsOutside view depth oid) :
    view.getNodeNameByOid depth oid = .error (.smi { kind := .noSuchObject }) := by
  have hsplit := houtside.longestPrefix_eq_none
  have hcalls : selfCalls view oid ≤ depth := by
    rw [selfCalls, hsplit]
    exact Nat.sub_le_of_le_add houtside.length_le
  rw [MibView.getNodeNameByOid, getOidLabel_eq, if_pos hcalls, hsplit]
  rfl

/-- A lookup finds a symbol, or none, or calls itself too often. -/
theorem isWithin_or_isOutside_or_raises (view : MibView) (depth : ℕ) (oid : Oid) :
    (∃ symbol suffix, IsWithin view depth oid symbol suffix) ∨ IsOutside view depth oid ∨
      view.getNodeNameByOid depth oid = .error (.python .recursionError) := by
  by_cases hcalls : selfCalls view oid ≤ depth
  · rw [selfCalls] at hcalls
    cases hsplit : longestPrefix view.IsLoaded oid with
    | some found =>
      obtain ⟨key, suffix⟩ := found
      obtain ⟨hlongest, happend⟩ := longestPrefix_eq_some_iff.mp hsplit
      obtain ⟨symbol, hnearest, rfl⟩ := exists_isNearest hlongest
      rw [hsplit] at hcalls
      exact .inl ⟨symbol, suffix, hnearest, happend, hcalls⟩
    | none =>
      rw [hsplit] at hcalls
      refine .inr (.inl ⟨fun symbol hnearest ↦ ?_, Nat.le_add_of_sub_le hcalls⟩)
      obtain ⟨suffix, happend⟩ := hnearest.longest.begins
      rw [longestPrefix_eq_some_iff.mpr ⟨hnearest.longest, happend⟩] at hsplit
      cases hsplit
  · rw [MibView.getNodeNameByOid, getOidLabel_eq, if_neg hcalls]
    exact .inr (.inr rfl)

/-- The location of a name is that of its nearest symbol. -/
theorem IsWithin.getNodeLocation_eq (hwithin : IsWithin view view.locationDepth oid symbol suffix) :
    view.getNodeLocation oid = .ok symbol := by
  rw [MibView.getNodeLocation, hwithin.getNodeNameByOid_eq]

/-- A name without a symbol has no location, and the empty one an `IndexError`. -/
theorem IsOutside.getNodeLocation_eq (houtside : IsOutside view view.locationDepth oid) :
    view.getNodeLocation oid =
      if oid = [] then .error (.python .indexError)
      else .error (.smi { kind := .noSuchObject }) := by
  rw [MibView.getNodeLocation, houtside.getNodeNameByOid_eq]

/-- What the lookup raises the location raises. -/
theorem getNodeLocation_of_raises {error : PythonError}
    (hraises : view.getNodeNameByOid view.locationDepth oid = .error (.python error)) :
    view.getNodeLocation oid = .error (.python error) := by
  rw [MibView.getNodeLocation, hraises]

/-- The lookup that goes without labels finds what the one with labels finds in the merged index of
the same object identifiers. -/
theorem getNodeNameByOid_of_indexMib {mibModules : List ViewIndex.MibModule}
    {index : ViewIndex.MibSymbolsIdx} (hindex : ViewIndex.indexMib mibModules = .ok index)
    (hloaded : ∀ oid, view.IsLoaded oid ↔ ((ViewLabels.loadedNames mibModules).get? oid).isSome)
    (depth : ℕ) (oid : Oid) :
    (∀ symbol suffix, view.getNodeNameByOid depth oid = .ok (symbol, suffix) →
      ∃ label, ViewIndex.getOidLabel index.merged (ViewIndex.arcs oid) =
          ⟨ViewIndex.arcs symbol.name, label, ViewIndex.arcs suffix⟩ ∧
        ViewIndex.arcs symbol.name ≠ label) ∧
      ∀ error, view.getNodeNameByOid depth oid = .error (.smi error) →
        (ViewIndex.getOidLabel index.merged (ViewIndex.arcs oid)).oid =
          (ViewIndex.getOidLabel index.merged (ViewIndex.arcs oid)).label := by
  obtain ⟨hmerged, hends, hbackward⟩ := ViewLabels.merged_of_indexMib hindex
  have hsame : longestPrefix view.IsLoaded oid =
      longestPrefix (ViewLabels.IsLoaded index.merged) oid :=
    longestPrefix_congr fun key _ ↦ (hloaded key).trans (hmerged key).symm
  have hlabel := ViewLabels.getOidLabel_arcs index.merged hbackward oid
  rw [← hsame] at hlabel
  rcases isWithin_or_isOutside_or_raises view depth oid with
    ⟨symbol, suffix, hwithin⟩ | houtside | hraises
  · rw [longestPrefix_eq_some_iff.mpr ⟨hwithin.nearest.longest, hwithin.append_eq⟩] at hlabel
    obtain ⟨label, hkey⟩ : ∃ label, index.merged.oidToLabelIdx.get? symbol.name = some label :=
      Option.isSome_iff_exists.mp ((hmerged symbol.name).mpr
        ((hloaded symbol.name).mp hwithin.nearest.longest.mem))
    constructor
    · intro found rest hfound
      rw [hwithin.getNodeNameByOid_eq] at hfound
      obtain ⟨rfl, rfl⟩ := Prod.mk.inj (Except.ok.inj hfound)
      refine ⟨label, by simp only [hlabel, hkey, Option.getD_some], fun heq ↦ ?_⟩
      exact LabelStems.not_endsInName_arcs symbol.name (heq ▸ hends symbol.name label hkey)
    · intro error herror
      rw [hwithin.getNodeNameByOid_eq] at herror
      cases herror
  · have hnone : longestPrefix view.IsLoaded oid = none := houtside.longestPrefix_eq_none
    rw [hnone] at hlabel
    constructor
    · intro symbol suffix hfound
      rw [houtside.getNodeNameByOid_eq] at hfound
      cases hfound
    · intro error _
      rw [hlabel]
  · rw [hraises]
    constructor
    · intro symbol suffix hfound
      cases hfound
    · intro error herror
      cases herror

end Lookups

/-! ### Results without the caches -/

/-- The caches of the rows hold nothing but results. -/
def Coherent (view : MibView) (caches : RowCaches) : Prop :=
  ∀ rowNode indexNames, view.symbolAt rowNode.name = some rowNode →
    rowNode.mibNode = .row indexNames →
      IndexRoundTrip.Coherent (indicesOf indexNames) (instIdOf indexNames) (caches rowNode.name)

/-- `resolveIndices` without the caches. -/
def indicesResult (view : MibView) (symbol : MibSymbol) (suffix : Oid) :
    Except MibException Indices :=
  match symbol.mibNode, suffix with
  | _, [] => .ok (.values [])
  | .column _, suffix => view.getNodeLocation symbol.name.dropLast >>= fun rowNode ↦
      rowResult rowNode suffix
  | _, suffix => .ok (opaqueIndex suffix)

/-- `ObjectIdentity.resolveWithMib` without the caches. -/
def nameResult (view : MibView) (oid : Oid) : Except MibException ObjectIdentity := do
  let (symbol, suffix) ← view.getNodeNameByOid view.nameDepth oid
  let indices ← indicesResult view symbol suffix
  pure { oid := oid, symbol := symbol, indices := indices }

/-- What `leaveUnresolved` makes of an exception. -/
def unresolved (oid : Oid) : MibException → Except MibException ResolvedValue
  | .smi _ => .ok (.plain (.objectIdentifier oid))
  | .python error => .error (.python error)

/-- `resolvePointer` without the caches. -/
def pointerResult (view : MibView) : BindingValue → Except MibException ResolvedValue
  | .objectIdentifier oid => tryCatch ((nameResult view oid).map .identity) (unresolved oid)
  | value => .ok (.plain value)

/-- `resolveValue` without the caches. -/
def valueResult (view : MibView) (ignoreValueErrors : Bool) (mibNode : MibNode)
    (value : BindingValue) : Except MibException ResolvedValue :=
  match mibNode.getSyntax with
  | none => .ok (.plain value)
  | some clone =>
    if isException value then
      .ok (.plain value)
    else
      castValue clone ignoreValueErrors value >>= pointerResult view

/-- `ObjectType.resolveWithMib` without the caches. -/
def bindingResult (view : MibView) (ignoreValueErrors : Bool) (varBind : Oid × BindingValue) :
    Except MibException ObjectType := do
  let name ← nameResult view varBind.1
  let value ← valueResult view ignoreValueErrors name.symbol.mibNode varBind.2
  pure { name := name, value := value }

/-- `unmakeVarBinds` without the caches. -/
def bindingsResult (view : MibView) (ignoreValueErrors : Bool) :
    List (Oid × BindingValue) → Except MibException (List ObjectType)
  | [] => .ok []
  | varBind :: varBinds => do
    let resolved ← bindingResult view ignoreValueErrors varBind
    let rest ← bindingsResult view ignoreValueErrors varBinds
    pure (resolved :: rest)

section Caches

variable {view : MibView}

/-- The caches of a row do not show in its indices. -/
theorem yields_rowIndices {rowNode : MibSymbol}
    (hrowNode : view.symbolAt rowNode.name = some rowNode) (suffix : Oid) :
    Yields (Coherent view) (rowIndices rowNode suffix) (rowResult rowNode suffix) := by
  unfold rowIndices rowResult
  cases hrow : rowNode.mibNode with
  | row indexNames =>
    simp only
    refine Yields.handle ?_ ?_
    · have hrun : Yields (IndexRoundTrip.Coherent (indicesOf indexNames) (instIdOf indexNames))
          (getIndicesFromInstId indexNames (suffix.map Nat.cast))
          (indicesOf indexNames (suffix.map Nat.cast)) :=
        fun caches hcaches ↦ getIndicesFromInstId_run hcaches _
      refine hrun.focus ?_ ?_
      · intro caches hcaches
        exact hcaches rowNode indexNames hrowNode hrow
      · intro value caches hcaches hvalue other otherNames hother hnames
        by_cases hname : other.name = rowNode.name
        · rw [hname, hrowNode] at hother
          obtain rfl := Option.some.inj hother
          rw [hrow] at hnames
          obtain rfl := MibNode.row.inj hnames
          rwa [Function.update_self]
        · rw [Function.update_of_ne hname]
          exact hcaches other otherNames hother hnames
    · intro exception
      cases exception with
      | smi error => exact yields_pure _
      | python error => exact yields_raise _
  | _ => exact yields_raise _

/-- Nor in the indices of a name. -/
theorem yields_resolveIndices (view : MibView) (symbol : MibSymbol) (suffix : Oid) :
    Yields (Coherent view) (resolveIndices view symbol suffix)
      (indicesResult view symbol suffix) := by
  unfold resolveIndices indicesResult
  cases suffix with
  | nil =>
    cases symbol.mibNode with
    | _ => exact yields_pure _
  | cons arc others =>
    cases symbol.mibNode with
    | column clone =>
      refine (yields_liftExcept _).bind fun rowNode hrowNode ↦ yields_rowIndices ?_ _
      rcases isWithin_or_isOutside_or_raises view view.locationDepth symbol.name.dropLast with
        ⟨row, rest, hwithin⟩ | houtside | hraises
      · rw [hwithin.getNodeLocation_eq] at hrowNode
        rw [← Except.ok.inj hrowNode]
        exact hwithin.nearest.symbolAt
      · rw [houtside.getNodeLocation_eq] at hrowNode
        split_ifs at hrowNode
      · rw [getNodeLocation_of_raises hraises] at hrowNode
        cases hrowNode
    | _ => exact yields_pure _

theorem yields_resolveWithMib (view : MibView) (oid : Oid) :
    Yields (Coherent view) (ObjectIdentity.resolveWithMib view oid) (nameResult view oid) :=
  (yields_liftExcept _).bind fun _ _ ↦
    (yields_resolveIndices view _ _).bind fun _ _ ↦ yields_pure _

/-- Nor in what a value points at. -/
theorem yields_resolvePointer (view : MibView) (value : BindingValue) :
    Yields (Coherent view) (resolvePointer view value) (pointerResult view value) := by
  cases value with
  | objectIdentifier oid =>
    refine ((yields_resolveWithMib view oid).map ResolvedValue.identity).handle ?_
    intro exception
    cases exception with
    | smi error => exact yields_pure _
    | python error => exact yields_raise _
  | _ => exact yields_pure _

/-- Nor in the value of a binding. -/
theorem yields_resolveValue (view : MibView) (ignoreValueErrors : Bool) (mibNode : MibNode)
    (value : BindingValue) :
    Yields (Coherent view) (resolveValue view ignoreValueErrors mibNode value)
      (valueResult view ignoreValueErrors mibNode value) := by
  unfold resolveValue valueResult
  cases mibNode.getSyntax with
  | none => exact yields_pure _
  | some clone =>
    simp only
    split_ifs with hexception
    · exact yields_pure _
    · exact (yields_liftExcept _).bind fun cast _ ↦ yields_resolvePointer view cast

/-- A binding is resolved as if rows kept nothing. -/
theorem yields_unmakeVarBind (view : MibView) (ignoreValueErrors : Bool)
    (varBind : Oid × BindingValue) :
    Yields (Coherent view) (ObjectType.resolveWithMib view ignoreValueErrors varBind)
      (bindingResult view ignoreValueErrors varBind) :=
  (yields_resolveWithMib view varBind.1).bind fun _ _ ↦
    (yields_resolveValue view ignoreValueErrors _ _).bind fun _ _ ↦ yields_pure _

/-- Nor in the bindings of a response. -/
theorem yields_unmakeVarBinds (view : MibView) (ignoreValueErrors : Bool)
    (varBinds : List (Oid × BindingValue)) :
    Yields (Coherent view) (unmakeVarBinds view ignoreValueErrors varBinds)
      (bindingsResult view ignoreValueErrors varBinds) := by
  induction varBinds with
  | nil => exact yields_pure _
  | cons varBind varBinds ih =>
    exact (yields_unmakeVarBind view ignoreValueErrors varBind).bind fun _ _ ↦
      ih.bind fun _ _ ↦ yields_pure _

end Caches

/-! ### Names -/

section Names

variable {view : MibView} {oid suffix : Oid} {symbol rowNode : MibSymbol}
  {clone : BindingValue → Except PythonError BindingValue}

/-- Below a column the nearest symbol of its row answers. -/
theorem indicesResult_of_column {rest : Oid} (hcolumn : symbol.mibNode = .column clone)
    (hsuffix : suffix ≠ [])
    (hrow : IsWithin view view.locationDepth symbol.name.dropLast rowNode rest) :
    indicesResult view symbol suffix = rowResult rowNode suffix := by
  obtain ⟨arc, others, rfl⟩ := List.exists_cons_of_ne_nil hsuffix
  simp only [indicesResult, hcolumn, hrow.getNodeLocation_eq]
  rfl

/-- A column with no symbol above it has no indices. -/
theorem indicesResult_of_rowless (hcolumn : symbol.mibNode = .column clone) (hsuffix : suffix ≠ [])
    (hnone : IsOutside view view.locationDepth symbol.name.dropLast) :
    indicesResult view symbol suffix =
      if symbol.name.dropLast = [] then .error (.python .indexError)
      else .error (.smi { kind := .noSuchObject }) := by
  obtain ⟨arc, others, rfl⟩ := List.exists_cons_of_ne_nil hsuffix
  simp only [indicesResult, hcolumn, hnone.getNodeLocation_eq]
  split_ifs <;> rfl

/-- What the lookup of the row raises stops the resolution. -/
theorem indicesResult_of_raises {error : PythonError} (hcolumn : symbol.mibNode = .column clone)
    (hsuffix : suffix ≠ [])
    (hraises : view.getNodeNameByOid view.locationDepth symbol.name.dropLast =
      .error (.python error)) :
    indicesResult view symbol suffix = .error (.python error) := by
  obtain ⟨arc, others, rfl⟩ := List.exists_cons_of_ne_nil hsuffix
  simp only [indicesResult, hcolumn, getNodeLocation_of_raises hraises]
  rfl

/-- Below a column the indices decode where its row reads all of them. -/
theorem IsNearest.decodes_iff {indexNames : List Index}
    (hnearest : IsNearest view symbol.name.dropLast rowNode)
    (hcolumn : symbol.mibNode = .column clone) (hrow : rowNode.mibNode = .row indexNames) :
    Decodes view symbol suffix ↔ IsRead indexNames [] (suffix.map Nat.cast) := by
  constructor
  · rintro ⟨_, other, otherNames, -, hother, hnames, hread⟩
    obtain rfl := hother.eq hnearest
    rw [hrow] at hnames
    rwa [MibNode.row.inj hnames]
  · intro hread
    exact ⟨clone, rowNode, indexNames, hcolumn, hnearest, hrow, hread⟩

/-- A column below a row is resolved if the indices of the row keep the suffix whole. -/
theorem IsWithin.indexOk_iff {rest : Oid} {indexNames : List Index}
    (hwithin : IsWithin view view.locationDepth symbol.name.dropLast rowNode rest)
    (hcolumn : symbol.mibNode = .column clone) (hsuffix : suffix ≠ [])
    (hrow : rowNode.mibNode = .row indexNames) :
    IndexOk view symbol suffix ↔ KeepsWhole indexNames (suffix.map Nat.cast) := by
  constructor
  · rintro (hnil | hall)
    · exact absurd hnil hsuffix
    · obtain ⟨other, otherRest, otherNames, hother, hnames, hkeeps⟩ := hall clone hcolumn
      obtain ⟨rfl, -⟩ := hother.eq hwithin
      rw [hrow] at hnames
      rwa [MibNode.row.inj hnames]
  · intro hkeeps
    exact .inr fun _ _ ↦ ⟨rowNode, rest, indexNames, hwithin, hrow, hkeeps⟩

/-- Below a column the indices are in order only where its row is looked up. -/
theorem IndexOk.exists_row (hindex : IndexOk view symbol suffix)
    (hcolumn : symbol.mibNode = .column clone) (hsuffix : suffix ≠ []) :
    ∃ rowNode rest indexNames,
      IsWithin view view.locationDepth symbol.name.dropLast rowNode rest ∧
        rowNode.mibNode = .row indexNames := by
  rcases hindex with hnil | hall
  · exact absurd hnil hsuffix
  · obtain ⟨rowNode, rest, indexNames, hwithin, hrow, -⟩ := hall clone hcolumn
    exact ⟨rowNode, rest, indexNames, hwithin, hrow⟩

/-- The indices are resolved, and kept as they are if they do not decode, exactly where nothing is
wrong with them. -/
theorem indicesResult_iff (view : MibView) (symbol : MibSymbol) (suffix : Oid) :
    (∃ indices, indicesResult view symbol suffix = .ok indices ∧
        (suffix ≠ [] → ¬ Decodes view symbol suffix → KeepsRaw suffix indices)) ↔
      IndexOk view symbol suffix := by
  by_cases hsuffix : suffix = []
  · subst hsuffix
    refine iff_of_true ⟨.values [], ?_, fun hne ↦ absurd rfl hne⟩ (.inl rfl)
    cases hnode : symbol.mibNode with
    | _ => simp only [indicesResult]
  cases hnode : symbol.mibNode with
  | column clone =>
    rcases isWithin_or_isOutside_or_raises view view.locationDepth symbol.name.dropLast with
      ⟨rowNode, rest, hwithin⟩ | houtside | hraises
    · rw [indicesResult_of_column hnode hsuffix hwithin]
      cases hrow : rowNode.mibNode with
      | row indexNames =>
        rw [hwithin.indexOk_iff hnode hsuffix hrow, ← rowResult_iff suffix hrow,
          hwithin.nearest.decodes_iff hnode hrow]
        simp only [hsuffix, ne_eq, not_false_eq_true, true_imp_iff]
      | _ =>
        refine iff_of_false ?_ fun hindex ↦ ?_
        · rintro ⟨indices, hresult, -⟩
          simp only [rowResult, hrow] at hresult
          cases hresult
        · obtain ⟨other, otherRest, otherNames, hother, hnames⟩ :=
            hindex.exists_row hnode hsuffix
          rw [(hother.eq hwithin).1, hrow] at hnames
          cases hnames
    · refine iff_of_false ?_ fun hindex ↦ ?_
      · rintro ⟨indices, hresult, -⟩
        rw [indicesResult_of_rowless hnode hsuffix houtside] at hresult
        split_ifs at hresult
      · obtain ⟨other, otherRest, otherNames, hother, -⟩ := hindex.exists_row hnode hsuffix
        exact houtside.not_isWithin hother
    · refine iff_of_false ?_ fun hindex ↦ ?_
      · rintro ⟨indices, hresult, -⟩
        rw [indicesResult_of_raises hnode hsuffix hraises] at hresult
        cases hresult
      · obtain ⟨other, otherRest, otherNames, hother, -⟩ := hindex.exists_row hnode hsuffix
        rw [hother.getNodeNameByOid_eq] at hraises
        cases hraises
  | _ =>
    refine iff_of_true ⟨opaqueIndex suffix, ?_, fun _ _ ↦ .inl rfl⟩ (.inr ?_)
    · obtain ⟨arc, others, rfl⟩ := List.exists_cons_of_ne_nil hsuffix
      simp only [indicesResult, hnode]
    · intro clone hcolumn
      rw [hnode] at hcolumn
      cases hcolumn

/-- A name is resolved from its nearest symbol. -/
theorem IsWithin.nameResult_eq (hwithin : IsWithin view view.nameDepth oid symbol suffix) :
    nameResult view oid = (indicesResult view symbol suffix).map fun indices ↦
      { oid := oid, symbol := symbol, indices := indices } := by
  rw [nameResult, hwithin.getNodeNameByOid_eq]
  exact bind_pure_comp (fun indices ↦ ObjectIdentity.mk oid symbol indices)
    (indicesResult view symbol suffix)

/-- A name is resolved as it should be if and only if it meets the condition. -/
theorem nameResult_iff (view : MibView) (oid : Oid) :
    (∃ identity, nameResult view oid = .ok identity ∧ NameResolved view oid identity) ↔
      NameOk view oid := by
  rcases isWithin_or_isOutside_or_raises view view.nameDepth oid with
    ⟨symbol, suffix, hwithin⟩ | houtside | hraises
  · have hok : NameOk view oid ↔ IndexOk view symbol suffix := by
      constructor
      · rintro ⟨other, rest, hother, hindex⟩
        obtain ⟨rfl, rfl⟩ := hother.eq hwithin
        exact hindex
      · intro hindex
        exact ⟨symbol, suffix, hwithin, hindex⟩
    rw [hok, ← indicesResult_iff, hwithin.nameResult_eq]
    constructor
    · rintro ⟨identity, hresult, hresolved⟩
      cases hindices : indicesResult view symbol suffix with
      | error exception =>
        rw [hindices] at hresult
        cases hresult
      | ok indices =>
        rw [hindices] at hresult
        obtain rfl := Except.ok.inj hresult
        exact ⟨indices, rfl, hresolved.kept suffix hwithin.append_eq⟩
    · rintro ⟨indices, hindices, hkept⟩
      refine ⟨⟨oid, symbol, indices⟩, by rw [hindices]; rfl, rfl, hwithin.nearest, ?_⟩
      intro rest hrest
      rw [List.append_cancel_left (hrest.trans hwithin.append_eq.symm)]
      exact hkept
  · refine iff_of_false ?_ ?_
    · rintro ⟨identity, -, hresolved⟩
      exact houtside.forall_not _ hresolved.nearest
    · rintro ⟨symbol, suffix, hwithin, -⟩
      exact houtside.not_isWithin hwithin
  · refine iff_of_false ?_ ?_
    · rintro ⟨identity, hresult, -⟩
      rw [nameResult, hraises] at hresult
      cases hresult
    · rintro ⟨symbol, suffix, hwithin, -⟩
      rw [hwithin.getNodeNameByOid_eq] at hraises
      cases hraises

/-- No `SmiError` leaves the indices of a row, since it is caught there. -/
theorem rowResult_ne_smi (rowNode : MibSymbol) (suffix : Oid) (error : SmiError) :
    rowResult rowNode suffix ≠ .error (.smi error) := by
  intro hresult
  cases hrow : rowNode.mibNode with
  | row indexNames =>
    simp only [rowResult, hrow] at hresult
    cases hindices : indicesOf indexNames (suffix.map Nat.cast) with
    | ok indices =>
      rw [hindices] at hresult
      cases hresult
    | error exception =>
      rw [hindices] at hresult
      cases exception with
      | smi error => cases hresult
      | python error => cases hresult
  | _ =>
    simp only [rowResult, hrow] at hresult
    cases hresult

/-- Indices raise an `SmiError` exactly where the row of the column has no symbol. -/
theorem indicesResult_smi_iff (view : MibView) (symbol : MibSymbol) (suffix : Oid) :
    (∃ error, indicesResult view symbol suffix = .error (.smi error)) ↔
      ∃ clone, suffix ≠ [] ∧ symbol.mibNode = .column clone ∧ symbol.name.dropLast ≠ [] ∧
        IsOutside view view.locationDepth symbol.name.dropLast := by
  constructor
  · rintro ⟨error, hresult⟩
    have hsuffix : suffix ≠ [] := by
      rintro rfl
      cases hnode : symbol.mibNode with
      | _ =>
        simp only [indicesResult] at hresult
        cases hresult
    cases hnode : symbol.mibNode with
    | column clone =>
      refine ⟨clone, hsuffix, rfl, ?_⟩
      rcases isWithin_or_isOutside_or_raises view view.locationDepth symbol.name.dropLast with
        ⟨rowNode, rest, hwithin⟩ | houtside | hraises
      · rw [indicesResult_of_column hnode hsuffix hwithin] at hresult
        exact absurd hresult (rowResult_ne_smi rowNode suffix error)
      · rw [indicesResult_of_rowless hnode hsuffix houtside] at hresult
        refine ⟨fun hnil ↦ ?_, houtside⟩
        rw [if_pos hnil] at hresult
        cases hresult
      · rw [indicesResult_of_raises hnode hsuffix hraises] at hresult
        cases hresult
    | _ =>
      obtain ⟨arc, others, rfl⟩ := List.exists_cons_of_ne_nil hsuffix
      simp only [indicesResult, hnode] at hresult
      cases hresult
  · rintro ⟨clone, hsuffix, hcolumn, hname, hnone⟩
    rw [indicesResult_of_rowless hcolumn hsuffix hnone, if_neg hname]
    exact ⟨_, rfl⟩

/-- A resolution raises an `SmiError` exactly where it has no symbol to go by. -/
theorem nameResult_smi_iff (view : MibView) (oid : Oid) :
    (∃ error, nameResult view oid = .error (.smi error)) ↔ IsUnknown view oid := by
  rcases isWithin_or_isOutside_or_raises view view.nameDepth oid with
    ⟨symbol, suffix, hwithin⟩ | houtside | hraises
  · have hunknown : IsUnknown view oid ↔
        ∃ error, indicesResult view symbol suffix = .error (.smi error) := by
      rw [indicesResult_smi_iff]
      constructor
      · rintro (houtside | ⟨other, rest, clone, hother, hrowless⟩)
        · exact absurd hwithin houtside.not_isWithin
        · obtain ⟨rfl, rfl⟩ := hother.eq hwithin
          exact ⟨clone, hrowless⟩
      · rintro ⟨clone, hrowless⟩
        exact .inr ⟨symbol, suffix, clone, hwithin, hrowless⟩
    rw [hunknown, hwithin.nameResult_eq]
    cases indicesResult view symbol suffix with
    | error exception => simp [Except.map]
    | ok indices => simp [Except.map]
  · refine iff_of_true ?_ (.inl houtside)
    rw [nameResult, houtside.getNodeNameByOid_eq]
    exact ⟨_, rfl⟩
  · refine iff_of_false ?_ ?_
    · rintro ⟨error, hresult⟩
      rw [nameResult, hraises] at hresult
      cases hresult
    · rintro (houtside | ⟨symbol, suffix, clone, hwithin, -⟩)
      · rw [houtside.getNodeNameByOid_eq] at hraises
        cases hraises
      · rw [hwithin.getNodeNameByOid_eq] at hraises
        cases hraises

end Names

/-! ### Bindings -/

section Bindings

variable {view : MibView}

/-- A value that is an object identifier is resolved, or left as it is, exactly where its name can
be resolved or has no symbol. -/
theorem pointerResult_iff (view : MibView) (pointer : Oid) :
    (∃ value, pointerResult view (.objectIdentifier pointer) = .ok value ∧
        ∀ identity, value = .identity identity → NameResolved view pointer identity) ↔
      NameOk view pointer ∨ IsUnknown view pointer := by
  rw [← nameResult_iff, ← nameResult_smi_iff, pointerResult]
  cases hname : nameResult view pointer with
  | ok identity =>
    constructor
    · rintro ⟨value, hvalue, hresolved⟩
      exact .inl ⟨identity, rfl, hresolved identity (Except.ok.inj hvalue).symm⟩
    · rintro (⟨other, hother, hresolved⟩ | ⟨error, herror⟩)
      · obtain rfl := Except.ok.inj hother
        refine ⟨.identity identity, rfl, fun other hother ↦ ?_⟩
        rwa [← ResolvedValue.identity.inj hother]
      · cases herror
  | error exception =>
    cases exception with
    | smi error =>
      refine iff_of_true ⟨.plain (.objectIdentifier pointer), rfl, ?_⟩ (.inr ⟨error, rfl⟩)
      intro identity hidentity
      cases hidentity
    | python error =>
      refine iff_of_false ?_ ?_
      · rintro ⟨value, hvalue, -⟩
        cases hvalue
      · rintro (⟨identity, hidentity, -⟩ | ⟨error, herror⟩)
        · cases hidentity
        · cases herror

/-- A cast goes through unless `clone` raises what is no `PyAsn1Error`. -/
theorem castValue_eq_ok_iff {clone : BindingValue → Except PythonError BindingValue}
    {value : BindingValue} :
    (∃ cast, castValue clone true value = .ok cast) ↔
      ∀ error, clone value = .error error → error = .pyAsn1Error := by
  unfold castValue
  cases clone value with
  | ok cast => simp
  | error error =>
    cases error with
    | _ => simp

/-- A value that is cast is resolved. -/
theorem castResult_iff {clone : BindingValue → Except PythonError BindingValue}
    {value cast : BindingValue} (hcast : castValue clone true value = .ok cast) :
    (∃ resolved, (castValue clone true value >>= pointerResult view) = .ok resolved ∧
        ∀ identity, resolved = .identity identity →
          ∃ pointer, castValue clone true value = .ok (.objectIdentifier pointer) ∧
            NameResolved view pointer identity) ↔
      ∀ pointer, castValue clone true value = .ok (.objectIdentifier pointer) →
        NameOk view pointer ∨ IsUnknown view pointer := by
  rw [hcast]
  cases cast with
  | objectIdentifier pointer =>
    have hpointer : ∀ other, (Except.ok (.objectIdentifier pointer) :
        Except MibException BindingValue) = .ok (.objectIdentifier other) ↔ pointer = other := by
      simp
    simp only [hpointer, exists_eq_left', forall_eq']
    exact pointerResult_iff view pointer
  | _ =>
    refine iff_of_true ⟨.plain _, rfl, ?_⟩ ?_
    · intro identity hidentity
      cases hidentity
    · intro pointer hpointer
      cases hpointer

/-- The value of a binding is resolved, whatever its syntax makes of it, or raises. -/
theorem valueResult_iff (view : MibView) (mibNode : MibNode) (value : BindingValue) :
    (∃ resolved, valueResult view true mibNode value = .ok resolved ∧
        ∀ identity, resolved = .identity identity →
          ∃ clone pointer, mibNode.getSyntax = some clone ∧
            castValue clone true value = .ok (.objectIdentifier pointer) ∧
              NameResolved view pointer identity) ↔
      ∀ clone, mibNode.getSyntax = some clone → isException value = false →
        (∀ error, clone value = .error error → error = .pyAsn1Error) ∧
          ∀ pointer, castValue clone true value = .ok (.objectIdentifier pointer) →
            NameOk view pointer ∨ IsUnknown view pointer := by
  unfold valueResult
  cases hsyntax : mibNode.getSyntax with
  | none =>
    refine iff_of_true ⟨.plain value, rfl, ?_⟩ ?_
    · intro identity hidentity
      cases hidentity
    · intro clone hclone
      cases hclone
  | some clone =>
    simp only
    cases hexception : isException value with
    | true =>
      refine iff_of_true ⟨.plain value, rfl, ?_⟩ ?_
      · intro identity hidentity
        cases hidentity
      · intro other _ hnot
        cases hnot
    | false =>
      rw [if_neg Bool.false_ne_true]
      constructor
      · rintro ⟨resolved, hresult, hidentities⟩ other hother -
        obtain rfl := Option.some.inj hother
        cases hcast : castValue clone true value with
        | error exception =>
          rw [hcast] at hresult
          cases hresult
        | ok cast =>
          refine ⟨castValue_eq_ok_iff.mp ⟨cast, hcast⟩, ?_⟩
          rw [← hcast]
          refine (castResult_iff hcast).mp ⟨resolved, hresult, fun identity hidentity ↦ ?_⟩
          obtain ⟨other, pointer, hother, hpointer, hname⟩ := hidentities identity hidentity
          rw [← Option.some.inj hother] at hpointer
          exact ⟨pointer, hpointer, hname⟩
      · intro hok
        obtain ⟨hcasts, hpointers⟩ := hok clone rfl rfl
        obtain ⟨cast, hcast⟩ := castValue_eq_ok_iff.mpr hcasts
        obtain ⟨resolved, hresult, hidentities⟩ := (castResult_iff hcast).mpr hpointers
        refine ⟨resolved, hresult, fun identity hidentity ↦ ?_⟩
        obtain ⟨pointer, hpointer, hname⟩ := hidentities identity hidentity
        exact ⟨clone, pointer, rfl, hpointer, hname⟩

/-- A binding is resolved exactly where its name and its value are in order. -/
theorem bindingResult_iff (view : MibView) (varBind : Oid × BindingValue) :
    (∃ resolved, bindingResult view true varBind = .ok resolved ∧
        BindingResolved view varBind resolved) ↔ BindingOk view varBind := by
  rw [BindingOk, ← nameResult_iff]
  cases hname : nameResult view varBind.1 with
  | error exception =>
    refine iff_of_false ?_ ?_
    · rintro ⟨resolved, hresult, -⟩
      rw [bindingResult, hname] at hresult
      cases hresult
    · rintro ⟨⟨identity, hidentity, -⟩, -⟩
      cases hidentity
  | ok name =>
    have hresult : bindingResult view true varBind =
        (valueResult view true name.symbol.mibNode varBind.2).map fun value ↦
          { name := name, value := value } := by
      rw [bindingResult, hname]
      exact bind_pure_comp (ObjectType.mk name)
        (valueResult view true name.symbol.mibNode varBind.2)
    constructor
    · rintro ⟨resolved, hresolved, hbinding⟩
      rw [hresult] at hresolved
      cases hvalue : valueResult view true name.symbol.mibNode varBind.2 with
      | error exception =>
        rw [hvalue] at hresolved
        cases hresolved
      | ok value =>
        rw [hvalue] at hresolved
        obtain rfl := Except.ok.inj hresolved
        refine ⟨⟨name, rfl, hbinding.name⟩, fun symbol clone hnearest ↦ ?_⟩
        obtain rfl := hnearest.eq hbinding.name.nearest
        exact (valueResult_iff view name.symbol.mibNode varBind.2).mp
          ⟨value, hvalue, hbinding.value⟩ clone
    · rintro ⟨⟨other, hother, hresolved⟩, hvalues⟩
      obtain rfl := Except.ok.inj hother
      obtain ⟨value, hvalue, hidentities⟩ :=
        (valueResult_iff view name.symbol.mibNode varBind.2).mpr fun clone ↦
          hvalues name.symbol clone hresolved.nearest
      exact ⟨⟨name, value⟩, by rw [hresult, hvalue]; rfl, hresolved, hidentities⟩

/-- A response is resolved if and only if each of its bindings is. -/
theorem bindingsResult_iff (view : MibView) (varBinds : List (Oid × BindingValue)) :
    (∃ resolved, bindingsResult view true varBinds = .ok resolved ∧
        List.Forall₂ (BindingResolved view) varBinds resolved) ↔
      ∀ varBind ∈ varBinds, BindingOk view varBind := by
  induction varBinds with
  | nil => exact iff_of_true ⟨[], rfl, .nil⟩ (by simp)
  | cons varBind varBinds ih =>
    rw [List.forall_mem_cons, ← ih, ← bindingResult_iff]
    constructor
    · rintro ⟨resolved, hresult, hforall⟩
      rw [bindingsResult] at hresult
      obtain ⟨first, hfirst, hresult⟩ := exists_of_bind_eq_ok hresult
      obtain ⟨others, hothers, hresult⟩ := exists_of_bind_eq_ok hresult
      obtain rfl : first :: others = resolved := Except.ok.inj hresult
      obtain ⟨hbinding, hrest⟩ := List.forall₂_cons.mp hforall
      exact ⟨⟨first, hfirst, hbinding⟩, others, hothers, hrest⟩
    · rintro ⟨⟨first, hfirst, hbinding⟩, others, hothers, hforall⟩
      refine ⟨first :: others, ?_, .cons hbinding hforall⟩
      rw [bindingsResult, hfirst, hothers]
      rfl

end Bindings

/-- The caches of the rows after any calls. -/
def cachesAfter (view : MibView) (history : Oid → List Call) : RowCaches := fun name ↦
  match (view.symbolAt name).map MibSymbol.mibNode with
  | some (.row indexNames) => (history name).foldl (call indexNames) .empty
  | _ => .empty

/-- The caches are coherent after any history. -/
theorem coherent_cachesAfter (view : MibView) (history : Oid → List Call) :
    Coherent view (cachesAfter view history) := by
  intro rowNode indexNames hsymbol hrow
  have hcaches : cachesAfter view history rowNode.name =
      (history rowNode.name).foldl (call indexNames) .empty := by
    rw [cachesAfter, hsymbol, Option.map_some, hrow]
  rw [hcaches]
  exact coherent_calls indexNames (history rowNode.name)

/-- Whatever the rows were asked before, a peer's name is resolved exactly where nothing is wrong
with what follows its longest loaded prefix, and the bindings of a response where this is so of each
of them. -/
theorem resolves_iff (view : MibView) (history : Oid → List Call) :
    (∀ oid, Resolves view (cachesAfter view history) oid ↔ NameOk view oid) ∧
      ∀ varBinds, Unmakes view (cachesAfter view history) varBinds ↔
        ∀ varBind ∈ varBinds, BindingOk view varBind := by
  have hcoherent := coherent_cachesAfter view history
  constructor
  · intro oid
    obtain ⟨after, -, hrun⟩ := yields_resolveWithMib view oid _ hcoherent
    rw [← nameResult_iff, Resolves, hrun]
    constructor
    · rintro ⟨identity, last, hresult, hresolved⟩
      exact ⟨identity, (Prod.mk.inj hresult).1, hresolved⟩
    · rintro ⟨identity, hresult, hresolved⟩
      exact ⟨identity, after, by rw [hresult], hresolved⟩
  · intro varBinds
    obtain ⟨after, -, hrun⟩ := yields_unmakeVarBinds view true varBinds _ hcoherent
    rw [← bindingsResult_iff, Unmakes, hrun]
    constructor
    · rintro ⟨resolved, last, hresult, hforall⟩
      exact ⟨resolved, (Prod.mk.inj hresult).1, hforall⟩
    · rintro ⟨resolved, hresult, hforall⟩
      exact ⟨resolved, after, by rw [hresult], hforall⟩

/-! ### A sub-identifier that is no octet -/

/-- A table whose index is a string. -/
def notifyView : MibView where
  symbols := [
    { modName := "SNMPv2-SMI", symName := "iso", name := [1], mibNode := .other },
    { modName := "SNMP-NOTIFICATION-MIB", symName := "snmpNotifyEntry"
      name := [1, 3, 6, 1, 6, 3, 13, 1, 1, 1]
      mibNode := .row [.base ⟨true, IndexRoundTrip.plainSyntax .octetString⟩] },
    { modName := "SNMP-NOTIFICATION-MIB", symName := "snmpNotifyTag"
      name := [1, 3, 6, 1, 6, 3, 13, 1, 1, 1, 2]
      mibNode := .column .ok }]
  nameDepth := 900
  locationDepth := 900

/-- `snmpNotifyTag.300` has a loaded prefix, and its resolution raises a `ValueError`. -/
theorem not_resolves_notifyView :
    ¬ ∀ (view : MibView) (history : Oid → List Call) (oid : Oid),
      (∃ symbol, IsNearest view oid symbol) → Resolves view (cachesAfter view history) oid := by
  intro hall
  have hfound : longestPrefix notifyView.IsLoaded [1, 3, 6, 1, 6, 3, 13, 1, 1, 1, 2, 300] =
      some ([1, 3, 6, 1, 6, 3, 13, 1, 1, 1, 2], [300]) := rfl
  obtain ⟨symbol, hnearest, -⟩ := exists_isNearest (longestPrefix_eq_some_iff.mp hfound).1
  obtain ⟨identity, after, hrun, -⟩ := hall notifyView (fun _ ↦ []) _ ⟨symbol, hnearest⟩
  have hraised : ((ObjectIdentity.resolveWithMib notifyView
      [1, 3, 6, 1, 6, 3, 13, 1, 1, 1, 2, 300]).run (cachesAfter notifyView fun _ ↦ [])).1 =
      .error (.python .valueError) := rfl
  rw [hrun] at hraised
  cases hraised

end Pysnmp.Smi.NameResolution
