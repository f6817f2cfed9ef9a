import Mathlib.Data.List.InsertIdx
import Pysnmp.Foundation.Effect

/-!
# Lists that are objects

A store of lists that programs hold by reference and change in place, with the operations of Python
lists. A reference is an index into the store; a new list goes to the end of it, where the run
lemmas are about: what a program does to the list it has made leaves all other lists as they were.
-/

set_option autoImplicit false
set_option relaxedAutoImplicit false

namespace Pysnmp.Foundation.ListObjects

open Effect

variable {α ε : Type}

/-- The lists there are. -/
abbrev Objects (α : Type) := List (List α)

/-- The items of a list. -/
def contents (indexError : ε) (reference : ℕ) : Effect (Objects α) ε (List α) := do
  match ← gets fun objects ↦ objects[reference]? with
  | some items => pure items
  | none => raise indexError

/-- Replace the items of a list. -/
def replace (reference : ℕ) (items : List α) : Effect (Objects α) ε Unit :=
  modify fun objects ↦ objects.set reference items

/-- `list(items)`. -/
def newList (items : List α) : Effect (Objects α) ε ℕ := do
  let reference ← gets List.length
  modify fun objects ↦ objects ++ [items]
  pure reference

/-- `list.insert`; beyond the end it is at the end. -/
def insert (indexError : ε) (reference index : ℕ) (item : α) : Effect (Objects α) ε Unit := do
  let items ← contents indexError reference
  replace reference (items.insertIdx (min index items.length) item)

/-- `list[index] = item`. -/
def setItem (indexError : ε) (reference index : ℕ) (item : α) : Effect (Objects α) ε Unit := do
  let items ← contents indexError reference
  if index < items.length then
    replace reference (items.set index item)
  else
    raise indexError

/-- `list.pop(index)`. -/
def pop (indexError : ε) (reference index : ℕ) : Effect (Objects α) ε α := do
  let items ← contents indexError reference
  match items[index]? with
  | some item => do
    replace reference (items.eraseIdx index)
    pure item
  | none => raise indexError

/-- `del list[index]`. -/
def delItem (indexError : ε) (reference index : ℕ) : Effect (Objects α) ε Unit := do
  let _ ← pop indexError reference index
  pure ()

/-! ### The list made last -/

section Last

variable {indexError : ε} {objects : Objects α} {items : List α}

theorem contents_run {reference : ℕ} (hitems : objects[reference]? = some items) :
    (contents indexError reference).run objects = (.ok items, objects) := by
  rw [contents, bind_run_of_ok (gets_run _ _), hitems]
  rfl

theorem contents_run_last :
    (contents indexError objects.length).run (objects ++ [items]) =
      (.ok items, objects ++ [items]) :=
  contents_run List.getElem?_concat_length

theorem replace_run_last (other : List α) :
    (replace objects.length other : Effect (Objects α) ε Unit).run (objects ++ [items]) =
      (.ok (), objects ++ [other]) := by
  rw [replace, modify_run, List.set_append_right _ _ le_rfl, Nat.sub_self]
  rfl

theorem newList_run :
    (newList items : Effect (Objects α) ε ℕ).run objects =
      (.ok objects.length, objects ++ [items]) :=
  rfl

theorem insert_run_last {index : ℕ} {item : α} (hindex : index ≤ items.length) :
    (insert indexError objects.length index item).run (objects ++ [items]) =
      (.ok (), objects ++ [items.insertIdx index item]) := by
  rw [insert, bind_run_of_ok contents_run_last, replace_run_last, min_eq_left hindex]

theorem setItem_run_last {index : ℕ} {item : α} (hindex : index < items.length) :
    (setItem indexError objects.length index item).run (objects ++ [items]) =
      (.ok (), objects ++ [items.set index item]) := by
  rw [setItem, bind_run_of_ok contents_run_last, if_pos hindex, replace_run_last]

theorem pop_run_last {index : ℕ} {item : α} (hitem : items[index]? = some item) :
    (pop indexError objects.length index).run (objects ++ [items]) =
      (.ok item, objects ++ [items.eraseIdx index]) := by
  rw [pop, bind_run_of_ok contents_run_last, hitem]
  exact bind_run_of_ok (replace_run_last _)

theorem delItem_run_last {index : ℕ} (hindex : index < items.length) :
    (delItem indexError objects.length index).run (objects ++ [items]) =
      (.ok (), objects ++ [items.eraseIdx index]) := by
  rw [delItem, bind_run_of_ok (pop_run_last (List.getElem?_eq_getElem hindex))]
  rfl

end Last

end Pysnmp.Foundation.ListObjects
