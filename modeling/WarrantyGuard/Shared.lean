import WarrantyGuard.Category

/-!
# The readers of the category list

Two kinds of view read `AppDelegate.categories` by row. A `CategoryVC`'s table
and the category picker of an `AddProductVC` count the list and then ask for rows
below that count: the table counts again when it is reloaded, the picker only
when it is first shown. The picker's form also remembers the row it last gave a
title for. A subscript out of bounds traps, which is `none`.
-/

namespace WarrantyGuard

namespace CategoryVC

/-- The text of the cell's label. -/
def cellForRowAt (categories : List Category) (row : Nat) : Option (Option String) :=
  (categories[row]?).map (·.categoryName)

/-- The sender of the segue to `DetailVC`. -/
def didSelectRowAt (categories : List Category) (row : Nat) : Option (Option String) :=
  (categories[row]?).map (·.categoryName)

end CategoryVC

/-- The picker of an `AddProductVC`; `rows` is its count, once it has been shown. -/
structure CategoryPicker where
  currentIndex : Nat
  rows : Option Nat
  categoryTextField : String

namespace CategoryPicker

def viewDidLoad : CategoryPicker := ⟨0, none, ""⟩

def appear (vc : CategoryPicker) (categories : List Category) : CategoryPicker :=
  { vc with rows := some (vc.rows.getD categories.length) }

def counts (vc : CategoryPicker) (row : Nat) : Bool := vc.rows.any (row < ·)

def titleForRow (vc : CategoryPicker) (categories : List Category) (row : Nat) :
    Option (CategoryPicker × Option String) :=
  (categories[row]?).map fun category => ({ vc with currentIndex := row }, category.categoryName)

def didSelectRow (vc : CategoryPicker) (categories : List Category) (row : Nat) : Option CategoryPicker :=
  (categories[row]?).map fun category => { vc with categoryTextField := category.categoryName.getD "" }

def closePickerView (vc : CategoryPicker) (categories : List Category) : Option CategoryPicker :=
  (categories[vc.currentIndex]?).map fun category => { vc with categoryTextField := category.categoryName.getD "" }

end CategoryPicker

/-! ## The events of both -/

structure Shared where
  category : CategoryState
  forms : List CategoryPicker

inductive SharedEvent where
  | category (e : CategoryEvent)
  | openForm
  | showPicker (form : Nat)
  | titleForRow (form row : Nat)
  | didSelectRow (form row : Nat)
  | closePickerView (form : Nat)

namespace Shared

def categories (s : Shared) : List Category := s.category.categories

def launch (collection : Collection) : Shared := ⟨CategoryState.launch collection, []⟩

def onForm (s : Shared) (i : Nat) (f : CategoryPicker → Option CategoryPicker) : Option Shared :=
  (s.forms[i]?).bind fun vc => (f vc).map fun vc => { s with forms := s.forms.set i vc }

def step (s : Shared) : SharedEvent → Option Shared
  | .category e => (s.category.step e).map fun category => { s with category := category }
  | .openForm => some { s with forms := s.forms ++ [CategoryPicker.viewDidLoad] }
  | .showPicker i => s.onForm i fun vc => some (vc.appear s.categories)
  | .titleForRow i row => s.onForm i fun vc =>
    if vc.counts row then (vc.titleForRow s.categories row).map (·.1) else none
  | .didSelectRow i row => s.onForm i fun vc => if vc.counts row then vc.didSelectRow s.categories row else none
  | .closePickerView i => s.onForm i fun vc => if vc.rows.isSome then vc.closePickerView s.categories else none

end Shared

/-! ## A picker by itself -/

inductive PickerEvent where
  | appear
  | titleForRow (row : Nat)
  | didSelectRow (row : Nat)
  | closePickerView

/-- What a picker's callbacks make of its form while the list stays. -/
def CategoryPicker.step (categories : List Category) (vc : CategoryPicker) : PickerEvent → Option CategoryPicker
  | .appear => some (vc.appear categories)
  | .titleForRow row => (vc.titleForRow categories row).map (·.1)
  | .didSelectRow row => vc.didSelectRow categories row
  | .closePickerView => vc.closePickerView categories

/-- What an event of the app is to the picker of the form `i`. -/
def SharedEvent.picker (i : Nat) : SharedEvent → List PickerEvent
  | .category _ => []
  | .openForm => []
  | .showPicker form => if form = i then [.appear] else []
  | .titleForRow form row => if form = i then [.titleForRow row] else []
  | .didSelectRow form row => if form = i then [.didSelectRow row] else []
  | .closePickerView form => if form = i then [.closePickerView] else []

def PickerEvent.titled : PickerEvent → Option Nat
  | .titleForRow row => some row
  | _ => none

def PickerEvent.selected : PickerEvent → Option Nat
  | .didSelectRow row => some row
  | _ => none

/-- The row of the last title, 0 before the first. -/
def lastTitled (es : List PickerEvent) : Nat := Runs.last PickerEvent.titled 0 es

/-- The row selected last, 0 before the first. -/
def lastSelected (es : List PickerEvent) : Nat := Runs.last PickerEvent.selected 0 es

def nameOf (categories : List Category) (row : Nat) : String := ((categories[row]?).bind (·.categoryName)).getD ""

/-! ## The list by itself -/

inductive MirrorEvent where
  | listener (vc : Option Nat) (callback : Callback)
  | remove (row : Nat)

/-- What a listener's callback and the removal of a row in range make of the list. -/
def Mirror.step (categories : List Category) : MirrorEvent → Option (List Category)
  | .listener _ callback => some (getCategories categories callback).1
  | .remove row => removeAt categories row

/-- What `CategoryState`'s event does to the list. -/
def CategoryEvent.mirror : CategoryEvent → List MirrorEvent
  | .viewDidLoad _ => []
  | .addButtonTapped _ _ _ => []
  | .commitDelete _ row => [.remove row]
  | .listener vc callback => [.listener vc callback]

/-- The categories of a callback, one for each document. -/
def decoded : Callback → List Category
  | .snapshot documents => documents.map (Category.ofData ·.data)
  | .error => []

def MirrorEvent.decoded : MirrorEvent → Option (List Category)
  | .listener _ callback => some (WarrantyGuard.decoded callback)
  | .remove _ => none

/-- The decode of the last callback, `categories` before the first. -/
def lastDecoded (categories : List Category) (es : List MirrorEvent) : List Category :=
  ((es.filterMap MirrorEvent.decoded).getLast?).getD categories

end WarrantyGuard
