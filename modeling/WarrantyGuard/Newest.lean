import WarrantyGuard.Category

/-!
# The newest category first

`order(by: "timestamp", descending: true)` is there to list the categories in the
order they were added, the newest first. `recent` is that list: a category that is
added comes to the front, in place of the one that its controller had, and one
that is deleted goes.
-/

namespace WarrantyGuard

structure Ordered where
  app : CategoryState
  recent : List Document

namespace Ordered

def recentAfter (s : Ordered) : CategoryEvent → List Document
  | .addButtonTapped vc newCategory now =>
    match s.app.ids[vc]? with
    | some id => Listing.toFront Document.id ⟨id, CategoryVC.categoryData id newCategory now⟩ s.recent
    | none => s.recent
  | .commitDelete vc _ =>
    match s.app.ids[vc]? with
    | some id => s.recent.filter fun d => d.id ≠ id
    | none => s.recent
  | _ => s.recent

def step (s : Ordered) (e : CategoryEvent) : Option Ordered := (s.app.step e).map fun app => ⟨app, s.recentAfter e⟩

def launch (collection : Collection) : Ordered :=
  ⟨CategoryState.launch collection, collection.orderDescending "timestamp"⟩

end Ordered

/-- What the clock reads when a category is added. -/
def CategoryEvent.now : CategoryEvent → Option ℚ
  | .addButtonTapped _ _ now => some now
  | _ => none

end WarrantyGuard
