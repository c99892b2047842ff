import WarrantyGuard.Cell
import WarrantyGuard.Runs

/-!
# The table of products

A row of `DetailVC`'s table that comes into view gets a cell that no row shows
any more, with what it showed last, or a new one, which is a copy of the
storyboard's prototype. A row that leaves gives its cell back, and reloading
takes all of them back. `now` is the day on which the row's cell was filled.
-/

namespace WarrantyGuard

structure VisibleRow where
  row : Nat
  now : Int
  cell : DetailTableViewCell

structure DetailTable where
  products : List Product
  visible : List VisibleRow
  reusable : List DetailTableViewCell

inductive TableEvent where
  | rowAppears (row : Nat) (reused : Option Nat) (now : Int)
  | rowDisappears (i : Nat)
  | reloadData (products : List Product)

namespace DetailTable

def viewDidLoad : DetailTable := ⟨[], [], []⟩

def dequeueReusableCell (s : DetailTable) (prototype : DetailTableViewCell) :
    Option Nat → Option (DetailTableViewCell × List DetailTableViewCell)
  | none => some (prototype, s.reusable)
  | some i => (s.reusable[i]?).map fun cell => (cell, s.reusable.eraseIdx i)

def step (L : Locale) (prototype : DetailTableViewCell) (s : DetailTable) : TableEvent → Option DetailTable
  | .rowAppears row reused now =>
    (s.products[row]?).bind fun product => (s.dequeueReusableCell prototype reused).bind fun r =>
      (DetailVC.cellForRowAt L now r.1 product).map fun cell =>
        { s with visible := s.visible ++ [⟨row, now, cell⟩], reusable := r.2 }
  | .rowDisappears i =>
    (s.visible[i]?).map fun r => { s with visible := s.visible.eraseIdx i, reusable := s.reusable ++ [r.cell] }
  | .reloadData products => some ⟨products, [], s.reusable ++ s.visible.map (·.cell)⟩

end DetailTable

end WarrantyGuard
