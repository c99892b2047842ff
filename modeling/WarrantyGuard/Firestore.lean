import Mathlib.Data.Prod.Lex
import Mathlib.Data.Rat.Defs
import Mathlib.Algebra.Order.Ring.Rat
import Mathlib.Data.String.Basic
import WarrantyGuard.Listing

/-!
# Firestore collections and queries

A collection maps document ids to documents; `document(id).setData(data)` and
`document(id).delete()` act on one id. A query's result is a list of documents,
in the order of their ids, of which `whereField(_:isEqualTo:)` keeps those whose
field has the value. `order(by:descending: true)` leaves out the documents that
lack the field, and the document id decides where values are equal. A listener
is called with such a list or with an error.

Values are ordered by type and then within the type. Blobs, references, geo
points, arrays and maps (`other`) are never opened by the app: they have a type
rank and a place among their type. `Data.string` is `data[field] as? String`.
-/

namespace WarrantyGuard

inductive Value where
  | null
  | boolean (b : Bool)
  | number (n : ℚ)
  | timestamp (seconds : ℚ)
  | string (s : String)
  | other (rank : Nat) (place : ℚ)
  deriving DecidableEq

def Value.asString : Value → Option String
  | .string s => some s
  | _ => none

@[simp] theorem asString_string (s : String) : (Value.string s).asString = some s := rfl

def Value.place : Value → ℕ ×ₗ ℚ ×ₗ String
  | .null => toLex (0, toLex (0, ""))
  | .boolean b => toLex (1, toLex (if b then 1 else 0, ""))
  | .number n => toLex (2, toLex (n, ""))
  | .timestamp t => toLex (3, toLex (t, ""))
  | .string s => toLex (5, toLex (0, s))
  | .other rank p => toLex (6 + rank, toLex (p, ""))

abbrev Data := List (String × Value)

def Data.string (data : Data) (field : String) : Option String :=
  (data.lookup field).bind Value.asString

abbrev Document := Σ _ : String, Data

def Document.id (d : Document) : String := d.1

def Document.data (d : Document) : Data := d.2

abbrev Collection := AList fun _ : String => Data

namespace Collection

def setData (c : Collection) (id : String) (data : Data) : Collection := c.insert id data

def delete (c : Collection) (id : String) : Collection := c.erase id

def documents (c : Collection) : List Document :=
  (c.entries : List Document).insertionSort fun a b => a.id ≤ b.id

def whereField (c : Collection) (field : String) (isEqualTo : Value) : List Document :=
  c.documents.filter fun d => d.data.lookup field = some isEqualTo

def place (field : String) (d : Document) : (ℕ ×ₗ ℚ ×ₗ String) ×ₗ String :=
  toLex (((d.data.lookup field).getD .null).place, d.id)

def orderDescending (c : Collection) (field : String) : List Document :=
  (c.entries.filter fun d : Document => (d.data.lookup field).isSome).insertionSort
    fun a b => place field b ≤ place field a

end Collection

inductive Callback where
  | snapshot (documents : List Document)
  | error

/-! ## Reading a field -/

theorem string_eq_some {data : Data} {field text : String} :
    data.string field = some text ↔ data.lookup field = some (.string text) := by
  rw [Data.string, Option.bind_eq_some_iff]
  constructor
  · intro h
    obtain ⟨value, hlookup, hvalue⟩ := h
    cases value <;> cases hvalue
    exact hlookup
  · intro h
    exact ⟨.string text, h, rfl⟩

/-! ## Deleting under a query -/

section
variable (field : String)

instance : Std.Total fun a b : Document => Collection.place field b ≤ Collection.place field a :=
  ⟨fun _ _ => le_total _ _⟩

instance : IsTrans Document fun a b => Collection.place field b ≤ Collection.place field a :=
  ⟨fun _ _ _ h₁ h₂ => le_trans h₂ h₁⟩

theorem place_id {a b : Document} (h : Collection.place field a = Collection.place field b) :
    a.id = b.id :=
  congrArg Prod.snd (toLex.injective h)

theorem orderDescending_delete (c : Collection) (id : String) :
    (c.delete id).orderDescending field = (c.orderDescending field).filter fun d => d.id ≠ id := by
  unfold Collection.orderDescending Collection.delete
  rw [Listing.erase_entries, List.filter_comm, ← Listing.insertionSort_filter]
  · rfl
  · intro a ha b hb h₁ h₂
    have hid := place_id field (le_antisymm h₂ h₁)
    exact c.nodupKeys.eq_of_fst_eq (List.mem_of_mem_filter ha) (List.mem_of_mem_filter hb) hid

theorem orderDescending_ids_nodup (c : Collection) :
    ((c.orderDescending field).map Document.id).Nodup := by
  have hp := (List.perm_insertionSort (fun a b => Collection.place field b ≤ Collection.place field a)
    (c.entries.filter fun d : Document => (d.data.lookup field).isSome)).map Document.id
  exact hp.nodup_iff.mpr (List.NodupKeys.sublist List.filter_sublist c.nodupKeys)

theorem mem_documents {c : Collection} {d : Document} : d ∈ c.documents ↔ c.lookup d.id = some d.data :=
  (List.perm_insertionSort _ _).mem_iff.trans Listing.mem_entries

theorem mem_values_documents {c : Collection} {d : Document} (h : d ∈ c.documents) : d.data ∈ Listing.values c :=
  Listing.mem_values.mpr ⟨d.id, mem_documents.mp h⟩

theorem mem_whereField {c : Collection} {value : Value} {d : Document} :
    d ∈ c.whereField field value ↔ c.lookup d.id = some d.data ∧ d.data.lookup field = some value := by
  rw [Collection.whereField, List.mem_filter, mem_documents, decide_eq_true_eq]

theorem mem_orderDescending {c : Collection} {d : Document} (h : d ∈ c.orderDescending field) :
    c.lookup d.id = some d.data :=
  Listing.mem_entries.mp (List.mem_of_mem_filter ((List.perm_insertionSort _ _).subset h))

theorem whereField_values (c : Collection) (value : Value) :
    ((c.whereField field value).map Document.data).Perm
      ((Listing.values c).filter fun data => data.lookup field = some value) := by
  have hp := ((List.perm_insertionSort (fun a b : Document => a.id ≤ b.id) c.entries).filter
    fun d => d.data.lookup field = some value).map Document.data
  rw [Listing.values, List.filter_map]
  exact hp

end

end WarrantyGuard
