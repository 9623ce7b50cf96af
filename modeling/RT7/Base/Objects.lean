import RT7.Base.Python
import Mathlib.Data.List.GetD

/-!
# Lists that are changed in place

* `Heap`            the list objects that were created so far; a `Ref` is the number of one;
* `load`, `copy`, `setItem`   the items of an object, `r.copy()` and `r[i] = value`;
* `load_append`     objects that are created later change nothing about an object;
* `setItem_append`  what an assignment does to the object that was created last.
-/

namespace RT7.Objects

open Py

variable {α : Type}

abbrev Ref := Nat

abbrev Heap (α : Type) := List (List α)

def load (heap : Heap α) (r : Ref) : List α := heap.getD r []

def copy (heap : Heap α) (r : Ref) : Ref × Heap α := (heap.length, heap ++ [load heap r])

def setItem (heap : Heap α) (r : Ref) (i : Nat) (value : α) : Except Exn (Heap α) := do
  let items ← Py.setItem (load heap r) i value
  return heap.set r items

variable {heap rest : Heap α} {items : List α} {r : Ref}

theorem load_append (h : r < heap.length) : load (heap ++ rest) r = load heap r := by
  rw [load, load, List.getD_append heap rest [] r h]

theorem load_last (heap : Heap α) (items : List α) : load (heap ++ [items]) heap.length = items := by
  rw [load, List.getD_append_right heap [items] [] heap.length (Nat.le_refl _), Nat.sub_self]
  rfl

theorem setItem_append (heap : Heap α) (items : List α) (i : Nat) (value : α) :
    setItem (heap ++ [items]) heap.length i value
      = (Py.setItem items i value).map fun items => heap ++ [items] := by
  rw [setItem, load_last]
  cases Py.setItem items i value with
  | error e => rfl
  | ok items' =>
    show Except.ok ((heap ++ [items]).set heap.length items') = _
    rw [List.set_append_right heap.length items' (Nat.le_refl _), Nat.sub_self]
    rfl

end RT7.Objects
