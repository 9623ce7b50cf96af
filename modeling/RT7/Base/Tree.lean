import RT7.Base.Bytes
import RT7.Base.Python
import RT7.Base.Text

/-!
# Trees of files

* `Node`, `Tree`    what an archive unpacks to: the nodes under their paths;
* `get?_set`        what is found in a tree when one node was put into it;
* `Lead`, `Tree.lead`   where a path leads when links are followed, in the tree or out of it;
* `Tree.stat`       what stands there; what stands out of the tree is given.
-/

namespace RT7.Files

open Py

inductive Kind where
  | file (content : Bytes)
  | directory
  | link (target : String)
  deriving DecidableEq, Repr

structure Node where
  kind : Kind
  mode : Nat
  uid : Nat
  gid : Nat
  mtime : Nat
  deriving DecidableEq, Repr

abbrev Tree := Dict String Node

variable {κ ν : Type} [DecidableEq κ]

theorem get?_set (d : Dict κ ν) (key key' : κ) (value : ν) :
    (d.set key value).get? key' = if key' = key then some value else d.get? key' := by
  ext value'
  rw [Dict.get?_eq_some, Dict.mem_items_set, Prod.mk.injEq]
  by_cases hk : key' = key
  · rw [if_pos hk, Option.some.injEq]
    exact ⟨fun h => h.elim (fun h => h.2.symm) fun h => absurd hk h.1, fun h => Or.inl ⟨hk, h.symm⟩⟩
  · rw [if_neg hk, Dict.get?_eq_some]
    exact ⟨fun h => h.elim (fun h => absurd h.1 hk) And.right, fun h => Or.inr ⟨hk, h⟩⟩

/-! ## links -/

/-- where a path leads: to a name in the tree, or to one that is looked up from its top -/
inductive Lead where
  | inside (names : List String)
  | outside (names : List String)
  | nowhere
  deriving DecidableEq, Repr

def nameOf (names : List String) : String := Text.join '/' names

namespace Tree
variable (tree : Tree)

def kindAt (names : List String) : Option Kind := (tree.get? (nameOf names)).map Node.kind

/-- The walk over the names of a path; `follow` goes on behind a link. -/
def walk (follow : List String → List String → Lead) : List String → List String → Lead
  | folder, [] => .inside folder
  | folder, name :: rest =>
    if name = "" ∨ name = "." then walk follow folder rest
    else if name = ".." then
      if folder = [] then .outside (name :: rest) else walk follow folder.dropLast rest
    else
      match kindAt tree (folder ++ [name]) with
      | none => .nowhere
      | some .directory => walk follow (folder ++ [name]) rest
      | some (.file _) => if rest = [] then .inside (folder ++ [name]) else .nowhere
      | some (.link target) =>
        let names := Text.split '/' target
        if names.head? = some "" then .outside (names ++ rest) else follow folder (names ++ rest)

/-- a path from the folder, with at most so many links on it -/
def lead : Nat → List String → List String → Lead
  | 0 => walk tree fun _ _ => .nowhere
  | n + 1 => walk tree (lead n)

/-- what `stat` finds behind all links; `outside` says so for the names out of the tree -/
def stat (outside : List String → Option Kind) (path : String) : Option Kind :=
  match tree.lead 40 [] (Text.split '/' path) with
  | .inside [] => some .directory
  | .inside names => tree.kindAt names
  | .outside names => outside names
  | .nowhere => none

end Tree

end RT7.Files
