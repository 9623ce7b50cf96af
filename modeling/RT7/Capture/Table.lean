import RT7.Base.Python
import RT7.Base.Path
import Mathlib.Data.List.Dedup

/-!
# The table of captured partitions

* `partitions`      `PARTITIONS`: the boot chain and the A/B state, with their sizes;
* `Table`           a table whose names can stand in a command of the plan;
* `fixedSizes`, `expectedNames`   what one pass directory must hold;
* `expectedNames_perm`   the expected names are those of the table and four more.
-/

namespace RT7.Capture

open Py

def capturePasses : List String := ["pass1", "pass2"]

/-- Distinct names, without a space or a slash, other than the four that the plan adds. -/
structure Table where
  sizes : Dict String Nat
  noSpace : ∀ name ∈ sizes.keys, ' ' ∉ name.toList
  noSlash : ∀ name ∈ sizes.keys, '/' ∉ name.toList
  reserved : ∀ name ∈ sizes.keys, name ∉ ["gpt", "gpt_backup", "preloader_lu0", "preloader_lu1"]

/-- `PARTITIONS` -/
def partitions : Table where
  sizes :=
    ⟨[("misc", 0x80000), ("para", 0x80000), ("seccfg", 0x800000), ("vbmeta_a", 0x800000),
      ("vbmeta_system_a", 0x800000), ("vbmeta_vendor_a", 0x800000), ("vbmeta_b", 0x800000),
      ("vbmeta_system_b", 0x800000), ("vbmeta_vendor_b", 0x800000), ("lk_a", 0x200000),
      ("boot_a", 0x2800000), ("dtbo_a", 0x800000), ("tee_a", 0x500000), ("lk_b", 0x200000),
      ("boot_b", 0x2800000), ("dtbo_b", 0x800000), ("tee_b", 0xB00000)], by decide⟩
  noSpace := by decide
  noSlash := by decide
  reserved := by decide

/-- `f"{name}.bin"` -/
def binName (name : String) : String := name ++ ".bin"

/-- the sizes that a pass directory is checked against -/
def fixedSizes (table : Dict String Nat) : Dict String Nat :=
  (table.set "preloader_lu0" 0x80000).set "preloader_lu1" 0x80000

/-- `expected_names`; a set in the source, so without duplicates -/
def expectedNames (table : Dict String Nat) : List String :=
  ((fixedSizes table).keys.map binName ++ ["gpt.bin", "gpt_backup.bin"]).dedup

theorem toList_binName (name : String) : (binName name).toList = name.toList ++ ".bin".toList :=
  String.toList_append

theorem binName_injective : Function.Injective binName := by
  intro a b h
  rw [← String.toList_inj, toList_binName, toList_binName] at h
  exact String.toList_inj.mp (List.append_cancel_right h)

/-- a slash-free name with the suffix is a component -/
theorem component_binName {name : String} (h : '/' ∉ name.toList) : Component (binName name) := by
  have hlen : 4 ≤ (binName name).toList.length := by
    rw [toList_binName, List.length_append]
    exact Nat.le_add_left 4 _
  refine ⟨?_, ?_, ?_⟩
  · intro e
    rw [e] at hlen
    exact absurd hlen (by decide)
  · intro e
    rw [e] at hlen
    exact absurd hlen (by decide)
  · rw [toList_binName, List.mem_append]
    intro e
    cases e with
    | inl e => exact h e
    | inr e => exact absurd e (by decide)

theorem component_pass {pass : String} (h : pass ∈ capturePasses) : Component pass := by
  have all : ∀ p ∈ capturePasses, Component p := by decide
  exact all pass h

namespace Table
variable (table : Table)

def names : List String := table.sizes.keys

theorem names_nodup : table.names.Nodup := table.sizes.nodup

theorem not_mem_names {name : String}
    (h : name ∈ ["gpt", "gpt_backup", "preloader_lu0", "preloader_lu1"]) : name ∉ table.names :=
  fun hm => table.reserved name hm h

/-- The artifacts of one pass, without the suffix: the GPT, the table, the two preloaders. -/
def artifacts : List String :=
  ["gpt", "gpt_backup"] ++ table.names ++ ["preloader_lu0", "preloader_lu1"]

theorem artifacts_nodup : table.artifacts.Nodup := by
  have h1 : (["gpt", "gpt_backup"] ++ table.names).Nodup := by
    refine List.Nodup.append (by decide) table.names_nodup ?_
    intro a ha hb
    refine table.not_mem_names ?_ hb
    exact List.mem_append_left ["preloader_lu0", "preloader_lu1"] ha
  refine List.Nodup.append h1 (by decide) ?_
  intro a ha hb
  cases List.mem_append.mp ha with
  | inl ha =>
    have hdis : ∀ x ∈ ["gpt", "gpt_backup"], x ∉ ["preloader_lu0", "preloader_lu1"] := by decide
    exact hdis a ha hb
  | inr ha => exact table.not_mem_names (List.mem_append_right ["gpt", "gpt_backup"] hb) ha

theorem noSlash_artifacts {name : String} (h : name ∈ table.artifacts) : '/' ∉ name.toList := by
  have hfix : ∀ x ∈ ["gpt", "gpt_backup", "preloader_lu0", "preloader_lu1"], '/' ∉ x.toList := by
    decide
  cases List.mem_append.mp h with
  | inl h => cases List.mem_append.mp h with
    | inl h => exact hfix name (List.mem_append_left ["preloader_lu0", "preloader_lu1"] h)
    | inr h => exact table.noSlash name h
  | inr h => exact hfix name (List.mem_append_right ["gpt", "gpt_backup"] h)

theorem items_fixedSizes : (fixedSizes table.sizes).items =
    table.sizes.items ++ [("preloader_lu0", 0x80000), ("preloader_lu1", 0x80000)] := by
  have h0 : "preloader_lu0" ∉ table.sizes.keys := table.not_mem_names (by decide)
  have e0 := Dict.items_set_of_not_mem h0 0x80000
  have h1 : "preloader_lu1" ∉ (table.sizes.set "preloader_lu0" 0x80000).keys := by
    rw [Dict.keys, e0, List.map_append, List.mem_append, not_or]
    exact ⟨table.not_mem_names (by decide), by decide⟩
  rw [fixedSizes, Dict.items_set_of_not_mem h1, e0, List.append_assoc]
  rfl

theorem keys_fixedSizes :
    (fixedSizes table.sizes).keys = table.names ++ ["preloader_lu0", "preloader_lu1"] := by
  rw [Dict.keys, items_fixedSizes, List.map_append]
  rfl

/-- **The expected names are the artifacts with the suffix.** -/
theorem expectedNames_perm : (expectedNames table.sizes).Perm (table.artifacts.map binName) := by
  have e : (fixedSizes table.sizes).keys.map binName ++ ["gpt.bin", "gpt_backup.bin"]
      = (table.names ++ ["preloader_lu0", "preloader_lu1"] ++ ["gpt", "gpt_backup"]).map
          binName := by
    have hgpt : ["gpt.bin", "gpt_backup.bin"] = ["gpt", "gpt_backup"].map binName := by decide
    rw [keys_fixedSizes, hgpt, ← List.map_append]
  have hperm : (table.names ++ ["preloader_lu0", "preloader_lu1"] ++ ["gpt", "gpt_backup"]).Perm
      table.artifacts := by
    rw [artifacts, List.append_assoc ["gpt", "gpt_backup"]]
    exact List.perm_append_comm
  have hnd := hperm.symm.nodup table.artifacts_nodup
  rw [expectedNames, e, (hnd.map binName_injective).dedup]
  exact hperm.map binName

theorem mem_expectedNames {name : String} :
    name ∈ expectedNames table.sizes ↔ ∃ a ∈ table.artifacts, binName a = name := by
  rw [table.expectedNames_perm.mem_iff, List.mem_map]

end Table

end RT7.Capture
