import ApiBindings.Table
import Mathlib.Data.List.Induction
import Mathlib.Data.List.Nodup

/-!
# First appearance

The keys of a list are told once each, in the order in which they first appear. A table that is
filled along a list has its keys in that order, so that filling it can be compared with a function
on the keys (`Table.update_map`).
-/

namespace ApiBindings

section Keys

variable {κ : Type} [BEq κ] [LawfulBEq κ]

theorem eraseDups_append_singleton (keys : List κ) (key : κ) :
    (keys ++ [key]).eraseDups = if key ∈ keys then keys.eraseDups else keys.eraseDups ++ [key] := by
  rw [List.eraseDups_append]
  by_cases h : key ∈ keys
  · simp [h, List.removeAll]
  · simp [h, List.removeAll, List.eraseDups_cons]

theorem nodup_eraseDups (keys : List κ) : keys.eraseDups.Nodup := by
  induction keys using List.reverseRecOn with
  | nil => exact List.nodup_nil
  | append_singleton keys key ih =>
    rw [eraseDups_append_singleton]
    split
    · exact ih
    · rename_i h
      exact List.nodup_append_comm.1 (List.nodup_cons.2 ⟨mt List.mem_eraseDups.1 h, ih⟩)

theorem eraseDups_append_of_subset {keys before copies after : List κ} (h : copies ⊆ keys) :
    (keys ++ (before ++ copies ++ after)).eraseDups = (keys ++ (before ++ after)).eraseDups := by
  have hnone : copies.removeAll keys = [] := by
    rw [List.removeAll, List.filter_eq_nil_iff]
    intro key hkey
    simp [h hkey]
  rw [List.eraseDups_append, List.eraseDups_append]
  simp only [List.removeAll, List.filter_append] at hnone ⊢
  rw [hnone, List.append_nil]

end Keys

namespace Table

variable {κ ν : Type} [DecidableEq κ]

/-- Updating a table of the values of a function updates the function at the key. -/
theorem update_map {keys : List κ} (h : keys.Nodup) (key : κ) (f : Option ν → ν) (g : κ → ν) :
    update key f (keys.map fun k => (k, g k)) =
      (if key ∈ keys then keys else keys ++ [key]).map fun k =>
        (k, if k = key then f (if key ∈ keys then some (g key) else none) else g k) := by
  induction keys with
  | nil => simp [update]
  | cons k keys ih =>
    obtain ⟨hk, hkeys⟩ := List.nodup_cons.1 h
    by_cases he : key = k
    · subst he
      have hrest : ∀ k ∈ keys, (k, g k) = (k, if k = key then f (some (g key)) else g k) := by
        intro k hm
        have hne : k ≠ key := by
          rintro rfl
          exact hk hm
        rw [if_neg hne]
      simp [update, List.map_congr_left hrest]
    · have hne : ¬ k = key := fun h => he h.symm
      rw [List.map_cons, update, ih hkeys]
      by_cases hm : key ∈ keys
      · simp [he, hne, hm]
      · simp [he, hne, hm]

end Table

end ApiBindings
