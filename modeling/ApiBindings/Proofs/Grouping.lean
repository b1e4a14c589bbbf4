import ApiBindings.Proofs.FirstAppearance
import ApiBindings.Versions
import Mathlib.Data.List.Perm.Basic

/-!
# Grouping

Grouping puts the items of a list under their keys one after the other. The groups can be told from
the list at once: the keys are those of the items in the order of first appearance, and under each
key stand the items that have it, in the order of the list (`groupedBy_eq`). One more item is put at
the end of one group, so that every item stands in exactly one place (`perm_groupedBy`).

The versions of an API are groups of groups. Grouping twice comes to the same as filling one table
of tables route by route (`versionsOf_eq_foldl`).
-/

namespace ApiBindings

/-! ## Groups -/

section Groups

variable {α : Type} {key : α → String} {items members : List α} {item : α} {name : String}

theorem groupedBy_append_singleton (key : α → String) (items : List α) (item : α) :
    groupedBy key (items ++ [item]) = appendUnder (key item) item (groupedBy key items) := by
  rw [groupedBy, List.foldl_append]
  rfl

/-- The groups of a list: its keys in the order of first appearance, each with the items that have
it in the order of the list. -/
theorem groupedBy_eq (key : α → String) (items : List α) :
    groupedBy key items =
      (items.map key).eraseDups.map fun name => (name, items.filter fun item => key item = name) := by
  induction items using List.reverseRecOn with
  | nil => rfl
  | append_singleton items item ih =>
    rw [groupedBy_append_singleton, ih, appendUnder, Table.update_map (nodup_eraseDups _),
      List.map_append, List.map_singleton, eraseDups_append_singleton]
    simp only [List.mem_eraseDups]
    refine List.map_congr_left fun name hname => ?_
    rw [List.filter_append]
    by_cases hn : name = key item
    · subst hn
      by_cases hm : key item ∈ items.map key
      · simp [hm]
      · -- the item is the first one of its key
        have hnone : items.filter (fun other => key other = key item) = [] := by
          rw [List.filter_eq_nil_iff]
          intro other ho he
          exact hm (List.mem_map.2 ⟨other, ho, by simpa using he⟩)
        simp [hm, hnone]
    · simp [hn, Ne.symm hn]

theorem keys_groupedBy (key : α → String) (items : List α) :
    (groupedBy key items).map (·.1) = (items.map key).eraseDups := by
  rw [groupedBy_eq, List.map_map]
  exact List.map_id _

theorem of_mem_groupedBy (h : (name, members) ∈ groupedBy key items) :
    members = items.filter (fun item => key item = name) ∧ members ≠ [] := by
  rw [groupedBy_eq, List.mem_map] at h
  obtain ⟨_, hname, he⟩ := h
  obtain ⟨rfl, rfl⟩ := Prod.mk.inj he
  obtain ⟨item, hitem, rfl⟩ := List.mem_map.1 (List.mem_eraseDups.1 hname)
  exact ⟨rfl, List.ne_nil_of_mem (List.mem_filter.2 ⟨hitem, by simp⟩)⟩

theorem groupedBy_ne_nil (h : items ≠ []) : groupedBy key items ≠ [] := by
  obtain ⟨item, hitem⟩ := List.exists_mem_of_ne_nil items h
  have hname : key item ∈ (groupedBy key items).map (·.1) := by
    rw [keys_groupedBy, List.mem_eraseDups]
    exact List.mem_map_of_mem hitem
  intro he
  rw [he] at hname
  cases hname

theorem perm_appendUnder (name : String) (item : α) (groups : List (String × List α)) :
    ((appendUnder name item groups).flatMap (·.2)).Perm (groups.flatMap (·.2) ++ [item]) := by
  induction groups with
  | nil => exact .refl _
  | cons group groups ih =>
    obtain ⟨k, members⟩ := group
    unfold appendUnder at ih ⊢
    by_cases hk : name = k
    · -- the item comes in between the items of this group and those of the others
      have hbetween : (item :: groups.flatMap (·.2)).Perm (groups.flatMap (·.2) ++ [item]) :=
        (List.perm_append_singleton item _).symm
      simpa [Table.update, hk] using hbetween.append_left members
    · simpa [Table.update, hk] using ih.append_left members

/-- Every item stands in exactly one place of one group. -/
theorem perm_groupedBy (key : α → String) (items : List α) :
    ((groupedBy key items).flatMap (·.2)).Perm items := by
  induction items using List.reverseRecOn with
  | nil => exact .refl _
  | append_singleton items item ih =>
    rw [groupedBy_append_singleton]
    exact (perm_appendUnder _ _ _).trans (ih.append_right _)

end Groups

/-! ## Versions -/

/-- Puts a route under its group in the table of its version. -/
def addRoute (table : List (String × List (String × List Route))) (r : Route) :
    List (String × List (String × List Route)) :=
  Table.update r.version (fun groups => appendUnder r.group r (groups.getD [])) table

theorem Table.map_update {κ ν μ : Type} [BEq κ] {f : Option ν → ν} {f' : Option μ → μ} {g : ν → μ}
    (h : ∀ value, g (f value) = f' (value.map g)) (key : κ) (entries : List (κ × ν)) :
    (update key f entries).map (fun e => (e.1, g e.2)) =
      update key f' (entries.map fun e => (e.1, g e.2)) := by
  induction entries with
  | nil => simp [update, h]
  | cons e entries ih =>
    by_cases hk : key == e.1
    · simp [update, hk, h]
    · simp [update, hk, ih]

theorem versionsOf_eq_foldl (routes : List Route) :
    versionsOf routes = (routes.foldl addRoute []).map fun (label, groups) =>
      ⟨label, groups.map fun (name, routes) => ⟨name, routes⟩⟩ := by
  have htable : routes.foldl addRoute [] =
      (groupedBy Route.version routes).map fun e => (e.1, groupedBy Route.group e.2) := by
    induction routes using List.reverseRecOn with
    | nil => rfl
    | append_singleton routes r ih =>
      rw [List.foldl_append, ih, groupedBy_append_singleton, appendUnder, Table.map_update]
      · rfl
      · intro members
        rw [groupedBy_append_singleton]
        cases members <;> rfl
  rw [htable, List.map_map]
  rfl

theorem mem_of_mem_versionsOf {routes : List Route} {version : Version} {resource : Resource}
    {r : Route} (hversion : version ∈ versionsOf routes) (hresource : resource ∈ version.resources)
    (hr : r ∈ resource.routes) : r ∈ routes := by
  obtain ⟨⟨label, members⟩, hmembers, rfl⟩ := List.mem_map.1 hversion
  obtain ⟨⟨name, inner⟩, hinner, rfl⟩ := List.mem_map.1 hresource
  obtain ⟨rfl, -⟩ := of_mem_groupedBy hmembers
  obtain ⟨rfl, -⟩ := of_mem_groupedBy hinner
  exact (List.mem_filter.1 (List.mem_filter.1 hr).1).1

/-- **Grouping is a stable partition.** The versions have different labels and come in the order in
which the routes first name them, and so do the resources of a version. None of them is empty. A
resource has the routes of its version and group in their order, and every route stands in exactly
one place. -/
theorem versions_partition (routes : List Route) :
    (versionsOf routes).map (·.label) = (routes.map (·.version)).eraseDups ∧
    ((versionsOf routes).map (·.label)).Nodup ∧
    (∀ v ∈ versionsOf routes,
      v.resources ≠ [] ∧
      v.resources.map (·.name) =
        ((routes.filter fun r => r.version = v.label).map (·.group)).eraseDups ∧
      (v.resources.map (·.name)).Nodup ∧
      ∀ resource ∈ v.resources, resource.routes ≠ [] ∧
        resource.routes =
          routes.filter fun r => r.version = v.label ∧ r.group = resource.name) ∧
    ((versionsOf routes).flatMap fun v => v.resources.flatMap (·.routes)).Perm routes := by
  have hlabels : (versionsOf routes).map (·.label) = (routes.map (·.version)).eraseDups := by
    rw [versionsOf, List.map_map]
    exact keys_groupedBy _ _
  refine ⟨hlabels, hlabels ▸ nodup_eraseDups _, ?_, ?_⟩
  · intro v hv
    obtain ⟨⟨label, members⟩, hmem, rfl⟩ := List.mem_map.1 hv
    obtain ⟨rfl, hne⟩ := of_mem_groupedBy hmem
    have hnames : (groupedBy Route.group
        (routes.filter fun r => r.version = label)).map (·.1) = _ := keys_groupedBy _ _
    refine ⟨?_, ?_, ?_, ?_⟩
    · exact mt List.map_eq_nil_iff.1 (groupedBy_ne_nil hne)
    · rw [List.map_map]
      exact hnames
    · rw [List.map_map]
      exact hnames ▸ nodup_eraseDups _
    · intro resource hresource
      obtain ⟨⟨name, inner⟩, hinner, rfl⟩ := List.mem_map.1 hresource
      obtain ⟨rfl, hne⟩ := of_mem_groupedBy hinner
      refine ⟨hne, ?_⟩
      rw [List.filter_filter]
      exact List.filter_congr fun r _ => by simp [and_comm]
  · rw [versionsOf, List.flatMap_map]
    refine .trans (.flatMap_left _ fun e he => ?_) (perm_groupedBy Route.version routes)
    rw [List.flatMap_map]
    exact perm_groupedBy Route.group e.2

/-- A function without types. -/
def callOf (name group version : String) : Route :=
  ⟨name, none, .get, "/" ++ name, group, version, [], none, none⟩

/-- Calls of two versions that alternate. -/
def alternatingCalls : List Route :=
  [callOf "list" "User" "2", callOf "find" "User" "1", callOf "ping" "System" "2",
    callOf "drop" "User" "2"]

/-- The calls of the second version are in two resources, of which the first has its first and its
last call. -/
theorem alternating_calls_grouped :
    (versionsOf alternatingCalls).map (·.label) = ["2", "1"] ∧
    ∃ v ∈ versionsOf alternatingCalls, v.label = "2" ∧
      v.resources.map (·.name) = ["User", "System"] ∧
      ∀ resource ∈ v.resources, resource.name = "User" →
        resource.routes = [callOf "list" "User" "2", callOf "drop" "User" "2"] := by
  obtain ⟨hlabels, -, hversions, -⟩ := versions_partition alternatingCalls
  have hmem : "2" ∈ (versionsOf alternatingCalls).map (·.label) := hlabels ▸ by decide
  obtain ⟨v, hv, hlabel⟩ := List.mem_map.1 hmem
  obtain ⟨-, hnames, -, hresources⟩ := hversions v hv
  refine ⟨hlabels.trans (by decide), v, hv, hlabel, ?_, ?_⟩
  · rw [hnames, hlabel]
    decide
  · intro resource hresource hname
    rw [(hresources resource hresource).2, hlabel, hname]
    rfl

end ApiBindings
