import ApiBindings.OpenApi.Routes
import ApiBindings.Proofs.FirstAppearance
import ApiBindings.Proofs.Outcomes

/-!
# Merged parameters

The table of parameters has one entry for each name and location, in the order in which these first
appear. A parameter that comes later under the same name and location takes the place of the earlier
one. It is named and located like that one, so that nothing changes for the URL. Merging succeeds
exactly if each parameter can be merged by itself, and the URL parameters are then the names in the
path in the order of first appearance (`urlParameters_eq_ok_iff`).

So each name in the path is kept once, whatever else is declared (`path_names_merged`), and a
parameter that is declared to be in the path becomes a URL parameter
(`mem_urlParameters_of_declared`).
-/

namespace ApiBindings.OpenApi

variable {shared own items items' : List Value} {parameters : List UrlParameter}
  {table table' : List (ParameterKey × Value)} {parameter other v : Value} {key key' : ParameterKey}
  {name : String}

/-! ## Names and keys -/

/-- A value is a parameter of a name that is located in the path. -/
def IsPathParameter (name : String) (v : Value) : Prop :=
  v.get "name" = .ok (.text name) ∧ v.get "in" = .ok (.text "path")

/-- The name of a parameter that is located in the path. A reference has none. -/
def pathName? (parameter : Value) : Option String :=
  match parameter.mentions "$ref", parameter.get "name", parameter.get "in" with
  | .ok false, .ok (.text name), .ok location => if location.isText "path" then some name else none
  | _, _, _ => none

/-- The key of the parameter of a name that is located in the path. -/
def pathKey (name : String) : ParameterKey := (.text name, .text "path")

/-- A parameter is no reference and has a name and a location that make a key. -/
structure HasKey (parameter : Value) (key : ParameterKey) : Prop where
  noReference : parameter.mentions "$ref" = .ok false
  name : parameter.get "name" = .ok (.scalar key.1)
  location : parameter.get "in" = .ok (.scalar key.2)

/-- A key is located in the path. -/
def InPath (key : ParameterKey) : Prop := key.2 = .text "path"

/-- The name of a key that is located in the path. -/
def keyName? (key : ParameterKey) : Option String :=
  match key with
  | (.text name, location) => if location == .text "path" then some name else none
  | _ => none

/-- Two keys have the same text for a name, or none, and both or neither are located in the path. -/
structure Alike (key key' : ParameterKey) : Prop where
  name : ∀ text, key.1 = .text text ↔ key'.1 = .text text
  inPath : InPath key ↔ InPath key'

theorem pathName?_eq_some_iff :
    pathName? parameter = some name ↔
      parameter.mentions "$ref" = .ok false ∧ IsPathParameter name parameter := by
  unfold pathName? IsPathParameter
  constructor
  · intro h
    split at h
    · rename_i text location hreference hname hlocation
      split at h
      · rename_i hpath
        obtain rfl := Option.some.inj h
        refine ⟨hreference, hname, hlocation.trans ?_⟩
        cases location with
        | scalar s =>
          rw [Value.isText_scalar, Scalar.beq_text_iff] at hpath
          rw [hpath]
        | _ => cases hpath
      · cases h
    · cases h
  · rintro ⟨hreference, hname, hlocation⟩
    simp only [hreference, hname, hlocation]
    rfl

theorem keyName?_eq_some_iff : keyName? key = some name ↔ key = pathKey name := by
  unfold keyName? pathKey
  constructor
  · intro h
    split at h
    · rename_i text location
      split at h
      · rename_i hlocation
        rw [Option.some.inj h, Scalar.beq_text_iff.1 hlocation]
      · cases h
    · cases h
  · rintro rfl
    rfl

theorem beq_pathKey_iff : (key == pathKey name) = true ↔ key = pathKey name := by
  obtain ⟨a, b⟩ := key
  change (a == .text name && b == .text "path") = true ↔ (a, b) = (.text name, .text "path")
  rw [Bool.and_eq_true, Scalar.beq_text_iff, Scalar.beq_text_iff, Prod.mk.injEq]

theorem pathKey_beq_comm (name : String) (key : ParameterKey) :
    (pathKey name == key) = (key == pathKey name) := by
  obtain ⟨a, b⟩ := key
  change (.text name == a && .text "path" == b) = (a == .text name && b == .text "path")
  rw [Scalar.text_beq_comm, Scalar.text_beq_comm]

theorem HasKey.pathName? (h : HasKey parameter key) : pathName? parameter = keyName? key := by
  apply Option.ext
  intro text
  rw [pathName?_eq_some_iff, keyName?_eq_some_iff, IsPathParameter, h.noReference, h.name,
    h.location]
  simp [pathKey, Prod.ext_iff]

theorem Alike.keyName? (h : Alike key key') : keyName? key = keyName? key' := by
  apply Option.ext
  intro text
  have hpath : key.2 = .text "path" ↔ key'.2 = .text "path" := h.inPath
  simp only [keyName?_eq_some_iff, pathKey, Prod.ext_iff, h.name text, hpath]

theorem Alike.refl (key : ParameterKey) : Alike key key := ⟨fun _ => .rfl, .rfl⟩

theorem Alike.symm (h : Alike key key') : Alike key' key :=
  ⟨fun text => (h.name text).symm, h.inPath.symm⟩

theorem HasKey.unique (h : HasKey parameter key) (h' : HasKey parameter key') : key = key' := by
  have hname := Except.ok.inj (h.name.symm.trans h'.name)
  have hlocation := Except.ok.inj (h.location.symm.trans h'.location)
  exact Prod.ext (Value.scalar.inj hname) (Value.scalar.inj hlocation)

theorem eq_text_iff_of_beq {a b : Scalar} (h : (a == b) = true) (text : String) :
    a = .text text ↔ b = .text text := by
  constructor
  · rintro rfl
    rw [Scalar.text_beq_comm] at h
    exact Scalar.beq_text_iff.1 h
  · rintro rfl
    exact Scalar.beq_text_iff.1 h

theorem alike_of_beq (h : (key == key') = true) : Alike key key' := by
  obtain ⟨hname, hlocation⟩ := Bool.and_eq_true_iff.1 h
  exact ⟨eq_text_iff_of_beq hname, eq_text_iff_of_beq hlocation "path"⟩

/-! ## The table of parameters -/

/-- What a table holds to which some parameters have been added. -/
structure Merged (items : List Value) (table : List (ParameterKey × Value)) : Prop where
  entry : ∀ e ∈ table, e.2 ∈ items ∧ ∃ key, HasKey e.2 key ∧ Alike e.1 key
  covered : ∀ v ∈ items, ∀ key, HasKey v key → ∃ key' ∈ Table.keys table, Alike key' key
  names : (Table.keys table).filterMap keyName? = (items.filterMap pathName?).eraseDups

theorem addParameter_eq_ok_iff : addParameter table parameter = .ok table' ↔
    (parameter.mentions "$ref" = .ok true ∧ table' = table) ∨
      ∃ key, HasKey parameter key ∧ table' = Table.put key parameter table := by
  constructor
  · intro h
    obtain ⟨reference, hreference, h⟩ := bind_eq_ok.1 h
    cases reference with
    | true => exact .inl ⟨hreference, (Except.ok.inj h).symm⟩
    | false =>
      obtain ⟨name, hname, h⟩ := bind_eq_ok.1 h
      obtain ⟨location, hlocation, h⟩ := bind_eq_ok.1 h
      obtain ⟨first, hfirst, h⟩ := bind_eq_ok.1 h
      obtain ⟨second, hsecond, h⟩ := bind_eq_ok.1 h
      rw [Value.eq_scalar_of_asKey hfirst] at hname
      rw [Value.eq_scalar_of_asKey hsecond] at hlocation
      exact .inr ⟨(first, second), ⟨hreference, hname, hlocation⟩, (Except.ok.inj h).symm⟩
  · rintro (⟨hreference, rfl⟩ | ⟨key, ⟨hreference, hname, hlocation⟩, rfl⟩)
    · unfold addParameter
      rw [hreference]
      rfl
    · unfold addParameter
      rw [hreference, hname, hlocation]
      rfl

theorem mem_keys_put (h : key' ∈ Table.keys table) : key' ∈ Table.keys (Table.put key v table) := by
  rw [Table.put, Table.keys_update]
  split
  · exact h
  · exact List.mem_append_left _ h

theorem exists_alike_put : ∃ key' ∈ Table.keys (Table.put key v table), Alike key' key := by
  rw [Table.put, Table.keys_update]
  split
  · rename_i hany
    obtain ⟨key', hmem, hbeq⟩ := List.any_eq_true.1 hany
    exact ⟨key', hmem, (alike_of_beq hbeq).symm⟩
  · exact ⟨key, List.mem_append_right _ (List.mem_singleton_self key), .refl key⟩

theorem filterMap_keyName?_put (v : Value) (hname : keyName? key = some name) :
    (Table.keys (Table.put key v table)).filterMap keyName? =
      if name ∈ (Table.keys table).filterMap keyName? then (Table.keys table).filterMap keyName?
      else (Table.keys table).filterMap keyName? ++ [name] := by
  obtain rfl := keyName?_eq_some_iff.1 hname
  have hany : (Table.keys table).any (pathKey name == ·) ↔
      name ∈ (Table.keys table).filterMap keyName? := by
    simp only [List.any_eq_true, pathKey_beq_comm, beq_pathKey_iff, List.mem_filterMap,
      keyName?_eq_some_iff]
  rw [Table.put, Table.keys_update]
  by_cases hmem : name ∈ (Table.keys table).filterMap keyName?
  · rw [if_pos (hany.2 hmem), if_pos hmem]
  · rw [if_neg (mt hany.1 hmem), if_neg hmem, List.filterMap_append]
    simp [hname]

theorem filterMap_keyName?_put_of_none (v : Value) (hname : keyName? key = none) :
    (Table.keys (Table.put key v table)).filterMap keyName? =
      (Table.keys table).filterMap keyName? := by
  rw [Table.put, Table.keys_update]
  split
  · rfl
  · rw [List.filterMap_append]
    simp [hname]

theorem merged_nil : Merged [] [] := ⟨by simp, by simp, rfl⟩

theorem pathName?_of_reference (h : parameter.mentions "$ref" = .ok true) :
    pathName? parameter = none := by
  unfold pathName?
  rw [h]

theorem Merged.reference (hm : Merged items table) (h : parameter.mentions "$ref" = .ok true) :
    Merged (items ++ [parameter]) table := by
  refine ⟨?_, ?_, ?_⟩
  · intro e he
    obtain ⟨hmem, hkey⟩ := hm.entry e he
    exact ⟨List.mem_append_left _ hmem, hkey⟩
  · intro v hv key hkey
    rcases List.mem_append.1 hv with hv | hv
    · exact hm.covered v hv key hkey
    · obtain rfl := List.mem_singleton.1 hv
      cases h.symm.trans hkey.noReference
  · rw [hm.names, List.filterMap_append]
    simp [pathName?_of_reference h]

theorem Merged.put (hm : Merged items table) (h : HasKey parameter key) :
    Merged (items ++ [parameter]) (Table.put key parameter table) := by
  refine ⟨?_, ?_, ?_⟩
  · intro e he
    rcases Table.of_mem_put he with ⟨hvalue, hkey⟩ | he
    · rw [hvalue]
      refine ⟨List.mem_append_right _ (List.mem_singleton_self _), key, h, ?_⟩
      rcases hkey with rfl | hbeq
      · exact .refl _
      · exact (alike_of_beq hbeq).symm
    · obtain ⟨hmem, hkey⟩ := hm.entry e he
      exact ⟨List.mem_append_left _ hmem, hkey⟩
  · intro v hv other hother
    rcases List.mem_append.1 hv with hv | hv
    · obtain ⟨key', hmem, halike⟩ := hm.covered v hv other hother
      exact ⟨key', mem_keys_put hmem, halike⟩
    · obtain rfl := List.mem_singleton.1 hv
      obtain rfl := h.unique hother
      exact exists_alike_put
  · rw [List.filterMap_append]
    cases hname : keyName? key with
    | none =>
      rw [filterMap_keyName?_put_of_none parameter hname, hm.names]
      simp [h.pathName?, hname]
    | some name =>
      rw [filterMap_keyName?_put parameter hname, hm.names]
      simp [h.pathName?, hname, eraseDups_append_singleton]

/-! ## Merging -/

/-- A parameter can be merged: it is a reference, or it has a key, with a text for a name if it is
located in the path. -/
def Mergeable (parameter : Value) : Prop :=
  parameter.mentions "$ref" = .ok true ∨
    ∃ key, HasKey parameter key ∧ (InPath key → ∃ text, key.1 = .text text)

theorem merged_of_foldlM (h : items.foldlM addParameter [] = .ok table) : Merged items table := by
  induction items using List.reverseRecOn generalizing table with
  | nil =>
    obtain rfl := Except.ok.inj h
    exact merged_nil
  | append_singleton items parameter ih =>
    rw [List.foldlM_append] at h
    obtain ⟨before, hbefore, h⟩ := bind_eq_ok.1 h
    rw [List.foldlM_cons] at h
    obtain ⟨after, hafter, h⟩ := bind_eq_ok.1 h
    obtain rfl := Except.ok.inj h
    obtain ⟨hreference, rfl⟩ | ⟨key, hkey, rfl⟩ := addParameter_eq_ok_iff.1 hafter
    · exact (ih hbefore).reference hreference
    · exact (ih hbefore).put hkey

/-- Parameters can be added to a table exactly if each of them is a reference or has a key. -/
theorem foldlM_addParameter_iff (items : List Value) (table : List (ParameterKey × Value)) :
    (∃ table', items.foldlM addParameter table = .ok table') ↔
      ∀ v ∈ items, v.mentions "$ref" = .ok true ∨ ∃ key, HasKey v key := by
  induction items generalizing table with
  | nil => exact ⟨fun _ => nofun, fun _ => ⟨table, rfl⟩⟩
  | cons parameter items ih =>
    rw [List.forall_mem_cons]
    constructor
    · rintro ⟨table', h⟩
      rw [List.foldlM_cons] at h
      obtain ⟨next, hnext, h⟩ := bind_eq_ok.1 h
      refine ⟨?_, (ih next).1 ⟨table', h⟩⟩
      obtain ⟨hreference, -⟩ | ⟨key, hkey, -⟩ := addParameter_eq_ok_iff.1 hnext
      · exact .inl hreference
      · exact .inr ⟨key, hkey⟩
    · rintro ⟨hparameter, hitems⟩
      obtain ⟨next, hnext⟩ : ∃ next, addParameter table parameter = .ok next := by
        obtain hreference | ⟨key, hkey⟩ := hparameter
        · exact ⟨table, addParameter_eq_ok_iff.2 (.inl ⟨hreference, rfl⟩)⟩
        · exact ⟨_, addParameter_eq_ok_iff.2 (.inr ⟨key, hkey, rfl⟩)⟩
      obtain ⟨table', h⟩ := (ih next).2 hitems
      refine ⟨table', ?_⟩
      rw [List.foldlM_cons, hnext]
      exact h

theorem urlParameter?_eq_ok_iff {outcome : Option UrlParameter} (h : HasKey v key) :
    urlParameter? v = .ok outcome ↔ (InPath key → ∃ text, key.1 = .text text) ∧
      outcome = (keyName? key).map fun name => ⟨name, .string⟩ := by
  unfold urlParameter?
  rw [h.location]
  change (if (Value.scalar key.2).isText "path" then _ else _) = _ ↔ _
  rw [Value.isText_scalar]
  by_cases hpath : InPath key
  · rw [if_pos (Scalar.beq_text_iff.2 hpath)]
    constructor
    · intro ho
      obtain ⟨item, hitem, hrest⟩ := bind_eq_ok.1 ho
      obtain ⟨label, hlabel, hyield⟩ := bind_eq_ok.1 hrest
      have hitemEq := Except.ok.inj (h.name.symm.trans (Value.get_of_item hitem))
      have htext := Value.eq_of_checkText (Checked.under_eq_valid (Checked.toExcept_eq_ok hlabel))
      have hname : key.1 = .text label := Value.scalar.inj (hitemEq.trans htext)
      rw [keyName?_eq_some_iff.2 (Prod.ext hname hpath)]
      exact ⟨fun _ => ⟨label, hname⟩, (Except.ok.inj hyield).symm⟩
    · rintro ⟨hname, rfl⟩
      obtain ⟨text, htext⟩ := hname hpath
      have hitem : v.item "name" = .ok (.text text) :=
        Value.item_of_get (h.name.trans (by rw [htext])) rfl
      rw [keyName?_eq_some_iff.2 (Prod.ext htext hpath), hitem]
      rfl
  · rw [if_neg (mt Scalar.beq_text_iff.1 hpath)]
    have hnone : keyName? key = none := by
      rw [Option.eq_none_iff_forall_ne_some]
      intro text htext
      exact hpath (congrArg Prod.snd (keyName?_eq_some_iff.1 htext))
    rw [hnone]
    constructor
    · intro ho
      exact ⟨fun hp => absurd hp hpath, (Except.ok.inj ho).symm⟩
    · rintro ⟨-, rfl⟩
      rfl

theorem mapM_urlParameter?_iff (hm : Merged items table) {outcomes : List (Option UrlParameter)} :
    table.mapM (fun e => urlParameter? e.2) = .ok outcomes ↔
      (∀ key ∈ Table.keys table, InPath key → ∃ text, key.1 = .text text) ∧
        outcomes = (Table.keys table).map fun key => (keyName? key).map fun name => ⟨name, .string⟩ := by
  have hentry : ∀ e ∈ table, ∀ outcome, urlParameter? e.2 = .ok outcome ↔
      (InPath e.1 → ∃ text, e.1.1 = .text text) ∧
        outcome = (keyName? e.1).map fun name => ⟨name, .string⟩ := by
    intro e he outcome
    obtain ⟨-, key, hkey, halike⟩ := hm.entry e he
    rw [urlParameter?_eq_ok_iff hkey, halike.keyName?, halike.inPath]
    simp only [halike.name]
  rw [mapM_eq_ok_iff hentry, Table.keys, List.map_map, List.forall_mem_map]
  rfl

/-- Where parameters have been merged, each can be merged exactly if the keys of the table that are
located in the path have texts for names. -/
theorem Merged.mergeable_iff (hm : Merged items table)
    (hkeys : ∀ v ∈ items, v.mentions "$ref" = .ok true ∨ ∃ key, HasKey v key) :
    (∀ v ∈ items, Mergeable v) ↔
      ∀ key ∈ Table.keys table, InPath key → ∃ text, key.1 = .text text := by
  constructor
  · intro h key hkey hpath
    obtain ⟨e, he, rfl⟩ := List.mem_map.1 hkey
    obtain ⟨hmem, key, hkey, halike⟩ := hm.entry e he
    obtain hreference | ⟨key', hkey', htext⟩ := h _ hmem
    · cases hreference.symm.trans hkey.noReference
    · obtain rfl := hkey.unique hkey'
      obtain ⟨text, htext⟩ := htext (halike.inPath.1 hpath)
      exact ⟨text, (halike.name text).2 htext⟩
  · intro h v hv
    obtain hreference | ⟨key, hkey⟩ := hkeys v hv
    · exact .inl hreference
    · refine .inr ⟨key, hkey, fun hpath => ?_⟩
      obtain ⟨key', hmem, halike⟩ := hm.covered v hv key hkey
      obtain ⟨text, htext⟩ := h key' hmem (halike.inPath.2 hpath)
      exact ⟨text, (halike.name text).1 htext⟩

/-- What remains of a table when its entries have become URL parameters. -/
theorem Merged.filterMap_names (hm : Merged items table) :
    ((Table.keys table).map fun key => (keyName? key).map fun name =>
      (⟨name, .string⟩ : UrlParameter)).filterMap id =
        (items.filterMap OpenApi.pathName?).eraseDups.map fun name => ⟨name, .string⟩ := by
  rw [← hm.names, List.filterMap_map, List.map_filterMap]
  rfl

theorem elements_orElse_list (items : List Value) :
    ((Value.list items).orElse (.list [])).elements = .ok items := by
  cases items with
  | nil => rfl
  | cons v items => rfl

/-- Merging succeeds exactly if every parameter can be merged, and yields the names in the path in
the order of first appearance. -/
theorem urlParameters_eq_ok_iff {shared own : Value}
    (hshared : (shared.orElse (.list [])).elements = .ok items)
    (hown : (own.orElse (.list [])).elements = .ok items') :
    urlParameters shared own = .ok parameters ↔
      (∀ v ∈ items ++ items', Mergeable v) ∧
        parameters = ((items ++ items').filterMap pathName?).eraseDups.map fun name =>
          ⟨name, .string⟩ := by
  constructor
  · intro h
    obtain ⟨_, hfirst, h⟩ := bind_eq_ok.1 h
    obtain rfl := Except.ok.inj (hshared.symm.trans hfirst)
    obtain ⟨_, hsecond, h⟩ := bind_eq_ok.1 h
    obtain rfl := Except.ok.inj (hown.symm.trans hsecond)
    obtain ⟨table, htable, h⟩ := bind_eq_ok.1 h
    obtain ⟨outcomes, houtcomes, h⟩ := bind_eq_ok.1 h
    have hm := merged_of_foldlM htable
    obtain ⟨hkeys, rfl⟩ := (mapM_urlParameter?_iff hm).1 houtcomes
    refine ⟨(hm.mergeable_iff ((foldlM_addParameter_iff _ _).1 ⟨table, htable⟩)).2 hkeys, ?_⟩
    rw [← hm.filterMap_names]
    exact (Except.ok.inj h).symm
  · rintro ⟨hmergeable, rfl⟩
    have hkeys : ∀ v ∈ items ++ items', v.mentions "$ref" = .ok true ∨ ∃ key, HasKey v key :=
      fun v hv => (hmergeable v hv).imp_right fun ⟨key, hkey, _⟩ => ⟨key, hkey⟩
    obtain ⟨table, htable⟩ := (foldlM_addParameter_iff _ []).2 hkeys
    have hm := merged_of_foldlM htable
    have houtcomes := (mapM_urlParameter?_iff hm).2 ⟨(hm.mergeable_iff hkeys).1 hmergeable, rfl⟩
    refine bind_eq_ok.2 ⟨items, hshared, ?_⟩
    refine bind_eq_ok.2 ⟨items', hown, ?_⟩
    refine bind_eq_ok.2 ⟨table, htable, ?_⟩
    refine bind_eq_ok.2 ⟨_, houtcomes, ?_⟩
    rw [hm.filterMap_names]
    rfl

theorem urlParameters_lists_eq_ok_iff :
    urlParameters (.list shared) (.list own) = .ok parameters ↔
      (∀ v ∈ shared ++ own, Mergeable v) ∧
        parameters = ((shared ++ own).filterMap pathName?).eraseDups.map fun name =>
          ⟨name, .string⟩ :=
  urlParameters_eq_ok_iff (elements_orElse_list shared) (elements_orElse_list own)

/-! ## What can be added -/

theorem name_map_urlParameter (names : List String) :
    (names.map fun name => (⟨name, .string⟩ : UrlParameter)).map (·.name) = names := by
  rw [List.map_map]
  exact List.map_id _

theorem mergeable_of_elsewhere (h : HasKey other key) (hpath : ¬ InPath key) :
    Mergeable other ∧ pathName? other = none := by
  refine ⟨.inr ⟨key, h, fun hp => absurd hp hpath⟩, ?_⟩
  rw [h.pathName?, Option.eq_none_iff_forall_ne_some]
  intro text htext
  exact hpath (congrArg Prod.snd (keyName?_eq_some_iff.1 htext))

/-- **Each name in the path is kept once.** Where the parameters of a path and of an operation can
be merged, the names of the URL parameters are different, and they are those of the parameters
located in the path, references aside, in the order in which the lists first name them. A parameter
that is located elsewhere changes nothing, whatever its name and wherever it is added, and neither
do copies of the parameters of the path among those of the operation. -/
theorem path_names_merged (h : urlParameters (.list shared) (.list own) = .ok parameters) :
    parameters.map (·.name) = ((shared ++ own).filterMap pathName?).eraseDups ∧
    (parameters.map (·.name)).Nodup ∧
    (∀ name, name ∈ parameters.map (·.name) ↔
      ∃ v ∈ shared ++ own, v.mentions "$ref" = .ok false ∧ IsPathParameter name v) ∧
    (∀ other key, HasKey other key → ¬ InPath key → ∀ before after,
      (shared = before ++ after →
        urlParameters (.list (before ++ other :: after)) (.list own) = .ok parameters) ∧
      (own = before ++ after →
        urlParameters (.list shared) (.list (before ++ other :: after)) = .ok parameters)) ∧
    ∀ before copies after, own = before ++ after → copies ⊆ shared →
      urlParameters (.list shared) (.list (before ++ copies ++ after)) = .ok parameters := by
  obtain ⟨hmergeable, rfl⟩ := urlParameters_lists_eq_ok_iff.1 h
  rw [name_map_urlParameter]
  refine ⟨rfl, nodup_eraseDups _, ?_, ?_, ?_⟩
  · intro name
    simp only [List.mem_eraseDups, List.mem_filterMap, pathName?_eq_some_iff]
  · intro other key hkey hpath before after
    obtain ⟨hother, hnone⟩ := mergeable_of_elsewhere hkey hpath
    constructor
    · rintro rfl
      refine urlParameters_lists_eq_ok_iff.2 ⟨?_, by simp [hnone]⟩
      simp only [List.forall_mem_append, List.forall_mem_cons] at hmergeable ⊢
      exact ⟨⟨hmergeable.1.1, hother, hmergeable.1.2⟩, hmergeable.2⟩
    · rintro rfl
      refine urlParameters_lists_eq_ok_iff.2 ⟨?_, by simp [hnone]⟩
      simp only [List.forall_mem_append, List.forall_mem_cons] at hmergeable ⊢
      exact ⟨hmergeable.1, hmergeable.2.1, hother, hmergeable.2.2⟩
  · rintro before copies after rfl hcopies
    refine urlParameters_lists_eq_ok_iff.2 ⟨?_, ?_⟩
    · simp only [List.forall_mem_append] at hmergeable ⊢
      exact ⟨hmergeable.1, ⟨hmergeable.2.1, fun v hv => hmergeable.1 v (hcopies hv)⟩,
        hmergeable.2.2⟩
    · have hsubset : copies.filterMap pathName? ⊆ shared.filterMap pathName? :=
        List.filterMap_subset pathName? hcopies
      simp only [List.filterMap_append]
      rw [eraseDups_append_of_subset hsubset]

/-- A parameter with a location. -/
def parameterIn (location name : String) : Value :=
  .mapping [(.text "name", .text name), (.text "in", .text location)]

/-- The parameters of a path, one of them in a header. -/
def userShared : List Value := [parameterIn "header" "id", parameterIn "path" "id"]

/-- The parameters of an operation, with its own one for one of the path. -/
def userOwn : List Value :=
  [parameterIn "path" "lang", parameterIn "path" "id", parameterIn "query" "id"]

/-- The user stays the first parameter in the path, also where the language comes first in a query,
and where the parameters of the path are copied. -/
theorem user_names_merged :
    urlParameters (.list userShared) (.list userOwn) = .ok [⟨"id", .string⟩, ⟨"lang", .string⟩] ∧
    urlParameters (.list (parameterIn "query" "lang" :: userShared)) (.list userOwn) =
      .ok [⟨"id", .string⟩, ⟨"lang", .string⟩] ∧
    urlParameters (.list userShared) (.list (userShared ++ userOwn)) =
      .ok [⟨"id", .string⟩, ⟨"lang", .string⟩] := by
  have h : urlParameters (.list userShared) (.list userOwn) =
      .ok [⟨"id", .string⟩, ⟨"lang", .string⟩] := rfl
  obtain ⟨-, -, -, helsewhere, hcopies⟩ := path_names_merged h
  have hkey : HasKey (parameterIn "query" "lang") (.text "lang", .text "query") := ⟨rfl, rfl, rfl⟩
  have hquery : ¬ InPath (.text "lang", .text "query") := fun hpath =>
    absurd (Scalar.text.inj hpath) (by decide)
  exact ⟨h, (helsewhere _ _ hkey hquery [] userShared).1 rfl,
    hcopies [] userShared userOwn rfl (List.Subset.refl _)⟩

/-! ## Declared parameters -/

/-- A list of parameters declares one of a name in the path, and not by a reference. -/
def DeclaredIn (parameters : Value) (name : String) : Prop :=
  ∃ items, parameters = .list items ∧
    ∃ v ∈ items, v.mentions "$ref" = .ok false ∧ IsPathParameter name v

/-- A parameter in the path is declared for a whole path or by the operation itself. -/
def Declared (shared operation : Value) (name : String) : Prop :=
  DeclaredIn shared name ∨ ∃ own, operation.get "parameters" = .ok own ∧ DeclaredIn own name

theorem mem_urlParameters_of_declared {shared own : Value}
    (h : urlParameters shared own = .ok parameters)
    (hdeclared : DeclaredIn shared name ∨ DeclaredIn own name) :
    ⟨name, .string⟩ ∈ parameters := by
  obtain ⟨items, hshared, hrest⟩ := bind_eq_ok.1 h
  obtain ⟨items', hown, -⟩ := bind_eq_ok.1 hrest
  obtain ⟨-, rfl⟩ := (urlParameters_eq_ok_iff hshared hown).1 h
  refine List.mem_map_of_mem (List.mem_eraseDups.2 (List.mem_filterMap.2 ?_))
  rcases hdeclared with ⟨_, rfl, v, hv, hreference, hp⟩ | ⟨_, rfl, v, hv, hreference, hp⟩
  · obtain rfl := Except.ok.inj ((elements_orElse_list _).symm.trans hshared)
    exact ⟨v, List.mem_append_left _ hv, pathName?_eq_some_iff.2 ⟨hreference, hp⟩⟩
  · obtain rfl := Except.ok.inj ((elements_orElse_list _).symm.trans hown)
    exact ⟨v, List.mem_append_right _ hv, pathName?_eq_some_iff.2 ⟨hreference, hp⟩⟩

end ApiBindings.OpenApi
