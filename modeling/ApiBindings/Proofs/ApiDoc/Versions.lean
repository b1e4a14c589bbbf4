import ApiBindings.Proofs.ApiDoc.Record
import ApiBindings.Proofs.ApiDoc.TypeNames
import Mathlib.Data.Finset.Card

/-!
# Types of the versions of a route

The types of a route are named by the name of the route, its version if it is one of several, a word
for the part in the route, and keys of fields. All of these are joined by blanks, and all but the
version may have blanks themselves. So the first word after the name tells the version, or else that
there is none (`head_eq_of_placeName_eq`).

Whether a name has several versions is counted over all entries before the first route is made
(`hasSeveralVersions_iff`).
-/

namespace ApiBindings.ApiDoc

/-- The names of the records and unions in the payload and the response of a route, at any depth. -/
def typeNames (route : Route) : List String :=
  (route.types.flatMap fun ty => ty :: ty.referenced).filterMap Ty.name?

/-! ## Names -/

section Names

variable {place name : String} {entry : Value} {versioned : Bool} {route : Route}
  {fields : List Value} {ty : Ty}

theorem toList_placeName (place : String) (path : List String) :
    (placeName place path).toList = place.toList ++ path.flatMap fun key => ' ' :: key.toList := by
  induction path generalizing place with
  | nil => simp [placeName]
  | cons key path ih =>
    have hblank : " ".toList = [' '] := rfl
    rw [placeName, List.foldl_cons, ← placeName, ih]
    simp [hblank]

theorem takeWhile_word {word : String} (h : ' ' ∉ word.toList) (path : List String) :
    (word.toList ++ path.flatMap fun key => ' ' :: key.toList).takeWhile (· ≠ ' ') =
      word.toList := by
  have hword : ∀ c ∈ word.toList, decide (c ≠ ' ') = true := by
    intro c hc
    rw [decide_eq_true_eq]
    rintro rfl
    exact h hc
  rw [List.takeWhile_append_of_pos hword]
  cases path with
  | nil => simp
  | cons key path => simp

/-- The first word after the name can be told from the whole. -/
theorem head_eq_of_placeName_eq {a b : String} {path path' : List String}
    (h : placeName place (a :: path) = placeName place (b :: path')) (ha : ' ' ∉ a.toList)
    (hb : ' ' ∉ b.toList) : a = b := by
  have hchars := congrArg String.toList h
  rw [toList_placeName, toList_placeName, List.append_cancel_left_eq, List.flatMap_cons,
    List.flatMap_cons, List.cons_append, List.cons_append, List.cons.injEq] at hchars
  have hwords := congrArg (List.takeWhile (· ≠ ' ')) hchars.2
  rw [takeWhile_word ha, takeWhile_word hb] at hwords
  exact String.toList_inj.1 hwords

theorem name_of_mem_recordOf {t : Ty} {n : String} (h : recordOf name fields = .ok (some ty))
    (ht : t ∈ ty :: ty.referenced) (hn : t.name? = some n) : ∃ path, n = placeName name path := by
  obtain ⟨placed, members, -, rfl, hmembers⟩ := recordOf_ok h
  have hbuilt : Built name placed (.record name members) := .record hmembers
  obtain ⟨path, part, hnests, rfl⟩ := hasPart_of_built hbuilt (by simp [hn]) ht
  exact ⟨path, (built_of_nests hbuilt hnests).name_inner hn⟩

/-- The keys between the name of a route and the part: its version if the types carry one. -/
def carried (versioned : Bool) (route : Route) : List String :=
  if versioned && route.version != "" then [route.version] else []

theorem typePrefix_append (versioned : Bool) (route : Route) (part : String) :
    typePrefix versioned route ++ " " ++ part =
      placeName route.name (carried versioned route ++ [part]) := by
  unfold typePrefix carried
  split
  · rfl
  · rfl

/-- The names of the types of a route go on from its name with its version, if they carry it, and
with the part. -/
theorem name_of_mem_typeNames {n : String} (h : routeOfEntry entry versioned = .ok route)
    (hn : n ∈ typeNames route) : ∃ part path, (part = "payload" ∨ part = "response") ∧
      n = placeName route.name (carried versioned route ++ part :: path) := by
  obtain ⟨-, hpayload, hresponse⟩ := routeOfEntry_ok h
  obtain ⟨t, ht, htn⟩ := List.mem_filterMap.1 hn
  obtain ⟨ty, hty, ht⟩ := List.mem_flatMap.1 ht
  have hnamed : ∀ part fields, recordOf (typePrefix versioned route ++ " " ++ part) fields =
      .ok (some ty) → ∃ path, n = placeName route.name (carried versioned route ++ part :: path) := by
    intro part fields hrecord
    obtain ⟨path, rfl⟩ := name_of_mem_recordOf hrecord ht htn
    refine ⟨path, ?_⟩
    rw [typePrefix_append, placeName, placeName, placeName, ← List.foldl_append, List.append_assoc]
    rfl
  rcases List.mem_append.1 hty with hty | hty
  · obtain ⟨fields, hrecord⟩ := hpayload ty (Option.mem_toList.1 hty)
    obtain ⟨path, hpath⟩ := hnamed "payload" fields (by rwa [String.append_assoc])
    exact ⟨"payload", path, .inl rfl, hpath⟩
  · obtain ⟨fields, hrecord⟩ := hresponse ty (Option.mem_toList.1 hty)
    obtain ⟨path, hpath⟩ := hnamed "response" fields (by rwa [String.append_assoc])
    exact ⟨"response", path, .inr rfl, hpath⟩

end Names

/-! ## Counting versions -/

section Counting

variable {entry : Value} {entries : List Value} {route : Route} {routes : List Route}
  {table : List (Scalar × List Scalar)}

/-- A version added to some, unless it is there. -/
def withVersion (version : String) (versions : Option (List String)) : List String :=
  if version ∈ versions.getD [] then versions.getD [] else versions.getD [] ++ [version]

/-- The versions of the names of some routes. -/
def versionTable (routes : List Route) : List (String × List String) :=
  routes.foldl (fun table r => Table.update r.name (withVersion r.version) table) []

/-- A table of texts as it stands in data. -/
def scalars (table : List (String × List String)) : List (Scalar × List Scalar) :=
  table.map fun e => (.text e.1, e.2.map .text)

theorem lookup_scalars (name : String) (table : List (String × List String)) :
    (scalars table).lookup (.text name) = (table.lookup name).map (·.map .text) := by
  induction table with
  | nil => rfl
  | cons e table ih =>
    rw [scalars, List.map_cons, ← scalars, List.lookup_cons, List.lookup_cons, Scalar.text_beq_text,
      ih]
    split
    · rfl
    · rfl

theorem update_scalars (name : String) {f : Option (List Scalar) → List Scalar}
    {g : Option (List String) → List String}
    (h : ∀ versions, f (versions.map (·.map .text)) = (g versions).map .text)
    (table : List (String × List String)) :
    Table.update (.text name) f (scalars table) = scalars (Table.update name g table) := by
  induction table with
  | nil => exact congrArg (fun versions => [(Scalar.text name, versions)]) (h none)
  | cons e table ih =>
    rw [scalars, List.map_cons, ← scalars, Table.update, Table.update, Scalar.text_beq_text, ih]
    split
    · exact congrArg (fun versions => (Scalar.text e.1, versions) :: scalars table) (h (some e.2))
    · rfl

theorem addVersion_scalars (h : Labels entry route) (table : List (String × List String)) :
    addVersion (scalars table) entry =
      .ok (scalars (Table.update route.name (withVersion route.version) table)) := by
  obtain ⟨es, rfl, hname, hversion⟩ := h
  simp only [addVersion, Value.entries_mapping, hname, hversion, Value.asKey, bind, Except.bind,
    pure, Except.pure]
  rw [update_scalars]
  intro versions
  have hcontains : ∀ vs : List String, (vs.map Scalar.text).contains (.text route.version) =
      decide (route.version ∈ vs) := by
    intro vs
    induction vs with
    | nil => rfl
    | cons v vs ih =>
      rw [List.map_cons, List.contains_cons, ih, Scalar.text_beq_text, List.decide_mem_cons]
  cases versions with
  | none => rfl
  | some versions =>
    simp only [Option.map_some, Option.getD_some, hcontains, decide_eq_true_eq, withVersion]
    split
    · rfl
    · rw [List.map_append]
      rfl

theorem foldlM_addVersion (h : List.Forall₂ Labels entries routes)
    (table : List (String × List String)) :
    entries.foldlM addVersion (scalars table) =
      .ok (scalars (routes.foldl
        (fun table r => Table.update r.name (withVersion r.version) table) table)) := by
  induction h generalizing table with
  | nil => rfl
  | cons hlabels _ ih =>
    rw [List.foldlM_cons, addVersion_scalars hlabels]
    exact ih _

theorem lookup_versionTable (name : String) (routes : List Route) :
    ((versionTable routes).lookup name).getD [] =
      ((routes.filter fun r => r.name = name).map (·.version)).eraseDups := by
  induction routes using List.reverseRecOn with
  | nil => rfl
  | append_singleton routes r ih =>
    rw [versionTable, List.foldl_append, ← versionTable, List.foldl_cons, List.foldl_nil,
      List.filter_append, List.map_append]
    by_cases hr : r.name = name
    · subst hr
      have hself : [r].filter (fun s => s.name = r.name) = [r] := by simp
      rw [Table.lookup_update_self, Option.getD_some, withVersion, ih, hself, List.map_singleton,
        eraseDups_append_singleton]
      exact if_congr List.mem_eraseDups rfl rfl
    · rw [Table.lookup_update_of_ne _ _ fun h => hr h.symm, ih]
      simp [hr]

theorem hasSeveralVersions_iff (h : List.Forall₂ Labels entries routes)
    (htable : entries.foldlM addVersion [] = .ok table) (hlabels : Labels entry route) :
    hasSeveralVersions table entry = true ↔
      ∃ r ∈ routes, ∃ s ∈ routes, r.name = route.name ∧ s.name = route.name ∧
        r.version ≠ s.version := by
  obtain ⟨es, rfl, hname, -⟩ := hlabels
  obtain rfl := Except.ok.inj ((foldlM_addVersion h []).symm.trans htable)
  have hlookup : ((scalars (versionTable routes)).lookup (.text route.name)).getD [] =
      (((versionTable routes).lookup route.name).getD []).map .text := by
    rw [lookup_scalars]
    cases (versionTable routes).lookup route.name with
    | none => rfl
    | some versions => rfl
  have hcount : hasSeveralVersions (scalars (versionTable routes)) (.mapping es) = true ↔
      1 < (((versionTable routes).lookup route.name).getD []).length := by
    simp only [hasSeveralVersions, hname, hlookup, List.length_map, gt_iff_lt, decide_eq_true_eq]
  have hnodup := nodup_eraseDups ((routes.filter fun r => r.name = route.name).map (·.version))
  change hasSeveralVersions (scalars (versionTable routes)) (.mapping es) = true ↔ _
  rw [hcount, lookup_versionTable, ← List.toFinset_card_of_nodup hnodup, Finset.one_lt_card]
  simp only [List.mem_toFinset, List.mem_eraseDups, List.mem_map, List.mem_filter,
    decide_eq_true_eq]
  constructor
  · rintro ⟨_, ⟨r, ⟨hr, hrn⟩, rfl⟩, _, ⟨s, ⟨hs, hsn⟩, rfl⟩, hne⟩
    exact ⟨r, hr, s, hs, hrn, hsn, hne⟩
  · rintro ⟨r, hr, s, hs, hrn, hsn, hne⟩
    exact ⟨_, ⟨r, ⟨hr, hrn⟩, rfl⟩, _, ⟨s, ⟨hs, hsn⟩, rfl⟩, hne⟩

end Counting

/-! ## Types of their own -/

section Apart

variable {entries : List Value} {routes : List Route} {r s : Route}

/-- A version that is one word, and none of the words for the parts of a route. -/
structure IsPlainVersion (version : String) : Prop where
  oneWord : ' ' ∉ version.toList
  notPart : ∀ part, part = "payload" ∨ part = "response" → version ≠ part

theorem exists_head {part : String} (hr : IsPlainVersion r.version)
    (hpart : part = "payload" ∨ part = "response") (path : List String) :
    ∃ word rest, carried true r ++ part :: path = word :: rest ∧ ' ' ∉ word.toList ∧
      (r.version ≠ "" ∧ word = r.version ∨ r.version = "" ∧ word = part) := by
  have hword : ' ' ∉ part.toList := by
    rcases hpart with rfl | rfl
    · decide
    · decide
  by_cases hv : r.version = ""
  · exact ⟨part, path, by simp [carried, hv], hword, .inr ⟨hv, rfl⟩⟩
  · exact ⟨r.version, part :: path, by simp [carried, hv], hr.oneWord, .inl ⟨hv, rfl⟩⟩

/-- The version can be told from the name of a type that carries it. -/
theorem version_eq_of_name_eq {name part part' : String} {path path' : List String}
    (hr : IsPlainVersion r.version) (hs : IsPlainVersion s.version)
    (hpart : part = "payload" ∨ part = "response") (hpart' : part' = "payload" ∨ part' = "response")
    (h : placeName name (carried true r ++ part :: path) =
      placeName name (carried true s ++ part' :: path')) : r.version = s.version := by
  obtain ⟨word, rest, heq, hblank, hword⟩ := exists_head hr hpart path
  obtain ⟨word', rest', heq', hblank', hword'⟩ := exists_head hs hpart' path'
  rw [heq, heq'] at h
  obtain rfl := head_eq_of_placeName_eq h hblank hblank'
  rcases hword with ⟨hv, hw⟩ | ⟨hv, hw⟩
  · rcases hword' with ⟨hv', hw'⟩ | ⟨hv', hw'⟩
    · exact hw.symm.trans hw'
    · exact absurd (hw.symm.trans hw') (hr.notPart part' hpart')
  · rcases hword' with ⟨hv', hw'⟩ | ⟨hv', hw'⟩
    · exact absurd (hw'.symm.trans hw) (hs.notPart part hpart)
    · exact hv.trans hv'.symm

/-- **Every version keeps its own types.** Whenever the routes of a list of entries can be made,
entries of one name and different versions have routes without a common type name, at any depth, if
the versions are single words other than the words for the parts of a route; the empty version will
do. A name with a single version gives its types names without the version. -/
theorem versions_keep_types (h : routesOf entries = .ok routes) :
    List.Forall₂ Labels entries routes ∧
      (∀ r ∈ routes, ∀ s ∈ routes, r.name = s.name → r.version ≠ s.version →
        IsPlainVersion r.version → IsPlainVersion s.version →
        List.Disjoint (typeNames r) (typeNames s)) ∧
      ∀ r ∈ routes, (∀ s ∈ routes, s.name = r.name → s.version = r.version) →
        ∀ n ∈ typeNames r, ∃ part path, (part = "payload" ∨ part = "response") ∧
          n = placeName (r.name ++ " " ++ part) path := by
  obtain ⟨table, htable, h⟩ := bind_eq_ok.1 h
  have hroutes := forall₂_of_mapM h
  have hall : List.Forall₂ Labels entries routes := hroutes.imp fun _ _ hr => (routeOfEntry_ok hr).1
  refine ⟨hall, ?_, ?_⟩
  · intro r hr s hs hname hversion hrplain hsplain n hn hn'
    obtain ⟨entry, -, hmade⟩ := exists_of_mem_right hroutes hr
    obtain ⟨entry', -, hmade'⟩ := exists_of_mem_right hroutes hs
    have hseveral := hasSeveralVersions_iff hall htable (routeOfEntry_ok hmade).1
    have hseveral' := hasSeveralVersions_iff hall htable (routeOfEntry_ok hmade').1
    rw [hseveral.2 ⟨r, hr, s, hs, rfl, hname.symm, hversion⟩] at hmade
    rw [hseveral'.2 ⟨r, hr, s, hs, hname, rfl, hversion⟩] at hmade'
    obtain ⟨part, path, hpart, rfl⟩ := name_of_mem_typeNames hmade hn
    obtain ⟨part', path', hpart', heq⟩ := name_of_mem_typeNames hmade' hn'
    rw [← hname] at heq
    exact hversion (version_eq_of_name_eq hrplain hsplain hpart hpart' heq)
  · intro r hr hsingle n hn
    obtain ⟨entry, -, hmade⟩ := exists_of_mem_right hroutes hr
    have hseveral := hasSeveralVersions_iff hall htable (routeOfEntry_ok hmade).1
    have hfalse : hasSeveralVersions table entry = false := by
      rw [Bool.eq_false_iff, ne_eq, hseveral]
      rintro ⟨a, ha, b, hb, han, hbn, hne⟩
      exact hne ((hsingle a ha han).trans (hsingle b hb hbn).symm)
    rw [hfalse] at hmade
    obtain ⟨part, path, hpart, rfl⟩ := name_of_mem_typeNames hmade hn
    exact ⟨part, path, hpart, rfl⟩

/-- An entry for a route that takes a name, in some version. -/
def createEntry (version : String) : Value := .mapping
  [(.text "type", .text "post"), (.text "url", .text "/users"), (.text "name", .text "CreateUser"),
    (.text "version", .text version),
    (.text "parameter", .mapping [(.text "fields", .mapping [(.text "Parameter",
      .list [.mapping (typed "name" "String")])])])]

def createRoute (version payload : String) : Route :=
  ⟨"CreateUser", none, .post, "/users", "", version, [],
    some (.record payload [⟨"name", none, .primitive .string, false⟩]), none⟩

/-- The empty version and the version 2.0.0 of a route have types of their own. -/
theorem versions_of_user_apart :
    routesOf [createEntry "", createEntry "2.0.0"] = .ok [createRoute "" "CreateUser payload",
      createRoute "2.0.0" "CreateUser 2.0.0 payload"] ∧
    List.Disjoint (typeNames (createRoute "" "CreateUser payload"))
      (typeNames (createRoute "2.0.0" "CreateUser 2.0.0 payload")) := by
  have hroutes : routesOf [createEntry "", createEntry "2.0.0"] =
      .ok [createRoute "" "CreateUser payload",
        createRoute "2.0.0" "CreateUser 2.0.0 payload"] := rfl
  obtain ⟨-, hapart, -⟩ := versions_keep_types hroutes
  refine ⟨hroutes, hapart _ (by simp) _ (by simp) rfl (by decide) ⟨by decide, ?_⟩ ⟨by decide, ?_⟩⟩
  · rintro part (rfl | rfl) <;> decide
  · rintro part (rfl | rfl) <;> decide

end Apart

end ApiBindings.ApiDoc
