import ApiBindings.Proofs.Schema.Enclosure
import ApiBindings.Proofs.Schema.Origin

/-!
# Which recursions are rejected

An alias that contains itself is converted again and again until a record component on the way makes
a reference refer back. Records that are no components do not count: nothing can refer back to them.
So a path from an alias to itself is rejected exactly if no reference on it goes to a record
component (`LeadsAmongAliases`), whether or not it runs through a record that is no component.

During a conversion every alias entered since the last record component leads to the position of the
call in this way (`Calls.leads_of_mem_aliases`). Conversely, if a conversion succeeds, its calls
follow every such path (`EnteredUnder.along`), and once around a path from an alias to itself would
fail. So a conversion succeeds exactly if all positions that can be reached are fit for it and no
alias among them contains itself in this way (`converts_iff_no_recursive_alias`).
-/

namespace ApiBindings.Schema

open Relation

/-! ## Paths around the records -/

/-- A position leads to the schema of the alias that it refers to, and a schema that is no reference
leads to its parts, also if it is a record. -/
inductive LeadsAmongAliases (document : Value) : Value → Value → Prop
  | reference {position : Value} {r : Resolved} {name : String}
    (hr : resolve document position = .ok (some r)) (hn : r.name = some name)
    (ha : isNominal r.schema = .ok false) : LeadsAmongAliases document position r.schema
  | part {entries : List (Scalar × Value)} {v : Value}
    (hs : Value.valueAt? (.text "$ref") entries = none) (hp : IsPart entries v) :
    LeadsAmongAliases document (.mapping entries) v

/-- A position leads to the schema of the component that it refers to, and a schema that is neither
a reference nor a record leads to its parts. -/
inductive LeadsOutsideRecords (document : Value) : Value → Value → Prop
  | reference {position : Value} {r : Resolved} {name : String}
    (hr : resolve document position = .ok (some r)) (hn : r.name = some name) :
    LeadsOutsideRecords document position r.schema
  | part {entries : List (Scalar × Value)} {v : Value}
    (hs : Value.valueAt? (.text "$ref") entries = none) (hp : IsPart entries v)
    (ha : isNominal (.mapping entries) = .ok false) :
    LeadsOutsideRecords document (.mapping entries) v

/-- The schema of an alias leads by some kind of steps to a reference to the alias. -/
def ContainsItself (leads : Value → Value → Prop) (document : Value) (name : String) : Prop :=
  ∃ schema v, Reference.resolve document ⟨name⟩ = .ok (some schema) ∧
    isNominal schema = .ok false ∧ ReflTransGen leads schema v ∧ component? document v = some name

/-- A reference to a component can be reached from a position. -/
def Reaches (document root : Value) (name : String) : Prop :=
  ∃ v, ReflTransGen (Leads document) root v ∧ component? document v = some name

section Paths

variable {document root position v w : Value} {entries : List (Scalar × Value)} {r : Resolved}
  {l : Layer} {place name : String}

theorem LeadsAmongAliases.leads (h : LeadsAmongAliases document v w) : Leads document v w := by
  cases h with
  | reference hr hn ha => exact .reference hr hn
  | part hs hp => exact .part hs hp

theorem LeadsOutsideRecords.leads (h : LeadsOutsideRecords document v w) :
    Leads document v w := by
  cases h with
  | reference hr hn => exact .reference hr hn
  | part hs hp ha => exact .part hs hp

theorem isPart_of_leads (hs : Value.valueAt? (.text "$ref") entries = none)
    (h : Leads document (.mapping entries) v) : IsPart entries v := by
  cases h with
  | reference hr hn =>
    obtain rfl := eq_of_resolve (resolve_of_no_ref hs) hr
    cases hn
  | part hs hp => exact hp

theorem isPart_of_mem_positions (h : layer (.mapping entries) place = .ok l)
    (hv : v ∈ l.positions) : IsPart entries v := by
  cases reads_of_layer h with
  | text | union | integer | double | float | boolean => cases hv
  | array hk hi =>
    obtain rfl := List.mem_singleton.1 hv
    rw [← hi]
    exact .items (isText_kindOf_iff.2 hk)
  | map hk hp hm =>
    obtain rfl := List.mem_singleton.1 hv
    rw [← hm]
    exact .values (isText_kindOf_iff.2 hk) hp (isMapping_iff.2 ⟨_, hm⟩)
  | record hk hp =>
    obtain ⟨e, he, rfl⟩ := List.mem_map.1 hv
    rcases hp with hp | ⟨-, rfl⟩
    · exact .property (isText_kindOf_iff.2 hk) hp he
    · cases he

theorem leads_to_part (hr : resolve document position = .ok (some r))
    (hl : layer r.schema place = .ok l) (hv : v ∈ l.positions) :
    LeadsAmongAliases document r.schema v := by
  obtain ⟨entries, hs, -, -⟩ := plainLayer_of_layer hl
  have href := valueAt?_ref_of_resolve hr hs
  rw [hs] at hl ⊢
  exact .part href (isPart_of_mem_positions hl hv)

theorem leads_to_schema (hr : resolve document position = .ok (some r)) :
    ReflTransGen (Leads document) position r.schema := by
  rcases resolve_cases hr with ⟨-, hs⟩ | ⟨name, hn, -⟩
  · rw [hs]
  · exact .single (.reference hr hn)

theorem leads_to_alias (hr : resolve document position = .ok (some r))
    (ha : r.name ≠ none → isNominal r.schema = .ok false) :
    ReflTransGen (LeadsAmongAliases document) position r.schema := by
  rcases resolve_cases hr with ⟨-, hs⟩ | ⟨name, hn, -⟩
  · rw [hs]
  · exact .single (.reference hr hn (ha (by simp [hn])))

end Paths

/-! ## Aliases on the stack -/

section Stack

variable {document root position v : Value} {stack inner : Stack} {r : Resolved} {l : Layer}
  {name : String}

theorem Calls.reachable (hc : Calls document root stack position) :
    ReflTransGen (Leads document) root position := by
  induction hc with
  | root => exact .refl
  | nested hc hr hj hl hv ih =>
    exact (ih.trans (leads_to_schema hr)).tail (leads_to_part hr hl hv).leads

theorem Calls.inside_cases (hc : Calls document root stack position)
    (hj : stack.judge r = .ok (.inside inner)) {place : String}
    (hl : layer r.schema place = .ok l) :
    r.name = none ∧ inner = stack ∨
      ∃ name, r.name = some name ∧ inner = ⟨name, l.isNominal⟩ :: stack := by
  rw [Stack.judge_eq_enter hc.disciplined] at hj
  have hl' : layer r.schema (r.place "") = .ok l := layer_of_place hl _
  exact inside_ok hj hl'

/-- An alias that has been entered since the last record leads to the position of the call. -/
theorem Calls.leads_of_mem_aliases (hc : Calls document root stack position)
    (hm : name ∈ stack.aliases) :
    ∃ schema, Reference.resolve document ⟨name⟩ = .ok (some schema) ∧
      isNominal schema = .ok false ∧ ReflTransGen (LeadsAmongAliases document) schema position := by
  induction hc with
  | root => cases hm
  | @nested stack inner position v r l place hc hr hj hl hv ih =>
    have hpart := leads_to_part hr hl hv
    rcases hc.inside_cases hj hl with ⟨hn, rfl⟩ | ⟨other, hn, rfl⟩
    · obtain ⟨schema, hres, ha, hpath⟩ := ih hm
      have halias := leads_to_alias hr fun h => absurd hn h
      exact ⟨schema, hres, ha, (hpath.trans halias).tail hpart⟩
    · cases hnominal : l.isNominal with
      | true =>
        rw [hnominal, Stack.aliases_cons_true] at hm
        cases hm
      | false =>
        have ha : isNominal r.schema = .ok false := hnominal ▸ isNominal_of_layer hl
        rw [hnominal, Stack.aliases_cons_false] at hm
        rcases List.mem_cons.1 hm with rfl | hm
        · exact ⟨r.schema, resolve_of_name hr hn, ha, .single hpart⟩
        · obtain ⟨schema, hres, hs, hpath⟩ := ih hm
          have halias := leads_to_alias hr fun _ => ha
          exact ⟨schema, hres, hs, (hpath.trans halias).tail hpart⟩

theorem Calls.isNominal_of_mem_nominals (hc : Calls document root stack position)
    (hm : name ∈ stack.nominals) :
    ∃ schema, Reference.resolve document ⟨name⟩ = .ok (some schema) ∧
      isNominal schema = .ok true := by
  induction hc with
  | root => cases hm
  | @nested stack inner position v r l place hc hr hj hl hv ih =>
    rcases hc.inside_cases hj hl with ⟨-, rfl⟩ | ⟨other, hn, rfl⟩
    · exact ih hm
    · cases hnominal : l.isNominal with
      | false =>
        rw [hnominal, Stack.nominals_cons_false] at hm
        exact ih hm
      | true =>
        rw [hnominal, Stack.nominals_cons_true] at hm
        rcases List.mem_cons.1 hm with rfl | hm
        · exact ⟨r.schema, resolve_of_name hr hn, hnominal ▸ isNominal_of_layer hl⟩
        · exact ih hm

/-- A call that refers to an alias entered since the last record closes a path from the alias to
itself. -/
theorem Calls.containsItself (hc : Calls document root stack position)
    (hr : resolve document position = .ok (some r)) (hn : r.name = some name)
    (hm : name ∈ stack.aliases) : ContainsItself (LeadsAmongAliases document) document name := by
  obtain ⟨schema, hres, ha, hpath⟩ := hc.leads_of_mem_aliases hm
  exact ⟨schema, position, hres, ha, hpath, (component?_eq hr).trans hn⟩

theorem Calls.reaches (hc : Calls document root stack position)
    (hr : resolve document position = .ok (some r)) (hn : r.name = some name) :
    Reaches document root name :=
  ⟨position, hc.reachable, (component?_eq hr).trans hn⟩

end Stack

/-! ## Conversions that succeed -/

section Success

variable {document root position v schema : Value} {stack inner : Stack} {r : Resolved}
  {hint name : String} {ty : Ty} {aliases : List String} {entries : List (Scalar × Value)}

/-- There is a call for a position with some aliases entered since the last record. -/
def CalledUnder (document root : Value) (aliases : List String) (position : Value) : Prop :=
  ∃ stack, Calls document root stack position ∧ aliases ⊆ stack.aliases

/-- A schema has been entered with some aliases entered since the last record. -/
def EnteredUnder (document root : Value) (aliases : List String) (schema : Value) : Prop :=
  ∃ stack position r inner, Calls document root stack position ∧
    resolve document position = .ok (some r) ∧ stack.enter r = .ok (.inside inner) ∧
    r.schema = schema ∧ aliases ⊆ inner.aliases

theorem Entered.under (h : Entered document root schema) : EnteredUnder document root [] schema := by
  obtain ⟨stack, position, r, inner, hc, hr, he, hs⟩ := h
  exact ⟨stack, position, r, inner, hc, hr, he, hs, List.nil_subset _⟩

theorem EnteredUnder.entered (h : EnteredUnder document root aliases schema) :
    Entered document root schema := by
  obtain ⟨stack, position, r, inner, hc, hr, he, hs, -⟩ := h
  exact ⟨stack, position, r, inner, hc, hr, he, hs⟩

theorem EnteredUnder.mono {fewer : List String} (h : EnteredUnder document root aliases schema)
    (hle : fewer ⊆ aliases) : EnteredUnder document root fewer schema := by
  obtain ⟨stack, position, r, inner, hc, hr, he, hs, ha⟩ := h
  exact ⟨stack, position, r, inner, hc, hr, he, hs, fun name hn => ha (hle hn)⟩

theorem EnteredUnder.resolve_eq (h : convertPosition document root hint = .ok ty)
    (he : EnteredUnder document root aliases schema) :
    resolve document schema = .ok (some ⟨schema, none⟩) := by
  obtain ⟨entries, rfl, href, -⟩ := he.entered.supported h
  exact resolve_of_no_ref href

theorem EnteredUnder.part (h : convertPosition document root hint = .ok ty)
    (he : EnteredUnder document root aliases (.mapping entries)) (hp : IsPart entries v) :
    CalledUnder document root aliases v := by
  obtain ⟨stack, position, r, inner, hc, hr, hin, hs, ha⟩ := he
  obtain ⟨_, _, hconverts⟩ := hc.converts h
  obtain ⟨l, hl, -⟩ := layer_of_convertAt hconverts hr hin
  have hj : stack.judge r = .ok (.inside inner) := (Stack.judge_eq_enter hc.disciplined r).trans hin
  have hv : v ∈ l.positions := mem_positions_of_isPart (hs ▸ hl "") hp
  exact ⟨inner, hc.nested hr hj (hl "") hv, ha⟩

theorem CalledUnder.enter (h : convertPosition document root hint = .ok ty)
    (hcalled : CalledUnder document root aliases position)
    (hr : resolve document position = .ok (some r))
    (ha : r.name ≠ none → isNominal r.schema = .ok false) :
    EnteredUnder document root (r.name.toList ++ aliases) r.schema := by
  obtain ⟨stack, hc, hsub⟩ := hcalled
  obtain ⟨_, _, hconverts⟩ := hc.converts h
  obtain ⟨r', hr', ⟨name, he, -⟩ | ⟨inner, l, assembled, he, hl, -, -⟩⟩ := convertAt_ok hconverts
  · -- the call does not refer back, since only records are on the stack as such
    obtain rfl := eq_of_resolve hr hr'
    obtain ⟨hn, hm⟩ := refersBack_ok he
    obtain ⟨schema, hres, hnominal⟩ := hc.isNominal_of_mem_nominals hm
    obtain rfl := eq_of_resolve_name hres (resolve_of_name hr hn)
    cases hnominal.symm.trans (ha (by simp [hn]))
  · obtain rfl := eq_of_resolve hr hr'
    refine ⟨stack, position, r, inner, hc, hr, he, rfl, ?_⟩
    rcases inside_ok he hl with ⟨hn, rfl⟩ | ⟨name, hn, rfl⟩
    · simpa [hn] using hsub
    · have hnominal : l.isNominal = false :=
        Except.ok.inj ((isNominal_of_layer hl).symm.trans (ha (by simp [hn])))
      rw [hnominal, Stack.aliases_cons_false, hn]
      exact List.cons_subset_cons name hsub

/-- The calls of a conversion that succeeds follow a path that leads among aliases, and no alias is
taken off the stack on it. -/
theorem EnteredUnder.along (h : convertPosition document root hint = .ok ty)
    (he : EnteredUnder document root aliases schema)
    (hpath : ReflTransGen (LeadsAmongAliases document) schema v) :
    EnteredUnder document root aliases v ∨ CalledUnder document root aliases v := by
  induction hpath with
  | refl => exact .inl he
  | tail _ hstep ih =>
    cases hstep with
    | reference hr hn ha =>
      rcases ih with he | hcalled
      · obtain rfl := eq_of_resolve hr (he.resolve_eq h)
        cases hn
      · exact .inl ((hcalled.enter h hr fun _ => ha).mono (List.subset_append_right _ _))
    | part hs hp =>
      rcases ih with he | hcalled
      · exact .inr (he.part h hp)
      · have he := hcalled.enter h (resolve_of_no_ref hs) fun hn => absurd rfl hn
        exact .inr (he.part h hp)

/-- A path from a schema that has been entered to a reference ends with a call for the reference. -/
theorem EnteredUnder.called (h : convertPosition document root hint = .ok ty)
    (he : EnteredUnder document root aliases schema)
    (hpath : ReflTransGen (LeadsAmongAliases document) schema v)
    (hv : component? document v = some name) : CalledUnder document root aliases v := by
  refine (he.along h hpath).resolve_left fun hentered => ?_
  rw [component?_eq (hentered.resolve_eq h)] at hv
  cases hv

theorem exists_of_component? (h : component? document v = some name) :
    ∃ r, resolve document v = .ok (some r) ∧ r.name = some name := by
  unfold component? at h
  split at h
  · exact ⟨_, ‹_›, h⟩
  · cases h

/-- If a conversion succeeds, no alias that it comes to contains itself without a record component
in between: on the second way around the alias has been entered since the last record. -/
theorem not_containsItself (h : convertPosition document root hint = .ok ty)
    (hreach : Reaches document root name) :
    ¬ ContainsItself (LeadsAmongAliases document) document name := by
  rintro ⟨schema, v, hres, ha, hpath, hv⟩
  obtain ⟨at₀, hat, hcomponent⟩ := hreach
  obtain ⟨r₀, hr₀, hentered⟩ := entered_of_reachable h hat
  have hschema : r₀.schema = schema := by
    rw [component?_eq hr₀] at hcomponent
    exact eq_of_resolve_name (resolve_of_name hr₀ hcomponent) hres
  obtain ⟨r, hr, hn⟩ := exists_of_component? hv
  have hrs : r.schema = schema := eq_of_resolve_name (resolve_of_name hr hn) hres
  have hfirst : CalledUnder document root [] v := (hschema ▸ hentered.under).called h hpath hv
  have hagain : EnteredUnder document root [name] schema := by
    have he := hfirst.enter h hr fun _ => hrs ▸ ha
    rwa [hn, hrs] at he
  obtain ⟨stack, hc, hsub⟩ := hagain.called h hpath hv
  obtain ⟨_, _, hconverts⟩ := hc.converts h
  have hrefused : stack.enter r = .error (.unsupportedSchema recursiveAlias name) := by
    have hm : name ∈ stack.aliases := hsub List.mem_cons_self
    simp only [Stack.enter, hn, List.contains_iff_mem.2 hm, ↓reduceIte, recursiveAlias]
  obtain ⟨r', hr', ⟨_, he, -⟩ | ⟨_, _, _, he, -, -, -⟩⟩ := convertAt_ok hconverts
  · obtain rfl := eq_of_resolve hr hr'
    cases hrefused.symm.trans he
  · obtain rfl := eq_of_resolve hr hr'
    cases hrefused.symm.trans he

theorem fit_of_reachable (h : convertPosition document root hint = .ok ty)
    (hv : ReflTransGen (Leads document) root v) : Fit document v := by
  obtain ⟨r, hr, stack, position, r', inner, hc, hr', he, hs⟩ := entered_of_reachable h hv
  obtain ⟨hint', _, hconverts⟩ := hc.converts h
  obtain ⟨r'', hr'', ⟨_, he', -⟩ | ⟨inner', l, assembled, he', hl, hassembled, -⟩⟩ :=
    convertAt_ok hconverts
  · obtain rfl := eq_of_resolve hr' hr''
    cases he.symm.trans he'
  · obtain rfl := eq_of_resolve hr' hr''
    refine ⟨r, l, hr, fun place => hs ▸ layer_of_place hl place, fun property hp => ?_⟩
    cases l with
    | record properties required =>
      obtain ⟨members, -, hall⟩ := assemble_record hassembled
      obtain ⟨m, -, hname, ⟨description, hd, ht⟩, -, -⟩ := exists_of_mem_right hall.flip hp
      exact ⟨m.name, description, m.description, hname, hd, ht⟩
    | _ => cases hp

end Success

/-- **Which recursions are rejected.** The conversion of a position succeeds exactly if every
position that can be reached from it is fit for conversion and no alias that is referred to there
contains itself without a record component in between. It fails with a recursive alias only if such
an alias is referred to, or if the type of a schema is written so. -/
theorem converts_iff_no_recursive_alias (document position : Value) (hint : String) :
    ((∃ ty, convertPosition document position hint = .ok ty) ↔
      (∀ v, ReflTransGen (Leads document) position v → Fit document v) ∧
        ∀ name, Reaches document position name →
          ¬ ContainsItself (LeadsAmongAliases document) document name) ∧
    ∀ name, convertPosition document position hint =
        .error (.unsupportedSchema recursiveAlias name) →
      Reaches document position name ∧
          ContainsItself (LeadsAmongAliases document) document name ∨
        ∃ v r entries, ReflTransGen (Leads document) position v ∧
          resolve document v = .ok (some r) ∧ r.schema = .mapping entries ∧
          (kindOf entries).spelling = recursiveAlias := by
  refine ⟨⟨?_, ?_⟩, ?_⟩
  · rintro ⟨ty, h⟩
    exact ⟨fun v hv => fit_of_reachable h hv, fun name hreach => not_containsItself h hreach⟩
  · rintro ⟨hfit, hnone⟩
    cases h : convertPosition document position hint with
    | ok ty => exact ⟨ty, rfl⟩
    | error f =>
      obtain ⟨stack, v, hint', hc, hfails⟩ := exists_fails .root h
      obtain ⟨r, name, hm, hr, hn⟩ := (hfit v hc.reachable).mem_aliases hfails
      exact absurd (hc.containsItself hr hn hm) (hnone name (hc.reaches hr hn))
  · intro name h
    obtain ⟨stack, v, hint', hc, hfails⟩ := exists_fails .root h
    obtain ⟨r, hr, ⟨hn, hm⟩ | ⟨entries, hs, hwritten⟩⟩ := hfails.mem_aliases_or_written
    · exact .inl ⟨hc.reaches hr hn, hc.containsItself hr hn hm⟩
    · exact .inr ⟨v, r, entries, hc.reachable, hr, hs, hwritten⟩

/-! ## A forest -/

/-- The entries of a record that is no component and holds a forest. -/
def treeEntries : List (Scalar × Value) :=
  [(.text "type", .text "object"),
    (.text "properties", .mapping [(.text "trees", referenceTo "Forest")])]

/-- The entries of a forest, which is an array of trees. -/
def forestEntries : List (Scalar × Value) :=
  [(.text "type", .text "array"), (.text "items", .mapping treeEntries)]

/-- A document with the forest as its only component. -/
def forestDocument : Value := .mapping [(.text "components", .mapping
  [(.text "schemas", .mapping [(.text "Forest", .mapping forestEntries)])])]

section Forest

variable {v : Value} {name : String}

theorem resolve_forest : resolve forestDocument (referenceTo "Forest") =
    .ok (some ⟨.mapping forestEntries, some "Forest"⟩) := rfl

theorem convertPosition_forest : convertPosition forestDocument (referenceTo "Forest") "root" =
    .error (.unsupportedSchema recursiveAlias "Forest") := by
  have hwithin : convertWithin forestDocument 3 [] (referenceTo "Forest") "root" =
      reached (.error (.unsupportedSchema recursiveAlias "Forest")) := rfl
  exact convertPosition_of_reached hwithin

theorem isPart_forestEntries (hp : IsPart forestEntries v) : v = .mapping treeEntries := by
  cases hp with
  | items hk => rfl
  | property hk hp hm => cases hk
  | values hk hp hv => cases hk

theorem isPart_treeEntries (hp : IsPart treeEntries v) : v = referenceTo "Forest" := by
  cases hp with
  | items hk => cases hk
  | property hk hp hm =>
    obtain rfl := Value.mapping.inj hp
    exact congrArg Prod.snd (List.mem_singleton.1 hm)
  | values hk hp hv => cases hp

/-- A forest leads to trees and to forests. -/
theorem forest_leads (hv : ReflTransGen (Leads forestDocument) (referenceTo "Forest") v) :
    v = referenceTo "Forest" ∨ v = .mapping forestEntries ∨ v = .mapping treeEntries := by
  induction hv with
  | refl => exact .inl rfl
  | tail _ hstep ih =>
    rcases ih with rfl | rfl | rfl
    · cases hstep with
      | reference hr hn =>
        obtain rfl := eq_of_resolve resolve_forest hr
        exact .inr (.inl rfl)
      | part hs hp => cases hs
    · exact .inr (.inr (isPart_forestEntries (isPart_of_leads rfl hstep)))
    · exact .inl (isPart_treeEntries (isPart_of_leads rfl hstep))

theorem fit_of_forest_leads
    (hv : ReflTransGen (Leads forestDocument) (referenceTo "Forest") v) : Fit forestDocument v := by
  have hforest : ∀ place, layer (.mapping forestEntries) place =
      .ok (.array (.mapping treeEntries)) := fun place => rfl
  rcases forest_leads hv with rfl | rfl | rfl
  · exact ⟨_, _, resolve_forest, hforest, nofun⟩
  · exact ⟨_, _, resolve_of_no_ref rfl, hforest, nofun⟩
  · refine ⟨_, _, resolve_of_no_ref rfl, fun place => rfl, fun property hp => ?_⟩
    obtain rfl := List.mem_singleton.1 hp
    exact ⟨"trees", .null, none, rfl, rfl, rfl⟩

theorem eq_of_reaches_forest (h : Reaches forestDocument (referenceTo "Forest") name) :
    name = "Forest" := by
  obtain ⟨v, hv, hcomponent⟩ := h
  rcases forest_leads hv with rfl | rfl | rfl
  · exact (Option.some.inj hcomponent).symm
  · cases hcomponent
  · cases hcomponent

/-- Outside records a forest leads to its trees and no further. -/
theorem forest_leads_outside_records
    (hv : ReflTransGen (LeadsOutsideRecords forestDocument) (.mapping forestEntries) v) :
    v = .mapping forestEntries ∨ v = .mapping treeEntries := by
  induction hv with
  | refl => exact .inl rfl
  | tail _ hstep ih =>
    rcases ih with rfl | rfl
    · exact .inr (isPart_forestEntries (isPart_of_leads rfl hstep.leads))
    · cases hstep with
      | reference hr hn =>
        obtain rfl := eq_of_resolve (resolve_of_no_ref rfl) hr
        cases hn
      | part hs hp ha => cases ha

/-- The forest is rejected as a recursive alias, though all that can be reached from it is fit for
conversion and every path from the forest to itself runs through a record, the tree. -/
theorem forest_rejected :
    convertPosition forestDocument (referenceTo "Forest") "root" =
      .error (.unsupportedSchema recursiveAlias "Forest") ∧
    (∀ v, ReflTransGen (Leads forestDocument) (referenceTo "Forest") v → Fit forestDocument v) ∧
    ∀ name, Reaches forestDocument (referenceTo "Forest") name →
      ¬ ContainsItself (LeadsOutsideRecords forestDocument) forestDocument name := by
  refine ⟨convertPosition_forest, fun v hv => fit_of_forest_leads hv, ?_⟩
  rintro name hreach ⟨schema, v, hres, -, hpath, hv⟩
  obtain rfl := eq_of_reaches_forest hreach
  obtain rfl := eq_of_resolve_name (resolve_of_name resolve_forest rfl) hres
  rcases forest_leads_outside_records hpath with rfl | rfl
  · cases hv
  · cases hv

/-- The forest contains itself without a record component in between. The array of nodes, whose
nodes are a record component, does not, and it is converted. -/
theorem nodes_converted_forest_rejected :
    convertPosition forestDocument (referenceTo "Forest") "root" =
      .error (.unsupportedSchema recursiveAlias "Forest") ∧
    ContainsItself (LeadsAmongAliases forestDocument) forestDocument "Forest" ∧
    (∃ ty, convertPosition treeDocument (referenceTo "NodeList") "root" = .ok ty) ∧
    ¬ ContainsItself (LeadsAmongAliases treeDocument) treeDocument "NodeList" := by
  have hwithin : convertWithin treeDocument 4 [] (referenceTo "NodeList") "root" = reached (.ok
      (.array (.record "Node" [⟨"children", none, .array (.record "Node" []), true⟩]))) := rfl
  have hconverts := convertPosition_of_reached hwithin
  obtain ⟨hforest, -⟩ :=
    converts_iff_no_recursive_alias forestDocument (referenceTo "Forest") "root"
  obtain ⟨hnodes, -⟩ := converts_iff_no_recursive_alias treeDocument (referenceTo "NodeList") "root"
  refine ⟨convertPosition_forest, ?_, ⟨_, hconverts⟩, ?_⟩
  · by_contra hnone
    have hall : ∀ name, Reaches forestDocument (referenceTo "Forest") name →
        ¬ ContainsItself (LeadsAmongAliases forestDocument) forestDocument name := by
      intro name hreach
      rwa [eq_of_reaches_forest hreach]
    obtain ⟨ty, hty⟩ := hforest.2 ⟨fun v hv => fit_of_forest_leads hv, hall⟩
    cases convertPosition_forest.symm.trans hty
  · exact (hnodes.1 ⟨_, hconverts⟩).2 "NodeList" ⟨referenceTo "NodeList", .refl, rfl⟩

end Forest

end ApiBindings.Schema
