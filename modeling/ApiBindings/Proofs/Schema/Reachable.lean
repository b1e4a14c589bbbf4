import ApiBindings.Proofs.Schema.Faithful
import ApiBindings.Proofs.Schema.Termination
import Mathlib.Logic.Relation

/-!
# What a conversion has looked at

A conversion cuts off where a record refers back to itself and enters aliases again and again, so it
looks at some unrolling of a document only. Nothing that can be reached is left out, though. Every
call of a conversion that succeeds succeeds (`Calls.converts`), and what it finds has been entered,
by the call itself or, where it refers back, by a call around it (`Calls.entered`). So the schemas
that have been entered are closed under going to a part and under resolving a reference
(`Entered.of_part`), and every position that can be reached leads to one of them.
-/

namespace ApiBindings.Schema

/-! ## Reaching a position -/

/-- The positions of the parts of a schema: the items of an array, the properties of an object, and
the schema for the values of an object without properties. -/
inductive IsPart (entries : List (Scalar × Value)) : Value → Prop
  | items (hk : (kindOf entries).isText "array") : IsPart entries (field "items" entries)
  | property {properties : List (Scalar × Value)} {key : Scalar} {v : Value}
    (hk : (kindOf entries).isText "object") (hp : field "properties" entries = .mapping properties)
    (hm : (key, v) ∈ properties) : IsPart entries v
  | values (hk : (kindOf entries).isText "object") (hp : (field "properties" entries).isTrue = false)
    (hv : (field "additionalProperties" entries).isMapping) :
    IsPart entries (field "additionalProperties" entries)

/-- A position leads to the schema of the component that it refers to, and a schema that is no
reference leads to its parts. -/
inductive Leads (document : Value) : Value → Value → Prop
  | reference {position : Value} {r : Resolved} {name : String}
    (hr : resolve document position = .ok (some r)) (hn : r.name = some name) :
    Leads document position r.schema
  | part {entries : List (Scalar × Value)} {v : Value}
    (hs : Value.valueAt? (.text "$ref") entries = none) (hp : IsPart entries v) :
    Leads document (.mapping entries) v

/-- The kinds of schemas that describe a type. -/
def kinds : List String := ["string", "integer", "number", "boolean", "object", "array"]

/-- A schema is supported if it is no composition and of a known kind, and has a schema for its
items if it is an array. -/
structure Supported (entries : List (Scalar × Value)) : Prop where
  plain : ∀ word ∈ compositions, Value.valueAt? (.text word) entries = none
  kind : ∃ kind ∈ kinds, (kindOf entries).isText kind
  items : (kindOf entries).isText "array" → (field "items" entries).isMapping

/-- A position is convertible if it leads to a schema that is no reference and is supported. -/
def Convertible (document position : Value) : Prop :=
  ∃ r entries, resolve document position = .ok (some r) ∧ r.schema = .mapping entries ∧
    Value.valueAt? (.text "$ref") entries = none ∧ Supported entries

/-! ## Layers of supported schemas -/

section Layer

variable {entries : List (Scalar × Value)} {place : String} {l : Layer} {v schema : Value}

/-- The place of a schema counts for faults only. -/
theorem plainLayer_of_place (h : plainLayer entries place = .ok l) (other : String) :
    plainLayer entries other = .ok l :=
  plainLayer_eq_ok_iff.2 (plainLayer_eq_ok_iff.1 h)

theorem layer_of_place (h : layer schema place = .ok l) (other : String) :
    layer schema other = .ok l := by
  obtain ⟨entries, rfl, hm, hl⟩ := plainLayer_of_layer h
  simp only [layer, hm]
  exact plainLayer_of_place hl other

theorem valueAt?_of_firstMentioned {words : List String}
    (h : firstMentioned (.mapping entries) words = .ok none) :
    ∀ word ∈ words, Value.valueAt? (.text word) entries = none := by
  induction words with
  | nil => simp
  | cons word words ih =>
    rw [firstMentioned, Value.mentions_mapping] at h
    cases hv : Value.valueAt? (.text word) entries with
    | some v => simp [hv] at h
    | none =>
      rw [hv] at h
      exact List.forall_mem_cons.2 ⟨hv, ih h⟩

theorem Reads.kind (h : Reads (.mapping entries) l) :
    ∃ kind ∈ kinds, (kindOf entries).isText kind := by
  cases h <;> refine ⟨_, ?_, isText_kindOf_iff.2 ‹_›⟩ <;> decide

theorem supported_of_layer (h : layer schema place = .ok l) :
    ∃ entries, schema = .mapping entries ∧ Supported entries := by
  obtain ⟨entries, rfl, hm, hl⟩ := plainLayer_of_layer h
  refine ⟨entries, rfl, valueAt?_of_firstMentioned hm, (plainLayer_eq_ok_iff.1 hl).kind, ?_⟩
  intro hk
  by_contra hi
  rw [plainLayer_of_array hk, if_neg hi] at hl
  cases hl

theorem mem_positions_of_isPart (h : layer (.mapping entries) place = .ok l)
    (hp : IsPart entries v) : v ∈ l.positions := by
  obtain ⟨_, heq, -, h⟩ := plainLayer_of_layer h
  cases heq
  cases hp with
  | items hk =>
    rw [plainLayer_of_array hk] at h
    split at h
    · cases h
      exact List.mem_cons_self
    · cases h
  | @property properties key v hk hp hm =>
    have ht : (field "properties" entries).isTrue := by
      rw [hp]
      cases properties with
      | nil => cases hm
      | cons entry entries => rfl
    rw [plainLayer_of_object hk] at h
    unfold objectLayer at h
    simp only [ht, Bool.not_true, Bool.false_and, Bool.false_eq_true, ↓reduceIte] at h
    obtain ⟨required, -, h⟩ := bind_eq_ok.1 h
    rw [Value.orElse, if_pos ht, hp] at h
    cases h
    exact List.mem_map_of_mem (f := (·.2)) hm
  | values hk hp hv =>
    rw [plainLayer_of_object hk] at h
    unfold objectLayer at h
    simp only [hp, hv, Bool.not_false, Bool.and_self, ↓reduceIte] at h
    cases h
    exact List.mem_cons_self

end Layer

/-! ## Calls of a conversion that succeeds -/

section Calls

variable {document root position v schema : Value} {stack inner : Stack} {r : Resolved} {l : Layer}
  {place hint : String} {ty : Ty}

theorem exists_of_assemble {f : Value → String → Except Fault Ty}
    (h : assemble l place (fun v _ hint => f v hint) = .ok ty) (hv : v ∈ l.positions) :
    ∃ hint part, f v hint = .ok part := by
  cases l with
  | primitive p => cases hv
  | union cases => cases hv
  | array items =>
    obtain ⟨element, he, -⟩ := assemble_array h
    obtain rfl := List.mem_singleton.1 hv
    exact ⟨_, element, he⟩
  | map values =>
    obtain ⟨value, he, -⟩ := assemble_map h
    obtain rfl := List.mem_singleton.1 hv
    exact ⟨_, value, he⟩
  | record properties required =>
    obtain ⟨members, -, hall⟩ := assemble_record h
    obtain ⟨property, hp, rfl⟩ := List.mem_map.1 hv
    have hright : ∃ m ∈ members, f property.2 (place ++ " " ++ m.name) = .ok m.ty := by
      obtain ⟨m, hm, -, -, hf, -⟩ := exists_of_mem_right hall.flip hp
      exact ⟨m, hm, hf⟩
    obtain ⟨m, -, hf⟩ := hright
    exact ⟨_, m.ty, hf⟩

/-- A call that succeeds and enters what it finds looks at the layer, and the calls for the
positions in the layer succeed. -/
theorem layer_of_convertAt (h : convertAt document stack position hint = .ok ty)
    (hr : resolve document position = .ok (some r)) (he : stack.enter r = .ok (.inside inner)) :
    ∃ l, (∀ place, layer r.schema place = .ok l) ∧
      ∀ v ∈ l.positions, ∃ hint ty, convertAt document inner v hint = .ok ty := by
  obtain ⟨r', hr', ⟨name, he', -⟩ | ⟨inner', l, assembled, he', hl, ha, -⟩⟩ := convertAt_ok h
  · cases hr.symm.trans hr'
    cases he.symm.trans he'
  · cases hr.symm.trans hr'
    cases he.symm.trans he'
    exact ⟨l, layer_of_place hl, fun v hv => exists_of_assemble ha hv⟩

theorem Calls.converts (h : convertPosition document root hint = .ok ty)
    (hc : Calls document root stack position) :
    ∃ hint ty, convertAt document stack position hint = .ok ty := by
  induction hc with
  | root => exact ⟨hint, ty, h⟩
  | nested hc hr hj hl hv ih =>
    obtain ⟨_, _, hconverts⟩ := ih
    rw [Stack.judge_eq_enter hc.disciplined] at hj
    obtain ⟨l, hl', hparts⟩ := layer_of_convertAt hconverts hr hj
    cases hl.symm.trans (hl' _)
    exact hparts _ hv

/-- A schema has been entered in the conversion of a root. -/
def Entered (document root schema : Value) : Prop :=
  ∃ stack position r inner, Calls document root stack position ∧
    resolve document position = .ok (some r) ∧ stack.enter r = .ok (.inside inner) ∧
    r.schema = schema

/-- A component on the stack has been entered by a call around. -/
theorem Calls.entered_of_mem (hc : Calls document root stack position) {c : Component}
    (hm : c ∈ stack) :
    ∃ schema, Reference.resolve document ⟨c.name⟩ = .ok (some schema) ∧
      Entered document root schema := by
  induction hc with
  | root => cases hm
  | nested hc hr hj hl hv ih =>
    rw [Stack.judge_eq_enter hc.disciplined] at hj
    rcases inside_ok hj (layer_of_place hl (Resolved.place _ "")) with ⟨-, rfl⟩ | ⟨name, hn, rfl⟩
    · exact ih hm
    · rcases List.mem_cons.1 hm with rfl | hm
      · exact ⟨_, resolve_of_name hr hn, _, _, _, _, hc, hr, hj, rfl⟩
      · exact ih hm

/-- What a call finds has been entered, by the call or by one around it. -/
theorem Calls.entered (h : convertPosition document root hint = .ok ty)
    (hc : Calls document root stack position) :
    ∃ r, resolve document position = .ok (some r) ∧ Entered document root r.schema := by
  obtain ⟨_, _, hconv⟩ := hc.converts h
  obtain ⟨r, hr, ⟨name, he, -⟩ | ⟨inner, l, assembled, he, -, -, -⟩⟩ := convertAt_ok hconv
  · obtain ⟨hn, hm⟩ := refersBack_ok he
    obtain ⟨c, hc', rfl⟩ := List.mem_map.1 hm
    obtain ⟨schema, hs, hentered⟩ := hc.entered_of_mem (List.mem_of_mem_filter hc')
    cases hs.symm.trans (resolve_of_name hr hn)
    exact ⟨r, hr, hentered⟩
  · exact ⟨r, hr, stack, position, r, inner, hc, hr, he, rfl⟩

end Calls

/-! ## Schemas that have been entered -/

section Entered

variable {document root position v : Value} {r : Resolved} {hint name : String} {ty : Ty}
  {entries table : List (Scalar × Value)}

theorem valueAt?_ref_of_follow {fuel : Nat} (h : Reference.follow table fuel name = some entries) :
    Value.valueAt? (.text "$ref") entries = none := by
  induction fuel generalizing name with
  | zero => cases h
  | succ fuel ih =>
    rw [Reference.follow] at h
    split at h
    · split at h
      · rename_i hv
        cases h
        exact hv
      · split at h
        · exact ih h
        · cases h
    · cases h

theorem valueAt?_ref_of_resolve (hr : resolve document position = .ok (some r))
    (hs : r.schema = .mapping entries) : Value.valueAt? (.text "$ref") entries = none := by
  obtain ⟨mentioned, hm, h⟩ := bind_eq_ok.1 hr
  cases mentioned with
  | false =>
    cases h
    obtain rfl : position = .mapping entries := hs
    rw [Value.mentions_mapping, Except.ok.injEq] at hm
    simpa using hm
  | true =>
    obtain ⟨target, -, h⟩ := bind_eq_ok.1 h
    cases ht : Reference.ofValue? target with
    | none => simp [ht, pure, Except.pure] at h
    | some reference =>
      simp only [ht] at h
      obtain ⟨found, hf, h⟩ := bind_eq_ok.1 h
      obtain ⟨schema, rfl, rfl⟩ := Option.map_eq_some_iff.1 (Except.ok.inj h)
      obtain ⟨table, chained, -, hfollow, heq⟩ := Reference.resolve_eq_some hf
      cases hs.symm.trans heq
      exact valueAt?_ref_of_follow hfollow

theorem resolve_of_no_ref (hs : Value.valueAt? (.text "$ref") entries = none) :
    resolve document (.mapping entries) = .ok (some ⟨.mapping entries, none⟩) := by
  simp [resolve, hs, bind, Except.bind, pure, Except.pure]

theorem Entered.supported (h : convertPosition document root hint = .ok ty) {schema : Value}
    (he : Entered document root schema) :
    ∃ entries, schema = .mapping entries ∧ Value.valueAt? (.text "$ref") entries = none ∧
      Supported entries := by
  obtain ⟨stack, position, r, inner, hc, hr, hin, rfl⟩ := he
  obtain ⟨_, _, hconverts⟩ := hc.converts h
  obtain ⟨l, hl, -⟩ := layer_of_convertAt hconverts hr hin
  obtain ⟨entries, hs, hsupported⟩ := supported_of_layer (hl "")
  exact ⟨entries, hs, valueAt?_ref_of_resolve hr hs, hsupported⟩

theorem Entered.of_part (h : convertPosition document root hint = .ok ty)
    (he : Entered document root (.mapping entries)) (hp : IsPart entries v) :
    ∃ r, resolve document v = .ok (some r) ∧ Entered document root r.schema := by
  obtain ⟨stack, position, r, inner, hc, hr, hin, hs⟩ := he
  obtain ⟨_, _, hconverts⟩ := hc.converts h
  obtain ⟨l, hl, -⟩ := layer_of_convertAt hconverts hr hin
  have hj : stack.judge r = .ok (.inside inner) := (Stack.judge_eq_enter hc.disciplined r).trans hin
  have hv : v ∈ l.positions := mem_positions_of_isPart (hs ▸ hl "") hp
  exact (hc.nested hr hj (hl "") hv).entered h

theorem entered_of_reachable (h : convertPosition document root hint = .ok ty)
    (hv : Relation.ReflTransGen (Leads document) root v) :
    ∃ r, resolve document v = .ok (some r) ∧ Entered document root r.schema := by
  induction hv with
  | refl => exact Calls.root.entered h
  | tail _ hstep ih =>
    obtain ⟨r, hr, he⟩ := ih
    cases hstep with
    | reference hr' hn =>
      cases hr.symm.trans hr'
      obtain ⟨entries, hs, href, -⟩ := he.supported h
      rw [hs] at he ⊢
      exact ⟨_, resolve_of_no_ref href, he⟩
    | part href hp =>
      cases hr.symm.trans (resolve_of_no_ref href)
      exact he.of_part h hp

end Entered

/-- **A conversion certifies what can be reached.** If the conversion of a position succeeds, every
position that can be reached from it, through parts and references and around any cycle, resolves to
a supported schema. So a record that refers back to itself hides nothing that is unsupported. -/
theorem reachable_convertible {document position v : Value} {hint : String} {ty : Ty}
    (h : convertPosition document position hint = .ok ty)
    (hv : Relation.ReflTransGen (Leads document) position v) : Convertible document v := by
  obtain ⟨r, hr, he⟩ := entered_of_reachable h hv
  obtain ⟨entries, hs, href, hsupported⟩ := he.supported h
  exact ⟨r, entries, hr, hs, href, hsupported⟩

/-- From the array of nodes the children of a node can be reached, where the conversion of the array
has come to a node inside a node and refers back. -/
theorem children_convertible :
    convertPosition treeDocument (referenceTo "NodeList") "root" =
      .ok (.array (.record "Node" [⟨"children", none, .array (.record "Node" []), true⟩])) ∧
    Relation.ReflTransGen (Leads treeDocument) (referenceTo "NodeList") (referenceTo "Node") ∧
    Convertible treeDocument (referenceTo "Node") := by
  have hwithin : convertWithin treeDocument 4 [] (referenceTo "NodeList") "root" =
      reached (.ok (.array (.record "Node" [⟨"children", none, .array (.record "Node" []), true⟩]))) :=
    rfl
  have hreach : Relation.ReflTransGen (Leads treeDocument) (referenceTo "NodeList")
      (referenceTo "Node") := by
    have list : Leads treeDocument (referenceTo "NodeList") nodeListSchema :=
      .reference resolve_nodeList rfl
    have items : Leads treeDocument nodeListSchema (referenceTo "Node") := .part rfl (.items rfl)
    have node : Leads treeDocument (referenceTo "Node") nodeSchema := .reference resolve_node rfl
    have children : Leads treeDocument nodeSchema (referenceTo "NodeList") :=
      .part rfl (.property rfl rfl List.mem_cons_self)
    have around : Relation.ReflTransGen (Leads treeDocument) (referenceTo "NodeList")
        (referenceTo "NodeList") :=
      .head list (.head items (.head node (.single children)))
    exact around.trans (.head list (.single items))
  have hconverts := convertPosition_of_reached hwithin
  exact ⟨hconverts, hreach, reachable_convertible hconverts hreach⟩

end ApiBindings.Schema
