import ApiBindings.Proofs.Schema.Conversion
import ApiBindings.Proofs.Schema.Meaning

/-!
# Conversions are faithful

A type is faithful to a document if every record and union in it that is named like a component is
the complete definition of the component, except that a record inside the record of a component may
refer back to it (`Faithful`). A conversion yields a faithful type that is used as its position
means, whatever is on the stack (`faithful_of_convertAt`).

The invariant of the stack is that the records on it have been looked into (`Grounded`), so that a
reference back has the meaning of what it refers to. Records and unions without a component are
named by places, which hold a space, and are not mistaken for components.
-/

namespace ApiBindings.Schema

/-! ## Names of places and of components -/

/-- Whether a text holds a space. -/
def Spaced (text : String) : Prop := ' ' ∈ text.toList

instance (text : String) : Decidable (Spaced text) :=
  inferInstanceAs (Decidable (' ' ∈ text.toList))

/-- The rule for the names of components: they are not empty and hold no space. -/
def ValidKeys (document : Value) : Prop :=
  ∀ name ∈ componentNames document, name ≠ "" ∧ ¬ Spaced name

theorem spaced_append_left {a : String} (h : Spaced a) (b : String) : Spaced (a ++ b) := by
  unfold Spaced at h ⊢
  rw [String.toList_append]
  exact List.mem_append_left _ h

theorem spaced_append_right (a : String) {b : String} (h : Spaced b) : Spaced (a ++ b) := by
  unfold Spaced at h ⊢
  rw [String.toList_append]
  exact List.mem_append_right _ h

theorem ne_empty_of_spaced {text : String} (h : Spaced text) : text ≠ "" := by
  rintro rfl
  cases h

section Names

variable {document position : Value} {r : Resolved} {hint name : String}

theorem ValidKeys.ne_empty {schema : Value} (hk : ValidKeys document)
    (h : Reference.resolve document ⟨name⟩ = .ok (some schema)) : name ≠ "" :=
  (hk name (mem_componentNames_of_resolve h)).1

theorem place_of_inline (hn : r.name = none) (h : hint ≠ "") : r.place hint = hint := by
  simp [Resolved.place, hn, h]

theorem place_of_component (hn : r.name = some name) (h : name ≠ "") : r.place hint = name := by
  simp [Resolved.place, hn, h]

theorem resolve_of_name (hr : resolve document position = .ok (some r)) (hn : r.name = some name) :
    Reference.resolve document ⟨name⟩ = .ok (some r.schema) := by
  rcases resolve_cases hr with ⟨h, -⟩ | ⟨_, h, hc⟩
  · cases hn.symm.trans h
  · cases hn.symm.trans h
    exact hc

theorem typeName_eq_place (hk : ValidKeys document)
    (hr : resolve document position = .ok (some r)) : r.typeName hint = r.place hint := by
  rcases resolve_cases hr with ⟨hn, -⟩ | ⟨name, hn, hc⟩
  · simp [Resolved.typeName, hn]
  · rw [Resolved.typeName, hn, place_of_component hn (hk.ne_empty hc)]
    rfl

theorem label_eq_self {ty : Ty} (hk : ValidKeys document)
    (hr : resolve document position = .ok (some r)) (hint : String)
    (h : ty.name? = none ∨ ty.name? = some (r.place hint)) : r.label ty = ty := by
  rw [← typeName_eq_place hk hr] at h
  unfold Resolved.label
  cases hn : r.name with
  | none => rfl
  | some name =>
    have hname : r.typeName hint = name := by rw [Resolved.typeName, hn]; rfl
    rw [hname] at h
    cases ty with
    | union n cases =>
      obtain rfl : n = name := by simpa using h
      rfl
    | record n members =>
      obtain rfl : n = name := by simpa using h
      rfl
    | _ => rfl

/-- Only the place of a component is named like one. -/
theorem resolve_place (hk : ValidKeys document) (hr : resolve document position = .ok (some r))
    (hs : Spaced hint) (hm : r.place hint ∈ componentNames document) :
    Reference.resolve document ⟨r.place hint⟩ = .ok (some r.schema) := by
  rcases resolve_cases hr with ⟨hn, -⟩ | ⟨name, hn, hc⟩
  · rw [place_of_inline hn (ne_empty_of_spaced hs)] at hm
    exact absurd hs (hk hint hm).2
  · rw [place_of_component hn (hk.ne_empty hc)]
    exact hc

end Names

/-! ## Faithful types -/

/-- A type in which every record and union named like a component is the complete definition of the
component, or refers back to an opened one. -/
inductive Faithful (document : Value) : List String → Ty → Prop
  | primitive {opened : List String} {p : Primitive} : Faithful document opened (.primitive p)
  | array {opened : List String} {element : Ty} (h : Faithful document opened element) :
    Faithful document opened (.array element)
  | map {opened : List String} {key value : Ty} (hk : Faithful document opened key)
    (hv : Faithful document opened value) : Faithful document opened (.map key value)
  | union {opened : List String} {name : String} {cases : List String}
    (h : name ∈ componentNames document → Complete document name (.union name cases)) :
    Faithful document opened (.union name cases)
  | record {opened : List String} {name : String} {members : List Member}
    (h : name ∈ componentNames document →
      members = [] ∧ name ∈ opened ∨ Complete document name (.record name members))
    (hm : ∀ m ∈ members, Faithful document (name :: opened) m.ty) :
    Faithful document opened (.record name members)

namespace Faithful

variable {document : Value} {opened opened' : List String} {ty : Ty} {name : String}

theorem mono (h : Faithful document opened ty) (hs : opened ⊆ opened') :
    Faithful document opened' ty := by
  induction h generalizing opened' with
  | primitive => exact .primitive
  | array h ih => exact .array (ih hs)
  | map hk hv ihk ihv => exact .map (ihk hs) (ihv hs)
  | union h => exact .union h
  | record h hm ih =>
    refine .record ?_ fun m hmem => ih m hmem (List.cons_subset_cons _ hs)
    intro hn
    exact (h hn).imp_left fun ⟨he, ho⟩ => ⟨he, hs ho⟩

theorem of_unnamed (h : Faithful document opened ty) (hn : ty.name? = none) :
    ∀ child ∈ ty.children, Faithful document opened child := by
  cases h with
  | primitive => simp [Ty.children]
  | array h => simpa [Ty.children] using h
  | map hk hv => simpa [Ty.children] using ⟨hk, hv⟩
  | union h => cases hn
  | record h hm => cases hn

theorem of_named (h : Faithful document opened ty) (hn : ty.name? = some name) :
    ∀ child ∈ ty.children, Faithful document (name :: opened) child := by
  cases h with
  | union h => simp [Ty.children]
  | record h hm =>
    cases hn
    simpa [Ty.children] using hm
  | _ => cases hn

/-- A faithful type named like a component refers back or is its complete definition. -/
theorem stub_or_complete (h : Faithful document opened ty) (hn : ty.name? = some name)
    (hc : name ∈ componentNames document) :
    ty.isStub ∧ name ∈ opened ∨ Complete document name ty := by
  cases h with
  | union h =>
    cases hn
    exact .inr (h hc)
  | record h hm =>
    cases hn
    refine (h hc).imp_left ?_
    rintro ⟨rfl, ho⟩
    exact ⟨rfl, ho⟩
  | _ => cases hn

end Faithful

/-! ## The invariant of the stack -/

/-- The records and unions on a stack have been looked into. -/
def Stack.Grounded (document : Value) (stack : Stack) : Prop :=
  ∀ name ∈ stack.nominals, ∃ schema l, Reference.resolve document ⟨name⟩ = .ok (some schema) ∧
    layer schema name = .ok l ∧ l.isNominal

section Stack

variable {document position : Value} {stack inner : Stack} {r : Resolved} {l : Layer}
  {hint name : String}

theorem refersBack_ok (he : stack.enter r = .ok (.refersBack name)) :
    r.name = some name ∧ name ∈ stack.nominals := by
  unfold Stack.enter at he
  split at he
  · cases he
  · split at he
    · cases he
    split at he
    · rename_i hn
      cases he
      exact ⟨‹_›, List.contains_iff_mem.1 hn⟩
    · split at he <;> cases he

theorem inside_ok (he : stack.enter r = .ok (.inside inner))
    (hl : layer r.schema (r.place hint) = .ok l) :
    r.name = none ∧ inner = stack ∨
      ∃ name, r.name = some name ∧ inner = ⟨name, l.isNominal⟩ :: stack := by
  unfold Stack.enter at he
  split at he
  · cases he
    exact .inl ⟨‹_›, rfl⟩
  · split at he
    · cases he
    split at he
    · cases he
    rw [isNominal_of_layer hl] at he
    cases he
    exact .inr ⟨_, ‹_›, rfl⟩

/-- Inside a layer without a name the same records are on the stack. -/
theorem nominals_of_unnamed (he : stack.enter r = .ok (.inside inner))
    (hl : layer r.schema (r.place hint) = .ok l) (hn : l.isNominal = false) :
    inner.nominals = stack.nominals := by
  rcases inside_ok he hl with ⟨-, rfl⟩ | ⟨name, -, rfl⟩
  · rfl
  · rw [hn]
    rfl

/-- Inside a record at most its place is new among the records on the stack. -/
theorem nominals_subset (hk : ValidKeys document) (hr : resolve document position = .ok (some r))
    (he : stack.enter r = .ok (.inside inner)) (hl : layer r.schema (r.place hint) = .ok l) :
    inner.nominals ⊆ r.place hint :: stack.nominals := by
  rcases inside_ok he hl with ⟨-, rfl⟩ | ⟨name, hn, rfl⟩
  · exact List.subset_cons_self _ _
  · rw [← typeName_eq_place hk hr, Resolved.typeName, hn]
    cases l.isNominal with
    | true => exact List.Subset.refl _
    | false => exact List.subset_cons_self _ _

theorem Stack.Grounded.enter (hk : ValidKeys document) (hg : stack.Grounded document)
    (hr : resolve document position = .ok (some r)) (he : stack.enter r = .ok (.inside inner))
    (hl : layer r.schema (r.place hint) = .ok l) : inner.Grounded document := by
  rcases inside_ok he hl with ⟨-, rfl⟩ | ⟨name, hn, rfl⟩
  · exact hg
  · cases hl' : l.isNominal with
    | false => exact hg
    | true =>
      intro other ho
      rcases List.mem_cons.1 ho with rfl | ho
      · have hc := resolve_of_name hr hn
        rw [place_of_component hn (hk.ne_empty hc)] at hl
        exact ⟨r.schema, l, hc, hl, hl'⟩
      · exact hg other ho

end Stack

/-! ## Faithful conversions -/

section Convert

variable {document position : Value} {stack inner : Stack} {r : Resolved} {l : Layer}
  {hint name : String} {ty : Ty}

theorem denotes_refersBack (hk : ValidKeys document) (hg : stack.Grounded document)
    (hr : resolve document position = .ok (some r)) (he : stack.enter r = .ok (.refersBack name)) :
    Denotes document position hint (.named name) := by
  obtain ⟨hn, hm⟩ := refersBack_ok he
  obtain ⟨schema, l, hs, hl, hnominal⟩ := hg name hm
  have hplace : r.place hint = name := place_of_component hn (hk.ne_empty hs)
  cases hs.symm.trans (resolve_of_name hr hn)
  rw [← hplace, ← typeName_eq_place hk hr]
  exact .nominal (finds_of_resolve hr) (reads_of_layer hl) hnominal

theorem text_mem_iff {keys : List Scalar} : keys.contains (.text name) ↔ .text name ∈ keys := by
  rw [List.contains_eq_any_beq, List.any_eq_true]
  simp only [Scalar.text_beq_comm, Scalar.beq_text_iff, exists_eq_right]

theorem describes_of_property {place : String} {required : List Scalar}
    {property : Scalar × Value} {m : Member} (hname : property.1 = .text m.name)
    (hd : ∃ v, property.2.get "description" = .ok v ∧ v.checkOptionalText = .valid m.description)
    (ho : m.isOptional = !required.contains property.1)
    (hu : Denotes document property.2 (place ++ " " ++ m.name) m.ty.use) :
    Describes document place required property m := by
  obtain ⟨v, hv, hd⟩ := hd
  refine ⟨hname, ?_, ?_, hu⟩
  · rw [Value.entry_of_get hv, Value.checkOptionalText_eq_valid_iff.1 hd]
  · rw [ho, hname, Bool.not_eq_true', ← Bool.not_eq_true, text_mem_iff]

/-- A layer that is assembled from faithful types with the meanings of their positions becomes a
faithful type with the meaning of its position. -/
theorem faithful_of_assemble {f : Value → String → Except Fault Ty} (hk : ValidKeys document)
    (hs : Spaced hint) (hr : resolve document position = .ok (some r))
    (he : stack.enter r = .ok (.inside inner)) (hl : layer r.schema (r.place hint) = .ok l)
    (ha : assemble l (r.place hint) (fun v _ hint => f v hint) = .ok ty)
    (ih : ∀ v ∈ l.positions, ∀ hint ty, Spaced hint → f v hint = .ok ty →
      Faithful document inner.nominals ty ∧ Denotes document v hint ty.use) :
    Faithful document stack.nominals (r.label ty) ∧
      Denotes document position hint (r.label ty).use := by
  have hfinds := finds_of_resolve hr
  have hreads := reads_of_layer hl
  have hstands : r.place hint ∈ componentNames document →
      StandsFor document (r.place hint) r.schema := fun hm =>
    (Reference.resolve_eq_some_iff (resolve_place hk hr hs hm)).1 rfl
  cases l with
  | primitive p =>
    cases ha
    rw [label_eq_self hk hr hint (.inl rfl)]
    exact ⟨.primitive, .primitive hfinds hreads⟩
  | union cases =>
    obtain rfl := Except.ok.inj ha
    rw [label_eq_self hk hr hint (.inr rfl)]
    refine ⟨.union fun hm => .union (hstands hm) hreads, ?_⟩
    rw [← typeName_eq_place hk hr]
    exact .nominal hfinds hreads rfl
  | array items =>
    obtain ⟨element, hf, rfl⟩ := assemble_array ha
    rw [label_eq_self hk hr hint (.inl rfl)]
    have hspaced : Spaced (r.place hint ++ " item") := spaced_append_right _ (by decide)
    obtain ⟨hfaithful, hdenotes⟩ := ih items List.mem_cons_self _ _ hspaced hf
    rw [nominals_of_unnamed he hl rfl] at hfaithful
    exact ⟨.array hfaithful, .array hfinds hreads hdenotes⟩
  | map values =>
    obtain ⟨value, hf, rfl⟩ := assemble_map ha
    rw [label_eq_self hk hr hint (.inl rfl)]
    have hspaced : Spaced (r.place hint ++ " value") := spaced_append_right _ (by decide)
    obtain ⟨hfaithful, hdenotes⟩ := ih values List.mem_cons_self _ _ hspaced hf
    rw [nominals_of_unnamed he hl rfl] at hfaithful
    exact ⟨.map .primitive hfaithful, .map hfinds hreads hdenotes⟩
  | record properties required =>
    obtain ⟨members, rfl, hall⟩ := assemble_record ha
    rw [label_eq_self hk hr hint (.inr rfl)]
    have hspaced : ∀ key : String, Spaced (r.place hint ++ " " ++ key) := fun key =>
      spaced_append_left (spaced_append_right _ (by decide)) key
    have hmember : ∀ property ∈ properties, ∀ m : Member,
        f property.2 (r.place hint ++ " " ++ m.name) = .ok m.ty →
          Faithful document inner.nominals m.ty ∧
            Denotes document property.2 (r.place hint ++ " " ++ m.name) m.ty.use := by
      intro property hp m hf
      exact ih property.2 (List.mem_map_of_mem hp) _ _ (hspaced _) hf
    have hdescribes :
        List.Forall₂ (Describes document (r.place hint) required) properties members := by
      refine ((List.forall₂_and_left _ _).2 ⟨fun _ hp => hp, hall⟩).imp ?_
      rintro property m ⟨hp, hname, hd, hf, ho⟩
      exact describes_of_property hname hd ho (hmember property hp m hf).2
    -- members are converted with the record on the stack if it is a component, else without
    have hfaithful : ∀ m ∈ members, Faithful document (r.place hint :: stack.nominals) m.ty := by
      intro m hm
      obtain ⟨property, hp, -, -, hf, -⟩ := exists_of_mem_right hall hm
      exact (hmember property hp m hf).1.mono (nominals_subset hk hr he hl)
    refine ⟨.record (fun hm => .inr ?_) hfaithful, ?_⟩
    · exact .record (hstands hm) hreads hdescribes
    · rw [← typeName_eq_place hk hr]
      exact .nominal hfinds hreads rfl

/-- **Conversions are faithful.** With valid keys and the records on the stack looked into, the type
of a position is faithful, and used as the position means. -/
theorem faithful_of_convertAt (hk : ValidKeys document)
    (h : convertAt document stack position hint = .ok ty) (hg : stack.Grounded document)
    (hs : Spaced hint) :
    Faithful document stack.nominals ty ∧ Denotes document position hint ty.use := by
  refine convertAt_induction (P := fun stack position hint ty =>
    stack.Grounded document → Spaced hint →
      Faithful document stack.nominals ty ∧ Denotes document position hint ty.use) ?_ ?_ h hg hs
  · intro stack position hint r name hr he hg hs
    have hm := (refersBack_ok he).2
    exact ⟨.record (fun _ => .inl ⟨rfl, hm⟩) (by simp), denotes_refersBack hk hg hr he⟩
  · intro stack inner position hint r l ty hr he hl ha ih hg hs
    refine faithful_of_assemble hk hs hr he hl ha fun v hv hint' ty' hs' hf => ?_
    exact ih v hv hint' ty' hf (hg.enter hk hr he hl) hs'

theorem grounded_nil : Stack.Grounded document [] := by
  intro name hn
  cases hn

/-- A reference to a component converted from scratch yields the complete definition. -/
theorem complete_of_convertPosition {schema : Value} {converted : Ty} (hk : ValidKeys document)
    (hc : Complete document name ty) (hf : Finds document position ⟨schema, some name⟩)
    (h : convertPosition document position hint = .ok converted) :
    Complete document name converted := by
  obtain ⟨r, hr, -⟩ := convertAt_ok h
  obtain rfl := hf.unique (finds_of_resolve hr)
  have hs := resolve_of_name hr rfl
  have hm := mem_componentNames_of_resolve hs
  have hplace : ∀ hint, Resolved.place ⟨schema, some name⟩ hint = name := fun hint =>
    place_of_component rfl (hk.ne_empty hs)
  obtain ⟨schema', l, hstands, hl, hnominal⟩ := hc.reads
  obtain rfl := hstands.unique ((Reference.resolve_eq_some_iff hs).1 rfl)
  -- the hint does not matter for a component, so that one with a space will do
  rw [convertPosition, convertAt_congr_hint hr ((hplace hint).trans (hplace " ").symm)] at h
  obtain ⟨hfaithful, hdenotes⟩ := faithful_of_convertAt hk h grounded_nil (by decide)
  have huse := hdenotes.unique (.nominal hf hl hnominal)
  have hname : converted.name? = some name := by
    cases converted <;> cases huse <;> rfl
  refine (hfaithful.stub_or_complete hname hm).resolve_left ?_
  rintro ⟨-, ho⟩
  cases ho

end Convert

end ApiBindings.Schema
