import ApiBindings.Schema.Layer
import ApiBindings.Schema.Reference

/-!
# The components under conversion

While the schema of a component is converted the component is on a stack. A component that describes
a record or a union is entered at most once: a reference back to it stands for the whole. Any other
component is an alias, which may be entered again, but only after a record component has been
entered in between; an alias that comes back without one has no end.

Both rules bound the stack. Entering a record component uses up one of the names of the document,
and entering an alias uses up one of the names that have not been met since the last record.
-/

namespace ApiBindings.Schema

/-! ## Names not yet seen -/

/-- How many of some names have not been seen. -/
def unseen (names seen : List String) : Nat := names.countP fun n => !seen.contains n

theorem unseen_le_length (names seen : List String) : unseen names seen ≤ names.length :=
  List.countP_le_length

theorem unseen_cons_lt {names seen : List String} {name : String} (hn : name ∈ names)
    (hs : name ∉ seen) : unseen names (name :: seen) < unseen names seen := by
  have le : ∀ ns : List String, unseen ns (name :: seen) ≤ unseen ns seen := fun ns => by
    apply List.countP_mono_left
    intro n _ h
    simp only [List.contains_cons, Bool.not_or, Bool.and_eq_true] at h
    exact h.2
  induction names with
  | nil => simp at hn
  | cons n ns ih =>
    by_cases h : n = name
    · have := le ns
      simp only [unseen] at this ⊢
      simp [h, hs]
      simp at this
      omega
    · have := ih ((List.mem_cons.1 hn).resolve_left (Ne.symm h))
      simp only [unseen] at this ⊢
      rw [List.countP_cons, List.countP_cons]
      have he : (n == name) = false := by simp [h]
      simp only [List.contains_cons, he, Bool.false_or] at this ⊢
      omega

/-! ## The stack -/

/-- A component whose schema is being converted. -/
structure Component where
  name : String
  isNominal : Bool
  deriving DecidableEq, Repr

/-- The components under conversion, the innermost first. -/
abbrev Stack := List Component

namespace Stack

/-- The names of the record and union components. -/
def nominals (stack : Stack) : List String := (stack.filter (·.isNominal)).map (·.name)

/-- The names of the aliases entered since the last record or union component. -/
def aliases (stack : Stack) : List String := (stack.takeWhile (!·.isNominal)).map (·.name)

/-- What becomes of a schema that a position leads to. -/
inductive Entry where
  | refersBack (name : String)
  | inside (stack : Stack)

/-- Enters the schema that a position leads to. -/
def enter (stack : Stack) (r : Resolved) : Except Fault Entry :=
  match r.name with
  | none => .ok (.inside stack)
  | some name =>
    if stack.aliases.contains name then .error (.unsupportedSchema "recursive alias" name)
    else if stack.nominals.contains name then .ok (.refersBack name)
    else
      match isNominal r.schema with
      | .error f => .error f
      | .ok nominal => .ok (.inside (⟨name, nominal⟩ :: stack))

/-- Whether a reference to a component stands for the whole, by the innermost entry of its name. -/
def standsForWhole (stack : Stack) (name : String) : Except Fault Bool :=
  match stack.find? (·.name == name) with
  | none => .ok false
  | some innermost =>
    if innermost.isNominal then .ok true
    else if (stack.takeWhile (·.name != name)).any (·.isNominal) then .ok false
    else .error (.unsupportedSchema "recursive alias" name)

@[simp] theorem nominals_cons_true (name : String) (stack : Stack) :
    nominals (⟨name, true⟩ :: stack) = name :: stack.nominals := rfl

@[simp] theorem nominals_cons_false (name : String) (stack : Stack) :
    nominals (⟨name, false⟩ :: stack) = stack.nominals := rfl

@[simp] theorem aliases_cons_true (name : String) (stack : Stack) :
    aliases (⟨name, true⟩ :: stack) = [] := rfl

@[simp] theorem aliases_cons_false (name : String) (stack : Stack) :
    aliases (⟨name, false⟩ :: stack) = name :: stack.aliases := rfl

theorem eq_of_enter_inline {stack stack' : Stack} {r : Resolved} (hn : r.name = none)
    (h : stack.enter r = .ok (.inside stack')) : stack' = stack := by
  simp only [enter, hn, Except.ok.injEq, Entry.inside.injEq] at h
  exact h.symm

/-- Entering a component leaves fewer record names, or as many and fewer names of aliases. -/
theorem unseen_lt_of_enter {names : List String} {stack stack' : Stack} {r : Resolved}
    {name : String} (hn : r.name = some name) (hm : name ∈ names)
    (h : stack.enter r = .ok (.inside stack')) :
    unseen names stack'.nominals < unseen names stack.nominals ∨
      stack'.nominals = stack.nominals ∧
        unseen names stack'.aliases < unseen names stack.aliases := by
  simp only [enter, hn] at h
  split at h
  · cases h
  split at h
  · cases h
  rename_i ha hr
  simp only [List.contains_iff_mem] at ha hr
  split at h
  · cases h
  · rename_i nominal _
    cases h
    cases nominal with
    | true => exact .inl (unseen_cons_lt hm hr)
    | false => exact .inr ⟨rfl, unseen_cons_lt hm ha⟩

end Stack

/-! ## Names of components -/

/-- The names in the component table of a document. -/
def componentNames (document : Value) : List String :=
  match componentTable document with
  | .ok table => table.filterMap fun e => match e.1 with
    | .text name => some name
    | _ => none
  | .error _ => []

theorem valueAt?_of_follow {table : List (Scalar × Value)} {fuel : Nat} {name : String}
    {entries : List (Scalar × Value)} (h : Reference.follow table fuel name = some entries) :
    ∃ v, Value.valueAt? (.text name) table = some v := by
  cases fuel with
  | zero => simp [Reference.follow] at h
  | succ fuel =>
    cases hv : Value.valueAt? (.text name) table with
    | none => simp [Reference.follow, hv] at h
    | some v => exact ⟨v, rfl⟩

/-- A reference that leads to a schema leads there from its entry in the component table. -/
theorem Reference.resolve_eq_some {document schema : Value} {name : String}
    (h : Reference.resolve document ⟨name⟩ = .ok (some schema)) :
    ∃ table entries, componentTable document = .ok table ∧
      Reference.follow table table.length name = some entries ∧ schema = .mapping entries := by
  obtain ⟨table, ht, h⟩ := bind_eq_ok.1 h
  obtain ⟨entries, hf, rfl⟩ := Option.map_eq_some_iff.1 (Except.ok.inj h)
  exact ⟨table, entries, ht, hf, rfl⟩

theorem mem_componentNames_of_resolve {document schema : Value} {name : String}
    (h : Reference.resolve document ⟨name⟩ = .ok (some schema)) :
    name ∈ componentNames document := by
  obtain ⟨table, entries, ht, hf, -⟩ := Reference.resolve_eq_some h
  obtain ⟨v, hv⟩ := valueAt?_of_follow hf
  obtain ⟨e, he, hk⟩ := Value.mem_of_valueAt? hv
  simp only [componentNames, ht, List.mem_filterMap]
  exact ⟨e, he, by simp [hk]⟩

/-- A position that is no reference stands for itself; any other leads to a component. -/
theorem resolve_cases {document position : Value} {r : Resolved}
    (h : resolve document position = .ok (some r)) :
    (r.name = none ∧ r.schema = position) ∨
      ∃ name, r.name = some name ∧ Reference.resolve document ⟨name⟩ = .ok (some r.schema) := by
  obtain ⟨mentioned, -, h⟩ := bind_eq_ok.1 h
  cases mentioned with
  | false =>
    cases h
    exact .inl ⟨rfl, rfl⟩
  | true =>
    obtain ⟨target, -, h⟩ := bind_eq_ok.1 h
    cases ht : Reference.ofValue? target with
    | none => simp [ht, pure, Except.pure] at h
    | some reference =>
      simp only [ht] at h
      obtain ⟨found, hf, h⟩ := bind_eq_ok.1 h
      obtain ⟨schema, rfl, rfl⟩ := Option.map_eq_some_iff.1 (Except.ok.inj h)
      exact .inr ⟨reference.name, rfl, hf⟩

end ApiBindings.Schema
