import ApiBindings.Schema.Stack

/-!
# The discipline of the stack

A converter that keeps one list of the components under conversion need not look at all of it to
decide about a reference: the innermost entry of the name is enough, together with what has been
entered since. If that entry is a record or a union the reference stands for the whole. If it is an
alias, it may be entered again when a record or a union has been entered since, and has no end
otherwise.

On a disciplined stack, where no name stands above a record or union component of that name or above
an alias of that name with no record in between, this rule is the rule of `enter`
(`judge_eq_enter`), and what it enters leaves a disciplined stack. So every record component is on
the stack at most once, and between records every alias is.
-/

namespace ApiBindings.Schema.Stack

/-! ## The rule of the innermost entry -/

/-- Judges the schema that a position leads to, by the innermost entry of its name. -/
def judge (stack : Stack) (r : Resolved) : Except Fault Entry :=
  match r.name with
  | none => .ok (.inside stack)
  | some name => do
    if ← stack.standsForWhole name then return .refersBack name
    let nominal ← isNominal r.schema
    return .inside (⟨name, nominal⟩ :: stack)

/-! ## Disciplined stacks -/

/-- No component has been entered inside a record or union component of its name, or inside an alias
of its name without a record in between. -/
inductive Disciplined : Stack → Prop
  | nil : Disciplined []
  | cons {c : Component} {rest : Stack} (hn : c.name ∉ rest.nominals) (ha : c.name ∉ rest.aliases)
    (h : Disciplined rest) : Disciplined (c :: rest)

section Rule

variable {stack : Stack} {name other : String}

theorem standsForWhole_cons_self (nominal : Bool) : standsForWhole (⟨name, nominal⟩ :: stack) name =
    if nominal then .ok true else .error (.unsupportedSchema "recursive alias" name) := by
  cases nominal <;> simp [standsForWhole]

/-- Once a record has been entered only the flag of the innermost entry counts. -/
theorem standsForWhole_cons_true (h : other ≠ name) :
    standsForWhole (⟨other, true⟩ :: stack) name =
      .ok ((stack.find? (·.name == name)).any (·.isNominal)) := by
  unfold standsForWhole
  cases hf : stack.find? (·.name == name) with
  | none => rw [List.find?_cons_of_neg (by simpa using h), hf]; rfl
  | some innermost =>
    rw [List.find?_cons_of_neg (by simpa using h), hf]
    cases hi : innermost.isNominal <;> simp [h, hi]

theorem standsForWhole_cons_false (h : other ≠ name) :
    standsForWhole (⟨other, false⟩ :: stack) name = stack.standsForWhole name := by
  unfold standsForWhole
  rw [List.find?_cons_of_neg (by simpa using h), List.takeWhile_cons_of_pos (by simpa using h)]
  rfl

/-- On a disciplined stack the innermost entry of a name tells whether a record has the name. -/
theorem mem_nominals_iff (h : Disciplined stack) :
    name ∈ stack.nominals ↔ (stack.find? (·.name == name)).any (·.isNominal) := by
  induction h with
  | nil => simp [nominals]
  | @cons c rest hn ha h ih =>
    obtain ⟨n, nominal⟩ := c
    by_cases hc : n = name
    · subst hc
      cases nominal with
      | true => simp
      | false => simpa using hn
    · have hne : ¬ name = n := fun he => hc he.symm
      cases nominal <;> simpa [hc, hne] using ih

theorem standsForWhole_eq (h : Disciplined stack) : stack.standsForWhole name =
    if name ∈ stack.aliases then .error (.unsupportedSchema "recursive alias" name)
    else .ok (decide (name ∈ stack.nominals)) := by
  induction h with
  | nil => rfl
  | @cons c rest hn ha h ih =>
    obtain ⟨n, nominal⟩ := c
    by_cases hc : n = name
    · subst hc
      rw [standsForWhole_cons_self]
      cases nominal <;> simp
    · have hne : ¬ name = n := fun he => hc he.symm
      cases nominal with
      | true =>
        rw [standsForWhole_cons_true hc, aliases_cons_true, nominals_cons_true,
          if_neg List.not_mem_nil]
        simp [hne, mem_nominals_iff h]
      | false =>
        rw [standsForWhole_cons_false hc, ih, aliases_cons_false, nominals_cons_false]
        simp [hne]

/-- On a disciplined stack the rule of the innermost entry is the rule of the whole stack. -/
theorem judge_eq_enter (h : Disciplined stack) (r : Resolved) : stack.judge r = stack.enter r := by
  unfold judge enter
  cases hr : r.name with
  | none => rfl
  | some name =>
    simp only [standsForWhole_eq h, List.contains_iff_mem]
    by_cases ha : name ∈ stack.aliases
    · simp [ha, bind, Except.bind]
    · by_cases hn : name ∈ stack.nominals
      · simp [ha, hn, bind, Except.bind, pure, Except.pure]
      · cases hs : isNominal r.schema <;>
          simp [ha, hn, bind, Except.bind, pure, Except.pure]

end Rule

/-! ## What is entered -/

namespace Disciplined

variable {stack inner : Stack} {r : Resolved}

theorem enter (h : Disciplined stack) (he : stack.enter r = .ok (.inside inner)) :
    Disciplined inner := by
  unfold Stack.enter at he
  split at he
  · cases he
    exact h
  · split at he
    · cases he
    split at he
    · cases he
    rename_i ha hn
    split at he
    · cases he
    · cases he
      simp only [List.contains_iff_mem] at ha hn
      exact .cons hn ha h

theorem judge (h : Disciplined stack) (he : stack.judge r = .ok (.inside inner)) :
    Disciplined inner :=
  h.enter (judge_eq_enter h r ▸ he)

theorem of_append {outer : Stack} :
    ∀ inner : Stack, Disciplined (inner ++ outer) → Disciplined outer
  | [], h => h
  | _ :: inner, .cons _ _ h => of_append inner h

theorem nodup_nominals (h : Disciplined stack) : stack.nominals.Nodup := by
  induction h with
  | nil => exact List.nodup_nil
  | @cons c rest hn ha h ih =>
    obtain ⟨n, nominal⟩ := c
    cases nominal with
    | true => exact List.nodup_cons.2 ⟨hn, ih⟩
    | false => exact ih

theorem nodup_aliases {outer : Stack} : ∀ {stretch : Stack}, Disciplined (stretch ++ outer) →
    (∀ c ∈ stretch, ¬ c.isNominal) → (stretch.map (·.name)).Nodup
  | [], _, _ => List.nodup_nil
  | c :: stretch, .cons _ ha h, hs => by
    have hrest : ∀ c ∈ stretch, ¬ c.isNominal := fun c hc => hs c (List.mem_cons_of_mem _ hc)
    rw [List.map_cons, List.nodup_cons]
    refine ⟨?_, nodup_aliases h hrest⟩
    intro hm
    have htake : (stretch ++ outer).takeWhile (!·.isNominal) =
        stretch ++ outer.takeWhile (!·.isNominal) :=
      List.takeWhile_append_of_pos fun c hc => by simpa using hrest c hc
    have hmem : c.name ∈ aliases (stretch ++ outer) := by
      rw [aliases, htake, List.map_append]
      exact List.mem_append_left _ hm
    exact ha hmem

end Disciplined

end ApiBindings.Schema.Stack
