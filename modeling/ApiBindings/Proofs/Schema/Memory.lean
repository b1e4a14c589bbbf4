import ApiBindings.Proofs.Schema.Termination
import ApiBindings.Schema.Converter

/-!
# One converter for many conversions

A conversion may fail before its component is written into the memory, while the component is being
judged, or out of conversions inside it that have written components themselves.

Whatever is done with a component restores the memory (`Yields.within`), and so does a conversion
(`convertReference_yields`), whose outcome is that of `convertAt` with the memory for its stack. So
the tasks that one converter is given do not depend on each other (`tasks_independent`).
-/

namespace ApiBindings.Schema

namespace Task

/-- The outcome of a task by itself. -/
def outcome (document : Value) : Task → Except Fault Ty
  | position v hint => convertPosition document v hint
  | resolved r hint => convert document r hint

end Task

/-! ## The memory is restored -/

section Yields

variable {α β : Type} {stack : Stack} {x : Converting α} {o : Except Fault α}
  {k : α → Converting β} {next : α → Except Fault β}

/-- Starting with a memory, something comes to an outcome and leaves the memory as it was. -/
def Yields (stack : Stack) (x : Converting α) (o : Except Fault α) : Prop :=
  x.run.run stack = some (o, stack)

theorem Yields.pure (a : α) : Yields stack (Pure.pure a : Converting α) (.ok a) := rfl

theorem Yields.lift (o : Except Fault α) : Yields stack (liftM o : Converting α) o := rfl

theorem Yields.bind (hx : Yields stack x o) (h : ∀ a, o = .ok a → Yields stack (k a) (next a)) :
    Yields stack (x >>= k) (o >>= next) := by
  unfold Yields at hx
  have hrun : (x >>= k).run.run stack = x.run.run stack >>= fun (outcome, memory) =>
      match outcome with
      | .ok a => (k a).run.run memory
      | .error f => some (.error f, memory) := by
    show (x.run >>= _).run stack = _
    rw [StateT.run_bind]
    congr 1
    funext ⟨outcome, memory⟩
    cases outcome <;> rfl
  unfold Yields
  rw [hrun, hx]
  cases o with
  | error f => rfl
  | ok a => exact h a rfl

/-- What is done with a component in the memory restores the memory without it. -/
theorem Yields.within {c : Component} (h : Yields (c :: stack) x o) :
    Yields stack (Converter.within c x) o := by
  unfold Yields Converter.within at *
  show (x.run.run (c :: stack) >>= _) = _
  rw [h]
  rfl

end Yields

/-! ## Conversions restore the memory -/

section Conversions

variable {document position : Value} {bound depth : Nat} {stack inner : Stack}
  {further : Value → String → Converting Ty} {r : Resolved} {hint name : String}

/-- The type of a resolved schema, with the components around it on the stack. -/
def convertInside (document : Value) (inner : Stack) (r : Resolved) (hint : String) :
    Except Fault Ty := do
  let l ← layer r.schema (r.place hint)
  assemble l (r.place hint) fun v _ hint => convertAt document inner v hint

/-- The type of a resolved schema, which may refer back to a component on the stack. -/
def convertOn (document : Value) (stack : Stack) (r : Resolved) (hint : String) :
    Except Fault Ty := do
  match ← stack.enter r with
  | .refersBack name => return .record name []
  | .inside inner =>
    let ty ← convertInside document inner r hint
    return r.label ty

theorem convert_eq_convertOn (document : Value) (r : Resolved) (hint : String) :
    convert document r hint = convertOn document [] r hint := by
  unfold convert convertOn convertInside
  congr 1
  funext entry
  cases entry with
  | refersBack name => rfl
  | inside inner => exact (bind_assoc _ _ _).symm

theorem convertAt_eq_convertOn (document : Value) (stack : Stack) (position : Value)
    (hint : String) :
    convertAt document stack position hint = (do
      match ← resolve document position with
      | none =>
        let reference ← position.item "$ref"
        .error (.unresolvableReference reference.spelling)
      | some r => convertOn document stack r hint) := by
  rw [convertAt_eq, call]
  unfold convertOn convertInside
  congr 1
  funext found
  cases found with
  | none => rfl
  | some r =>
    show (stack.enter r >>= _) = (stack.enter r >>= _)
    congr 1
    funext entry
    cases entry with
    | refersBack name => rfl
    | inside inner => exact (bind_assoc _ _ _).symm

theorem convertOn_inline (hn : r.name = none) :
    convertOn document stack r hint = convertInside document stack r hint := by
  simp only [convertOn, Stack.enter, Resolved.label, hn]
  exact bind_pure (convertInside document stack r hint)

theorem convertOn_component (hs : stack.Disciplined) (hn : r.name = some name) :
    convertOn document stack r hint = (do
      if ← stack.standsForWhole name then return .record name []
      else
        let nominal ← isNominal r.schema
        let ty ← convertInside document (⟨name, nominal⟩ :: stack) r hint
        return ty.withName name) := by
  simp only [convertOn, Resolved.label, hn, ← Stack.judge_eq_enter hs, Stack.judge, bind_assoc]
  congr 1
  funext whole
  cases whole with
  | true => rfl
  | false => exact bind_assoc _ _ _

theorem Yields.get {α : Type} {k : Stack → Converting α} {o : Except Fault α}
    (h : Yields stack (k stack) o) : Yields stack (MonadState.get >>= k) o := h

theorem build_yields (h : ∀ l v hint', layer r.schema (r.place hint) = .ok l → v ∈ l.positions →
      Yields inner (further v hint') (convertAt document inner v hint')) :
    Yields inner (Converter.build further r hint) (convertInside document inner r hint) := by
  refine Yields.bind (Yields.lift _) fun l hl => ?_
  refine related_assemble (R := Yields inner) Yields.pure Yields.bind Yields.lift ?_
  exact fun v hv hint' => h l v hint' hl hv

theorem convertResolved_yields (hs : stack.Disciplined)
    (h : ∀ inner l v hint', stack.enter r = .ok (.inside inner) →
      layer r.schema (r.place hint) = .ok l → v ∈ l.positions →
        Yields inner (further v hint') (convertAt document inner v hint')) :
    Yields stack (Converter.convertResolved further r hint) (convertOn document stack r hint) := by
  unfold Converter.convertResolved
  cases hn : r.name with
  | none =>
    rw [convertOn_inline hn]
    refine build_yields fun l v hint' hl hv => h stack l v hint' ?_ hl hv
    rw [Stack.enter, hn]
  | some name =>
    rw [convertOn_component hs hn]
    refine Yields.get (Yields.bind (Yields.lift _) fun whole hw => ?_)
    cases whole with
    | true => exact Yields.pure _
    | false =>
      refine Yields.bind (Yields.lift _) fun nominal hnominal => ?_
      refine Yields.bind (Yields.within ?_) fun ty _ => Yields.pure _
      refine build_yields fun l v hint' hl hv => h _ l v hint' ?_ hl hv
      rw [← Stack.judge_eq_enter hs, Stack.judge, hn]
      simp only [hw, hnominal]
      rfl

/-- A conversion that is nested less deep than the depth allows comes to its outcome and restores
the memory. -/
theorem convertReference_yields (hrank : rank document bound stack position < depth)
    (hd : sizeOf document ≤ bound) (hp : sizeOf position ≤ bound) (hs : stack.Disciplined) :
    Yields stack (Converter.convertReference document depth position hint)
      (convertAt document stack position hint) := by
  induction depth generalizing stack position hint with
  | zero => omega
  | succ depth ih =>
    rw [Converter.convertReference, convertAt_eq_convertOn]
    refine Yields.bind (Yields.lift _) fun found hr => ?_
    cases found with
    | none => exact Yields.bind (Yields.lift _) fun reference _ => Yields.lift (.error _)
    | some r =>
      refine convertResolved_yields hs ?_
      -- a nested conversion has a smaller rank, so that the depth that is left is enough for it
      intro inner l v hint' he hl hv
      have hb := sizeOf_le_of_nested hr hl hv hd hp
      have hlt := rank_lt hr he hl hv hb
      exact ih (by omega) hb (hs.enter he)

end Conversions

/-! ## Tasks -/

namespace Task

variable {document : Value}

/-- Some depth is enough for a task of a converter with an empty memory, and more does not matter.
-/
theorem exists_depth (document : Value) (task : Task) : ∃ bound, ∀ depth, bound ≤ depth →
    task.perform document depth [] = some (task.outcome document, []) := by
  cases task with
  | position v hint =>
    refine ⟨depthBound document v, fun depth hdepth => ?_⟩
    have hrank := rank_lt_depthBound document v
    exact convertReference_yields (by omega) (Nat.le_add_right _ _) (Nat.le_add_left _ _) .nil
  | resolved r hint =>
    refine ⟨depthBound document r.schema, fun depth hdepth => ?_⟩
    show Yields [] (Converter.convertResolved _ r hint) (convert document r hint)
    rw [convert_eq_convertOn]
    refine convertResolved_yields .nil fun inner l v hint' he hl hv => ?_
    have hsize := sizeOf_lt_of_mem_positions hl hv
    have hle : sizeOf v ≤ sizeOf document + sizeOf r.schema := by omega
    have hrank := rank_lt_of_sizeOf_le inner hle
    exact convertReference_yields (by omega) (Nat.le_add_right _ _) hle (.enter .nil he)

/-- **A converter carries no memory between tasks.** Given a depth that is enough, one converter
performs any tasks one after the other with the outcomes that each of them has on a converter of its
own, whatever types or faults have come out before, and its memory is empty after each task. -/
theorem tasks_independent (document : Value) (tasks : List Task) :
    ∃ bound, ∀ depth, bound ≤ depth →
      performAll document depth tasks [] = some (tasks.map (outcome document), []) ∧
      ∀ task ∈ tasks, task.perform document depth [] = some (task.outcome document, []) := by
  induction tasks with
  | nil => exact ⟨0, fun depth _ => ⟨rfl, by simp⟩⟩
  | cons task tasks ih =>
    obtain ⟨bound, hbound⟩ := task.exists_depth document
    obtain ⟨later, hlater⟩ := ih
    refine ⟨max bound later, fun depth hdepth => ?_⟩
    have htask := hbound depth (le_of_max_le_left hdepth)
    obtain ⟨hall, halone⟩ := hlater depth (le_of_max_le_right hdepth)
    refine ⟨?_, List.forall_mem_cons.2 ⟨htask, halone⟩⟩
    unfold performAll at hall ⊢
    rw [List.mapM_cons]
    show (task.perform document depth [] >>= _) = _
    rw [htask]
    show (List.mapM (perform document depth) tasks [] >>= _) = _
    rw [hall]
    rfl

/-- An array that gives its name to the array of nodes, with items that cannot be resolved, and
after it the array of nodes itself. -/
def treeTasks : List Task :=
  [.resolved ⟨.mapping [(.text "type", .text "array"), (.text "items", referenceTo "Leaf")],
      some "NodeList"⟩ "root",
    .position (referenceTo "NodeList") "root"]

theorem outcomes_of_tree : treeTasks.map (outcome treeDocument) =
    [.error (.unresolvableReference "#/components/schemas/Leaf"),
      .ok (.array (.record "Node" [⟨"children", none, .array (.record "Node" []), true⟩]))] := by
  have leaf : convertAt treeDocument [⟨"NodeList", false⟩] (referenceTo "Leaf") "NodeList item" =
      .error (.unresolvableReference "#/components/schemas/Leaf") := by
    rw [convertAt_eq]
    rfl
  have nodes : convertWithin treeDocument 4 [] (referenceTo "NodeList") "root" =
      reached (.ok (.array (.record "Node" [⟨"children", none, .array (.record "Node" []), true⟩]))) :=
    rfl
  refine congr_arg₂ List.cons ?_ (congr_arg (fun o => [o]) (convertPosition_of_reached nodes))
  show (convertAt treeDocument [⟨"NodeList", false⟩] (referenceTo "Leaf") "NodeList item" >>= _)
    >>= _ = _
  rw [leaf]
  rfl

/-- The fault inside the array of nodes does not keep the array from being converted. -/
theorem tree_after_fault : ∃ bound, ∀ depth, bound ≤ depth →
    performAll treeDocument depth treeTasks [] =
      some ([.error (.unresolvableReference "#/components/schemas/Leaf"),
        .ok (.array (.record "Node" [⟨"children", none, .array (.record "Node" []), true⟩]))],
        []) := by
  obtain ⟨bound, hbound⟩ := tasks_independent treeDocument treeTasks
  refine ⟨bound, fun depth hdepth => ?_⟩
  rw [(hbound depth hdepth).1, outcomes_of_tree]

end Task

end ApiBindings.Schema
