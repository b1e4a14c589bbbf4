import ApiBindings.Proofs.Schema.Conversion
import ApiBindings.Proofs.Schema.Discipline
import Mathlib.Tactic.Linarith

/-!
# Conversion ends

The conversion is run by the rule of the innermost entry and cut off at a depth (`convertWithin`): a
call that is nested deeper than the depth allows yields neither a type nor a fault. A conversion
comes to its end when some depth is enough for it. This is a statement about the calls as they are
made, whereas `convertAt` is known to end by the budget that it is defined along.

Nested calls have a falling rank (`rank_lt`). Its digits are the records that are not on the stack,
the aliases that have not been entered since the last record, and the size of the position; for a
position in a component the size may grow, but then one of the first two digits falls. The rank of
the first call bounds the depth (`rank_lt_depthBound`).
-/

namespace ApiBindings.Schema

/-! ## Conversion cut off at a depth -/

/-- An outcome that may be out of reach. -/
abbrev Bounded := ExceptT Fault Option

/-- An outcome that is reached. -/
def reached {α : Type} (outcome : Except Fault α) : Bounded α := ExceptT.mk (some outcome)

instance : MonadLift (Except Fault) Bounded := ⟨reached⟩

/-- The type of the schema at a position, out of reach if more than `depth` calls are nested. A
reference is judged by the innermost entry of its name. -/
def convertWithin (document : Value) : (depth : Nat) → Stack → Value → String → Bounded Ty
  | 0, _, _, _ => ExceptT.mk none
  | depth + 1, stack, position, hint =>
    call document Stack.judge (convertWithin document depth) stack position hint

section Reached

variable {α β : Type} {x : Bounded α} {o : Except Fault α} {k : α → Bounded β}
  {next : α → Except Fault β}

theorem bind_reached (hx : x = reached o) (h : ∀ a, o = .ok a → k a = reached (next a)) :
    x >>= k = reached (o >>= next) := by
  subst hx
  cases o with
  | error f => rfl
  | ok a => exact h a rfl

/-- An outcome that is the right one if it is reached. -/
def AtMost (x : Bounded α) (o : Except Fault α) : Prop := x = ExceptT.mk none ∨ x = reached o

theorem AtMost.bind (hx : AtMost x o) (h : ∀ a, o = .ok a → AtMost (k a) (next a)) :
    AtMost (x >>= k) (o >>= next) := by
  rcases hx with rfl | rfl
  · exact .inl rfl
  · cases o with
    | error f => exact .inr rfl
    | ok a => exact h a rfl

end Reached

/-! ## Sizes -/

section Size

variable {document v w schema : Value} {key name : String} {entries table : List (Scalar × Value)}

theorem two_le_sizeOf (v : Value) : 2 ≤ sizeOf v := by
  cases v with
  | scalar s => cases s <;> simp <;> omega
  | list items =>
    cases items with
    | nil => simp
    | cons item items => simp; omega
  | mapping entries =>
    cases entries with
    | nil => simp
    | cons entry entries => simp; omega

theorem sizeOf_le_of_get (h : v.get key = .ok w) : sizeOf w ≤ sizeOf v := by
  cases v with
  | mapping entries =>
    rw [Value.get_mapping, Except.ok.injEq] at h
    cases hv : Value.valueAt? (.text key) entries with
    | none =>
      rw [hv] at h
      subst h
      exact two_le_sizeOf _
    | some found =>
      rw [hv] at h
      subst h
      have := Value.sizeOf_lt_of_valueAt? hv
      simp
      omega
  | _ => cases h

theorem sizeOf_orElse_le (v : Value) : sizeOf (v.orElse (.mapping [])) ≤ sizeOf v := by
  unfold Value.orElse
  split
  · exact le_refl _
  · exact two_le_sizeOf v

theorem sizeOf_lt_of_entries (h : v.entries = .ok entries) : sizeOf entries < sizeOf v := by
  obtain rfl := Value.eq_mapping_of_entries h
  simp

theorem sizeOf_lt_of_componentTable (h : componentTable document = .ok table) :
    sizeOf table < sizeOf document := by
  obtain ⟨components, hc, h⟩ := bind_eq_ok.1 h
  obtain ⟨schemas, hs, h⟩ := bind_eq_ok.1 h
  calc sizeOf table < sizeOf (schemas.orElse (.mapping [])) := sizeOf_lt_of_entries h
    _ ≤ sizeOf schemas := sizeOf_orElse_le schemas
    _ ≤ sizeOf (components.orElse (.mapping [])) := sizeOf_le_of_get hs
    _ ≤ sizeOf components := sizeOf_orElse_le components
    _ ≤ sizeOf document := sizeOf_le_of_get hc

theorem sizeOf_lt_of_follow {fuel : Nat} (h : Reference.follow table fuel name = some entries) :
    sizeOf entries < sizeOf table := by
  induction fuel generalizing name with
  | zero => cases h
  | succ fuel ih =>
    rw [Reference.follow] at h
    split at h
    · rename_i found hf
      have hlt := Value.sizeOf_lt_of_valueAt? hf
      split at h
      · cases h
        simp at hlt
        omega
      · split at h
        · exact ih h
        · cases h
    · cases h

theorem sizeOf_lt_of_resolve (h : Reference.resolve document ⟨name⟩ = .ok (some schema)) :
    sizeOf schema < sizeOf document := by
  obtain ⟨table, entries, ht, hf, rfl⟩ := Reference.resolve_eq_some h
  have h₁ := sizeOf_lt_of_componentTable ht
  have h₂ := sizeOf_lt_of_follow hf
  simp
  omega

end Size

/-! ## The rank of a call -/

/-- A larger leading digit outweighs a smaller last digit. -/
theorem weigh_lt {k a a' b b' : Nat} (h : a' < a ∨ a' = a ∧ b' < b) (hb : b' ≤ k) :
    a' * (k + 1) + b' < a * (k + 1) + b := by
  rcases h with h | ⟨rfl, h⟩
  · have hle : (a' + 1) * (k + 1) ≤ a * (k + 1) := Nat.mul_le_mul_right _ h
    rw [Nat.succ_mul] at hle
    omega
  · omega

/-- The rank of a call among positions up to a size: the number of records not on the stack, that of
aliases not entered since the last record, and the size of the position, as digits. -/
noncomputable def rank (document : Value) (bound : Nat) (stack : Stack) (position : Value) : Nat :=
  (unseen (componentNames document) stack.nominals * ((componentNames document).length + 1) +
    unseen (componentNames document) stack.aliases) * (bound + 1) + sizeOf position

section Rank

variable {document position v : Value} {bound : Nat} {stack inner : Stack} {r : Resolved}
  {l : Layer} {place : String}

theorem rank_lt (hr : resolve document position = .ok (some r))
    (he : stack.enter r = .ok (.inside inner)) (hl : layer r.schema place = .ok l)
    (hv : v ∈ l.positions) (hb : sizeOf v ≤ bound) :
    rank document bound inner v < rank document bound stack position := by
  unfold rank
  rcases resolve_cases hr with ⟨hn, hs⟩ | ⟨name, hn, hc⟩
  · have hlt := sizeOf_lt_of_mem_positions hl hv
    rw [hs] at hlt
    rw [Stack.eq_of_enter_inline hn he]
    omega
  · have hlt := Stack.unseen_lt_of_enter hn (mem_componentNames_of_resolve hc) he
    refine weigh_lt (.inl (weigh_lt (hlt.imp_right ?_) (unseen_le_length _ _))) hb
    rintro ⟨heq, h⟩
    exact ⟨by rw [heq], h⟩

theorem sizeOf_le_of_nested (hr : resolve document position = .ok (some r))
    (hl : layer r.schema place = .ok l) (hv : v ∈ l.positions) (hd : sizeOf document ≤ bound)
    (hp : sizeOf position ≤ bound) : sizeOf v ≤ bound := by
  have hlt := sizeOf_lt_of_mem_positions hl hv
  rcases resolve_cases hr with ⟨-, hs⟩ | ⟨name, -, hc⟩
  · rw [hs] at hlt
    omega
  · have := sizeOf_lt_of_resolve hc
    omega

/-- A call that is nested less deep than the depth allows reaches the outcome of the conversion. -/
theorem convertWithin_eq {depth : Nat} (hrank : rank document bound stack position < depth)
    (hd : sizeOf document ≤ bound) (hp : sizeOf position ≤ bound) (hs : stack.Disciplined)
    (hint : String) :
    convertWithin document depth stack position hint =
      reached (convertAt document stack position hint) := by
  induction depth generalizing stack position hint with
  | zero => omega
  | succ depth ih =>
    rw [convertWithin, convertAt_eq]
    refine related_call (R := fun x o => x = reached o) (fun _ => rfl) bind_reached (fun _ => rfl)
      (Stack.judge_eq_enter hs) ?_
    -- a nested call has a smaller rank, so that the depth that is left is enough for it
    intro r inner l v hint' hr he hl hv
    have hb := sizeOf_le_of_nested hr hl hv hd hp
    have hlt := rank_lt hr he hl hv hb
    exact ih (by omega) hb (hs.enter he) hint'

/-- Within any depth a conversion either is out of reach or has its outcome. -/
theorem convertWithin_atMost (depth : Nat) (hs : stack.Disciplined) (hint : String) :
    AtMost (convertWithin document depth stack position hint)
      (convertAt document stack position hint) := by
  induction depth generalizing stack position hint with
  | zero => exact .inl rfl
  | succ depth ih =>
    rw [convertWithin, convertAt_eq]
    refine related_call (R := AtMost) (fun _ => .inr rfl) AtMost.bind (fun _ => .inr rfl)
      (Stack.judge_eq_enter hs) ?_
    intro r inner l v hint' hr he hl hv
    exact ih (hs.enter he) hint'

theorem convertPosition_of_reached {depth : Nat} {hint : String} {outcome : Except Fault Ty}
    (h : convertWithin document depth [] position hint = reached outcome) :
    convertPosition document position hint = outcome := by
  have hmost : AtMost (convertWithin document depth [] position hint)
      (convertAt document [] position hint) := convertWithin_atMost depth .nil hint
  rcases hmost with hn | hr
  · cases h.symm.trans hn
  · exact (Option.some.inj (h.symm.trans hr)).symm

end Rank

/-- A depth that no conversion of a position of a document goes beyond. -/
noncomputable def depthBound (document position : Value) : Nat :=
  ((componentNames document).length + 1) * ((componentNames document).length + 1) *
    (sizeOf document + sizeOf position + 1)

/-- The depth is enough for any call at a position that is no larger. -/
theorem rank_lt_of_sizeOf_le (stack : Stack) {document position v : Value}
    (hv : sizeOf v ≤ sizeOf document + sizeOf position) :
    rank document (sizeOf document + sizeOf position) stack v < depthBound document position := by
  have hn := unseen_le_length (componentNames document) stack.nominals
  have ha := unseen_le_length (componentNames document) stack.aliases
  unfold rank depthBound
  generalize (componentNames document).length = k at *
  have hd : unseen (componentNames document) stack.nominals * (k + 1) +
      unseen (componentNames document) stack.aliases + 1 ≤ (k + 1) * (k + 1) := by
    have hle := Nat.mul_le_mul_right (k + 1) hn
    rw [Nat.succ_mul]
    omega
  have hle := Nat.mul_le_mul_right (sizeOf document + sizeOf position + 1) hd
  rw [Nat.succ_mul] at hle
  omega

theorem rank_lt_depthBound (document position : Value) :
    rank document (sizeOf document + sizeOf position) [] position <
      depthBound document position :=
  rank_lt_of_sizeOf_le [] (Nat.le_add_left _ _)

/-! ## The calls of a conversion -/

/-- The calls that the conversion of a position leads to, each with the stack and the position. -/
inductive Calls (document root : Value) : Stack → Value → Prop
  | root : Calls document root [] root
  | nested {stack inner : Stack} {position v : Value} {r : Resolved} {l : Layer} {place : String}
    (h : Calls document root stack position) (hr : resolve document position = .ok (some r))
    (he : stack.judge r = .ok (.inside inner)) (hl : layer r.schema place = .ok l)
    (hv : v ∈ l.positions) : Calls document root inner v

/-- The stacks during the conversion of a position. A call finds a stack and may enter a component.
-/
inductive Underway (document root : Value) : Stack → Prop
  | called {stack : Stack} {position : Value} (h : Calls document root stack position) :
    Underway document root stack
  | entered {stack inner : Stack} {position : Value} {r : Resolved}
    (h : Calls document root stack position) (hr : resolve document position = .ok (some r))
    (he : stack.judge r = .ok (.inside inner)) : Underway document root inner

section Calls

variable {document root position : Value} {stack : Stack}

theorem Calls.disciplined (h : Calls document root stack position) : stack.Disciplined := by
  induction h with
  | root => exact .nil
  | nested h hr he hl hv ih => exact ih.judge he

theorem Underway.disciplined (h : Underway document root stack) : stack.Disciplined := by
  cases h with
  | called h => exact h.disciplined
  | entered h hr he => exact h.disciplined.judge he

end Calls

/-- **Conversion ends.** Cut off at `depthBound` nested calls, or at more, the conversion of a
position reaches its outcome, a type or a fault. At every moment each record or union component is
on the stack at most once, and in a stretch of the stack without them each alias is. -/
theorem conversion_ends (document position : Value) :
    (∀ (depth : Nat) (hint : String), depthBound document position ≤ depth →
      convertWithin document depth [] position hint =
        reached (convertPosition document position hint)) ∧
    ∀ stack : Stack, Underway document position stack →
      stack.nominals.Nodup ∧
      ∀ inside stretch outside : Stack, stack = inside ++ stretch ++ outside →
        (∀ c ∈ stretch, ¬ c.isNominal) → (stretch.map (·.name)).Nodup := by
  refine ⟨?_, ?_⟩
  · intro depth hint hdepth
    have hrank := rank_lt_depthBound document position
    exact convertWithin_eq (by omega) (Nat.le_add_right _ _) (Nat.le_add_left _ _) .nil hint
  · intro stack h
    refine ⟨h.disciplined.nodup_nominals, ?_⟩
    rintro inside stretch outside rfl hs
    have hd := h.disciplined
    rw [List.append_assoc] at hd
    exact (hd.of_append inside).nodup_aliases hs

/-! ## A tree of nodes -/

/-- A reference to a component. -/
def referenceTo (name : String) : Value := .mapping [(.text "$ref", .text (Reference.base ++ name))]

/-- A record that holds an array of itself, where the array is a component too. -/
def nodeSchema : Value := .mapping
  [(.text "type", .text "object"),
    (.text "properties", .mapping [(.text "children", referenceTo "NodeList")])]

/-- The array of nodes. -/
def nodeListSchema : Value := .mapping
  [(.text "type", .text "array"), (.text "items", referenceTo "Node")]

/-- The component table with the node and the array of nodes. -/
def treeComponents : Value := .mapping
  [(.text "schemas", .mapping [(.text "Node", nodeSchema), (.text "NodeList", nodeListSchema)])]

/-- A document that has components only. -/
def treeDocument : Value := .mapping [(.text "components", treeComponents)]

/-- The stack where the array of nodes has been entered once more, inside a node. -/
def treeStack : Stack := [⟨"NodeList", false⟩, ⟨"Node", true⟩, ⟨"NodeList", false⟩]

theorem resolve_nodeList :
    resolve treeDocument (referenceTo "NodeList") =
      .ok (some ⟨nodeListSchema, some "NodeList"⟩) := by
  rfl

theorem resolve_node :
    resolve treeDocument (referenceTo "Node") = .ok (some ⟨nodeSchema, some "Node"⟩) := by
  rfl

theorem layer_nodeList : layer nodeListSchema "NodeList" = .ok (.array (referenceTo "Node")) := rfl

theorem layer_node : layer nodeSchema "Node" =
    .ok (.record [(.text "children", referenceTo "NodeList")] []) := rfl

/-- The conversion of the array of nodes comes to the array again and enters it. -/
theorem underway_treeStack : Underway treeDocument (referenceTo "NodeList") treeStack := by
  have node : Calls treeDocument (referenceTo "NodeList") [⟨"NodeList", false⟩]
      (referenceTo "Node") :=
    .nested .root resolve_nodeList rfl layer_nodeList List.mem_cons_self
  have again : Calls treeDocument (referenceTo "NodeList") [⟨"Node", true⟩, ⟨"NodeList", false⟩]
      (referenceTo "NodeList") :=
    .nested node resolve_node rfl layer_node List.mem_cons_self
  exact .entered again resolve_nodeList rfl

/-- The conversion of the array of nodes ends, at a record that refers back to the node. -/
theorem conversion_of_tree_ends :
    convertWithin treeDocument (depthBound treeDocument (referenceTo "NodeList")) []
        (referenceTo "NodeList") "root" =
      reached (convertPosition treeDocument (referenceTo "NodeList") "root") ∧
    Underway treeDocument (referenceTo "NodeList") treeStack ∧ treeStack.nominals.Nodup ∧
    (([⟨"NodeList", false⟩] : Stack).map (·.name)).Nodup := by
  obtain ⟨hend, hstack⟩ := conversion_ends treeDocument (referenceTo "NodeList")
  obtain ⟨hnominals, haliases⟩ := hstack treeStack underway_treeStack
  refine ⟨hend _ "root" (le_refl _), underway_treeStack, hnominals, ?_⟩
  exact haliases [] [⟨"NodeList", false⟩] _ rfl (by simp)

end ApiBindings.Schema
