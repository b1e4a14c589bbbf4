import ApiBindings.Proofs.Outcomes
import ApiBindings.Schema.Convert

/-!
# One call of the conversion

A call converts the schema at a position, with the components around it on the stack. It resolves
the position, asks a rule whether what it finds is entered, looks at the outermost layer and leaves
the positions in the layer to further calls. `convertAt` is the call that makes the further calls
itself (`convertAt_eq`).

A relation between outcomes in two monads that is kept by lifting, returning and binding is kept by
whole calls (`related_call`). What holds of conversions that succeed is proved by induction along
the further calls (`convertAt_induction`).
-/

namespace ApiBindings.Schema

/-- A call of the conversion under a rule for entering schemas, with further calls left open. -/
def call {m : Type → Type} [Monad m] [MonadLiftT (Except Fault) m] (document : Value)
    (rule : Stack → Resolved → Except Fault Stack.Entry) (further : Stack → Value → String → m Ty)
    (stack : Stack) (position : Value) (hint : String) : m Ty := do
  match ← (resolve document position : Except Fault (Option Resolved)) with
  | none =>
    let reference ← position.item "$ref"
    (.error (.unresolvableReference reference.spelling) : Except Fault Ty)
  | some r =>
    match ← rule stack r with
    | .refersBack name => return .record name []
    | .inside inner =>
      let l ← layer r.schema (r.place hint)
      let ty ← assemble l (r.place hint) fun v _ hint => further inner v hint
      return r.label ty

/-- The conversion makes its further calls itself. -/
theorem convertAt_eq (document : Value) (stack : Stack) (position : Value) (hint : String) :
    convertAt document stack position hint =
      call document Stack.enter (convertAt document) stack position hint := by
  rw [convertAt, call]
  simp only [liftM, monadLift, bind, Except.bind]
  split
  · rename_i hr
    simp only [hr]
  · rename_i hr
    simp only [hr]
    cases position.item "$ref" <;> rfl
  · rename_i r hr
    split
    · rename_i he
      simp only [hr, he]
    · rename_i he
      simp only [hr, he]
      rfl
    · rename_i inner he
      split
      · rename_i hl
        simp only [hr, he, hl]
      · rename_i l hl
        simp only [hr, he, hl]
        rfl

/-- The hint counts only as far as it names the place. -/
theorem convertAt_congr_hint {document position : Value} {r : Resolved} {hint hint' : String}
    (hr : resolve document position = .ok (some r)) (hp : r.place hint = r.place hint')
    (stack : Stack) :
    convertAt document stack position hint = convertAt document stack position hint' := by
  rw [convertAt_eq, convertAt_eq]
  simp only [call, hr, hp, liftM, monadLift, bind, Except.bind]

/-! ## Outcomes in two monads -/

section Related

variable {m : Type → Type} [Monad m] [LawfulMonad m] {R : ∀ {α : Type}, m α → Except Fault α → Prop}
  (pure : ∀ {α : Type} (a : α), R (Pure.pure a : m α) (.ok a))
  (bind : ∀ {α β : Type} {x : m α} {o : Except Fault α} {k : α → m β} {next : α → Except Fault β},
    R x o → (∀ a, o = .ok a → R (k a) (next a)) → R (x >>= k) (o >>= next))

include pure bind in
theorem related_mapM {α β : Type} {f : α → m β} {g : α → Except Fault β} (as : List α)
    (h : ∀ a ∈ as, R (f a) (g a)) : R (as.mapM f) (as.mapM g) := by
  induction as with
  | nil => exact pure []
  | cons a as ih =>
    rw [List.mapM_cons, List.mapM_cons]
    refine bind (h a List.mem_cons_self) fun b _ => ?_
    refine bind (ih fun a ha => h a (List.mem_cons_of_mem _ ha)) fun bs _ => ?_
    exact pure (b :: bs)

variable [MonadLiftT (Except Fault) m]
  (lift : ∀ {α : Type} (o : Except Fault α), R (liftM o : m α) o)

include lift pure bind in
theorem related_assemble {l : Layer} {place : String}
    {f : (v : Value) → v ∈ l.positions → String → m Ty}
    {g : (v : Value) → v ∈ l.positions → String → Except Fault Ty}
    (h : ∀ v hv hint, R (f v hv hint) (g v hv hint)) :
    R (assemble l place f) (assemble l place g) := by
  cases l with
  | primitive p => exact pure _
  | union cases => exact pure _
  | array items => exact bind (h items _ _) fun element _ => pure _
  | map values => exact bind (h values _ _) fun value _ => pure _
  | record properties required =>
    refine bind (related_mapM pure bind _ fun property _ => ?_) fun members _ => pure _
    obtain ⟨⟨key, schema⟩, hp⟩ := property
    refine bind (lift _) fun description _ => ?_
    refine bind (h schema _ _) fun ty _ => ?_
    exact lift _

include lift pure bind in
theorem related_call {document position : Value} {stack : Stack} {hint : String}
    {rule rule' : Stack → Resolved → Except Fault Stack.Entry} {f : Stack → Value → String → m Ty}
    {g : Stack → Value → String → Except Fault Ty} (hrule : ∀ r, rule stack r = rule' stack r)
    (h : ∀ r inner l v hint', resolve document position = .ok (some r) →
      rule' stack r = .ok (.inside inner) → layer r.schema (r.place hint) = .ok l →
        v ∈ l.positions → R (f inner v hint') (g inner v hint')) :
    R (call document rule f stack position hint) (call document rule' g stack position hint) := by
  refine bind (lift _) fun found hr => ?_
  cases found with
  | none => exact bind (lift _) fun reference _ => lift _
  | some r =>
    simp only [hrule]
    refine bind (lift _) fun entry he => ?_
    cases entry with
    | refersBack name => exact pure _
    | inside inner =>
      refine bind (lift _) fun l hl => ?_
      refine bind (related_assemble pure bind lift fun v hv hint' => ?_) fun ty _ => pure _
      exact h r inner l v hint' hr he hl hv

end Related

/-! ## What is assembled -/

section Assembled

variable {place : String} {f : Value → String → Except Fault Ty} {ty : Ty}

theorem member_ok {key : Scalar} {description : Value} {isOptional : Bool} {m : Member}
    (h : member key description ty isOptional = .ok m) :
    key = .text m.name ∧ description.checkOptionalText = .valid m.description ∧
      m.ty = ty ∧ m.isOptional = isOptional := by
  unfold member at h
  cases hd : description.checkOptionalText with
  | flawed flaws =>
    rw [hd] at h
    cases key <;> cases h
  | valid text =>
    rw [hd] at h
    cases key with
    | text s =>
      cases h
      exact ⟨rfl, rfl, rfl, rfl⟩
    | _ => cases h

theorem assemble_array {items : Value}
    (h : assemble (.array items) place (fun v _ hint => f v hint) = .ok ty) :
    ∃ element, f items (place ++ " item") = .ok element ∧ ty = .array element := by
  obtain ⟨element, he, h⟩ := bind_eq_ok.1 h
  cases h
  exact ⟨element, he, rfl⟩

theorem assemble_map {values : Value}
    (h : assemble (.map values) place (fun v _ hint => f v hint) = .ok ty) :
    ∃ value, f values (place ++ " value") = .ok value ∧ ty = .map (.primitive .string) value := by
  obtain ⟨value, hv, h⟩ := bind_eq_ok.1 h
  cases h
  exact ⟨value, hv, rfl⟩

theorem assemble_record {properties : List (Scalar × Value)} {required : List Scalar}
    (h : assemble (.record properties required) place (fun v _ hint => f v hint) = .ok ty) :
    ∃ members, ty = .record place members ∧
      List.Forall₂ (fun property m => property.1 = .text m.name ∧
        (∃ v, property.2.get "description" = .ok v ∧ v.checkOptionalText = .valid m.description) ∧
        f property.2 (place ++ " " ++ m.name) = .ok m.ty ∧
        m.isOptional = !required.contains property.1) properties members := by
  obtain ⟨members, hm, h⟩ := bind_eq_ok.1 h
  cases h
  refine ⟨members, rfl, ?_⟩
  have hall := forall₂_of_mapM hm
  rw [← properties.attach_map_subtype_val, List.forall₂_map_left_iff]
  refine hall.imp ?_
  rintro ⟨⟨key, schema⟩, hp⟩ m hm
  obtain ⟨description, hd, hm⟩ := bind_eq_ok.1 hm
  obtain ⟨inner, hi, hm⟩ := bind_eq_ok.1 hm
  obtain ⟨rfl, hv, rfl, ho⟩ := member_ok hm
  exact ⟨rfl, ⟨description, hd, hv⟩, hi, ho⟩

end Assembled

/-! ## Conversions that succeed -/

/-- A conversion that succeeds refers back, or assembles the layer that its position leads to. -/
theorem convertAt_ok {document position : Value} {stack : Stack} {hint : String} {ty : Ty}
    (h : convertAt document stack position hint = .ok ty) :
    ∃ r, resolve document position = .ok (some r) ∧
      ((∃ name, stack.enter r = .ok (.refersBack name) ∧ ty = .record name []) ∨
        ∃ inner l assembled, stack.enter r = .ok (.inside inner) ∧
          layer r.schema (r.place hint) = .ok l ∧
          assemble l (r.place hint) (fun v _ hint => convertAt document inner v hint) =
            .ok assembled ∧ ty = r.label assembled) := by
  rw [convertAt_eq, call] at h
  obtain ⟨found, hr, h⟩ := bind_eq_ok.1 h
  cases found with
  | none =>
    obtain ⟨reference, -, h⟩ := bind_eq_ok.1 h
    cases h
  | some r =>
    refine ⟨r, hr, ?_⟩
    obtain ⟨entry, he, h⟩ := bind_eq_ok.1 h
    cases entry with
    | refersBack name =>
      cases h
      exact .inl ⟨name, he, rfl⟩
    | inside inner =>
      obtain ⟨l, hl, h⟩ := bind_eq_ok.1 h
      obtain ⟨assembled, ha, h⟩ := bind_eq_ok.1 h
      cases h
      exact .inr ⟨inner, l, assembled, he, hl, ha, rfl⟩

/-- Induction on conversions that succeed, along the further calls that succeed. -/
theorem convertAt_induction {document : Value} {P : Stack → Value → String → Ty → Prop}
    (back : ∀ {stack position hint r name}, resolve document position = .ok (some r) →
      stack.enter r = .ok (.refersBack name) → P stack position hint (.record name []))
    (inside : ∀ {stack inner position hint r l ty}, resolve document position = .ok (some r) →
      stack.enter r = .ok (.inside inner) → layer r.schema (r.place hint) = .ok l →
      assemble l (r.place hint) (fun v _ hint => convertAt document inner v hint) = .ok ty →
      (∀ v ∈ l.positions, ∀ hint ty, convertAt document inner v hint = .ok ty → P inner v hint ty) →
        P stack position hint (r.label ty))
    {stack : Stack} {position : Value} {hint : String} {ty : Ty}
    (h : convertAt document stack position hint = .ok ty) : P stack position hint ty := by
  obtain ⟨r, hr, ⟨name, he, rfl⟩ | ⟨inner, l, assembled, he, hl, ha, rfl⟩⟩ := convertAt_ok h
  · exact back hr he
  · refine inside hr he hl ha fun v hv hint' ty hty => ?_
    have := budget_lt hr he hl hv
    exact convertAt_induction back inside hty
termination_by budget document stack position
decreasing_by exact this

theorem convert_eq_convertAt {document position : Value} {r : Resolved}
    (hr : resolve document position = .ok (some r)) (hint : String) :
    convert document r hint = convertAt document [] position hint := by
  rw [convertAt_eq, call, hr]
  rfl

end ApiBindings.Schema
