import ApiBindings.Document.Access
import Mathlib.Data.List.Forall2

/-!
# Outcomes of steps

A step that is made of smaller ones succeeds where all of them do (`forall₂_of_mapM`). It fails
where one of them fails (`bind_eq_error`, `mapM_eq_error_iff`), and so with faults of a kind only if
they do (`FailsOnly`). All that looking into a document can do wrong is to ask for something that
does not fit the kind of a value (`misused_get` and its like).
-/

namespace ApiBindings

section Steps

variable {α β : Type} {step : Except Fault α} {f : Fault}

theorem forall₂_of_mapM {g : α → Except Fault β} {as : List α} {bs : List β}
    (h : as.mapM g = .ok bs) : List.Forall₂ (fun a b => g a = .ok b) as bs := by
  induction as generalizing bs with
  | nil =>
    cases h
    exact .nil
  | cons a as ih =>
    rw [List.mapM_cons] at h
    obtain ⟨b, hb, h⟩ := bind_eq_ok.1 h
    obtain ⟨rest, hrest, h⟩ := bind_eq_ok.1 h
    cases h
    exact .cons hb (ih hrest)

theorem mapM_eq_ok_iff {g : α → Except Fault β} {p : α → Prop} {result : α → β} {as : List α}
    {bs : List β} (h : ∀ a ∈ as, ∀ b, g a = .ok b ↔ p a ∧ b = result a) :
    as.mapM g = .ok bs ↔ (∀ a ∈ as, p a) ∧ bs = as.map result := by
  induction as generalizing bs with
  | nil => simp [pure, Except.pure, eq_comm]
  | cons a as ih =>
    obtain ⟨ha, has⟩ := List.forall_mem_cons.1 h
    rw [List.mapM_cons, bind_eq_ok, List.forall_mem_cons]
    constructor
    · rintro ⟨b, hb, hrest⟩
      obtain ⟨bs', hbs, hyield⟩ := bind_eq_ok.1 hrest
      obtain ⟨hp, rfl⟩ := (ha b).1 hb
      obtain ⟨hall, rfl⟩ := (ih has).1 hbs
      exact ⟨⟨hp, hall⟩, (Except.ok.inj hyield).symm⟩
    · rintro ⟨⟨hp, hall⟩, rfl⟩
      refine ⟨result a, (ha _).2 ⟨hp, rfl⟩, ?_⟩
      rw [(ih has).2 ⟨hall, rfl⟩]
      rfl

theorem exists_of_mem_right {R : α → β → Prop} {as : List α} {bs : List β} {b : β}
    (h : List.Forall₂ R as bs) (hb : b ∈ bs) : ∃ a ∈ as, R a b := by
  induction h with
  | nil => cases hb
  | cons hab _ ih =>
    rcases List.mem_cons.1 hb with rfl | hb
    · exact ⟨_, List.mem_cons_self, hab⟩
    · obtain ⟨a, ha, hab⟩ := ih hb
      exact ⟨a, List.mem_cons_of_mem _ ha, hab⟩

theorem exists_of_mem_left {R : α → β → Prop} {as : List α} {bs : List β} {a : α}
    (h : List.Forall₂ R as bs) (ha : a ∈ as) : ∃ b ∈ bs, R a b :=
  exists_of_mem_right h.flip ha

theorem mem_of_filterAuxM {p : α → Except Fault Bool} {as acc kept : List α} {a : α}
    (h : List.filterAuxM p as acc = .ok kept) (ha : a ∈ kept) :
    a ∈ acc ∨ a ∈ as ∧ p a = .ok true := by
  induction as generalizing acc with
  | nil =>
    obtain rfl := Except.ok.inj h
    exact .inl ha
  | cons b as ih =>
    obtain ⟨keep, hkeep, h⟩ := bind_eq_ok.1 h
    cases keep with
    | true =>
      rcases ih h with hacc | ⟨hmem, hp⟩
      · rcases List.mem_cons.1 hacc with rfl | hacc
        · exact .inr ⟨List.mem_cons_self, hkeep⟩
        · exact .inl hacc
      · exact .inr ⟨List.mem_cons_of_mem _ hmem, hp⟩
    | false =>
      rcases ih h with hacc | ⟨hmem, hp⟩
      · exact .inl hacc
      · exact .inr ⟨List.mem_cons_of_mem _ hmem, hp⟩

theorem mem_of_filterM {p : α → Except Fault Bool} {as kept : List α} {a : α}
    (h : as.filterM p = .ok kept) (ha : a ∈ kept) : a ∈ as ∧ p a = .ok true := by
  obtain ⟨reversed, hreversed, h⟩ := bind_eq_ok.1 h
  obtain rfl := Except.ok.inj h
  exact (mem_of_filterAuxM hreversed (List.mem_reverse.1 ha)).resolve_left List.not_mem_nil

theorem bind_eq_error {next : α → Except Fault β} :
    step >>= next = .error f ↔ step = .error f ∨ ∃ a, step = .ok a ∧ next a = .error f := by
  cases step with
  | error g => simp [bind, Except.bind]
  | ok a => simp [bind, Except.bind]

/-- Steps go through before the first one that fails, whose fault is that of all of them. -/
theorem mapM_eq_error_iff {g : α → Except Fault β} {as : List α} :
    as.mapM g = .error f ↔ ∃ before a after, as = before ++ a :: after ∧
      (∀ earlier ∈ before, ∃ b, g earlier = .ok b) ∧ g a = .error f := by
  induction as with
  | nil => simp [pure, Except.pure]
  | cons a as ih =>
    rw [List.mapM_cons, bind_eq_error]
    constructor
    · rintro (ha | ⟨b, hb, hrest⟩)
      · exact ⟨[], a, as, rfl, nofun, ha⟩
      rcases bind_eq_error.1 hrest with hrest | ⟨bs, -, hyield⟩
      · obtain ⟨before, failing, after, rfl, hbefore, hfailing⟩ := ih.1 hrest
        exact ⟨a :: before, failing, after, rfl, List.forall_mem_cons.2 ⟨⟨b, hb⟩, hbefore⟩, hfailing⟩
      · cases hyield
    · rintro ⟨before, failing, after, has, hbefore, hfailing⟩
      cases before with
      | nil =>
        obtain ⟨rfl, -⟩ := List.cons.inj has
        exact .inl hfailing
      | cons first before =>
        obtain ⟨rfl, hrest⟩ := List.cons.inj has
        obtain ⟨⟨b, hb⟩, hbefore⟩ := List.forall_mem_cons.1 hbefore
        exact .inr ⟨b, hb, bind_eq_error.2 (.inl (ih.2 ⟨before, failing, after, hrest, hbefore,
          hfailing⟩))⟩

theorem exists_of_mapM_error {g : α → Except Fault β} {as : List α} (h : as.mapM g = .error f) :
    ∃ a ∈ as, g a = .error f := by
  obtain ⟨before, a, after, rfl, -, ha⟩ := mapM_eq_error_iff.1 h
  exact ⟨a, by simp, ha⟩

/-- A step fails with faults of a kind only. -/
def FailsOnly (kind : Fault → Prop) (step : Except Fault α) : Prop := ∀ f, step = .error f → kind f

namespace FailsOnly

variable {kind : Fault → Prop}

theorem of_ok {a : α} (h : step = .ok a) : FailsOnly kind step := by
  intro f hf
  cases h.symm.trans hf

theorem of_error (h : kind f) : FailsOnly kind (.error f : Except Fault α) := by
  intro g hg
  obtain rfl := Except.error.inj hg
  exact h

theorem bind {next : α → Except Fault β} (h : FailsOnly kind step)
    (hnext : ∀ a, step = .ok a → FailsOnly kind (next a)) : FailsOnly kind (step >>= next) := by
  intro f hf
  rcases bind_eq_error.1 hf with hf | ⟨a, ha, hf⟩
  · exact h f hf
  · exact hnext a ha f hf

theorem map {g : α → β} (h : FailsOnly kind step) : FailsOnly kind (step.map g) := by
  intro f hf
  cases step with
  | error f' => exact h f (congrArg Except.error (Except.error.inj hf))
  | ok a => cases hf

theorem mapM {g : α → Except Fault β} {as : List α} (h : ∀ a ∈ as, FailsOnly kind (g a)) :
    FailsOnly kind (as.mapM g) := by
  intro f hf
  obtain ⟨a, ha, hf⟩ := exists_of_mapM_error hf
  exact h a ha f hf

end FailsOnly

end Steps

/-! ## Looking into a document -/

/-- Whether a fault is about the shape of a value. -/
def Fault.isMisuse : Fault → Bool
  | .misuse _ => true
  | _ => false

/-- A step fails only where something is asked of a value that does not fit its kind. -/
abbrev Misused {α : Type} (step : Except Fault α) : Prop := FailsOnly (fun f => f.isMisuse) step

namespace Value

variable {α : Type}

theorem misused_misuse (m : Misuse) : Misused (misuse m : Except Fault α) := .of_error rfl

theorem misused_entries (v : Value) : Misused v.entries := by
  unfold entries
  split
  · exact .of_ok rfl
  · exact misused_misuse _

theorem misused_get (key : String) (v : Value) : Misused (v.get key) :=
  v.misused_entries.map.map

theorem misused_item (key : String) (v : Value) : Misused (v.item key) := by
  unfold item
  split
  · split
    · exact .of_ok rfl
    · exact misused_misuse _
  · exact misused_misuse _

theorem misused_mentions (word : String) (v : Value) : Misused (v.mentions word) := by
  unfold mentions
  split
  · exact .of_ok rfl
  · exact .of_ok rfl
  · exact .of_ok rfl
  · exact misused_misuse _

theorem misused_elements (v : Value) : Misused v.elements := by
  unfold elements
  split
  · exact .of_ok rfl
  · exact .of_ok rfl
  · exact .of_ok rfl
  · exact misused_misuse _

theorem misused_asKey (v : Value) : Misused v.asKey := by
  unfold asKey
  split
  · exact .of_ok rfl
  · exact misused_misuse _

end Value

end ApiBindings
