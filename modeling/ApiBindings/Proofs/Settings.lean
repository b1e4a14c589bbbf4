import ApiBindings.Settings

/-!
# Settings in a file

A file with settings holds a mapping, or nothing at all, and gives each setting by the entry of its
name. A setting without an entry has its default.
-/

namespace ApiBindings.Settings

/-- The entries of a file with settings, none in an empty file. -/
def entriesOf (yaml : Yaml.Loader) (content : String) : Option (List (Scalar × Value)) :=
  match yaml (Value.fileText content) with
  | .ok .null => some []
  | .ok (.mapping entries) => some entries
  | _ => none

def textAt? (key : String) (entries : List (Scalar × Value)) : Option String :=
  match Value.valueAt? (.text key) entries with
  | some (.text s) => some s
  | _ => none

def truthAt? (key : String) (entries : List (Scalar × Value)) : Option Bool :=
  match (Value.valueAt? (.text key) entries).map Value.checkBool with
  | some (.valid b) => some b
  | _ => none

/-- Settings that are given by entries, or by default. -/
structure GivenBy (entries : List (Scalar × Value)) (s : Settings) : Prop where
  language : s.language = (textAt? "language" entries).getD "typescript"
  format : s.format = (textAt? "format" entries).getD "auto"
  apiVersion : s.apiVersion = textAt? "api_version" entries
  allowRedefinition : s.allowRedefinition = (truthAt? "allow_redefinition" entries).getD false

variable {entries : List (Scalar × Value)} {file content : String} {s : Settings}

theorem checkField_eq_valid {α : Type} {name : String} {fallback a : α} {check : Value → Checked α}
    (h : Value.checkField name (some fallback) check entries = .valid a) :
    (Value.valueAt? (.text name) entries = none ∧ a = fallback) ∨
      ∃ v, Value.valueAt? (.text name) entries = some v ∧ check v = .valid a := by
  have h := Checked.under_eq_valid h
  cases hv : Value.valueAt? (.text name) entries with
  | none =>
    rw [hv] at h
    cases h
    exact .inl ⟨rfl, rfl⟩
  | some v =>
    rw [hv] at h
    exact .inr ⟨v, rfl, h⟩

theorem eq_of_checkField_text {name fallback t : String}
    (h : Value.checkField name (some fallback) Value.checkText entries = .valid t) :
    t = (textAt? name entries).getD fallback := by
  rcases checkField_eq_valid h with ⟨hv, rfl⟩ | ⟨v, hv, hc⟩
  · simp [textAt?, hv]
  · unfold Value.checkText at hc
    split at hc
    · cases hc
      simp [textAt?, hv]
    · cases hc

theorem eq_of_checkField_format {name fallback t : String}
    (h : Value.checkField name (some fallback) checkFormat entries = .valid t) :
    t = (textAt? name entries).getD fallback := by
  rcases checkField_eq_valid h with ⟨hv, rfl⟩ | ⟨v, hv, hc⟩
  · simp [textAt?, hv]
  · unfold checkFormat at hc
    split at hc
    · split at hc
      · cases hc
        simp [textAt?, hv]
      · cases hc
    · cases hc

theorem eq_of_checkField_optionalText {name : String} {t : Option String}
    (h : Value.checkField name (some none) Value.checkOptionalText entries = .valid t) :
    t = textAt? name entries := by
  rcases checkField_eq_valid h with ⟨hv, rfl⟩ | ⟨v, hv, hc⟩
  · simp [textAt?, hv]
  · unfold Value.checkOptionalText at hc
    split at hc
    · cases hc
      simp [textAt?, hv]
    · cases hc
      simp [textAt?, hv]
    · cases hc

theorem eq_of_checkField_bool {name : String} {fallback b : Bool}
    (h : Value.checkField name (some fallback) Value.checkBool entries = .valid b) :
    b = (truthAt? name entries).getD fallback := by
  rcases checkField_eq_valid h with ⟨hv, rfl⟩ | ⟨v, hv, hc⟩
  · simp [truthAt?, hv]
  · simp [truthAt?, hv, hc]

theorem givenBy_of_check (h : check entries = .valid s) : GivenBy entries s := by
  obtain ⟨_, _, hfour, -, hs⟩ := Checked.seq_eq_valid h
  obtain ⟨_, allow, hthree, hallow, rfl⟩ := Checked.seq_eq_valid hfour
  obtain ⟨_, apiVersion, htwo, hapi, rfl⟩ := Checked.seq_eq_valid hthree
  obtain ⟨_, format, hone, hformat, rfl⟩ := Checked.seq_eq_valid htwo
  obtain ⟨language, hlanguage, rfl⟩ := Checked.map_eq_valid hone
  subst hs
  exact ⟨eq_of_checkField_text hlanguage, eq_of_checkField_format hformat,
    eq_of_checkField_optionalText hapi, eq_of_checkField_bool hallow⟩

/-- Settings that are loaded are those that the entries of the file give. -/
theorem givenBy_of_load {yaml : Yaml.Loader} (h : loadWith yaml file content = .ok s) :
    ∃ entries, entriesOf yaml content = some entries ∧ GivenBy entries s := by
  unfold loadWith at h
  unfold entriesOf
  split at h
  · cases h
  · cases h
  · rename_i hread
    cases h
    exact ⟨[], by rw [hread], rfl, rfl, rfl, rfl⟩
  · rename_i entries hread
    refine ⟨entries, by rw [hread], ?_⟩
    split at h
    · split at h
      · rename_i hcheck
        cases h
        exact givenBy_of_check hcheck
      · cases h
    · cases h
  · cases h

end ApiBindings.Settings
