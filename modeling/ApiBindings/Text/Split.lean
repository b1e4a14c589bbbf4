/-!
# Splitting at a separator

A text is cut at every occurrence of a separator. There is always one part more than there are
separators, and the parts with the separators between them are the text again. What has no separator
in it stands in the text if it stands in one of the parts.
-/

namespace ApiBindings.Text

/-- Puts a character in front of the first part. -/
def extendFirst (c : Char) : List (List Char) → List (List Char)
  | [] => [[c]]
  | w :: ws => (c :: w) :: ws

/-- The parts of a text between its separators. -/
def split (separator : Char) : List Char → List (List Char)
  | [] => [[]]
  | c :: cs =>
    if c == separator then [] :: split separator cs else extendFirst c (split separator cs)

/-- The parts of a text between its separators, as texts. -/
def splitText (separator : Char) (s : String) : List String :=
  (split separator s.toList).map String.ofList

theorem split_ne_nil (separator : Char) (cs : List Char) : split separator cs ≠ [] := by
  cases cs with
  | nil => simp [split]
  | cons c cs =>
    unfold split
    split
    · simp
    · cases split separator cs <;> simp [extendFirst]

variable {separator c : Char} {cs x w : List Char} {ws : List (List Char)}

theorem exists_cons_of_split (separator : Char) (cs : List Char) :
    ∃ w ws, split separator cs = w :: ws :=
  List.exists_cons_of_ne_nil (split_ne_nil separator cs)

theorem split_cons_self (separator : Char) (cs : List Char) :
    split separator (separator :: cs) = [] :: split separator cs := by
  rw [split, if_pos (beq_self_eq_true separator)]

theorem split_cons_of_ne (hc : c ≠ separator) (h : split separator cs = w :: ws) :
    split separator (c :: cs) = (c :: w) :: ws := by
  rw [split, if_neg (by simpa using hc), h]
  rfl

/-- The parts with the separators between them are the text again. -/
theorem intercalate_split (separator : Char) (cs : List Char) :
    [separator].intercalate (split separator cs) = cs := by
  induction cs with
  | nil => rfl
  | cons c cs ih =>
    obtain ⟨w, ws, hsplit⟩ := exists_cons_of_split separator cs
    by_cases hc : c = separator
    · subst hc
      rw [split_cons_self, hsplit, List.intercalate_cons_cons, ← hsplit, ih]
      rfl
    · rw [split_cons_of_ne hc hsplit, List.intercalate_cons_cons_left, ← hsplit, ih]

theorem intercalate_splitText (separator : Char) {between : String}
    (hbetween : between.toList = [separator]) (s : String) :
    between.intercalate (splitText separator s) = s := by
  have hparts : (splitText separator s).map String.toList = split separator s.toList := by
    simp [splitText, Function.comp_def]
  rw [← String.toList_inj, String.toList_intercalate, hparts, hbetween]
  exact intercalate_split separator s.toList

theorem not_mem_of_mem_split (h : x ∈ split separator cs) : separator ∉ x := by
  induction cs generalizing x with
  | nil =>
    obtain rfl := List.mem_singleton.1 h
    exact List.not_mem_nil
  | cons c cs ih =>
    by_cases hc : c = separator
    · subst hc
      rw [split_cons_self] at h
      rcases List.mem_cons.1 h with rfl | h
      · exact List.not_mem_nil
      · exact ih h
    · obtain ⟨w, ws, hsplit⟩ := exists_cons_of_split separator cs
      rw [hsplit] at ih
      rw [split_cons_of_ne hc hsplit] at h
      rcases List.mem_cons.1 h with rfl | h
      · rw [List.mem_cons, not_or]
        exact ⟨Ne.symm hc, ih List.mem_cons_self⟩
      · exact ih (List.mem_cons_of_mem _ h)

theorem split_append_of_not_mem (hx : separator ∉ x) (h : split separator cs = w :: ws) :
    split separator (x ++ cs) = (x ++ w) :: ws := by
  induction x with
  | nil => exact h
  | cons c x ih =>
    rw [List.mem_cons, not_or] at hx
    exact split_cons_of_ne (Ne.symm hx.1) (ih hx.2)

theorem split_intercalate (hparts : ∀ part ∈ ws, separator ∉ part) (hne : ws ≠ []) :
    split separator ([separator].intercalate ws) = ws := by
  induction ws with
  | nil => exact absurd rfl hne
  | cons x ws ih =>
    obtain ⟨hx, hws⟩ := List.forall_mem_cons.1 hparts
    cases ws with
    | nil =>
      have hsplit := split_append_of_not_mem hx (split.eq_1 separator)
      rw [List.intercalate_singleton]
      simpa using hsplit
    | cons y ws =>
      have hrest := split_cons_self separator ([separator].intercalate (y :: ws))
      rw [List.intercalate_cons_cons, List.append_assoc, List.singleton_append,
        split_append_of_not_mem hx hrest, List.append_nil, ih hws (List.cons_ne_nil y ws)]

theorem splitText_intercalate {between : String} (hbetween : between.toList = [separator])
    {parts : List String} (hparts : ∀ part ∈ parts, separator ∉ part.toList) (hne : parts ≠ []) :
    splitText separator (between.intercalate parts) = parts := by
  have hsplit := split_intercalate (List.forall_mem_map.2 hparts) (mt List.map_eq_nil_iff.1 hne)
  rw [splitText, String.toList_intercalate, hbetween, hsplit, List.map_map]
  exact List.map_id'' (fun _ => String.ofList_toList) parts

theorem prefix_head_iff (h : split separator cs = w :: ws) (hx : separator ∉ x) :
    x <+: w ↔ x <+: cs := by
  induction cs generalizing x w ws with
  | nil =>
    obtain ⟨rfl, -⟩ := List.cons.inj h
    rfl
  | cons c cs ih =>
    cases x with
    | nil => simp
    | cons y x =>
      rw [List.mem_cons, not_or] at hx
      by_cases hc : c = separator
      · subst hc
        rw [split_cons_self] at h
        obtain ⟨rfl, -⟩ := List.cons.inj h
        simp [Ne.symm hx.1]
      · obtain ⟨w', ws', hsplit⟩ := exists_cons_of_split separator cs
        rw [split_cons_of_ne hc hsplit] at h
        obtain ⟨rfl, -⟩ := List.cons.inj h
        rw [List.cons_prefix_cons, List.cons_prefix_cons, ih hsplit hx.2]

/-- A text without separators stands in the whole if it stands in one of the parts. -/
theorem infix_part_iff (hx : separator ∉ x) :
    (∃ part ∈ split separator cs, x <:+: part) ↔ x <:+: cs := by
  induction cs with
  | nil => simp [split]
  | cons c cs ih =>
    by_cases hc : c = separator
    · subst hc
      have hstart : x <+: c :: cs ↔ x <:+: [] := by
        cases x with
        | nil => simp
        | cons y x =>
          rw [List.mem_cons, not_or] at hx
          simp [Ne.symm hx.1]
      simp only [split_cons_self, List.mem_cons, exists_eq_or_imp]
      rw [ih, ← hstart, List.infix_cons_iff]
    · obtain ⟨w, ws, hsplit⟩ := exists_cons_of_split separator cs
      have hstart : x <+: c :: w ↔ x <+: c :: cs :=
        prefix_head_iff (split_cons_of_ne hc hsplit) hx
      simp only [hsplit, List.mem_cons, exists_eq_or_imp] at ih
      simp only [split_cons_of_ne hc hsplit, List.mem_cons, exists_eq_or_imp]
      rw [List.infix_cons_iff, List.infix_cons_iff, hstart, ← ih, or_assoc]

end ApiBindings.Text
