import ApiBindings.Proofs.Text.Trimming
import ApiBindings.Text.Markup
import Mathlib.Data.List.Chain

/-!
# Cleaned texts

Cleaning leaves what stands outside the tags of a text, with one space wherever there are blanks. A
cleaned text has no tag, although dropping a tag joins what stands around it: a `<` that is kept has
its `>` directly behind it or none at all (`startsWithTag_cons_iff`), and neither dropping more tags
nor collapsing blanks changes that. So cleaning a text again changes nothing (`cleaning_settles`).
-/

namespace ApiBindings.Text

/-! ## Tags -/

/-- A tag is anything without `>` in angle brackets. -/
def IsTag (cs : List Char) : Prop :=
  ∃ inner, inner ≠ [] ∧ '>' ∉ inner ∧ cs = '<' :: (inner ++ ['>'])

/-- A text that begins with a tag. -/
def StartsWithTag (cs : List Char) : Prop := ∃ tag, IsTag tag ∧ tag <+: cs

/-- A text with no tag in it. -/
def Tagless (cs : List Char) : Prop := ∀ part, part <:+: cs → ¬ IsTag part

/-- What is left of a text when one goes through it from left to right and leaves out each tag that
one comes to. -/
inductive Stripped : List Char → List Char → Prop where
  | nil : Stripped [] []
  | keep {c cs rest} (h : ¬ StartsWithTag (c :: cs)) (hrest : Stripped cs rest) :
      Stripped (c :: cs) (c :: rest)
  | drop {tag cs rest} (h : IsTag tag) (hrest : Stripped cs rest) : Stripped (tag ++ cs) rest

section Tags

variable {c : Char} {cs rest tag : List Char}

theorem IsTag.ne_nil (h : IsTag tag) : tag ≠ [] := by
  obtain ⟨inner, -, -, rfl⟩ := h
  exact List.cons_ne_nil _ _

/-- A tag starts at a `<` if there is a `>` behind it, but not directly. -/
theorem startsWithTag_cons_iff :
    StartsWithTag (c :: cs) ↔ c = '<' ∧ cs.head? ≠ some '>' ∧ '>' ∈ cs := by
  constructor
  · rintro ⟨_, ⟨inner, hne, hinner, rfl⟩, after, happend⟩
    obtain ⟨e, inner, rfl⟩ := List.exists_cons_of_ne_nil hne
    obtain ⟨rfl, rfl⟩ := List.cons.inj happend
    refine ⟨rfl, ?_, by simp⟩
    rintro ⟨rfl⟩
    exact hinner List.mem_cons_self
  · rintro ⟨rfl, hhead, hmem⟩
    obtain ⟨inner, after, rfl, hinner⟩ := List.eq_append_cons_of_mem hmem
    refine ⟨'<' :: (inner ++ ['>']), ⟨inner, ?_, hinner, rfl⟩, after, by simp⟩
    rintro rfl
    exact hhead rfl

theorem tagless_nil : Tagless [] :=
  fun _ hpart htag => htag.ne_nil (List.infix_nil.1 hpart)

theorem Tagless.of_isInfix (h : Tagless cs) (hrest : rest <:+: cs) : Tagless rest :=
  fun part hpart => h part (hpart.trans hrest)

theorem tagless_cons_iff : Tagless (c :: cs) ↔ ¬ StartsWithTag (c :: cs) ∧ Tagless cs := by
  constructor
  · intro h
    refine ⟨?_, h.of_isInfix (List.suffix_cons c cs).isInfix⟩
    rintro ⟨tag, htag, hstart⟩
    exact h tag hstart.isInfix htag
  · rintro ⟨hstart, hrest⟩ part hpart htag
    rcases List.infix_cons_iff.1 hpart with hfirst | hlater
    · exact hstart ⟨part, htag, hfirst⟩
    · exact hrest part hlater htag

/-- Where no tag starts, none does after a change that brings no `>` behind the character and takes
none away from directly behind it. -/
theorem not_startsWithTag_of_change (h : ¬ StartsWithTag (c :: cs)) (hmem : '>' ∈ rest → '>' ∈ cs)
    (hhead : cs.head? = some '>' → rest.head? = some '>') : ¬ StartsWithTag (c :: rest) := by
  rw [startsWithTag_cons_iff] at h ⊢
  rintro ⟨hc, hne, hrest⟩
  exact h ⟨hc, fun he => hne (hhead he), hmem hrest⟩

/-! ### Going through a text -/

theorem Stripped.sublist (h : Stripped cs rest) : rest.Sublist cs := by
  induction h with
  | nil => exact .slnil
  | keep _ _ ih => exact ih.cons_cons _
  | drop _ _ ih => exact ih.trans (List.sublist_append_right _ _)

theorem Stripped.head? (h : Stripped cs rest) (hhead : cs.head? = some '>') :
    rest.head? = some '>' := by
  cases h with
  | nil => exact hhead
  | keep => exact hhead
  | drop htag =>
    obtain ⟨inner, -, -, rfl⟩ := htag
    exact absurd (Option.some.inj hhead) (by decide)

/-- When all tags are left out, what remains does not form new ones. -/
theorem Stripped.tagless (h : Stripped cs rest) : Tagless rest := by
  induction h with
  | nil => exact tagless_nil
  | keep hstart hrest ih =>
    exact tagless_cons_iff.2
      ⟨not_startsWithTag_of_change hstart (fun hmem => hrest.sublist.subset hmem) hrest.head?, ih⟩
  | drop _ _ ih => exact ih

theorem Tagless.stripped (h : Tagless cs) : Stripped cs cs := by
  induction cs with
  | nil => exact .nil
  | cons c cs ih =>
    obtain ⟨hstart, hrest⟩ := tagless_cons_iff.1 h
    exact .keep hstart (ih hrest)

theorem tagLength_of_not_startsWithTag (h : ¬ StartsWithTag cs) : tagLength cs = 0 := by
  unfold tagLength
  split
  · rename_i c cs
    split
    · rfl
    · rename_i hc
      have hnone : '>' ∉ cs := by
        intro hmem
        refine h (startsWithTag_cons_iff.2 ⟨rfl, ?_, List.mem_cons_of_mem c hmem⟩)
        rintro ⟨rfl⟩
        exact hc rfl
      rw [lengthThrough_of_not_mem hnone]
  · rfl

theorem tagLength_append (h : IsTag tag) (cs : List Char) : tagLength (tag ++ cs) = tag.length := by
  obtain ⟨inner, hne, hinner, rfl⟩ := h
  obtain ⟨c, inner, rfl⟩ := List.exists_cons_of_ne_nil hne
  rw [List.mem_cons, not_or] at hinner
  have hc : (c == '>') = false := beq_eq_false_iff_ne.2 (Ne.symm hinner.1)
  have hlength : lengthThrough '>' (inner ++ ['>'] ++ cs) = inner.length + 1 := by
    rw [List.append_assoc]
    exact lengthThrough_append hinner.2 cs
  simp only [List.cons_append, tagLength, hc, hlength]
  simp

theorem removeTags_append (h : IsTag tag) (cs : List Char) :
    removeTags (tag ++ cs) = removeTags cs :=
  erase_append_of_eq_length h.ne_nil (tagLength_append h cs)

theorem removeTags_cons (h : ¬ StartsWithTag (c :: cs)) :
    removeTags (c :: cs) = c :: removeTags cs :=
  erase_cons_of_eq_zero (tagLength_of_not_startsWithTag h)

theorem stripped_removeTags (cs : List Char) : Stripped cs (removeTags cs) := by
  induction hn : cs.length using Nat.strong_induction_on generalizing cs with
  | _ n ih =>
    subst hn
    by_cases hstart : StartsWithTag cs
    · obtain ⟨tag, htag, after, rfl⟩ := hstart
      have hpos := List.length_pos_iff.2 htag.ne_nil
      rw [removeTags_append htag]
      exact .drop htag (ih _ (by rw [List.length_append]; omega) after rfl)
    · cases cs with
      | nil => exact .nil
      | cons c cs =>
        rw [removeTags_cons hstart]
        exact .keep hstart (ih _ (Nat.lt_succ_self _) cs rfl)

/-- There is one way to leave out the tags of a text. -/
theorem stripped_iff : Stripped cs rest ↔ rest = removeTags cs := by
  constructor
  · intro h
    induction h with
    | nil => rfl
    | keep hstart _ ih => rw [removeTags_cons hstart, ih]
    | drop htag _ ih => rw [removeTags_append htag, ih]
  · rintro rfl
    exact stripped_removeTags cs

end Tags

/-! ## Blanks -/

/-- A text whose blanks are single spaces between other characters. -/
structure SinglySpaced (cs : List Char) : Prop where
  eq_space : ∀ c ∈ cs, isBlank c → c = ' '
  apart : cs.IsChain fun c d => ¬ (isBlank c ∧ isBlank d)
  head : ∀ c ∈ cs.head?, ¬ isBlank c
  last : ∀ c ∈ cs.getLast?, ¬ isBlank c

/-- What stands between the blanks of a text. -/
def chunks (cs : List Char) : List (List Char) := (cs.splitOnP isBlank).filter (· ≠ [])

section Chunks

variable {b c d : Char} {w cs : List Char} {ws : List (List Char)}

theorem chunks_append_of_isBlank (hb : isBlank b) (cs ds : List Char) :
    chunks (cs ++ b :: ds) = chunks cs ++ chunks ds := by
  rw [chunks, List.splitOnP_append_cons _ _ hb, List.filter_append]
  rfl

theorem chunks_cons_of_isBlank (hb : isBlank b) (cs : List Char) : chunks (b :: cs) = chunks cs :=
  chunks_append_of_isBlank hb [] cs

theorem chunks_cons_of_not_isBlank (hc : ¬ isBlank c) (cs : List Char) :
    chunks (c :: cs) =
      if cs.head?.all isBlank then [c] :: chunks cs else (chunks cs).modifyHead (c :: ·) := by
  cases cs with
  | nil => simp [chunks, List.splitOnP_cons_eq_if_modifyHead, hc]
  | cons d cs =>
    obtain ⟨w, ws, hw⟩ := List.exists_cons_of_ne_nil (List.splitOnP_ne_nil isBlank cs)
    cases hd : isBlank d <;>
      simp [chunks, List.splitOnP_cons_eq_if_modifyHead, hc, hd, hw]

theorem chunks_cons_cons_of_isBlank (hc : ¬ isBlank c) (hb : isBlank b) (cs : List Char) :
    chunks (c :: b :: cs) = [c] :: chunks cs := by
  rw [chunks_cons_of_not_isBlank hc, chunks_cons_of_isBlank hb]
  exact if_pos hb

theorem chunks_cons_cons_of_not_isBlank (hc : ¬ isBlank c) (hd : ¬ isBlank d)
    (h : chunks (d :: cs) = w :: ws) : chunks (c :: d :: cs) = (c :: w) :: ws := by
  rw [chunks_cons_of_not_isBlank hc, h]
  exact if_neg hd

theorem exists_cons_of_chunks (hc : ¬ isBlank c) (cs : List Char) :
    ∃ w ws, chunks (c :: cs) = (c :: w) :: ws := by
  induction cs generalizing c with
  | nil =>
    rw [chunks_cons_of_not_isBlank hc]
    exact ⟨[], [], rfl⟩
  | cons d cs ih =>
    by_cases hd : isBlank d
    · exact ⟨[], _, chunks_cons_cons_of_isBlank hc hd cs⟩
    · obtain ⟨w, ws, hw⟩ := ih hd
      exact ⟨d :: w, ws, chunks_cons_cons_of_not_isBlank hc hd hw⟩

end Chunks

/-! ### Collapsing -/

section Collapsing

variable {c : Char} {cs : List Char}

theorem head?_collapseBlanks (cs : List Char) :
    (collapseBlanks cs).head? = cs.head?.map fun c => if isBlank c then ' ' else c := by
  induction cs with
  | nil => rfl
  | cons c cs ih =>
    rw [collapseBlanks]
    split
    · rename_i hc
      split
      · rename_i hnext
        obtain ⟨d, hd, hblank⟩ := (Option.any_eq_true _ _).1 hnext
        simp [ih, hd, hc, hblank]
      · simp [hc]
    · rename_i hc
      simp [hc]

theorem isBlank_head?_collapseBlanks (cs : List Char) :
    (collapseBlanks cs).head?.map isBlank = cs.head?.map isBlank := by
  rw [head?_collapseBlanks, Option.map_map]
  refine Option.map_congr fun c _ => ?_
  rw [Function.comp_apply]
  split
  · rename_i hc
    rw [hc]
    rfl
  · rfl

theorem eq_space_or_of_mem_collapseBlanks (h : c ∈ collapseBlanks cs) :
    c = ' ' ∨ ¬ isBlank c ∧ c ∈ cs := by
  induction cs with
  | nil => cases h
  | cons d cs ih =>
    have hlater (h : c ∈ collapseBlanks cs) : c = ' ' ∨ ¬ isBlank c ∧ c ∈ d :: cs :=
      (ih h).imp_right (And.imp_right (List.mem_cons_of_mem d))
    rw [collapseBlanks] at h
    split at h
    · split at h
      · exact hlater h
      · exact (List.mem_cons.1 h).elim .inl hlater
    · rename_i hd
      rcases List.mem_cons.1 h with rfl | h
      · exact .inr ⟨hd, List.mem_cons_self⟩
      · exact hlater h

theorem isChain_collapseBlanks (cs : List Char) :
    (collapseBlanks cs).IsChain fun c d => ¬ (isBlank c ∧ isBlank d) := by
  induction cs with
  | nil => exact .nil
  | cons c cs ih =>
    rw [collapseBlanks]
    split
    · split
      · exact ih
      · rename_i hnext
        have hhead : (collapseBlanks cs).head?.any isBlank = cs.head?.any isBlank := by
          simpa [Option.any_map] using congrArg (Option.any id) (isBlank_head?_collapseBlanks cs)
        rw [← hhead] at hnext
        refine List.isChain_cons.2 ⟨fun d hd h => hnext ?_, ih⟩
        exact (Option.any_eq_true _ _).2 ⟨d, hd, h.2⟩
    · rename_i hc
      exact List.isChain_cons.2 ⟨fun d _ h => hc h.1, ih⟩

theorem chunks_collapseBlanks (cs : List Char) : chunks (collapseBlanks cs) = chunks cs := by
  induction cs with
  | nil => rfl
  | cons c cs ih =>
    rw [collapseBlanks]
    split
    · rename_i hc
      rw [chunks_cons_of_isBlank hc]
      split
      · exact ih
      · rw [chunks_cons_of_isBlank (by decide)]
        exact ih
    · rename_i hc
      have hnext : (collapseBlanks cs).head?.all isBlank = cs.head?.all isBlank := by
        simpa [Option.all_map] using congrArg (Option.all id) (isBlank_head?_collapseBlanks cs)
      rw [chunks_cons_of_not_isBlank hc, chunks_cons_of_not_isBlank hc, ih, hnext]

theorem Tagless.collapseBlanks (h : Tagless cs) : Tagless (collapseBlanks cs) := by
  induction cs with
  | nil => exact h
  | cons c cs ih =>
    obtain ⟨hstart, hrest⟩ := tagless_cons_iff.1 h
    rw [Text.collapseBlanks]
    split
    · split
      · exact ih hrest
      · refine tagless_cons_iff.2 ⟨?_, ih hrest⟩
        rw [startsWithTag_cons_iff]
        exact fun h => absurd h.1 (by decide)
    · refine tagless_cons_iff.2 ⟨not_startsWithTag_of_change hstart ?_ ?_, ih hrest⟩
      · intro hmem
        exact ((eq_space_or_of_mem_collapseBlanks hmem).resolve_left (by decide)).2
      · intro hhead
        rw [head?_collapseBlanks, hhead]
        rfl

end Collapsing

/-! ### Trimming -/

section Trimming

variable {cs : List Char}

theorem chunks_dropWhile (cs : List Char) : chunks (cs.dropWhile isBlank) = chunks cs := by
  induction cs with
  | nil => rfl
  | cons c cs ih =>
    rw [List.dropWhile_cons]
    split
    · rename_i hc
      rw [chunks_cons_of_isBlank hc, ih]
    · rfl

theorem chunks_dropTrailing (cs : List Char) : chunks (dropTrailing isBlank cs) = chunks cs := by
  rw [dropTrailing_eq_rdropWhile]
  induction cs using List.reverseRecOn with
  | nil => rfl
  | append_singleton cs c ih =>
    rw [List.rdropWhile_concat]
    split
    · rename_i hc
      rw [chunks_append_of_isBlank hc, ih]
      exact (List.append_nil _).symm
    · rfl

theorem chunks_trim (cs : List Char) : chunks (trim cs) = chunks cs := by
  rw [trim, trimBy, chunks_dropTrailing, chunks_dropWhile]

end Trimming

/-! ### Single spaces -/

section SinglySpaced

variable {c : Char} {cs ds : List Char}

theorem singlySpaced_trim_collapseBlanks (cs : List Char) :
    SinglySpaced (trim (collapseBlanks cs)) where
  eq_space _ hc hblank :=
    (eq_space_or_of_mem_collapseBlanks ((isInfix_trimBy _ _).subset hc)).resolve_right
      fun h => h.1 hblank
  apart := List.IsChain.infix (isChain_collapseBlanks cs) (isInfix_trimBy _ _)
  head _ hc := Bool.eq_false_iff.1 (head_trimBy hc)
  last _ hc := Bool.eq_false_iff.1 (last_trimBy hc)

theorem SinglySpaced.suffix (h : SinglySpaced cs) (hsuffix : ds <:+ cs)
    (hhead : ∀ c ∈ ds.head?, ¬ isBlank c) : SinglySpaced ds where
  eq_space c hc := h.eq_space c (hsuffix.subset hc)
  apart := h.apart.suffix hsuffix
  head := hhead
  last c hc := by
    obtain ⟨before, rfl⟩ := hsuffix
    refine h.last c ?_
    rw [List.getLast?_append, Option.mem_def.1 hc]
    rfl

theorem SinglySpaced.intercalate_chunks :
    ∀ {cs : List Char}, SinglySpaced cs → [' '].intercalate (chunks cs) = cs
  | [], _ => rfl
  | [c], h => by
    rw [chunks_cons_of_not_isBlank (h.head c rfl)]
    rfl
  | c :: d :: cs, h => by
    have hc := h.head c rfl
    by_cases hd : isBlank d
    · -- a space, with another character behind it
      obtain rfl := h.eq_space d (by simp) hd
      have hnext : ∀ e ∈ cs.head?, ¬ isBlank e := fun e he hblank =>
        (List.isChain_cons.1 (List.isChain_cons.1 h.apart).2).1 e he ⟨hd, hblank⟩
      cases cs with
      | nil => exact absurd hd (h.last ' ' rfl)
      | cons e cs =>
        have hspaced : SinglySpaced (e :: cs) := h.suffix ⟨[c, ' '], rfl⟩ hnext
        obtain ⟨w, ws, hw⟩ := exists_cons_of_chunks (hnext e rfl) cs
        rw [chunks_cons_cons_of_isBlank hc hd, hw, List.intercalate_cons_cons, ← hw,
          hspaced.intercalate_chunks]
        rfl
    · have hspaced : SinglySpaced (d :: cs) := by
        refine h.suffix (List.suffix_cons c _) ?_
        rintro _ ⟨rfl⟩
        exact hd
      obtain ⟨w, ws, hw⟩ := exists_cons_of_chunks hd cs
      rw [chunks_cons_cons_of_not_isBlank hc hd hw, List.intercalate_cons_cons_left, ← hw,
        hspaced.intercalate_chunks]

theorem trim_collapseBlanks (cs : List Char) :
    trim (collapseBlanks cs) = [' '].intercalate (chunks cs) :=
  calc trim (collapseBlanks cs)
      = [' '].intercalate (chunks (trim (collapseBlanks cs))) :=
        (singlySpaced_trim_collapseBlanks cs).intercalate_chunks.symm
    _ = [' '].intercalate (chunks cs) := by rw [chunks_trim, chunks_collapseBlanks]

end SinglySpaced

/-! ## Cleaning -/

/-- What a text leaves without its tags, with one space wherever there are blanks between other
characters. -/
def Cleaned (s cleaned : String) : Prop :=
  ∃ rest, Stripped s.toList rest ∧ cleaned.toList = [' '].intercalate (chunks rest)

section Cleaning

variable {c : Char} {s cleaned : String}

theorem toList_cleanMarkup (s : String) :
    (cleanMarkup s).toList = [' '].intercalate (chunks (removeTags s.toList)) := by
  rw [cleanMarkup, String.toList_ofList, trim_collapseBlanks]

theorem cleaned_iff : Cleaned s cleaned ↔ cleaned = cleanMarkup s := by
  unfold Cleaned
  simp only [stripped_iff, exists_eq_left, ← toList_cleanMarkup, String.toList_inj]

theorem tagless_cleanMarkup (s : String) : Tagless (cleanMarkup s).toList := by
  rw [cleanMarkup, String.toList_ofList]
  exact (stripped_removeTags _).tagless.collapseBlanks.of_isInfix (isInfix_trimBy _ _)

theorem singlySpaced_cleanMarkup (s : String) : SinglySpaced (cleanMarkup s).toList := by
  rw [cleanMarkup, String.toList_ofList]
  exact singlySpaced_trim_collapseBlanks _

theorem eq_space_of_mem_cleanMarkup (h : c ∈ (cleanMarkup s).toList) (hc : isBlank c) : c = ' ' :=
  (singlySpaced_cleanMarkup s).eq_space c h hc

/-- Cleaning changes exactly the texts that have tags, or blanks other than single spaces between
other characters. -/
theorem cleanMarkup_eq_self_iff :
    cleanMarkup s = s ↔ Tagless s.toList ∧ SinglySpaced s.toList := by
  constructor
  · intro h
    rw [← h]
    exact ⟨tagless_cleanMarkup s, singlySpaced_cleanMarkup s⟩
  · rintro ⟨htagless, hspaced⟩
    rw [← String.toList_inj, toList_cleanMarkup, ← stripped_iff.1 htagless.stripped,
      hspaced.intercalate_chunks]

/-- **Cleaning a text once is enough.** A cleaned text has no tags, no two blanks next to each
other, no blank but the space and none at either end, and cleaning it again changes nothing. It is
what the text leaves without its tags, with one space wherever there are blanks between other
characters. -/
theorem cleaning_settles (s : String) :
    Tagless (cleanMarkup s).toList ∧
    SinglySpaced (cleanMarkup s).toList ∧
    cleanMarkup (cleanMarkup s) = cleanMarkup s ∧
    (∀ rest, Stripped s.toList rest ↔ rest = removeTags s.toList) ∧
    (cleanMarkup s).toList = [' '].intercalate (chunks (removeTags s.toList)) := by
  have htagless := tagless_cleanMarkup s
  have hspaced := singlySpaced_cleanMarkup s
  exact ⟨htagless, hspaced, cleanMarkup_eq_self_iff.2 ⟨htagless, hspaced⟩, fun rest => stripped_iff,
    toList_cleanMarkup s⟩

example : cleanMarkup " a<<b>\n c</b> <> 1 < 2 " = "a c <> 1 < 2" := by decide

end Cleaning

end ApiBindings.Text
