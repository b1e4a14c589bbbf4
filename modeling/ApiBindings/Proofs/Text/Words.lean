import ApiBindings.Text.Words
import Mathlib

/-!
# Words and identifiers

An identifier in capitalised words still shows where its words begin: at every capital, and where a
letter and a digit meet. Two things are lost, the letter case of the words and the breaks between
numbers that follow each other. What is left are the plain words of a text. Two texts have the same
identifier exactly if they have the same plain words (`pascalCase_eq_iff`), since the plain words
can be read back from the identifier (`plainWords_of_pascalCase`).

The library is imported as a whole for its lemmas about the letter case of characters, which none of
its smaller modules brings along.
-/

namespace ApiBindings.Text

/-! ## Letters and digits -/

section Characters

variable {c d : Char} {cs after : List Char}

theorem toNat_of_isAlpha (h : c.isAlpha) : 65 ≤ c.toNat ∧ c.toNat ≤ 122 := by
  simp only [Char.isAlpha, Char.isUpper, Char.isLower, Bool.or_eq_true, Bool.and_eq_true,
    decide_eq_true_eq, UInt32.le_iff_toNat_le, ge_iff_le] at h
  change (65 ≤ c.toNat ∧ c.toNat ≤ 90) ∨ (97 ≤ c.toNat ∧ c.toNat ≤ 122) at h
  omega

theorem not_isDecimalDigit_of_isAlpha (h : c.isAlpha) : isDecimalDigit c = false := by
  have hc := toNat_of_isAlpha h
  have hranges : ∀ r ∈ decimalDigitRanges, r.2 ≤ 57 ∨ 1632 ≤ r.1 := by decide
  simp only [isDecimalDigit, inRanges, List.any_eq_false, Bool.and_eq_true, decide_eq_true_eq]
  intro r hr
  have := hranges r hr
  omega

theorem not_isAlpha_of_isDecimalDigit (h : isDecimalDigit c) : c.isAlpha = false := by
  by_contra ha
  have := not_isDecimalDigit_of_isAlpha (Bool.eq_true_of_not_eq_false ha)
  rw [h] at this
  cases this

theorem false_of_isAlpha_of_isDecimalDigit (halpha : c.isAlpha) (hdigit : isDecimalDigit c) :
    False := by
  rw [not_isDecimalDigit_of_isAlpha halpha] at hdigit
  cases hdigit

theorem isLower_eq_false_of_isUpper (h : c.isUpper) : c.isLower = false :=
  Bool.eq_false_iff.2 (Char.not_isLower_of_isUpper h)

theorem isUpper_eq_false_of_isLower (h : c.isLower) : c.isUpper = false :=
  Bool.eq_false_iff.2 (Char.not_isUpper_of_isLower h)

theorem isWordChar_iff : isWordChar c ↔ c.isAlpha ∨ isDecimalDigit c := by
  simp [isWordChar, Char.isAlpha]

theorem isAlpha_of_isLower (h : c.isLower) : c.isAlpha := by simp [Char.isAlpha, h]

theorem isAlpha_of_isUpper (h : c.isUpper) : c.isAlpha := by simp [Char.isAlpha, h]

theorem toLower_of_isDecimalDigit (h : isDecimalDigit c) : c.toLower = c := by
  refine Char.toLower_eq_of_not_isUpper fun hu => ?_
  have := not_isAlpha_of_isDecimalDigit h
  rw [isAlpha_of_isUpper hu] at this
  cases this

theorem toUpper_of_isDecimalDigit (h : isDecimalDigit c) : c.toUpper = c := by
  refine Char.toUpper_eq_of_not_isLower fun hl => ?_
  have := not_isAlpha_of_isDecimalDigit h
  rw [isAlpha_of_isLower hl] at this
  cases this

theorem joins_cons (h : joins c (d :: after)) :
    (c.isAlpha ∧ d.isAlpha) ∨ (isDecimalDigit c ∧ isDecimalDigit d) := by
  simp only [joins] at h
  split at h
  · rename_i hd
    exact .inl ⟨by simpa [Char.isAlpha] using h, isAlpha_of_isLower hd⟩
  split at h
  · rename_i hd
    exact .inl ⟨isAlpha_of_isUpper (Bool.and_eq_true_iff.1 h).1, isAlpha_of_isUpper hd⟩
  · exact .inr (by simpa using h)

end Characters

/-! ## The words of a text -/

/-- A word consists of letters only or of digits only, and of one character at least. -/
structure IsWord (w : List Char) : Prop where
  ne_nil : w ≠ []
  uniform : (∀ c ∈ w, c.isAlpha) ∨ ∀ c ∈ w, isDecimalDigit c

section Words

variable {c d : Char} {cs after w : List Char} {ws : List (List Char)}

theorem words_cons : words (c :: cs) =
    if isWordChar c then if joins c cs then extendFirst c (words cs) else [c] :: words cs
    else words cs := rfl

theorem words_cons_of_isWordChar (h : isWordChar c) (cs : List Char) :
    ∃ w ws, words (c :: cs) = (c :: w) :: ws := by
  rw [words_cons, if_pos h]
  split
  · cases words cs with
    | nil => exact ⟨[], [], rfl⟩
    | cons w ws => exact ⟨w, ws, rfl⟩
  · exact ⟨[], words cs, rfl⟩

theorem isWordChar_of_joins (h : joins c (d :: after)) : isWordChar d := by
  rcases joins_cons h with ⟨-, hd⟩ | ⟨-, hd⟩
  · exact isWordChar_iff.2 (.inl hd)
  · exact isWordChar_iff.2 (.inr hd)

theorem isWord_singleton (h : isWordChar c) : IsWord [c] := by
  refine ⟨List.cons_ne_nil _ _, ?_⟩
  simpa using isWordChar_iff.1 h

theorem IsWord.cons (h : IsWord (d :: w)) (hj : joins c (d :: after)) : IsWord (c :: d :: w) := by
  refine ⟨List.cons_ne_nil _ _, ?_⟩
  have hd : d ∈ d :: w := List.mem_cons_self
  rcases joins_cons hj with ⟨hc, hd'⟩ | ⟨hc, hd'⟩
  · refine .inl (List.forall_mem_cons.2 ⟨hc, h.uniform.resolve_right fun hdigits => ?_⟩)
    simpa [hd'] using not_isAlpha_of_isDecimalDigit (hdigits d hd)
  · refine .inr (List.forall_mem_cons.2 ⟨hc, h.uniform.resolve_left fun hletters => ?_⟩)
    simpa [hd'] using not_isDecimalDigit_of_isAlpha (hletters d hd)

theorem isWord_of_mem_words (h : w ∈ words cs) : IsWord w := by
  induction cs generalizing w with
  | nil => cases h
  | cons c cs ih =>
    rw [words_cons] at h
    split at h
    · rename_i hc
      split at h
      · rename_i hj
        cases cs with
        | nil => cases hj
        | cons d after =>
          obtain ⟨v, vs, hv⟩ := words_cons_of_isWordChar (isWordChar_of_joins hj) after
          rw [hv] at h ih
          rcases List.mem_cons.1 h with rfl | hw
          · exact (ih List.mem_cons_self).cons hj
          · exact ih (List.mem_cons_of_mem _ hw)
      · rcases List.mem_cons.1 h with rfl | hw
        · exact isWord_singleton hc
        · exact ih hw
    · exact ih h

theorem words_eq_nil_iff : words cs = [] ↔ ∀ c ∈ cs, isWordChar c = false := by
  induction cs with
  | nil => simp
  | cons c cs ih =>
    rw [List.forall_mem_cons]
    cases hc : isWordChar c with
    | true =>
      obtain ⟨w, ws, hw⟩ := words_cons_of_isWordChar hc cs
      simp [hw]
    | false => simp [words_cons_of_not_isWordChar hc, ih]

theorem flatten_extendFirst : (extendFirst c ws).flatten = c :: ws.flatten := by
  cases ws <;> rfl

theorem flatten_words (cs : List Char) : (words cs).flatten = cs.filter isWordChar := by
  induction cs with
  | nil => rfl
  | cons c cs ih =>
    rw [words_cons]
    split
    · rename_i hc
      rw [List.filter_cons_of_pos hc, ← ih]
      split
      · exact flatten_extendFirst
      · rfl
    · rename_i hc
      rw [List.filter_cons_of_neg hc, ih]

section Separator

variable {separator : Char} (hs : isWordChar separator = false)

include hs

theorem joins_append_separator (c : Char) (a b : List Char) :
    joins c (a ++ separator :: b) = joins c a := by
  have hlower : separator.isLower = false := by simp_all [isWordChar]
  have hupper : separator.isUpper = false := by simp_all [isWordChar]
  have hdigit : isDecimalDigit separator = false := by simp_all [isWordChar]
  cases a with
  | nil => simp [joins, hlower, hupper, hdigit]
  | cons d after => cases after <;> simp [joins, hlower]

/-- A separator parts the words before it from those after it. -/
theorem words_append_separator (a b : List Char) :
    words (a ++ separator :: b) = words a ++ words b := by
  induction a with
  | nil => simp [words_cons_of_not_isWordChar hs]
  | cons c a ih =>
    rw [List.cons_append, words_cons, words_cons, joins_append_separator hs, ih]
    split
    · split
      · rename_i hj
        cases a with
        | nil => cases hj
        | cons d after =>
          obtain ⟨v, vs, hv⟩ := words_cons_of_isWordChar (isWordChar_of_joins hj) after
          rw [hv]
          rfl
      · rfl
    · rfl

end Separator

end Words

theorem pascalCase_append_blank (s t : String) :
    pascalCase (s ++ " " ++ t) = pascalCase s ++ pascalCase t := by
  have hwords : words (s ++ " " ++ t).toList = words s.toList ++ words t.toList := by
    have hblank : isWordChar ' ' = false := by decide
    simpa using words_append_separator hblank s.toList t.toList
  simp only [pascalCase, hwords, List.flatMap_append, String.ofList_append]

/-! ## Plain words -/

def isNumber (w : List Char) : Bool := w.all isDecimalDigit

/-- Puts a word in front of others; a number goes with a number that follows it. -/
def putFirst (w : List Char) : List (List Char) → List (List Char)
  | [] => [w]
  | v :: vs => if isNumber w && isNumber v then (w ++ v) :: vs else w :: v :: vs

/-- Words with the numbers that follow each other in one. -/
def joinNumbers (ws : List (List Char)) : List (List Char) := ws.foldr putFirst []

/-- The words of a text in small letters, with the numbers that follow each other in one. -/
def plainWords (s : String) : List (List Char) :=
  joinNumbers ((words s.toList).map fun w => w.map Char.toLower)

/-- A word in small letters. -/
structure IsPlain (w : List Char) : Prop where
  isWord : IsWord w
  small : w.map Char.toLower = w

section Plain

variable {v w : List Char} {vs ws : List (List Char)}

theorem isNumber_append : isNumber (v ++ w) = (isNumber v && isNumber w) := List.all_append

theorem isNumber_iff : isNumber w ↔ ∀ c ∈ w, isDecimalDigit c := List.all_eq_true

theorem map_toLower_of_isNumber (h : isNumber w) : w.map Char.toLower = w :=
  (List.map_congr_left fun c hc => toLower_of_isDecimalDigit (isNumber_iff.1 h c hc)).trans
    (List.map_id' w)

theorem IsWord.isPlain_map (h : IsWord w) : IsPlain (w.map Char.toLower) := by
  refine ⟨⟨by simpa using h.ne_nil, ?_⟩, by simp⟩
  rcases h.uniform with hletters | hdigits
  · exact .inl (by simpa using hletters)
  · rw [map_toLower_of_isNumber (isNumber_iff.2 hdigits)]
    exact .inr hdigits

theorem isPlain_append (hv : IsPlain v) (hnumbers : isNumber v && isNumber w) :
    IsPlain (v ++ w) := by
  rw [← isNumber_append] at hnumbers
  refine ⟨⟨by simp [hv.isWord.ne_nil], .inr (isNumber_iff.1 hnumbers)⟩, ?_⟩
  exact map_toLower_of_isNumber hnumbers

/-- No two numbers follow each other. -/
abbrev Apart (ws : List (List Char)) : Prop := ws.IsChain fun v w => ¬ (isNumber v && isNumber w)

theorem putFirst_cons : putFirst w (v :: vs) =
    if isNumber w && isNumber v then (w ++ v) :: vs else w :: v :: vs := rfl

theorem apart_putFirst (h : Apart ws) : Apart (putFirst w ws) := by
  cases ws with
  | nil => exact .singleton w
  | cons v vs =>
    rw [putFirst_cons]
    split
    · rename_i hnumbers
      -- with a number in front the first word is a number as it has been before
      cases vs with
      | nil => exact .singleton _
      | cons u us =>
        obtain ⟨hvu, hus⟩ := List.isChain_cons_cons.1 h
        refine List.isChain_cons_cons.2 ⟨?_, hus⟩
        simp_all [isNumber_append]
    · rename_i hnumbers
      exact List.isChain_cons_cons.2 ⟨hnumbers, h⟩

theorem isPlain_of_mem_putFirst (hw : IsPlain w) (h : ∀ v ∈ ws, IsPlain v) :
    ∀ v ∈ putFirst w ws, IsPlain v := by
  cases ws with
  | nil => simpa [putFirst] using hw
  | cons u us =>
    rw [putFirst_cons]
    split
    · rename_i hnumbers
      exact List.forall_mem_cons.2 ⟨isPlain_append hw hnumbers, (List.forall_mem_cons.1 h).2⟩
    · exact List.forall_mem_cons.2 ⟨hw, h⟩

theorem putFirst_ne_nil : putFirst w ws ≠ [] := by
  cases ws with
  | nil => simp [putFirst]
  | cons v vs =>
    rw [putFirst_cons]
    split <;> simp

theorem apart_plainWords (s : String) : Apart (plainWords s) := by
  unfold plainWords joinNumbers
  induction (words s.toList).map fun w => w.map Char.toLower with
  | nil => exact .nil
  | cons w ws ih => exact apart_putFirst ih

theorem isPlain_of_mem_plainWords (s : String) : ∀ w ∈ plainWords s, IsPlain w := by
  unfold plainWords joinNumbers
  have hwords : ∀ w ∈ words s.toList, IsWord w := fun w hw => isWord_of_mem_words hw
  generalize words s.toList = ws at hwords
  induction ws with
  | nil => simp
  | cons w ws ih =>
    obtain ⟨hw, hws⟩ := List.forall_mem_cons.1 hwords
    exact isPlain_of_mem_putFirst hw.isPlain_map (ih hws)

theorem plainWords_eq_nil_iff {s : String} : plainWords s = [] ↔ words s.toList = [] := by
  unfold plainWords joinNumbers
  cases words s.toList with
  | nil => simp
  | cons w ws => simp [putFirst_ne_nil]

end Plain

/-! ## Identifiers -/

section Identifiers

variable {c x y : Char} {cs v w : List Char} {ws : List (List Char)} {s t : String}

theorem capitalize_ne_nil (h : w ≠ []) : capitalize w ≠ [] := by
  cases w with
  | nil => exact absurd rfl h
  | cons c cs => simp [capitalize]

theorem capitalize_of_isNumber (h : isNumber w) : capitalize w = w := by
  cases w with
  | nil => rfl
  | cons c cs =>
    obtain ⟨hc, hcs⟩ := List.forall_mem_cons.1 (isNumber_iff.1 h)
    rw [capitalize, toUpper_of_isDecimalDigit hc, map_toLower_of_isNumber (isNumber_iff.2 hcs)]

theorem capitalize_map_toLower : capitalize (w.map Char.toLower) = capitalize w := by
  cases w <;> simp [capitalize]

theorem map_toLower_capitalize : (capitalize w).map Char.toLower = w.map Char.toLower := by
  cases w <;> simp [capitalize]

theorem isAlpha_of_mem_capitalize (h : ∀ c ∈ w, c.isAlpha) : ∀ c ∈ capitalize w, c.isAlpha := by
  cases w with
  | nil => exact h
  | cons c cs => simpa [capitalize] using h

/-- A number and a number after it are written like one number. -/
theorem flatMap_capitalize_putFirst :
    (putFirst w ws).flatMap capitalize = capitalize w ++ ws.flatMap capitalize := by
  cases ws with
  | nil => rfl
  | cons v vs =>
    rw [putFirst_cons]
    split
    · rename_i hnumbers
      have hboth := Bool.and_eq_true_iff.1 hnumbers
      rw [← isNumber_append] at hnumbers
      rw [List.flatMap_cons, List.flatMap_cons, capitalize_of_isNumber hnumbers,
        capitalize_of_isNumber hboth.1, capitalize_of_isNumber hboth.2, List.append_assoc]
    · rfl

theorem toList_pascalCase (s : String) :
    (pascalCase s).toList = (plainWords s).flatMap capitalize := by
  rw [pascalCase, String.toList_ofList, plainWords, joinNumbers]
  induction words s.toList with
  | nil => rfl
  | cons w ws ih =>
    rw [List.flatMap_cons, ih, List.map_cons, List.foldr_cons, flatMap_capitalize_putFirst,
      capitalize_map_toLower]

/-- Whether a character of an identifier belongs to the word of the character before it. -/
def sticks (c d : Char) : Bool := d.isLower || (isDecimalDigit c && isDecimalDigit d)

theorem sticks_of_isLower (h : y.isLower) : sticks x y := by simp [sticks, h]

theorem isChain_sticks_of_isLower (h : ∀ d ∈ cs, d.isLower) :
    (c :: cs).IsChain (fun c d => sticks c d) := by
  induction cs generalizing c with
  | nil => exact .singleton c
  | cons d cs ih =>
    obtain ⟨hd, hcs⟩ := List.forall_mem_cons.1 h
    exact List.isChain_cons_cons.2 ⟨sticks_of_isLower hd, ih hcs⟩

theorem isChain_sticks_of_isNumber (h : isNumber w) : w.IsChain (fun c d => sticks c d) := by
  refine (List.pairwise_iff_forall_sublist.2 fun {c d} hcd => ?_).isChain
  have hmem : ∀ x ∈ [c, d], isDecimalDigit x := fun x hx => isNumber_iff.1 h x (hcd.subset hx)
  simp [sticks, hmem c (by simp), hmem d (by simp)]

theorem IsWord.isChain_capitalize (h : IsWord w) :
    (capitalize w).IsChain (fun c d => sticks c d) := by
  rcases h.uniform with hletters | hdigits
  · cases w with
    | nil => exact .nil
    | cons c cs =>
      refine isChain_sticks_of_isLower fun d hd => ?_
      obtain ⟨e, he, rfl⟩ := List.mem_map.1 hd
      rw [Char.isLower_toLower_eq_isAlpha]
      exact hletters e (List.mem_cons_of_mem _ he)
  · rw [capitalize_of_isNumber (isNumber_iff.2 hdigits)]
    exact isChain_sticks_of_isNumber (isNumber_iff.2 hdigits)

/-- A word does not stick to the word before it, unless both are numbers. -/
theorem IsWord.not_sticks (hv : IsWord v) (hw : IsWord w) (h : ¬ (isNumber v && isNumber w))
    (hx : x ∈ capitalize v) (hy : y ∈ (capitalize w).head?) : sticks x y = false := by
  rcases hw.uniform with hletters | hdigits
  · cases w with
    | nil => cases hy
    | cons c cs =>
      obtain rfl : c.toUpper = y := by simpa [capitalize] using hy
      have halpha : c.toUpper.isAlpha := by simpa using hletters c List.mem_cons_self
      simp [sticks, not_isDecimalDigit_of_isAlpha halpha]
  · have hnumber := isNumber_iff.2 hdigits
    rw [capitalize_of_isNumber hnumber] at hy
    have hydigit := hdigits y (List.mem_of_mem_head? hy)
    have hylower : y.isLower = false := by
      by_contra hl
      have := not_isAlpha_of_isDecimalDigit hydigit
      simp_all [Char.isAlpha]
    have hvletters := hv.uniform.resolve_right fun hdigits =>
      h (by simp [hnumber, isNumber_iff.2 hdigits])
    have hxalpha := isAlpha_of_mem_capitalize hvletters x hx
    simp [sticks, hylower, not_isDecimalDigit_of_isAlpha hxalpha]

/-- An identifier falls into its words where a character does not stick to the one before it. -/
theorem splitBy_flatMap_capitalize (hplain : ∀ w ∈ ws, IsPlain w) (hapart : Apart ws) :
    (ws.flatMap capitalize).splitBy sticks = ws.map capitalize := by
  induction ws with
  | nil => rfl
  | cons w ws ih =>
    obtain ⟨hw, hws⟩ := List.forall_mem_cons.1 hplain
    have hfirst : (capitalize w).splitBy sticks = [capitalize w] :=
      List.splitBy_of_isChain (capitalize_ne_nil hw.isWord.ne_nil) hw.isWord.isChain_capitalize
    have hbreak : ∀ x ∈ (capitalize w).getLast?, ∀ y ∈ (ws.flatMap capitalize).head?,
        sticks x y = false := by
      intro x hx y hy
      cases ws with
      | nil => cases hy
      | cons v vs =>
        have hv := (List.forall_mem_cons.1 hws).1.isWord
        rw [List.flatMap_cons, List.head?_append_of_ne_nil _ (capitalize_ne_nil hv.ne_nil)] at hy
        exact hw.isWord.not_sticks hv (List.isChain_cons_cons.1 hapart).1
          (List.mem_of_mem_getLast? hx) hy
    rw [List.flatMap_cons, List.splitBy_append hbreak, hfirst, ih hws hapart.tail]
    rfl

/-- The plain words of a text can be read back from its identifier. -/
theorem plainWords_of_pascalCase (s : String) :
    ((pascalCase s).toList.splitBy sticks).map (·.map Char.toLower) = plainWords s := by
  have hplain := isPlain_of_mem_plainWords s
  rw [toList_pascalCase, splitBy_flatMap_capitalize hplain (apart_plainWords s), List.map_map]
  have hsmall : ∀ w ∈ plainWords s, (capitalize w).map Char.toLower = w :=
    fun w hw => map_toLower_capitalize.trans (hplain w hw).small
  exact (List.map_congr_left hsmall).trans (List.map_id' _)

/-- Two texts have the same identifier exactly if they have the same plain words. -/
theorem pascalCase_eq_iff : pascalCase s = pascalCase t ↔ plainWords s = plainWords t := by
  constructor
  · intro h
    rw [← plainWords_of_pascalCase s, ← plainWords_of_pascalCase t, h]
  · intro h
    rw [← String.toList_inj, toList_pascalCase, toList_pascalCase, h]

theorem pascalCase_eq_empty_iff : pascalCase s = "" ↔ ∀ c ∈ s.toList, isWordChar c = false := by
  have hempty : pascalCase "" = "" := rfl
  have hnone : plainWords "" = [] := rfl
  rw [← hempty, pascalCase_eq_iff, hnone, plainWords_eq_nil_iff, words_eq_nil_iff]

theorem isWordChar_toUpper (h : isWordChar c) : isWordChar c.toUpper := by
  rcases isWordChar_iff.1 h with halpha | hdigit
  · exact isWordChar_iff.2 (.inl (by simpa using halpha))
  · rwa [toUpper_of_isDecimalDigit hdigit]

theorem isWordChar_toLower (h : isWordChar c) : isWordChar c.toLower := by
  rcases isWordChar_iff.1 h with halpha | hdigit
  · exact isWordChar_iff.2 (.inl (by simpa using halpha))
  · rwa [toLower_of_isDecimalDigit hdigit]

theorem isWordChar_of_mem_words (hw : w ∈ words cs) (hc : c ∈ w) : isWordChar c :=
  (List.mem_filter.1 (flatten_words cs ▸ List.mem_flatten.2 ⟨w, hw, hc⟩)).2

theorem isWordChar_of_mem_capitalize (hw : ∀ d ∈ w, isWordChar d) (hc : c ∈ capitalize w) :
    isWordChar c := by
  cases w with
  | nil => cases hc
  | cons d w =>
    obtain ⟨hd, hrest⟩ := List.forall_mem_cons.1 hw
    rcases List.mem_cons.1 hc with rfl | hc
    · exact isWordChar_toUpper hd
    · obtain ⟨e, he, rfl⟩ := List.mem_map.1 hc
      exact isWordChar_toLower (hrest e he)

theorem isWordChar_of_mem_pascalCase (h : c ∈ (pascalCase s).toList) : isWordChar c := by
  rw [pascalCase, String.toList_ofList] at h
  obtain ⟨w, hw, hc⟩ := List.mem_flatMap.1 h
  exact isWordChar_of_mem_capitalize (fun d hd => isWordChar_of_mem_words hw hd) hc

theorem isWordChar_of_mem_camelCase (h : c ∈ (camelCase s).toList) : isWordChar c := by
  unfold camelCase at h
  split at h
  · cases h
  · rename_i w ws hwords
    rw [String.toList_ofList, List.mem_append] at h
    rcases h with hc | hc
    · obtain ⟨d, hd, rfl⟩ := List.mem_map.1 hc
      exact isWordChar_toLower (isWordChar_of_mem_words (hwords ▸ List.mem_cons_self) hd)
    · obtain ⟨v, hv, hc⟩ := List.mem_flatMap.1 hc
      exact isWordChar_of_mem_capitalize
        (fun d hd => isWordChar_of_mem_words (hwords ▸ List.mem_cons_of_mem w hv) hd) hc

theorem head?_pascalCase (s : String) :
    (pascalCase s).toList.head? = (s.toList.find? isWordChar).map Char.toUpper := by
  rw [pascalCase, String.toList_ofList]
  induction s.toList with
  | nil => rfl
  | cons c cs ih =>
    cases hc : isWordChar c with
    | true =>
      obtain ⟨w, ws, hwords⟩ := words_cons_of_isWordChar hc cs
      rw [hwords, List.find?_cons_of_pos hc]
      rfl
    | false => rw [words_cons_of_not_isWordChar hc, ih, List.find?_cons_of_neg (by simp [hc])]

theorem toList_pascalCase_of_no_letters (h : ∀ c ∈ s.toList, c.isAlpha = false) :
    (pascalCase s).toList = s.toList.filter isDecimalDigit := by
  have hkind : ∀ c ∈ s.toList, isWordChar c = isDecimalDigit c := by
    intro c hc
    have := h c hc
    simp_all [isWordChar, Char.isAlpha]
  have hnumbers : ∀ w ∈ words s.toList, capitalize w = w := by
    intro w hw
    refine capitalize_of_isNumber (isNumber_iff.2 fun c hc => ?_)
    have hmem : c ∈ s.toList.filter isWordChar := by
      rw [← flatten_words]
      exact List.mem_flatten.2 ⟨w, hw, hc⟩
    obtain ⟨hs, hword⟩ := List.mem_filter.1 hmem
    rwa [← hkind c hs]
  rw [pascalCase, String.toList_ofList, List.flatMap_def, List.map_congr_left hnumbers,
    List.map_id', flatten_words]
  exact List.filter_congr hkind

end Identifiers

end ApiBindings.Text
