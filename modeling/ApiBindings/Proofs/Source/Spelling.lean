import ApiBindings.Proofs.Declarations.Closed
import ApiBindings.Proofs.Text.Words
import ApiBindings.Source.Language

/-!
# Spelling of types

A type is spelled by its use. Two types have one spelling exactly if their uses have the same arrays
and maps, and where these end the same primitive types or names with the same identifier
(`typeRef_eq_iff`).

A spelling can be read in one way only. Arrays and maps have brackets around or behind their parts,
which no word has, and they differ in their first or their last character. Where the key of a map
ends is told by the brackets: they are matched in every spelling, and a comma stands inside of them
(`matched_useRef`), so the first comma outside belongs to the map itself (`mapOf_inj`). A primitive
type starts with a small letter, which no identifier does.
-/

namespace ApiBindings.Source

open Text

def isNumeric : Primitive → Bool
  | .integer | .float | .double => true
  | .string | .boolean => false

/-- Uses of types that a language does not tell apart: both have the same arrays and maps, and where
these end the same primitive types or names with the same identifier. TypeScript has one name for
all numbers. -/
inductive SpelledAlike (language : Language) : Use → Use → Prop
  | primitive (p : Primitive) : SpelledAlike language (.primitive p) (.primitive p)
  | number {p q : Primitive} (hl : language = .typeScript) (hp : isNumeric p) (hq : isNumeric q) :
    SpelledAlike language (.primitive p) (.primitive q)
  | named {m n : String} (h : language.typeName m = language.typeName n) :
    SpelledAlike language (.named m) (.named n)
  | array {e f : Use} (h : SpelledAlike language e f) : SpelledAlike language (.array e) (.array f)
  | map {k l v w : Use} (hkey : SpelledAlike language k l) (hvalue : SpelledAlike language v w) :
    SpelledAlike language (.map k v) (.map l w)

/-! ## Matched brackets -/

/-- The text up to the first comma outside of all angle brackets; `depth` of them are open. -/
def outerPart (depth : Nat) : List Char → List Char
  | [] => []
  | c :: cs =>
    if c = ',' ∧ depth = 0 then []
    else
      c :: outerPart (if c = '<' then depth + 1 else if c = '>' then depth - 1 else depth) cs

/-- A text that is passed over as a whole where at least `least` brackets are open: its own brackets
are matched, and no comma in it ends the part. -/
def Matched (least : Nat) (text : List Char) : Prop :=
  ∀ depth, least ≤ depth → ∀ rest,
    outerPart depth (text ++ rest) = text ++ outerPart depth rest

section Brackets

variable {least : Nat} {text other : List Char}

theorem matched_of_plain (h : ∀ c ∈ text, c ∉ [',', '<', '>']) : Matched least text := by
  intro depth _ rest
  induction text with
  | nil => rfl
  | cons c text ih =>
    obtain ⟨hc, htext⟩ := List.forall_mem_cons.1 h
    simp only [List.mem_cons, List.not_mem_nil, or_false, not_or] at hc
    rw [List.cons_append, outerPart, if_neg (fun h => hc.1 h.1), if_neg hc.2.1, if_neg hc.2.2,
      ih htext, List.cons_append]

theorem matched_of_words (h : ∀ c ∈ text, isWordChar c) : Matched 0 text := by
  refine matched_of_plain fun c hc hbracket => ?_
  have hnone : [',', '<', '>'].all fun c => !isWordChar c := rfl
  have := List.all_eq_true.1 hnone c hbracket
  simp [h c hc] at this

theorem Matched.mono (h : Matched 0 text) : Matched least text :=
  fun depth _ rest => h depth (Nat.zero_le depth) rest

theorem Matched.append (h : Matched least text) (h' : Matched least other) :
    Matched least (text ++ other) := by
  intro depth hdepth rest
  rw [List.append_assoc, h depth hdepth, h' depth hdepth, List.append_assoc]

/-- Inside of brackets a comma does not count. -/
theorem matched_separator : Matched 1 ", ".toList := by
  intro depth hdepth rest
  simp [outerPart, Nat.ne_of_gt hdepth]

theorem Matched.within (h : Matched 1 text) : Matched 0 ('<' :: text ++ ['>']) := by
  intro depth _ rest
  have hclose : outerPart (depth + 1) ('>' :: rest) = '>' :: outerPart depth rest := rfl
  rw [List.cons_append, List.cons_append, List.append_assoc, List.singleton_append, outerPart,
    if_neg nofun, if_pos rfl, h (depth + 1) (Nat.le_add_left 1 depth), hclose, List.cons_append,
    List.append_assoc, List.singleton_append]

end Brackets

/-! ## Reading a spelling -/

section Reading

variable {language : Language} {p q : Primitive} {e f k l v w name : String}
  {u u' : Use}

theorem isWordChar_of_mem_primitiveName (language : Language) (p : Primitive) :
    ∀ c ∈ (language.primitiveName p).toList, isWordChar c := by
  have hall : (language.primitiveName p).toList.all isWordChar := by
    cases language <;> cases p <;> rfl
  exact List.all_eq_true.1 hall

/-- The brackets of a spelling are matched, and its commas stand inside of them. -/
theorem matched_useRef (language : Language) (u : Use) :
    Matched 0 (language.useRef u).toList := by
  induction u with
  | primitive p => exact matched_of_words (isWordChar_of_mem_primitiveName language p)
  | named name => exact matched_of_words fun c => isWordChar_of_mem_pascalCase
  | array element ih =>
    cases language with
    | typeScript =>
      rw [Language.useRef, Language.arrayOf, String.toList_append]
      exact ih.append (matched_of_plain (by simp))
    | cSharp =>
      have hname : Matched 0 "List".toList := matched_of_plain (by simp)
      simpa [Language.useRef, Language.arrayOf] using hname.append ih.mono.within
  | map key value ihk ihv =>
    have hparts := ((ihk.mono.append matched_separator).append ihv.mono).within
    cases language with
    | typeScript =>
      have hname : Matched 0 "Record".toList := matched_of_plain (by simp)
      simpa [Language.useRef, Language.mapOf] using hname.append hparts
    | cSharp =>
      have hname : Matched 0 "Dictionary".toList := matched_of_plain (by simp)
      simpa [Language.useRef, Language.mapOf] using hname.append hparts

/-- Whether a use is written with brackets. -/
def isBracketed : Use → Bool
  | .array _ | .map _ _ => true
  | .primitive _ | .named _ => false

theorem isBracketed_iff (language : Language) (u : Use) :
    isBracketed u ↔ ∃ c ∈ (language.useRef u).toList, isWordChar c = false := by
  cases u with
  | primitive p =>
    have hword := isWordChar_of_mem_primitiveName language p
    simpa [isBracketed, Language.useRef] using hword
  | named name =>
    have hword : ∀ c ∈ (pascalCase name).toList, isWordChar c :=
      fun c => isWordChar_of_mem_pascalCase
    simpa [isBracketed, Language.useRef, Language.typeName] using hword
  | array element =>
    refine iff_of_true rfl ?_
    cases language with
    | typeScript => exact ⟨'[', by simp [Language.useRef, Language.arrayOf], rfl⟩
    | cSharp => exact ⟨'<', by simp [Language.useRef, Language.arrayOf], rfl⟩
  | map key value =>
    refine iff_of_true rfl ⟨'<', ?_, rfl⟩
    cases language <;> simp [Language.useRef, Language.mapOf]

theorem isBracketed_eq (h : language.useRef u = language.useRef u') :
    isBracketed u = isBracketed u' := by
  rw [Bool.eq_iff_iff, isBracketed_iff language, isBracketed_iff language, h]

theorem primitiveName_eq_iff : language.primitiveName p = language.primitiveName q ↔
    p = q ∨ language = .typeScript ∧ isNumeric p ∧ isNumeric q := by
  cases language <;> cases p <;> cases q <;> decide

/-- The names of primitive types start with a small letter, and identifiers do not. -/
theorem primitiveName_ne_typeName : language.primitiveName p ≠ language.typeName name := by
  intro h
  have hsmall : (language.primitiveName p).toList.head?.any Char.isLower := by
    cases language <;> cases p <;> rfl
  rw [h, Language.typeName, head?_pascalCase] at hsmall
  obtain ⟨c, hc, hlower⟩ := (Option.any_eq_true _ _).1 hsmall
  obtain ⟨d, -, rfl⟩ := Option.map_eq_some_iff.1 hc
  cases hlower.symm.trans (Char.isLower_toUpper_eq_false d)

theorem arrayOf_inj (h : language.arrayOf e = language.arrayOf f) : e = f := by
  cases language <;> simpa [Language.arrayOf] using h

theorem arrayOf_ne_mapOf : language.arrayOf e ≠ language.mapOf k v := by
  intro h
  cases language with
  | typeScript =>
    have hlast := congrArg (fun s => s.toList.reverse.head?) h
    simp [Language.arrayOf, Language.mapOf] at hlast
  | cSharp =>
    have hfirst := congrArg (fun s => s.toList.head?) h
    simp [Language.arrayOf, Language.mapOf] at hfirst

/-- The key of a map ends at the first comma outside of all brackets. -/
theorem mapOf_inj (hk : Matched 0 k.toList) (hl : Matched 0 l.toList)
    (h : language.mapOf k v = language.mapOf l w) : k = l ∧ v = w := by
  have hparts : k.toList ++ (", ".toList ++ (v.toList ++ ['>'])) =
      l.toList ++ (", ".toList ++ (w.toList ++ ['>'])) := by
    have htext := congrArg String.toList h
    cases language <;> simpa [Language.mapOf] using htext
  have hkey : ∀ {s : String}, Matched 0 s.toList → ∀ rest,
      outerPart 0 (s.toList ++ (", ".toList ++ rest)) = s.toList := by
    intro s hs rest
    rw [hs 0 (Nat.le_refl 0)]
    simp [outerPart]
  have hkeys := congrArg (outerPart 0) hparts
  rw [hkey hk, hkey hl] at hkeys
  rw [hkeys] at hparts
  have hvalues := List.append_cancel_left (List.append_cancel_left hparts)
  exact ⟨String.toList_inj.1 hkeys, String.toList_inj.1 (List.append_cancel_right hvalues)⟩

theorem useRef_eq_of_spelledAlike (h : SpelledAlike language u u') :
    language.useRef u = language.useRef u' := by
  induction h with
  | primitive p => rfl
  | number hl hp hq => exact primitiveName_eq_iff.2 (.inr ⟨hl, hp, hq⟩)
  | named h => exact h
  | array _ ih => rw [Language.useRef, Language.useRef, ih]
  | map _ _ ihk ihv => rw [Language.useRef, Language.useRef, ihk, ihv]

theorem spelledAlike_of_useRef_eq (h : language.useRef u = language.useRef u') :
    SpelledAlike language u u' := by
  induction u generalizing u' with
  | primitive p =>
    cases u' with
    | primitive q =>
      rcases primitiveName_eq_iff.1 h with rfl | ⟨hl, hp, hq⟩
      · exact .primitive p
      · exact .number hl hp hq
    | named name => exact absurd h primitiveName_ne_typeName
    | array f => cases isBracketed_eq h
    | map l w => cases isBracketed_eq h
  | named name =>
    cases u' with
    | primitive q => exact absurd h.symm primitiveName_ne_typeName
    | named name' => exact .named h
    | array f => cases isBracketed_eq h
    | map l w => cases isBracketed_eq h
  | array e ih =>
    cases u' with
    | primitive q => cases isBracketed_eq h
    | named name => cases isBracketed_eq h
    | array f => exact .array (ih (arrayOf_inj h))
    | map l w => exact absurd h arrayOf_ne_mapOf
  | map k v ihk ihv =>
    cases u' with
    | primitive q => cases isBracketed_eq h
    | named name => cases isBracketed_eq h
    | array f => exact absurd h.symm arrayOf_ne_mapOf
    | map l w =>
      obtain ⟨hkey, hvalue⟩ := mapOf_inj (matched_useRef _ k) (matched_useRef _ l) h
      exact .map (ihk hkey) (ihv hvalue)

end Reading

/-- **Spellings are unambiguous.** Two types have one spelling exactly if they have the same arrays,
maps and primitive types down to the first named types, and these have the same identifiers; only
TypeScript does not tell numbers apart. So a named type is never spelled like a type without a
name. -/
theorem typeRef_eq_iff (language : Language) (a b : Ty) :
    (language.typeRef a = language.typeRef b ↔ SpelledAlike language a.use b.use) ∧
      ∀ name, a.name? = some name → b.name? = none → language.typeRef a ≠ language.typeRef b := by
  have hiff : language.typeRef a = language.typeRef b ↔ SpelledAlike language a.use b.use := by
    rw [Language.typeRef_eq_useRef, Language.typeRef_eq_useRef]
    exact ⟨spelledAlike_of_useRef_eq, useRef_eq_of_spelledAlike⟩
  refine ⟨hiff, fun name ha hb h => ?_⟩
  have halike := hiff.1 h
  have huse : a.use = .named name := by
    cases a <;> cases ha <;> rfl
  rw [huse] at halike
  generalize hused : b.use = used at halike
  cases halike
  cases b <;> cases hb <;> cases hused

end ApiBindings.Source
