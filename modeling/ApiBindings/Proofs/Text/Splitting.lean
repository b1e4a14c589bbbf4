import ApiBindings.Proofs.Text.Words

/-!
# Splitting a text into words

The words of a text are those that a search for one pattern finds (`finds_words_iff`): capitals
before a capitalised word, or small letters after a capital or none, or capitals, or digits, tried
in this order and as long as possible. Which of them it is can depend on how far the capitals go.
But two characters after another one are enough to tell whether a word goes on there, so that the
first word of a text is described by what it is made of and what it stands before (`Fits`), and the
pattern ends first where such a word does.
-/

namespace ApiBindings.Text

/-! ## Patterns -/

/-- A pattern tells what can be left of a text after it, in the order in which the ways are tried.
-/
abbrev Pattern := List Char → List (List Char)

namespace Pattern

def one (p : Char → Bool) : Pattern
  | [] => []
  | c :: cs => if p c then [cs] else []

/-- One character or more, the longest run first. -/
def run (p : Char → Bool) : Pattern
  | [] => []
  | c :: cs => if p c then run p cs ++ [cs] else []

def maybe (p : Pattern) : Pattern := fun cs => p cs ++ [cs]

def andThen (p q : Pattern) : Pattern := fun cs => (p cs).flatMap q

def orElse (p q : Pattern) : Pattern := fun cs => p cs ++ q cs

/-- Nothing, but only in front of a pattern. -/
def ahead (p : Pattern) : Pattern := fun cs => if (p cs).isEmpty then [] else [cs]

/-- What is found by going through a text: the first try of the pattern wherever it can stand. -/
inductive Finds (p : Pattern) : List Char → List (List Char) → Prop where
  | done : Finds p [] []
  | skip {c cs ws} (h : p (c :: cs) = []) (hrest : Finds p cs ws) : Finds p (c :: cs) ws
  | take {w rest ws} (h : (p (w ++ rest)).head? = some rest) (hw : w ≠ [])
      (hrest : Finds p rest ws) : Finds p (w ++ rest) (w :: ws)

variable {p : Pattern} {q : Char → Bool} {w rest cs : List Char} {ws vs : List (List Char)}

theorem Finds.cases (h : Finds p cs ws) :
    (cs = [] ∧ ws = []) ∨
    (∃ c rest, cs = c :: rest ∧ p cs = [] ∧ Finds p rest ws) ∨
    ∃ w rest vs, cs = w ++ rest ∧ (p cs).head? = some rest ∧ w ≠ [] ∧ ws = w :: vs ∧
      Finds p rest vs := by
  cases h with
  | done => exact .inl ⟨rfl, rfl⟩
  | skip h hrest => exact .inr (.inl ⟨_, _, rfl, h, hrest⟩)
  | take h hw hrest => exact .inr (.inr ⟨_, _, _, rfl, h, hw, rfl, hrest⟩)

/-- There is one way to go through a text. -/
theorem Finds.unique (h : Finds p cs ws) (h' : Finds p cs vs) : ws = vs := by
  induction h generalizing vs with
  | done =>
    rcases h'.cases with ⟨-, rfl⟩ | ⟨c, rest, he, -⟩ | ⟨w, rest, _, he, -, hw, -⟩
    · rfl
    · cases he
    · exact absurd (List.append_eq_nil_iff.1 he.symm).1 hw
  | skip h _ ih =>
    rcases h'.cases with ⟨he, -⟩ | ⟨c, rest, he, -, hrest⟩ | ⟨w, rest, _, -, hhead, -⟩
    · cases he
    · cases he
      exact ih hrest
    · rw [h] at hhead
      cases hhead
  | take h hw _ ih =>
    rcases h'.cases with ⟨he, -⟩ | ⟨c, rest, -, hnone, -⟩ | ⟨w, rest, _, he, hhead, -, rfl, hrest⟩
    · exact absurd (List.append_eq_nil_iff.1 he).1 hw
    · rw [hnone] at h
      cases h
    · obtain rfl := Option.some.inj (h.symm.trans hhead)
      rw [List.append_cancel_right he, ih hrest]

theorem run_eq_nil (h : ∀ d ∈ cs.head?, q d = false) : run q cs = [] := by
  cases cs with
  | nil => rfl
  | cons c cs => rw [run, h c rfl]; rfl

/-- After a run come the longer runs, then the text behind it, then the shorter runs. -/
theorem run_append (hw : w ≠ []) (h : ∀ c ∈ w, q c) (rest : List Char) :
    ∃ shorter, run q (w ++ rest) = run q rest ++ rest :: shorter ∧
      ∀ cs ∈ shorter, ∃ c v, cs = c :: (v ++ rest) ∧ ∀ d ∈ v, q d := by
  induction w with
  | nil => exact absurd rfl hw
  | cons c w ih =>
    obtain ⟨hc, hrun⟩ := List.forall_mem_cons.1 h
    rw [List.cons_append, run, if_pos hc]
    cases w with
    | nil => exact ⟨[], rfl, nofun⟩
    | cons d w =>
      obtain ⟨shorter, he, hshorter⟩ := ih (List.cons_ne_nil _ _) hrun
      refine ⟨shorter ++ [d :: (w ++ rest)], ?_, ?_⟩
      · rw [he, List.cons_append, List.append_assoc]
        rfl
      · intro cs hcs
        rcases List.mem_append.1 hcs with hcs | hcs
        · exact hshorter cs hcs
        · exact ⟨d, w, List.mem_singleton.1 hcs, (List.forall_mem_cons.1 hrun).2⟩

theorem head?_run_append (hw : w ≠ []) (h : ∀ c ∈ w, q c) (hrest : ∀ d ∈ rest.head?, q d = false) :
    (run q (w ++ rest)).head? = some rest := by
  obtain ⟨shorter, he, -⟩ := run_append hw h rest
  rw [he, run_eq_nil hrest]
  rfl

end Pattern

open Pattern

/-- Capitals before a capitalised word. -/
def acronym : Pattern :=
  (run Char.isUpper).andThen (ahead ((one Char.isUpper).andThen (one Char.isLower)))

/-- Small letters, with a capital in front or without. -/
def smallWord : Pattern := (maybe (one Char.isUpper)).andThen (run Char.isLower)

/-- The pattern of a word. -/
def wordPattern : Pattern :=
  acronym.orElse (smallWord.orElse ((run Char.isUpper).orElse (run isDecimalDigit)))

/-! ## Words and what they stand before -/

/-- Whether a text starts with a capital and a small letter after it. -/
def startsCapitalized : List Char → Bool
  | [] => false
  | c :: cs => c.isUpper && cs.head?.any Char.isLower

/-- A word, and what it can stand before. -/
inductive Fits : List Char → List Char → Prop where
  | number {w rest} (hw : w ≠ []) (hdigits : ∀ c ∈ w, isDecimalDigit c)
      (hrest : ∀ d ∈ rest.head?, isDecimalDigit d = false) : Fits w rest
  | capitals {w rest} (hw : w ≠ []) (hupper : ∀ c ∈ w, c.isUpper)
      (hrest : ∀ d ∈ rest.head?, d.isLower = false)
      (hnext : (∀ d ∈ rest.head?, d.isUpper = false) ∨ startsCapitalized rest) : Fits w rest
  | small {w rest} (hw : w ≠ []) (hlower : ∀ c ∈ w, c.isLower)
      (hrest : ∀ d ∈ rest.head?, d.isLower = false) : Fits w rest
  | capitalized {c w rest} (hc : c.isUpper) (hw : w ≠ []) (hlower : ∀ c ∈ w, c.isLower)
      (hrest : ∀ d ∈ rest.head?, d.isLower = false) : Fits (c :: w) rest

section Fits

variable {c d : Char} {w rest cs after : List Char}

theorem Fits.ne_nil (h : Fits w rest) : w ≠ [] := by
  cases h with
  | number hw => exact hw
  | capitals hw => exact hw
  | small hw => exact hw
  | capitalized => exact List.cons_ne_nil _ _

theorem isLower_eq_false_of_not_joins (hc : c.isAlpha) (h : joins c cs = false) :
    ∀ d ∈ cs.head?, d.isLower = false := by
  cases cs with
  | nil => simp
  | cons d after =>
    rintro _ ⟨rfl⟩
    by_contra hd
    rw [Bool.not_eq_false] at hd
    rw [joins, if_pos hd] at h
    rw [Char.isAlpha, h] at hc
    cases hc

theorem isDecimalDigit_eq_false_of_not_joins (hc : isDecimalDigit c) (h : joins c cs = false) :
    ∀ d ∈ cs.head?, isDecimalDigit d = false := by
  cases cs with
  | nil => simp
  | cons d after =>
    rintro _ ⟨rfl⟩
    by_contra hd
    rw [Bool.not_eq_false] at hd
    have halpha := not_isAlpha_of_isDecimalDigit hd
    rw [Char.isAlpha, Bool.or_eq_false_iff] at halpha
    simp [joins, halpha, hc, hd] at h

theorem startsCapitalized_of_not_joins (hc : c.isUpper) (h : joins c cs = false) :
    (∀ d ∈ cs.head?, d.isUpper = false) ∨ startsCapitalized cs := by
  cases cs with
  | nil => exact .inl (by simp)
  | cons d after =>
    cases hd : d.isUpper with
    | false => exact .inl (by rintro _ ⟨rfl⟩; exact hd)
    | true =>
      rw [joins, if_neg (Char.not_isLower_of_isUpper hd), if_pos hd, hc, Bool.true_and,
        Bool.not_eq_false'] at h
      exact .inr (Bool.and_eq_true_iff.2 ⟨hd, h⟩)

theorem fits_singleton (hc : isWordChar c) (h : joins c cs = false) : Fits [c] cs := by
  have hsingle : ∀ {p : Char → Bool}, p c → ∀ d ∈ [c], p d := by simp
  rcases isWordChar_iff.1 hc with halpha | hdigit
  · have hrest := isLower_eq_false_of_not_joins halpha h
    rcases Bool.or_eq_true_iff.1 halpha with hupper | hlower
    · exact .capitals (List.cons_ne_nil _ _) (hsingle hupper) hrest
        (startsCapitalized_of_not_joins hupper h)
    · exact .small (List.cons_ne_nil _ _) (hsingle hlower) hrest
  · exact .number (List.cons_ne_nil _ _) (hsingle hdigit)
      (isDecimalDigit_eq_false_of_not_joins hdigit h)

theorem Fits.cons (h : Fits w rest) (hj : joins c (w ++ rest)) : Fits (c :: w) rest := by
  cases h with
  | number hw hdigits hrest =>
    refine .number (List.cons_ne_nil _ _) (List.forall_mem_cons.2 ⟨?_, hdigits⟩) hrest
    obtain ⟨d, w, rfl⟩ := List.exists_cons_of_ne_nil hw
    have hd := hdigits d List.mem_cons_self
    rcases joins_cons hj with ⟨-, halpha⟩ | ⟨hc, -⟩
    · exact (false_of_isAlpha_of_isDecimalDigit halpha hd).elim
    · exact hc
  | capitals hw hupper hrest hnext =>
    refine .capitals (List.cons_ne_nil _ _) (List.forall_mem_cons.2 ⟨?_, hupper⟩) hrest hnext
    obtain ⟨d, w, rfl⟩ := List.exists_cons_of_ne_nil hw
    have hd := hupper d List.mem_cons_self
    rw [List.cons_append, joins, if_neg (Char.not_isLower_of_isUpper hd), if_pos hd] at hj
    exact (Bool.and_eq_true_iff.1 hj).1
  | small hw hlower hrest =>
    obtain ⟨d, w, rfl⟩ := List.exists_cons_of_ne_nil hw
    rw [List.cons_append, joins, if_pos (hlower d List.mem_cons_self)] at hj
    rcases Bool.or_eq_true_iff.1 hj with hc | hc
    · exact .capitalized hc hw hlower hrest
    · exact .small (List.cons_ne_nil _ _) (List.forall_mem_cons.2 ⟨hc, hlower⟩) hrest
  | @capitalized d w _ hd hw hlower hrest =>
    -- the capital of a capitalised word joins nothing before it
    obtain ⟨e, w, rfl⟩ := List.exists_cons_of_ne_nil hw
    have he := hlower e List.mem_cons_self
    rw [List.cons_append, joins, if_neg (Char.not_isLower_of_isUpper hd), if_pos hd] at hj
    simp [he] at hj

theorem exists_fits (hc : isWordChar c) (cs : List Char) :
    ∃ w rest, c :: cs = w ++ rest ∧ words (c :: cs) = w :: words rest ∧ Fits w rest := by
  induction cs generalizing c with
  | nil => exact ⟨[c], [], rfl, by rw [words_cons, if_pos hc]; rfl, fits_singleton hc rfl⟩
  | cons d after ih =>
    cases hj : joins c (d :: after) with
    | true =>
      obtain ⟨w, rest, happend, hwords, hfits⟩ := ih (isWordChar_of_joins hj)
      refine ⟨c :: w, rest, by rw [happend]; rfl, ?_, hfits.cons (happend ▸ hj)⟩
      rw [words_cons, if_pos hc, if_pos hj, hwords]
      rfl
    | false =>
      refine ⟨[c], d :: after, rfl, ?_, fits_singleton hc hj⟩
      rw [words_cons, if_pos hc, hj]
      rfl

/-- What holds of a text and its words, going from a word to the next one. -/
theorem words_induction {P : List Char → List (List Char) → Prop} (nil : P [] [])
    (skip : ∀ c cs, isWordChar c = false → P cs (words cs) → P (c :: cs) (words cs))
    (take : ∀ w rest, Fits w rest → P rest (words rest) → P (w ++ rest) (w :: words rest))
    (cs : List Char) : P cs (words cs) := by
  induction hn : cs.length using Nat.strong_induction_on generalizing cs with
  | _ n ih =>
    subst hn
    cases cs with
    | nil => exact nil
    | cons c cs =>
      cases hc : isWordChar c with
      | false =>
        rw [words_cons_of_not_isWordChar hc]
        exact skip c cs hc (ih _ (by simp) _ rfl)
      | true =>
        obtain ⟨w, rest, happend, hwords, hfits⟩ := exists_fits hc cs
        have hw := List.length_pos_iff.2 hfits.ne_nil
        rw [hwords]
        rw [happend] at ih ⊢
        exact take w rest hfits (ih _ (by rw [List.length_append]; omega) _ rfl)

end Fits

/-! ## The pattern finds the words -/

section Find

variable {c : Char} {w rest cs : List Char} {ws : List (List Char)}

theorem ahead_capitalized (cs : List Char) :
    ahead ((one Char.isUpper).andThen (one Char.isLower)) cs =
      if startsCapitalized cs then [cs] else [] := by
  cases cs with
  | nil => rfl
  | cons c cs =>
    cases hc : c.isUpper with
    | false => cases cs <;> simp [ahead, andThen, one, startsCapitalized, hc]
    | true =>
      cases cs with
      | nil => simp [ahead, andThen, one, startsCapitalized, hc]
      | cons d cs =>
        cases hd : d.isLower <;> simp [ahead, andThen, one, startsCapitalized, hc, hd]

theorem acronym_eq (cs : List Char) : acronym cs = (run Char.isUpper cs).filter startsCapitalized := by
  rw [acronym, andThen]
  induction run Char.isUpper cs with
  | nil => rfl
  | cons after others ih =>
    rw [List.flatMap_cons, ih, ahead_capitalized, List.filter_cons]
    split <;> rfl

theorem smallWord_cons (c : Char) (cs : List Char) :
    smallWord (c :: cs) =
      (if c.isUpper then run Char.isLower cs else []) ++ run Char.isLower (c :: cs) := by
  cases hc : c.isUpper <;> simp [smallWord, andThen, maybe, one, hc]

theorem wordPattern_eq (cs : List Char) :
    wordPattern cs =
      acronym cs ++ (smallWord cs ++ (run Char.isUpper cs ++ run isDecimalDigit cs)) := rfl

theorem startsCapitalized_of_not_isUpper (h : ∀ d ∈ cs.head?, d.isUpper = false) :
    startsCapitalized cs = false := by
  cases cs with
  | nil => rfl
  | cons d cs => rw [startsCapitalized, h d rfl, Bool.false_and]

theorem startsCapitalized_of_not_isLower (h : ∀ d ∈ cs.head?, d.isLower = false) (c : Char) :
    startsCapitalized (c :: cs) = false := by
  have hnone : cs.head?.any Char.isLower = false := (Option.any_eq_false _ _).2 h
  rw [startsCapitalized, hnone, Bool.and_false]

/-- Capitals in front of what does not start with a small letter do not bring one in. -/
theorem not_isLower_of_capitals (hupper : ∀ c ∈ w, c.isUpper)
    (hrest : ∀ d ∈ rest.head?, d.isLower = false) :
    ∀ d ∈ (w ++ rest).head?, d.isLower = false := by
  cases w with
  | nil => exact hrest
  | cons c w =>
    rintro _ ⟨rfl⟩
    exact isLower_eq_false_of_isUpper (hupper c List.mem_cons_self)

theorem acronym_eq_nil (h : ∀ d ∈ cs.head?, d.isUpper = false) : acronym cs = [] := by
  rw [acronym_eq, run_eq_nil h]
  rfl

theorem wordPattern_of_not_isWordChar (hc : isWordChar c = false) (cs : List Char) :
    wordPattern (c :: cs) = [] := by
  simp only [isWordChar, Bool.or_eq_false_iff] at hc
  obtain ⟨⟨hupper, hlower⟩, hdigit⟩ := hc
  simp [wordPattern_eq, acronym_eq, smallWord_cons, run, hupper, hlower, hdigit]

/-- Capitals are left for what follows only if they are those of a capitalised word. -/
theorem head?_wordPattern_of_capitals (hw : w ≠ []) (hupper : ∀ c ∈ w, c.isUpper)
    (hrest : ∀ d ∈ rest.head?, d.isLower = false)
    (hnext : (∀ d ∈ rest.head?, d.isUpper = false) ∨ startsCapitalized rest) :
    (wordPattern (w ++ rest)).head? = some rest := by
  obtain ⟨shorter, hrun, hshorter⟩ := run_append hw hupper rest
  rcases hnext with hnone | hstarts
  · -- no capitalised word follows, so the acronym fails, and then the small letters do
    have hacronym : acronym (w ++ rest) = [] := by
      rw [acronym_eq, hrun, run_eq_nil hnone, List.nil_append, List.filter_eq_nil_iff]
      rintro cs hcs
      rcases List.mem_cons.1 hcs with rfl | hcs
      · rw [startsCapitalized_of_not_isUpper hnone]
        exact Bool.false_ne_true
      · obtain ⟨c, v, rfl, hv⟩ := hshorter cs hcs
        rw [startsCapitalized_of_not_isLower (not_isLower_of_capitals hv hrest)]
        exact Bool.false_ne_true
    have hsmall : smallWord (w ++ rest) = [] := by
      have hall := not_isLower_of_capitals hupper hrest
      obtain ⟨c, w, rfl⟩ := List.exists_cons_of_ne_nil hw
      obtain ⟨hc, hcapitals⟩ := List.forall_mem_cons.1 hupper
      rw [List.cons_append, smallWord_cons, if_pos hc,
        run_eq_nil (not_isLower_of_capitals hcapitals hrest)]
      exact run_eq_nil hall
    rw [wordPattern_eq, hacronym, hsmall, hrun, run_eq_nil hnone]
    rfl
  · -- the longest run takes the capital of the next word too, which then does not follow
    cases rest with
    | nil => cases hstarts
    | cons d after =>
      obtain ⟨hd, hafter⟩ := Bool.and_eq_true_iff.1 hstarts
      have hnone : ∀ e ∈ after.head?, e.isUpper = false := by
        intro e he
        rw [Option.mem_def.1 he] at hafter
        exact isUpper_eq_false_of_isLower hafter
      have hlonger : run Char.isUpper (d :: after) = [after] := by
        rw [run, if_pos hd, run_eq_nil hnone]
        rfl
      rw [wordPattern_eq, acronym_eq, hrun, hlonger, List.singleton_append, List.filter_cons_of_neg,
        List.filter_cons_of_pos hstarts]
      · rfl
      · rw [startsCapitalized_of_not_isUpper hnone]
        exact Bool.false_ne_true

/-- The pattern ends first where a word does. -/
theorem Fits.head?_wordPattern (h : Fits w rest) :
    (wordPattern (w ++ rest)).head? = some rest := by
  cases h with
  | number hw hdigits hrest =>
    have hfirst := head?_run_append hw hdigits hrest
    obtain ⟨d, w, rfl⟩ := List.exists_cons_of_ne_nil hw
    have hletter := not_isAlpha_of_isDecimalDigit (hdigits d List.mem_cons_self)
    obtain ⟨hupper, hlower⟩ := Bool.or_eq_false_iff.1 hletter
    have hnoupper : ∀ e ∈ (d :: w ++ rest).head?, e.isUpper = false := by
      rintro _ ⟨rfl⟩
      exact hupper
    have hnolower : ∀ e ∈ (d :: w ++ rest).head?, e.isLower = false := by
      rintro _ ⟨rfl⟩
      exact hlower
    have hsmall : smallWord (d :: w ++ rest) = [] := by
      rw [List.cons_append, smallWord_cons, hupper]
      exact run_eq_nil hnolower
    rw [wordPattern_eq, acronym_eq_nil hnoupper, hsmall, run_eq_nil hnoupper]
    exact hfirst
  | capitals hw hupper hrest hnext => exact head?_wordPattern_of_capitals hw hupper hrest hnext
  | small hw hlower hrest =>
    have hfirst := head?_run_append hw hlower hrest
    obtain ⟨d, w, rfl⟩ := List.exists_cons_of_ne_nil hw
    have hupper : d.isUpper = false :=
      isUpper_eq_false_of_isLower (hlower d List.mem_cons_self)
    have hnoupper : ∀ e ∈ (d :: w ++ rest).head?, e.isUpper = false := by
      rintro _ ⟨rfl⟩
      exact hupper
    have hsmall : smallWord (d :: w ++ rest) = run Char.isLower (d :: w ++ rest) := by
      rw [List.cons_append, smallWord_cons, hupper]
      rfl
    rw [wordPattern_eq, acronym_eq_nil hnoupper, hsmall, List.nil_append, List.head?_append, hfirst]
    rfl
  | @capitalized c w _ hc hw hlower hrest =>
    have hfirst := head?_run_append hw hlower hrest
    have hnoupper : ∀ e ∈ (w ++ rest).head?, e.isUpper = false := by
      obtain ⟨d, w, rfl⟩ := List.exists_cons_of_ne_nil hw
      rintro _ ⟨rfl⟩
      exact isUpper_eq_false_of_isLower (hlower _ List.mem_cons_self)
    have hacronym : acronym (c :: (w ++ rest)) = [] := by
      rw [acronym_eq, run, if_pos hc, run_eq_nil hnoupper, List.nil_append,
        List.filter_cons_of_neg (by rw [startsCapitalized_of_not_isUpper hnoupper]; exact nofun)]
      rfl
    rw [List.cons_append, wordPattern_eq, hacronym, smallWord_cons, if_pos hc, List.nil_append,
      List.append_assoc, List.head?_append, hfirst]
    rfl

/-- The words of a text are those that the pattern finds, and no others. -/
theorem finds_words_iff : Finds wordPattern cs ws ↔ ws = words cs := by
  have hfinds : Finds wordPattern cs (words cs) :=
    words_induction .done
      (fun c cs hc hrest => .skip (wordPattern_of_not_isWordChar hc cs) hrest)
      (fun w rest hfits hrest => .take hfits.head?_wordPattern hfits.ne_nil hrest) cs
  constructor
  · intro h
    exact h.unique hfinds
  · rintro rfl
    exact hfinds

end Find

/-! ## Where words end -/

/-- How words are written: in digits, in capitals, or in small letters after a capital or none. -/
def OneKind (w : List Char) : Prop :=
  (∀ c ∈ w, isDecimalDigit c) ∨ (∀ c ∈ w, c.isUpper) ∨
    ∃ (capital : Option Char) (small : List Char), w = capital.toList ++ small ∧
      (∀ c ∈ capital, c.isUpper) ∧ small ≠ [] ∧ ∀ c ∈ small, c.isLower

/-- A small letter before a capital, or a letter and a digit next to each other. -/
def IsBoundary (c d : Char) : Prop :=
  (c.isLower ∧ d.isUpper) ∨ (c.isAlpha ∧ isDecimalDigit d) ∨ (isDecimalDigit c ∧ d.isAlpha)

section Boundaries

variable {c d : Char} {w rest cs after : List Char} {s : String}

theorem Fits.oneKind (h : Fits w rest) : OneKind w := by
  cases h with
  | number _ hdigits => exact .inl hdigits
  | capitals _ hupper => exact .inr (.inl hupper)
  | small hw hlower => exact .inr (.inr ⟨none, w, rfl, nofun, hw, hlower⟩)
  | @capitalized c w _ hc hw hlower =>
    exact .inr (.inr ⟨some c, w, rfl, by rintro _ ⟨rfl⟩; exact hc, hw, hlower⟩)

theorem oneKind_of_mem_words : ∀ w ∈ words cs, w ≠ [] ∧ OneKind w :=
  words_induction (P := fun _ ws => ∀ w ∈ ws, w ≠ [] ∧ OneKind w) nofun
    (fun _ _ _ hrest => hrest)
    (fun _ _ hfits hrest => List.forall_mem_cons.2 ⟨⟨hfits.ne_nil, hfits.oneKind⟩, hrest⟩) cs

theorem IsBoundary.not_joins (h : IsBoundary c d) (after : List Char) :
    joins c (d :: after) = false := by
  rw [← Bool.not_eq_true]
  intro hj
  rcases h with ⟨hc, hd⟩ | ⟨hc, hd⟩ | ⟨hc, hd⟩
  · rw [joins, if_neg (Char.not_isLower_of_isUpper hd), if_pos hd] at hj
    exact Char.not_isUpper_of_isLower hc (Bool.and_eq_true_iff.1 hj).1
  · rcases joins_cons hj with ⟨-, hd'⟩ | ⟨hc', -⟩
    · exact false_of_isAlpha_of_isDecimalDigit hd' hd
    · exact false_of_isAlpha_of_isDecimalDigit hc hc'
  · rcases joins_cons hj with ⟨hc', -⟩ | ⟨-, hd'⟩
    · exact false_of_isAlpha_of_isDecimalDigit hc' hc
    · exact false_of_isAlpha_of_isDecimalDigit hd hd'

/-- What a character joins is told from the text up to the next place where nothing is joined. -/
theorem joins_append_of_not_joins (h : joins c (d :: after) = false) (b : Char) (before : List Char) :
    joins b (before ++ c :: d :: after) = joins b (before ++ [c]) := by
  cases before with
  | nil =>
    rw [List.nil_append, List.nil_append, joins, joins]
    split
    · rfl
    split
    · rename_i hupper
      have hd : d.isLower = false := by
        by_contra hd
        rw [Bool.not_eq_false] at hd
        rw [joins, if_pos hd, hupper] at h
        cases h
      simp [hd]
    · rfl
  | cons e before => cases before <;> rfl

/-- Where nothing is joined, the words of both sides are those of the whole text. -/
theorem words_append_of_not_joins (h : joins c (d :: after) = false) (before : List Char) :
    words (before ++ c :: d :: after) = words (before ++ [c]) ++ words (d :: after) := by
  induction before with
  | nil =>
    have hleft : words [c] = if isWordChar c then [[c]] else [] := words_cons
    rw [List.nil_append, List.nil_append, words_cons, hleft, h]
    split <;> rfl
  | cons b before ih =>
    rw [List.cons_append, List.cons_append, words_cons, words_cons, joins_append_of_not_joins h, ih]
    split
    · split
      · rename_i hj
        -- what is joined is in the first word of the left side
        obtain ⟨e, left, hleft⟩ : ∃ e left, before ++ [c] = e :: left :=
          List.exists_cons_of_ne_nil (by simp)
        rw [hleft] at hj ⊢
        obtain ⟨w, ws, hw⟩ := words_cons_of_isWordChar (isWordChar_of_joins hj) left
        rw [hw]
        rfl
      · rfl
    · rfl

theorem map_toLower_flatMap_capitalize (ws : List (List Char)) :
    (ws.flatMap capitalize).map Char.toLower = ws.flatten.map Char.toLower := by
  rw [List.map_flatMap, List.map_flatten, List.flatMap_def]
  exact congrArg List.flatten (List.map_congr_left fun w _ => map_toLower_capitalize)

theorem map_toLower_camelCase (s : String) :
    (camelCase s).toList.map Char.toLower = (words s.toList).flatten.map Char.toLower := by
  unfold camelCase
  split
  · rename_i hnone
    rw [hnone]
    rfl
  · rename_i w ws hwords
    rw [hwords, String.toList_ofList, List.map_append, map_toLower_flatMap_capitalize,
      List.flatten_cons, List.map_append]
    simp

/-- **Splitting a text loses no letter and no digit.** The words of a text are what a search for the
pattern of a word finds. Put together they are the ASCII letters and the decimal digits of the text.
Each is in digits, in capitals, or in small letters after a capital or none. Words end between a
small letter and a capital and between a letter and a digit, so that the words there are those of
both sides. The identifiers of the text are its letters and digits up to letter case. -/
theorem splitting_loses_nothing (s : String) :
    (∀ ws, Finds wordPattern s.toList ws ↔ ws = words s.toList) ∧
    (words s.toList).flatten = s.toList.filter (fun c => c.isAlpha || isDecimalDigit c) ∧
    (∀ w ∈ words s.toList, w ≠ [] ∧ OneKind w) ∧
    (∀ before c d after, s.toList = before ++ c :: d :: after → IsBoundary c d →
      words s.toList = words (before ++ [c]) ++ words (d :: after)) ∧
    (pascalCase s).toList.map Char.toLower =
      (s.toList.filter fun c => c.isAlpha || isDecimalDigit c).map Char.toLower ∧
    (camelCase s).toList.map Char.toLower =
      (s.toList.filter fun c => c.isAlpha || isDecimalDigit c).map Char.toLower := by
  have hkept : (words s.toList).flatten =
      s.toList.filter fun c => c.isAlpha || isDecimalDigit c := by
    rw [flatten_words]
    refine List.filter_congr fun c _ => ?_
    rw [Bool.eq_iff_iff, isWordChar_iff, Bool.or_eq_true]
  refine ⟨fun ws => finds_words_iff, hkept, oneKind_of_mem_words, ?_, ?_, ?_⟩
  · intro before c d after hs hboundary
    rw [hs]
    exact words_append_of_not_joins (hboundary.not_joins after) before
  · rw [pascalCase, String.toList_ofList, map_toLower_flatMap_capitalize, hkept]
  · rw [map_toLower_camelCase, hkept]

example : words "getHTTPServer2x".toList =
    ["get".toList, "HTTP".toList, "Server".toList, "2".toList, "x".toList] := by decide

end Boundaries

end ApiBindings.Text
