import ApiBindings.Text.Start
import Mathlib.Data.List.Basic
import Mathlib.Tactic.Common

/-!
# Comments

A block comment goes up to the first `*/`. A text in it leaves it open exactly if it has no `*/`
(`afterEnd?_append_iff`). A line comment goes up to the end of its line. A text that is put into a
line adds to the line up to its first break, and every other piece of it starts a line of its own
(`forall_line_iff`).
-/

namespace ApiBindings.Text

/-! ## Block comments -/

/-- What ends a block comment. -/
def blockEnd : List Char := ['*', '/']

/-- What follows the first end of a block comment. -/
def afterEnd? : List Char → Option (List Char)
  | [] => none
  | c :: cs => (dropStart? blockEnd (c :: cs)).or (afterEnd? cs)

/-- What follows the block comment that a text starts with. -/
def afterComment? (cs : List Char) : Option (List Char) :=
  (dropStart? ['/', '*'] cs).bind afterEnd?

section Block

variable {c separator : Char} {body cs x : List Char}

theorem dropStart?_blockEnd_eq_none (h : ¬ (c = '*' ∧ body.head? = some '/')) (after : List Char) :
    dropStart? blockEnd (c :: (body ++ '*' :: '/' :: after)) = none := by
  by_cases hc : c = '*'
  · cases body with
    | nil => simp [blockEnd, dropStart?, hc]
    | cons d body =>
      have hd : '/' ≠ d := fun hd => h ⟨hc, congrArg some hd.symm⟩
      simp [blockEnd, dropStart?, hc, hd]
  · simp [blockEnd, dropStart?, Ne.symm hc]

theorem blockEnd_prefix_iff :
    blockEnd <+: c :: (body ++ ['*']) ↔ c = '*' ∧ body.head? = some '/' := by
  cases body with
  | nil => simp [blockEnd]
  | cons d body => simp [blockEnd, eq_comm]

/-- The end after a body is the first one exactly if the body does not bring one with it. -/
theorem afterEnd?_append_iff (body after : List Char) :
    afterEnd? (body ++ '*' :: '/' :: after) = some after ↔ ¬ blockEnd <:+: body ++ ['*'] := by
  induction body with
  | nil =>
    have hnone : ¬ blockEnd <:+: ['*'] := by decide
    exact iff_of_true rfl hnone
  | cons c body ih =>
    rw [List.cons_append, List.cons_append, List.infix_cons_iff, blockEnd_prefix_iff, afterEnd?]
    by_cases hstart : c = '*' ∧ body.head? = some '/'
    · obtain ⟨rfl, hhead⟩ := hstart
      obtain ⟨rest, rfl⟩ := List.head?_eq_some_iff.1 hhead
      -- an earlier end leaves more than what stands after the later one
      have hearlier : dropStart? blockEnd ('*' :: ('/' :: rest ++ '*' :: '/' :: after)) =
          some (rest ++ '*' :: '/' :: after) := rfl
      have hlonger : rest ++ '*' :: '/' :: after ≠ after := by
        intro h
        have hlength := congrArg List.length h
        simp only [List.length_append, List.length_cons] at hlength
        omega
      rw [hearlier, Option.some_or]
      simp [hlonger]
    · rw [dropStart?_blockEnd_eq_none hstart, Option.none_or, ih]
      simp [hstart]

theorem infix_append_separator_iff (h : separator ∉ x) :
    x <:+: cs ++ separator :: body ↔ x <:+: cs ∨ x <:+: body := by
  have hstart : ∀ {y : List Char}, separator ∉ y → y <+: separator :: body → y = [] := by
    rintro (_ | ⟨d, y⟩) hy hstarts
    · rfl
    · exact absurd (List.cons_prefix_cons.1 hstarts).1 (List.ne_of_not_mem_cons hy).symm
  rw [List.infix_append_iff, List.infix_cons_iff]
  constructor
  · rintro (hleft | (hstarts | hright) | ⟨y, z, rfl, hy, hz⟩)
    · exact .inl hleft
    · exact .inl (hstart h hstarts ▸ List.nil_infix)
    · exact .inr hright
    · rw [hstart (fun hmem => h (List.mem_append_right y hmem)) hz, List.append_nil]
      exact .inl hy.isInfix
  · rintro (hleft | hright)
    · exact .inl hleft
    · exact .inr (.inl (.inr hright))

end Block

/-! ## Lines -/

/-- What stands in the last line of a text. -/
def lastLine (isBreak : Char → Bool) (cs : List Char) : List Char :=
  (cs.reverse.takeWhile fun c => !isBreak c).reverse

/-- What stands in the first line of a text. -/
def firstLine (isBreak : Char → Bool) (cs : List Char) : List Char :=
  cs.takeWhile fun c => !isBreak c

section Lines

variable {isBreak : Char → Bool} {c : Char} {before text after first : List Char}
  {others : List (List Char)}

theorem lastLine_append_break (hc : isBreak c) (before : List Char) :
    lastLine isBreak (before ++ [c]) = [] := by
  simp [lastLine, hc]

theorem lastLine_append_of_not_break (hc : isBreak c = false) (before : List Char) :
    lastLine isBreak (before ++ [c]) = lastLine isBreak before ++ [c] := by
  simp [lastLine, hc]

/-- After a break only what follows it stands in the last line. -/
theorem lastLine_append_cons (hc : isBreak c) (htext : text.any isBreak = false) :
    lastLine isBreak (before ++ c :: text) = text := by
  have hreverse : (before ++ c :: text).reverse = text.reverse ++ c :: before.reverse := by simp
  have hline : ∀ d ∈ text.reverse, (!isBreak d) = true := fun d hd => by
    simpa using List.any_eq_false.1 htext d (List.mem_reverse.1 hd)
  rw [lastLine, hreverse, List.takeWhile_append_of_pos hline,
    List.takeWhile_cons_of_neg (by simp [hc]), List.append_nil, List.reverse_reverse]

theorem exists_cons_of_splitOnP (isBreak : Char → Bool) (text : List Char) :
    ∃ first others, text.splitOnP isBreak = first :: others :=
  List.exists_cons_of_ne_nil (List.splitOnP_ne_nil isBreak text)

/-- Up to its first piece a text goes on with the line before it. -/
theorem firstLine_append (hafter : firstLine isBreak after = [])
    (hsplit : text.splitOnP isBreak = first :: others) :
    firstLine isBreak (text ++ after) = first := by
  induction text generalizing first others with
  | nil =>
    obtain ⟨rfl, -⟩ := List.cons.inj hsplit
    exact hafter
  | cons c text ih =>
    rw [List.splitOnP_cons_eq_if_modifyHead] at hsplit
    rw [List.cons_append, firstLine]
    split at hsplit
    · rename_i hc
      obtain ⟨rfl, -⟩ := List.cons.inj hsplit
      exact List.takeWhile_cons_of_neg (by simp [hc])
    · rename_i hc
      obtain ⟨piece, pieces, hpieces⟩ := exists_cons_of_splitOnP isBreak text
      rw [hpieces] at hsplit
      obtain ⟨rfl, -⟩ := List.cons.inj hsplit
      rw [List.takeWhile_cons_of_pos (by simp [hc])]
      exact congrArg (c :: ·) (ih hpieces)

theorem forall_character_iff {Q : List Char → Char → List Char → Prop} :
    (∀ start d rest, c :: text = start ++ d :: rest → Q start d rest) ↔
      Q [] c text ∧ ∀ start d rest, text = start ++ d :: rest → Q (c :: start) d rest := by
  constructor
  · intro h
    exact ⟨h [] c text rfl, fun start d rest he => h (c :: start) d rest (congrArg (c :: ·) he)⟩
  · rintro ⟨hfirst, hrest⟩ start d rest he
    cases start with
    | nil =>
      obtain ⟨rfl, rfl⟩ := List.cons.inj he
      exact hfirst
    | cons e start =>
      obtain ⟨rfl, htext⟩ := List.cons.inj he
      exact hrest start d rest htext

/-- Where a text is put between others, its first piece goes on with the line before it, and every
other piece is a line of its own. So these are the lines that hold characters of it. -/
theorem forall_line_iff {P : List Char → Prop} (hafter : firstLine isBreak after = [])
    (hsplit : text.splitOnP isBreak = first :: others) (before : List Char) :
    (∀ start c rest, text = start ++ c :: rest → isBreak c = false →
      P (lastLine isBreak (before ++ start) ++ firstLine isBreak (c :: rest ++ after))) ↔
      (first ≠ [] → P (lastLine isBreak before ++ first)) ∧
        ∀ line ∈ others, line ≠ [] → P line := by
  induction text generalizing before first others with
  | nil =>
    obtain ⟨rfl, rfl⟩ := List.cons.inj hsplit
    simp
  | cons c text ih =>
    obtain ⟨piece, pieces, hpieces⟩ := exists_cons_of_splitOnP isBreak text
    have hrest := ih hpieces (before ++ [c])
    simp only [List.append_assoc, List.singleton_append] at hrest
    rw [forall_character_iff, hrest, List.append_nil]
    rw [List.splitOnP_cons_eq_if_modifyHead] at hsplit
    split at hsplit
    · rename_i hc
      obtain ⟨rfl, rfl⟩ := List.cons.inj hsplit
      simp [hc, hpieces, lastLine_append_break hc]
    · rename_i hc
      have hnobreak : isBreak c = false := by simpa using hc
      rw [hpieces] at hsplit
      obtain ⟨rfl, rfl⟩ := List.cons.inj hsplit
      have hline := firstLine_append hafter ((List.splitOnP_cons_eq_if_modifyHead c text).trans
        ((if_neg hc).trans (congrArg _ hpieces)))
      rw [lastLine_append_of_not_break hnobreak, hline]
      simp +contextual [hnobreak]

end Lines

end ApiBindings.Text
