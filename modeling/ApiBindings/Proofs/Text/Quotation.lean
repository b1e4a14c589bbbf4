import ApiBindings.Proofs.Text.Units
import ApiBindings.Text.Start
import Mathlib.Data.List.Basic
import Mathlib.Tactic.SplitIfs

/-!
# Texts in quotes

A literal is read from its opening quote to the next quote. A backslash starts an escape, which
stands for some 16-bit units, and no line break may come in between. Languages differ in the quote,
in the line breaks and in the escapes.

A text that is put in quotes as it is is not always read back: the quote, the backslash and the line
breaks do not stand for themselves. An escape never stands for more units than it takes, and so what
is read is never longer than what is written (`literal?_bound`, `row?_bound`). It is as long only if
no character is reserved. Hence exactly the texts without reserved characters are read back, also
from a row of literals, in which a text may reach beyond the quotes around it (`list?_write_iff`).
-/

namespace ApiBindings.Text

/-- How a language writes texts in quotes: the quote, the line breaks that cannot stand between
quotes, and the units that an escape after a backslash stands for, with the number of its
characters. -/
structure Quotation where
  quote : Char
  breaks : List Char
  escape? : List Char → Option (List Nat × Nat)
  shortens : ∀ {cs us n}, escape? cs = some (us, n) → us.length ≤ size (cs.take n)

namespace Quotation

variable (q : Quotation)

/-- The characters that do not stand for themselves between quotes. -/
def reserved : List Char := q.quote :: '\\' :: q.breaks

/-- The units up to the closing quote, and the text after it. The first `skip` characters belong to
an escape and are passed over. -/
def body? (skip : Nat) : List Char → Option (List Nat × List Char)
  | [] => none
  | c :: cs =>
    match skip with
    | skip + 1 => body? skip cs
    | 0 =>
      if c = q.quote then some ([], cs)
      else if c = '\\' then do
        let (escaped, length) ← q.escape? cs
        let (us, rest) ← body? length cs
        some (escaped ++ us, rest)
      else if c ∈ q.breaks then none
      else do
        let (us, rest) ← body? 0 cs
        some (codeUnits c.toNat ++ us, rest)

/-- The text of the literal that a text starts with, and what comes after it. -/
def literal? : List Char → Option (List Char × List Char)
  | [] => none
  | c :: cs =>
    if c = q.quote then do
      let (us, rest) ← q.body? 0 cs
      let s ← ofUnits? us
      some (s, rest)
    else none

/-- A text in quotes, as it is. -/
def enclose (s : List Char) : List Char := q.quote :: s ++ [q.quote]

/-- Texts in quotes, as they are, with a separator between them. -/
def write (separator : List Char) (texts : List (List Char)) : List Char :=
  separator.intercalate (texts.map q.enclose)

section Body

variable {q} {skip : Nat} {cs s rest : List Char} {us : List Nat}

/-- What is read between quotes is no longer than what is written there, and as long only if every
character stands for itself. -/
theorem body?_bound (h : q.body? skip cs = some (us, rest)) :
    us.length + size (q.quote :: rest) ≤ size (cs.drop skip) ∧
      (size (cs.drop skip) ≤ us.length + size (q.quote :: rest) →
        ∃ s, us = units s ∧ ∀ c ∈ s, c ∉ q.reserved) := by
  induction cs generalizing skip us with
  | nil => cases h
  | cons c cs ih =>
    rw [body?.eq_def] at h
    simp only at h
    split at h
    · exact ih h
    · rw [List.drop_zero]
      split_ifs at h with hquote hescape hbreak
      · cases h
        rw [hquote, List.length_nil]
        exact ⟨by omega, fun _ => ⟨[], rfl, nofun⟩⟩
      · obtain ⟨⟨escaped, length⟩, he, h⟩ := Option.bind_eq_some_iff.1 h
        obtain ⟨⟨later, after⟩, hbody, h⟩ := Option.bind_eq_some_iff.1 h
        simp only [Option.some.injEq, Prod.mk.injEq] at h
        obtain ⟨rfl, rfl⟩ := h
        have hlater := (ih hbody).1
        dsimp only at hlater
        have hshort := q.shortens he
        have hsplit : size cs = size (cs.take length) + size (cs.drop length) := by
          rw [← size_append, List.take_append_drop]
        have hc := codeUnits_length c.toNat
        rw [List.length_append, size_cons c]
        constructor
        · omega
        · -- the backslash is not made up for
          intro hlong
          omega
      · obtain ⟨⟨later, after⟩, hbody, h⟩ := Option.bind_eq_some_iff.1 h
        simp only [Option.some.injEq, Prod.mk.injEq] at h
        obtain ⟨rfl, rfl⟩ := h
        obtain ⟨hlater, hplain⟩ := ih hbody
        rw [List.drop_zero] at hlater hplain
        rw [List.length_append, size_cons c]
        refine ⟨by omega, fun hlong => ?_⟩
        obtain ⟨s, rfl, hs⟩ := hplain (by omega)
        refine ⟨c :: s, rfl, List.forall_mem_cons.2 ⟨?_, hs⟩⟩
        simp [reserved, hquote, hescape, hbreak]

theorem body?_of_plain (h : ∀ c ∈ s, c ∉ q.reserved) (rest : List Char) :
    q.body? 0 (s ++ q.quote :: rest) = some (units s, rest) := by
  induction s with
  | nil => simp [body?]
  | cons c s ih =>
    obtain ⟨hc, hs⟩ := List.forall_mem_cons.1 h
    simp only [reserved, List.mem_cons, not_or] at hc
    rw [List.cons_append, body?, if_neg hc.1, if_neg hc.2.1, if_neg hc.2.2, ih hs]
    rfl

theorem size_enclose_pos (q : Quotation) (s : List Char) : 0 < size (q.enclose s) :=
  Nat.lt_of_lt_of_le (by simp [enclose]) (length_le_size (q.enclose s))

theorem literal?_bound (h : q.literal? cs = some (s, rest)) :
    size (q.enclose s) + size rest ≤ size cs ∧
      (size cs ≤ size (q.enclose s) + size rest → ∀ c ∈ s, c ∉ q.reserved) := by
  cases cs with
  | nil => cases h
  | cons c cs =>
    rw [literal?] at h
    split_ifs at h with hquote
    obtain ⟨⟨us, _⟩, hbody, h⟩ := Option.bind_eq_some_iff.1 h
    obtain ⟨_, hs, h⟩ := Option.bind_eq_some_iff.1 h
    cases h
    obtain ⟨hbound, hplain⟩ := body?_bound hbody
    obtain rfl := ofUnits?_eq_some_iff.1 hs
    rw [List.drop_zero, ← size, size_cons] at hbound hplain
    rw [hquote]
    simp only [enclose, size_cons, size_append, size_nil]
    refine ⟨by omega, fun hlong => ?_⟩
    obtain ⟨s', hunits, hs'⟩ := hplain (by omega)
    -- the plain text has the units of the text that is read
    have hsame := ofUnits?_units s'
    rw [← hunits, hs] at hsame
    cases hsame
    exact hs'

theorem literal?_of_plain (h : ∀ c ∈ s, c ∉ q.reserved) (rest : List Char) :
    q.literal? (q.enclose s ++ rest) = some (s, rest) := by
  rw [enclose, List.cons_append, List.cons_append, List.append_assoc, List.singleton_append,
    literal?, if_pos rfl, body?_of_plain h]
  simp [ofUnits?_units]

/-- A text in quotes is read back exactly if it has no reserved character. -/
theorem literal?_enclose_iff :
    q.literal? (q.enclose s ++ rest) = some (s, rest) ↔ ∀ c ∈ s, c ∉ q.reserved := by
  constructor
  · intro h
    exact (literal?_bound h).2 (Nat.le_of_eq (size_append _ _))
  · intro h
    exact literal?_of_plain h rest

end Body

/-! ## Rows of literals -/

/-- The texts of literals with a separator between them, if they make up a whole text. -/
def row? (separator cs : List Char) : Option (List (List Char)) :=
  match _hliteral : q.literal? cs with
  | none => none
  | some (s, []) => some [s]
  | some (s, c :: cs') =>
    match _hrest : dropStart? separator (c :: cs') with
    | none => none
    | some rest => (row? separator rest).map (s :: ·)
termination_by size cs
decreasing_by
  have hbound := (literal?_bound _hliteral).1
  rw [dropStart?_eq_some_iff.1 _hrest, size_append] at hbound
  have hpos := size_enclose_pos q s
  omega

/-- The texts of a row of literals; the empty text is the row of none. -/
def list? (separator cs : List Char) : Option (List (List Char)) :=
  if cs = [] then some [] else q.row? separator cs

section Rows

variable {q} {separator cs s rest : List Char} {texts : List (List Char)}

theorem write_singleton : q.write separator [s] = q.enclose s := List.intercalate_singleton

theorem write_cons (h : texts ≠ []) :
    q.write separator (s :: texts) = q.enclose s ++ separator ++ q.write separator texts := by
  rw [write, List.map_cons, List.intercalate_cons_of_ne_nil (mt List.map_eq_nil_iff.1 h)]
  rfl

theorem write_ne_nil (h : texts ≠ []) : q.write separator texts ≠ [] := by
  cases texts with
  | nil => exact absurd rfl h
  | cons s texts =>
    by_cases hlast : texts = []
    · rw [hlast, write_singleton]
      exact List.cons_ne_nil _ _
    · rw [write_cons hlast]
      simp [enclose]

/-- What is read of a row is no longer than the row when it is written again, and as long only if no
text has a reserved character. -/
theorem row?_bound (h : q.row? separator cs = some texts) :
    texts ≠ [] ∧ size (q.write separator texts) ≤ size cs ∧
      (size cs ≤ size (q.write separator texts) → ∀ s ∈ texts, ∀ c ∈ s, c ∉ q.reserved) := by
  fun_induction row? q separator cs generalizing texts with
  | case1 => cases h
  | case2 cs s hliteral =>
    cases h
    obtain ⟨hbound, hplain⟩ := literal?_bound hliteral
    rw [write_singleton]
    refine ⟨List.cons_ne_nil _ _, by simpa using hbound, fun hlong => ?_⟩
    exact List.forall_mem_singleton.2 (hplain hlong)
  | case3 => cases h
  | case4 cs s c cs' hliteral rest hrest ih =>
    obtain ⟨later, hlater, rfl⟩ := Option.map_eq_some_iff.1 h
    obtain ⟨hne, hrow, hothers⟩ := ih hlater
    obtain ⟨hbound, hplain⟩ := literal?_bound hliteral
    rw [dropStart?_eq_some_iff.1 hrest, size_append] at hbound hplain
    rw [write_cons hne, size_append, size_append]
    refine ⟨List.cons_ne_nil _ _, by omega, fun hlong => ?_⟩
    exact List.forall_mem_cons.2 ⟨hplain (by omega), hothers (by omega)⟩

theorem row?_of_last (h : q.literal? cs = some (s, [])) : q.row? separator cs = some [s] := by
  rw [row?.eq_def]
  split
  · rename_i hnone
    cases hnone.symm.trans h
  · rename_i hlast
    cases hlast.symm.trans h
    rfl
  · rename_i hmore
    cases hmore.symm.trans h

theorem row?_of_more (h : q.literal? cs = some (s, separator ++ rest))
    (hne : separator ++ rest ≠ []) :
    q.row? separator cs = (q.row? separator rest).map (s :: ·) := by
  rw [row?.eq_def]
  split
  · rename_i hnone
    cases hnone.symm.trans h
  · rename_i hlast
    obtain ⟨-, hnil⟩ := Prod.mk.inj (Option.some.inj (hlast.symm.trans h))
    exact absurd hnil.symm hne
  · rename_i hmore
    obtain ⟨rfl, hrest⟩ := Prod.mk.inj (Option.some.inj (hmore.symm.trans h))
    have hdrop := dropStart?_eq_some_iff.2 hrest
    split
    · rename_i hnone
      cases hnone.symm.trans hdrop
    · rename_i hsome
      cases hsome.symm.trans hdrop
      rfl

theorem row?_write (hne : texts ≠ []) (h : ∀ s ∈ texts, ∀ c ∈ s, c ∉ q.reserved) :
    q.row? separator (q.write separator texts) = some texts := by
  induction texts with
  | nil => exact absurd rfl hne
  | cons s texts ih =>
    obtain ⟨hs, htexts⟩ := List.forall_mem_cons.1 h
    by_cases hlast : texts = []
    · subst hlast
      have hliteral := literal?_of_plain hs []
      rw [List.append_nil] at hliteral
      rw [write_singleton, row?_of_last hliteral]
    · have hliteral := literal?_of_plain hs (separator ++ q.write separator texts)
      have hrest : separator ++ q.write separator texts ≠ [] :=
        List.append_ne_nil_of_right_ne_nil _ (write_ne_nil hlast)
      rw [write_cons hlast, List.append_assoc, row?_of_more hliteral hrest, ih hlast htexts]
      rfl

/-- A list of texts is read back from the row of their literals exactly if no text has a reserved
character. -/
theorem list?_write_iff :
    q.list? separator (q.write separator texts) = some texts ↔
      ∀ s ∈ texts, ∀ c ∈ s, c ∉ q.reserved := by
  by_cases hne : texts = []
  · subst hne
    simp [list?, write]
  · rw [list?, if_neg (write_ne_nil hne)]
    exact ⟨fun h => (row?_bound h).2.2 (Nat.le_refl _), row?_write hne⟩

end Rows

end Quotation

end ApiBindings.Text
