import ApiBindings.Proofs.Source.Literals
import ApiBindings.Text.PropertyKey

/-!
# Property keys

A property key of TypeScript is an identifier, which stands for itself, or a string literal, which
stands for its text. The key that is written for the name of a member stands for exactly this name
(`keyName?_propertyKey`), whatever characters the name has, and a literal is a JSON text of the name
as well (`read?_stringLiteral`).

A literal is written character by character. A character stands for itself, is named by a letter
after a backslash, or is written by its 16-bit units (`writtenAs_escapeChar`). Either reader takes
the escapes of one character off the front of what is written and goes on behind them
(`stringBody?_escapeChar`, `body?_escapeChar`).
-/

namespace ApiBindings.Source

open Text

/-! ## Characters of a literal -/

/-- The letters that name a character after a backslash, with the characters. -/
def letterEscapes : List (Char × Char) :=
  [('"', '"'), ('\\', '\\'), ('n', '\n'), ('r', '\r'), ('t', '\t'), ('b', '\x08'), ('f', '\x0c')]

/-- The ways to write a character in a literal. -/
inductive WrittenAs (c : Char) : List Char → Prop
  | plain (hquote : c ≠ '"') (hescape : c ≠ '\\') (hlow : ' ' ≤ c) (hhigh : c ≤ '~') :
    WrittenAs c [c]
  | letter {l : Char} (h : (l, c) ∈ letterEscapes) : WrittenAs c ['\\', l]
  | unit (h : c.toNat < 0x10000) : WrittenAs c (unitEscape c.toNat)
  | pair (h : 0x10000 ≤ c.toNat) :
    WrittenAs c (unitEscape (0xD800 + (c.toNat - 0x10000) / 0x400) ++
      unitEscape (0xDC00 + (c.toNat - 0x10000) % 0x400))

theorem writtenAs_escapeChar (c : Char) : WrittenAs c (escapeChar c) := by
  unfold escapeChar
  simp only [beq_iff_eq, Bool.and_eq_true, decide_eq_true_eq]
  split_ifs with hquote hescape hn hr ht hb hf hplain hunit
  · subst hquote
    exact .letter (by decide)
  · subst hescape
    exact .letter (by decide)
  · subst hn
    exact .letter (by decide)
  · subst hr
    exact .letter (by decide)
  · subst ht
    exact .letter (by decide)
  · subst hb
    exact .letter (by decide)
  · subst hf
    exact .letter (by decide)
  · exact .plain hquote hescape hplain.1 hplain.2
  · exact .unit hunit
  · exact .pair (Nat.not_lt.1 hunit)

section Printable

variable {n : Nat} {c d : Char}

theorem isPrintable_of_mem_unitEscape (h : c ∈ unitEscape n) : ' ' ≤ c ∧ c ≤ '~' := by
  have hdigit : ∀ d < 16, ' ' ≤ hexDigit d ∧ hexDigit d ≤ '~' := by decide
  have hdigits : ∀ {width n}, c ∈ hexDigits width n → ' ' ≤ c ∧ c ≤ '~' := by
    intro width n h
    induction width generalizing n with
    | zero => cases h
    | succ width ih =>
      rcases List.mem_append.1 h with h | h
      · exact ih h
      · obtain rfl := List.mem_singleton.1 h
        exact hdigit _ (Nat.mod_lt _ (by decide))
  rcases List.mem_cons.1 h with rfl | h
  · decide
  rcases List.mem_cons.1 h with rfl | h
  · decide
  · exact hdigits h

theorem isPrintable_of_mem_escapeChar (h : d ∈ escapeChar c) : ' ' ≤ d ∧ d ≤ '~' := by
  generalize htext : escapeChar c = text at h
  have hwritten := writtenAs_escapeChar c
  rw [htext] at hwritten
  cases hwritten with
  | plain hquote hescape hlow hhigh =>
    obtain rfl := List.mem_singleton.1 h
    exact ⟨hlow, hhigh⟩
  | letter hl =>
    have hletters : ∀ p ∈ letterEscapes, ' ' ≤ p.1 ∧ p.1 ≤ '~' := by decide
    rcases List.mem_pair.1 h with rfl | rfl
    · decide
    · exact hletters _ hl
  | unit => exact isPrintable_of_mem_unitEscape h
  | pair =>
    rcases List.mem_append.1 h with h | h
    · exact isPrintable_of_mem_unitEscape h
    · exact isPrintable_of_mem_unitEscape h

end Printable

/-! ## Read as JSON -/

section Json

variable {skip n u v : Nat} {c : Char} {cs text rest : List Char}

theorem hexValue?_hexDigit : ∀ d < 16, hexValue? (hexDigit d) = some d := by decide

/-- A number is read back from its digits as far as they reach. -/
theorem hexNumber?_hexDigits (width n : Nat) :
    hexNumber? (hexDigits width n) = some (n % 16 ^ width) := by
  induction width generalizing n with
  | zero => simp [hexDigits, hexNumber?, Nat.mod_one]
  | succ width ih =>
    have hdigit := hexValue?_hexDigit (n % 16) (Nat.mod_lt n (by decide))
    unfold hexNumber? at ih
    rw [hexDigits, hexNumber?, List.foldlM_append, ih]
    simp only [Option.bind_eq_bind, Option.bind_some, List.foldlM_cons, List.foldlM_nil, hdigit,
      Option.map_some, Option.pure_def, Option.some.injEq]
    rw [Nat.pow_succ', Nat.mod_mul]
    omega

theorem hexNumber?_unit (hn : n < 0x10000) : hexNumber? (hexDigits 4 n) = some n := by
  have hmod : n % 16 ^ 4 = n := Nat.mod_eq_of_lt hn
  rw [hexNumber?_hexDigits, hmod]

theorem unit?_hexDigits (hn : n < 0x10000) :
    ∃ a b c d, hexDigits 4 n = [a, b, c, d] ∧ Json.unit? a b c d = some n :=
  ⟨_, _, _, _, rfl, hexNumber?_unit hn⟩

/-- What belongs to an escape is passed over. -/
theorem stringBody?_append (h : text.length = skip) (rest : List Char) :
    Json.stringBody? skip (text ++ rest) =
      (Json.stringBody? 0 rest).map (Prod.map id (· + skip)) := by
  induction text generalizing skip with
  | nil =>
    subst h
    cases hrest : Json.stringBody? 0 rest <;> exact hrest
  | cons c text ih =>
    subst h
    rw [List.cons_append, List.length_cons, Json.stringBody?, ih rfl, Option.map_map]
    rfl

theorem stringBody?_escape (h : Json.escape? (text ++ rest) = some (c, text.length)) :
    Json.stringBody? 0 ('\\' :: text ++ rest) =
      (Json.stringBody? 0 rest).map (Prod.map (c :: ·) (· + (text.length + 1))) := by
  have hquote : ('\\' == '"') = false := rfl
  rw [List.cons_append, Json.stringBody?]
  simp only [hquote, h, beq_self_eq_true, Option.bind_eq_bind, Option.bind_some,
    stringBody?_append rfl, Bool.false_eq_true, ↓reduceIte]
  cases Json.stringBody? 0 rest <;> rfl

theorem escape?_unit (hn : n < 0x10000) (hs : n < 0xD800 ∨ 0xDFFF < n) (rest : List Char) :
    Json.escape? ('u' :: hexDigits 4 n ++ rest) = some (Char.ofNat n, 5) := by
  obtain ⟨a, b, c, d, hdigits, hunit⟩ := unit?_hexDigits hn
  rw [hdigits]
  simp only [List.cons_append, List.nil_append, Json.escape?, hunit, Option.bind_eq_bind,
    Option.bind_some]
  rw [if_neg (by simp; omega), if_neg (by simp; omega)]

theorem escape?_pair (hu : 0xD800 ≤ u ∧ u < 0xDC00) (hv : 0xDC00 ≤ v ∧ v < 0xE000)
    (rest : List Char) :
    Json.escape? ('u' :: hexDigits 4 u ++ unitEscape v ++ rest) =
      some (Json.ofSurrogates u v, 11) := by
  have hu' : u < 0x10000 := by omega
  have hv' : v < 0x10000 := by omega
  obtain ⟨a, b, c, d, hdigits, hunit⟩ := unit?_hexDigits hu'
  obtain ⟨a', b', c', d', hdigits', hunit'⟩ := unit?_hexDigits hv'
  rw [unitEscape, hdigits, hdigits']
  simp [Json.escape?, hunit, hunit', hu, hv]

theorem stringBody?_escapeChar (c : Char) (rest : List Char) :
    Json.stringBody? 0 (escapeChar c ++ rest) =
      (Json.stringBody? 0 rest).map (Prod.map (c :: ·) (· + (escapeChar c).length)) := by
  generalize htext : escapeChar c = text
  have hwritten := writtenAs_escapeChar c
  have hbounds := toNat_bounds c
  rw [htext] at hwritten
  cases hwritten with
  | plain hquote hescape hlow hhigh =>
    have hcontrol : ¬ c < ' ' := Char.not_lt.2 hlow
    rw [List.singleton_append, Json.stringBody?, if_neg (by simpa using hquote),
      if_neg (by simpa using hescape), if_neg hcontrol]
    rfl
  | @letter l hl =>
    have hletters : ∀ p ∈ letterEscapes, ∀ rest, Json.escape? (p.1 :: rest) = some (p.2, 1) := by
      simp [letterEscapes, Json.escape?, Json.namedEscape?]
    have hread : Json.escape? ([l] ++ rest) = some (c, [l].length) := hletters _ hl rest
    exact stringBody?_escape hread
  | unit h =>
    have hread := escape?_unit h (by omega) rest
    rw [Char.ofNat_toNat] at hread
    exact stringBody?_escape hread
  | pair h =>
    have hhigh : 0xD800 ≤ 0xD800 + (c.toNat - 0x10000) / 0x400 ∧
        0xD800 + (c.toNat - 0x10000) / 0x400 < 0xDC00 := by omega
    have hlow : 0xDC00 ≤ 0xDC00 + (c.toNat - 0x10000) % 0x400 ∧
        0xDC00 + (c.toNat - 0x10000) % 0x400 < 0xE000 := by omega
    have hread := escape?_pair hhigh hlow rest
    rw [ofSurrogates_codeUnits h] at hread
    exact stringBody?_escape hread

theorem stringBody?_flatMap (cs rest : List Char) :
    Json.stringBody? 0 (cs.flatMap escapeChar ++ '"' :: rest) =
      some (cs, (cs.flatMap escapeChar).length + 1) := by
  induction cs with
  | nil => rfl
  | cons c cs ih =>
    rw [List.flatMap_cons, List.append_assoc, stringBody?_escapeChar, ih, List.length_append]
    simp only [Option.map_some, Prod.map_apply, Option.some.injEq, Prod.mk.injEq, true_and]
    omega

theorem tokensFrom_of_length_le (h : cs.length ≤ skip) : Json.tokensFrom skip cs = some [] := by
  induction cs generalizing skip with
  | nil => rfl
  | cons c cs ih =>
    cases skip with
    | zero => cases h
    | succ skip => exact ih (Nat.le_of_succ_le_succ h)

theorem read?_stringLiteral (cs : List Char) :
    Json.read? (String.ofList (stringLiteral cs)) =
      some (.scalar (.text (String.ofList cs))) := by
  have htoken : Json.token? ('"' :: (cs.flatMap escapeChar ++ ['"'])) =
      some (.scalar (.text (String.ofList cs)), (cs.flatMap escapeChar).length + 2) := by
    rw [Json.token?, stringBody?_flatMap]
    rfl
  have hrest : (cs.flatMap escapeChar ++ ['"']).length ≤
      (cs.flatMap escapeChar).length + 2 - 1 := by simp
  have htokens : Json.tokens (stringLiteral cs) = some [.scalar (.text (String.ofList cs))] := by
    rw [Json.tokens, stringLiteral, List.cons_append, Json.tokensFrom]
    simp only [htoken, tokensFrom_of_length_le hrest]
    rfl
  rw [Json.read?, String.toList_ofList, htokens]
  rfl

end Json

/-! ## Read as TypeScript -/

namespace TypeScript

variable {q : Quotation} {skip n : Nat} {us : List Nat} {text rest : List Char}

theorem body?_append (h : text.length = skip) (rest : List Char) :
    q.body? skip (text ++ rest) = q.body? 0 rest := by
  induction text generalizing skip with
  | nil =>
    subst h
    rfl
  | cons c text ih =>
    subst h
    rw [List.cons_append, List.length_cons, Quotation.body?, ih rfl]

theorem body?_escape (hq : q.quote ≠ '\\') (h : q.escape? (text ++ rest) = some (us, text.length)) :
    q.body? 0 ('\\' :: text ++ rest) =
      (q.body? 0 rest).map (Prod.map (us ++ ·) id) := by
  rw [List.cons_append, Quotation.body?]
  simp only [if_neg hq.symm, h, Option.bind_eq_bind, Option.bind_some, body?_append rfl, ↓reduceIte]
  cases q.body? 0 rest <;> rfl

theorem escape?_digits (hn : n < 0x10000) (rest : List Char) :
    escape? ('u' :: hexDigits 4 n ++ rest) = some ([n], 5) := by
  have hbrace : ∀ d < 16, hexDigit d ≠ '\x7b' := by decide
  have hhead : (hexDigits 4 n ++ rest).head? ≠ some '\x7b' := by
    intro h
    exact hbrace _ (Nat.mod_lt (n / 16 / 16 / 16) (by decide)) (Option.some.inj h)
  have hlength : 4 ≤ (hexDigits 4 n ++ rest).length := by simp
  have htake : (hexDigits 4 n ++ rest).take 4 = hexDigits 4 n := by simp
  have hbound : n < 0x110000 := by omega
  rw [List.cons_append, escape?, if_neg (by decide), if_pos rfl, if_neg hhead, fixed?,
    if_pos hlength, htake, numbered?, hexNumber?_unit hn]
  simp [codeUnits, hn, hbound]

theorem body?_unitEscape (hn : n < 0x10000) (rest : List Char) :
    (quotation '"').body? 0 (unitEscape n ++ rest) =
      ((quotation '"').body? 0 rest).map (Prod.map (n :: ·) id) := by
  have hquote : (quotation '"').quote ≠ '\\' := by decide
  have hread : (quotation '"').escape? ('u' :: hexDigits 4 n ++ rest) =
      some ([n], ('u' :: hexDigits 4 n).length) := escape?_digits hn rest
  exact body?_escape hquote hread

theorem body?_escapeChar (c : Char) (rest : List Char) :
    (quotation '"').body? 0 (escapeChar c ++ rest) =
      ((quotation '"').body? 0 rest).map (Prod.map (codeUnits c.toNat ++ ·) id) := by
  generalize htext : escapeChar c = text
  have hwritten := writtenAs_escapeChar c
  have hbounds := toNat_bounds c
  rw [htext] at hwritten
  cases hwritten with
  | plain hquote hescape hlow hhigh =>
    have hquoted : c ≠ (quotation '"').quote := hquote
    have hbreaks : c ∉ (quotation '"').breaks := by
      intro hc
      rcases List.mem_pair.1 hc with rfl | rfl
      · exact absurd hlow (by decide)
      · exact absurd hlow (by decide)
    rw [List.singleton_append, Quotation.body?, if_neg hquoted, if_neg hescape, if_neg hbreaks]
    cases (quotation '"').body? 0 rest <;> rfl
  | @letter l hl =>
    have hletters : ∀ p ∈ letterEscapes, ∀ rest,
        escape? (p.1 :: rest) = some (codeUnits p.2.toNat, 1) := by
      simp only [letterEscapes, List.forall_mem_cons]
      refine ⟨?_, ?_, ?_, ?_, ?_, ?_, ?_, List.forall_mem_nil _⟩ <;> intro rest <;> rfl
    have hquote : (quotation '"').quote ≠ '\\' := by decide
    have hread : escape? ([l] ++ rest) = some (codeUnits c.toNat, [l].length) :=
      hletters _ hl rest
    exact body?_escape hquote hread
  | unit h =>
    rw [codeUnits, if_pos h, body?_unitEscape h]
    rfl
  | pair h =>
    rw [List.append_assoc, body?_unitEscape (by omega), body?_unitEscape (by omega), codeUnits,
      if_neg (Nat.not_lt.2 h), Option.map_map]
    rfl

theorem literal?_stringLiteral (cs : List Char) :
    (quotation '"').literal? (stringLiteral cs) = some (cs, []) := by
  have hbody : (quotation '"').body? 0 (cs.flatMap escapeChar ++ ['"']) = some (units cs, []) := by
    induction cs with
    | nil => rfl
    | cons c cs ih =>
      rw [List.flatMap_cons, List.append_assoc, body?_escapeChar, ih]
      rfl
  have hquote : (quotation '"').quote = '"' := rfl
  rw [stringLiteral, List.cons_append, Quotation.literal?, if_pos hquote.symm, hbody]
  simp [ofUnits?_units]

/-- The name that a property key stands for: an identifier stands for itself, and a literal for its
text. -/
def keyName? (key : String) : Option String :=
  if isIdentifier key.toList then some key
  else
    match (quotation '"').literal? key.toList with
    | some (name, []) => some (String.ofList name)
    | _ => none

theorem not_isIdentifier_stringLiteral (cs : List Char) :
    isIdentifier (stringLiteral cs) = false := rfl

theorem keyName?_propertyKey (name : String) : keyName? (propertyKey name) = some name := by
  unfold propertyKey
  split
  · rename_i h
    rw [keyName?, if_pos h]
  · rw [keyName?, String.toList_ofList, not_isIdentifier_stringLiteral, if_neg Bool.false_ne_true,
      literal?_stringLiteral]
    exact congrArg some String.ofList_toList

end TypeScript

/-- **Property keys lose nothing.** The key of a name is the name itself if it is an identifier, and
else a literal of printable ASCII characters in double quotes, which is a JSON text of the name.
Either stands for exactly this name, so that different names have different keys and an identifier
never stands for the same name as a literal. -/
theorem propertyKey_lossless (name : String) :
    (isIdentifier name.toList ∧ propertyKey name = name ∨
      ¬ isIdentifier name.toList ∧
        (∃ body, (propertyKey name).toList = '"' :: body ++ ['"'] ∧
          ∀ c ∈ body, ' ' ≤ c ∧ c ≤ '~') ∧
        Json.read? (propertyKey name) = some (.scalar (.text name))) ∧
    TypeScript.keyName? (propertyKey name) = some name ∧
    ∀ other, (propertyKey other = propertyKey name → other = name) ∧
      (isIdentifier name.toList → ¬ isIdentifier other.toList →
        TypeScript.keyName? (propertyKey other) ≠ TypeScript.keyName? (propertyKey name)) := by
  have hread : ∀ {other}, TypeScript.keyName? (propertyKey other) =
      TypeScript.keyName? (propertyKey name) → other = name := by
    intro other h
    rw [TypeScript.keyName?_propertyKey, TypeScript.keyName?_propertyKey] at h
    exact Option.some.inj h
  refine ⟨?_, TypeScript.keyName?_propertyKey name, fun other => ⟨fun h => ?_, ?_⟩⟩
  · by_cases h : isIdentifier name.toList
    · exact .inl ⟨h, if_pos h⟩
    · have hkey : propertyKey name = String.ofList (stringLiteral name.toList) := if_neg h
      refine .inr ⟨h, ⟨name.toList.flatMap escapeChar, ?_, fun c hc => ?_⟩, ?_⟩
      · rw [hkey, String.toList_ofList, stringLiteral]
      · obtain ⟨d, -, hc⟩ := List.mem_flatMap.1 hc
        exact isPrintable_of_mem_escapeChar hc
      · rw [hkey, read?_stringLiteral, String.ofList_toList]
  · exact hread (congrArg TypeScript.keyName? h)
  · intro hname hother h
    exact hother (hread h ▸ hname)

end ApiBindings.Source
