import ApiBindings.Document.Json

/-!
# 16-bit units

Escapes name 16-bit units. A character up to U+FFFF is one unit, and any other character is a pair
of surrogates. A text is read back from its units, and units in which a surrogate stands alone are
the units of no text (`ofUnits?_eq_some_iff`).
-/

namespace ApiBindings.Text

/-- The 16-bit units of a code point. -/
def codeUnits (n : Nat) : List Nat :=
  if n < 0x10000 then [n]
  else [0xD800 + (n - 0x10000) / 0x400, 0xDC00 + (n - 0x10000) % 0x400]

/-- The 16-bit units of a text. -/
def units (cs : List Char) : List Nat := cs.flatMap fun c => codeUnits c.toNat

/-- How many 16-bit units a text has. -/
def size (cs : List Char) : Nat := (units cs).length

/-- The text of some units, unless a surrogate stands alone. -/
def ofUnits? : List Nat → Option (List Char)
  | [] => some []
  | u :: us =>
    if u < 0xD800 ∨ 0xDFFF < u ∧ u < 0x10000 then (ofUnits? us).map (Char.ofNat u :: ·)
    else
      match us with
      | v :: us =>
        if 0xD800 ≤ u ∧ u < 0xDC00 ∧ 0xDC00 ≤ v ∧ v < 0xE000 then
          (ofUnits? us).map (Json.ofSurrogates u v :: ·)
        else none
      | [] => none

section Units

variable {cs ds : List Char} {c : Char} {us : List Nat} {n u v : Nat}

@[simp] theorem units_nil : units [] = [] := rfl

@[simp] theorem units_cons (c : Char) (cs : List Char) :
    units (c :: cs) = codeUnits c.toNat ++ units cs := rfl

@[simp] theorem units_append (cs ds : List Char) : units (cs ++ ds) = units cs ++ units ds :=
  List.flatMap_append

theorem codeUnits_length (n : Nat) :
    1 ≤ (codeUnits n).length ∧ (codeUnits n).length ≤ 2 := by
  unfold codeUnits
  split <;> simp

@[simp] theorem size_nil : size [] = 0 := rfl

@[simp] theorem size_cons (c : Char) (cs : List Char) :
    size (c :: cs) = (codeUnits c.toNat).length + size cs := List.length_append

@[simp] theorem size_append (cs ds : List Char) : size (cs ++ ds) = size cs + size ds := by
  simp [size]

theorem length_le_size (cs : List Char) : cs.length ≤ size cs := by
  induction cs with
  | nil => exact Nat.le_refl 0
  | cons c cs ih =>
    have := codeUnits_length c.toNat
    rw [List.length_cons, size_cons]
    omega

theorem toNat_bounds (c : Char) : c.toNat < 0xD800 ∨ 0xDFFF < c.toNat ∧ c.toNat < 0x110000 :=
  c.valid

theorem toNat_ofNat_of_valid (h : n.isValidChar) : (Char.ofNat n).toNat = n := by
  rw [Char.ofNat, dif_pos h]
  rfl

theorem toNat_ofSurrogates (hu : 0xD800 ≤ u ∧ u < 0xDC00) (hv : 0xDC00 ≤ v ∧ v < 0xE000) :
    (Json.ofSurrogates u v).toNat = 0x10000 + (u - 0xD800) * 0x400 + (v - 0xDC00) := by
  rw [Json.ofSurrogates]
  refine toNat_ofNat_of_valid (.inr ?_)
  omega

/-- The pair of surrogates of a character is read as the character. -/
theorem ofSurrogates_codeUnits (h : 0x10000 ≤ c.toNat) :
    Json.ofSurrogates (0xD800 + (c.toNat - 0x10000) / 0x400)
      (0xDC00 + (c.toNat - 0x10000) % 0x400) = c := by
  have hcode : 0x10000 + (0xD800 + (c.toNat - 0x10000) / 0x400 - 0xD800) * 0x400 +
      (0xDC00 + (c.toNat - 0x10000) % 0x400 - 0xDC00) = c.toNat := by omega
  rw [Json.ofSurrogates, hcode, Char.ofNat_toNat]

theorem ofUnits?_cons_of_unit (h : u < 0xD800 ∨ 0xDFFF < u ∧ u < 0x10000) (us : List Nat) :
    ofUnits? (u :: us) = (ofUnits? us).map (Char.ofNat u :: ·) := by
  rw [ofUnits?.eq_def]
  exact if_pos h

theorem ofUnits?_cons_cons (hu : 0xD800 ≤ u ∧ u < 0xDC00) (hv : 0xDC00 ≤ v ∧ v < 0xE000)
    (us : List Nat) :
    ofUnits? (u :: v :: us) = (ofUnits? us).map (Json.ofSurrogates u v :: ·) := by
  rw [ofUnits?.eq_def]
  simp only
  rw [if_neg (by omega), if_pos ⟨hu.1, hu.2, hv.1, hv.2⟩]

theorem ofUnits?_units (cs : List Char) : ofUnits? (units cs) = some cs := by
  induction cs with
  | nil => rfl
  | cons c cs ih =>
    have hbounds := toNat_bounds c
    rw [units_cons, codeUnits]
    split
    · rw [List.singleton_append, ofUnits?_cons_of_unit (by omega), ih, Char.ofNat_toNat]
      rfl
    · rename_i hc
      rw [List.cons_append, List.singleton_append, ofUnits?_cons_cons (by omega) (by omega), ih,
        ofSurrogates_codeUnits (by omega)]
      rfl

/-- Units are read as a text exactly if they are its units. -/
theorem ofUnits?_eq_some_iff : ofUnits? us = some cs ↔ us = units cs := by
  constructor
  · intro h
    fun_induction ofUnits? us generalizing cs with
    | case1 =>
      cases h
      rfl
    | case2 u us hu ih =>
      obtain ⟨ds, hds, rfl⟩ := Option.map_eq_some_iff.1 h
      have hvalid : u.isValidChar := hu.imp_right fun h => ⟨h.1, by omega⟩
      rw [units_cons, toNat_ofNat_of_valid hvalid, codeUnits, if_pos (by omega), ← ih hds]
      rfl
    | case3 u hu v us hpair ih =>
      obtain ⟨ds, hds, rfl⟩ := Option.map_eq_some_iff.1 h
      have hhigh : 0xD800 +
          (0x10000 + (u - 0xD800) * 0x400 + (v - 0xDC00) - 0x10000) / 0x400 = u := by omega
      have hlow : 0xDC00 +
          (0x10000 + (u - 0xD800) * 0x400 + (v - 0xDC00) - 0x10000) % 0x400 = v := by omega
      rw [units_cons, toNat_ofSurrogates (by omega) (by omega), codeUnits, if_neg (by omega), hhigh,
        hlow, ← ih hds]
      rfl
    | case4 => cases h
    | case5 => cases h
  · rintro rfl
    exact ofUnits?_units cs

end Units

end ApiBindings.Text
