/-!
# Tables

A table is a list of entries in the order in which their keys were first written. Writing to a key
that is present changes its value and moves nothing; a new key goes to the end.
-/

namespace ApiBindings.Table

variable {κ ν : Type}

def keys (entries : List (κ × ν)) : List κ := entries.map (·.1)

/-- Sets the value of a key to a function of the value it has so far, if it has one. -/
def update [BEq κ] (key : κ) (f : Option ν → ν) : List (κ × ν) → List (κ × ν)
  | [] => [(key, f none)]
  | (k, v) :: rest => if key == k then (k, f (some v)) :: rest else (k, v) :: update key f rest

def put [BEq κ] (key : κ) (value : ν) (entries : List (κ × ν)) : List (κ × ν) :=
  update key (fun _ => value) entries

/-- The table that results from writing the entries of a list one after the other. -/
def ofList [BEq κ] (entries : List (κ × ν)) : List (κ × ν) :=
  entries.foldl (fun table e => put e.1 e.2 table) []

@[simp] theorem keys_nil : keys ([] : List (κ × ν)) = [] := rfl

@[simp] theorem keys_cons (e : κ × ν) (entries : List (κ × ν)) :
    keys (e :: entries) = e.1 :: keys entries := rfl

/-- A new key goes to the end, and otherwise the keys stay as they are. -/
theorem keys_update [BEq κ] (key : κ) (f : Option ν → ν) (entries : List (κ × ν)) :
    keys (update key f entries) =
      if (keys entries).any (key == ·) then keys entries else keys entries ++ [key] := by
  induction entries with
  | nil => rfl
  | cons e rest ih =>
    obtain ⟨k, v⟩ := e
    by_cases hk : key == k
    · simp [update, hk]
    · simp only [update, hk, keys_cons, List.any_cons, Bool.false_or, ih, if_neg Bool.false_ne_true]
      split <;> rfl

theorem keys_update_of_mem [BEq κ] [LawfulBEq κ] {key : κ} {entries : List (κ × ν)}
    (f : Option ν → ν) (h : key ∈ keys entries) : keys (update key f entries) = keys entries := by
  rw [keys_update, if_pos (List.any_eq_true.2 ⟨key, h, beq_self_eq_true key⟩)]

theorem keys_update_of_not_mem [BEq κ] [LawfulBEq κ] {key : κ} {entries : List (κ × ν)}
    (f : Option ν → ν) (h : key ∉ keys entries) :
    keys (update key f entries) = keys entries ++ [key] := by
  rw [keys_update, if_neg]
  intro hany
  obtain ⟨k, hk, he⟩ := List.any_eq_true.1 hany
  exact h (eq_of_beq he ▸ hk)

theorem lookup_update_self [BEq κ] [LawfulBEq κ] (key : κ) (f : Option ν → ν)
    (entries : List (κ × ν)) :
    (update key f entries).lookup key = some (f (entries.lookup key)) := by
  induction entries with
  | nil => simp [update]
  | cons e rest ih =>
    obtain ⟨k, v⟩ := e
    by_cases hk : key == k
    · simp [update, List.lookup_cons, hk]
    · simp [update, List.lookup_cons, hk, ih]

theorem lookup_update_of_ne [BEq κ] [LawfulBEq κ] {key other : κ} (f : Option ν → ν)
    (entries : List (κ × ν)) (h : other ≠ key) :
    (update key f entries).lookup other = entries.lookup other := by
  induction entries with
  | nil =>
    have : (other == key) = false := by simp [h]
    simp [update, List.lookup_cons, this]
  | cons e rest ih =>
    obtain ⟨k, v⟩ := e
    by_cases hk : key == k
    · have : (other == k) = false := by
        have : key = k := by simpa using hk
        simp [← this, h]
      simp [update, List.lookup_cons, hk, this]
    · simp only [update, hk, Bool.false_eq_true, ↓reduceIte, List.lookup_cons]
      split <;> simp_all

/-- An entry of a table after a write has been there before, or it has the written value, under the
written key or one that is equal to it. -/
theorem of_mem_put [BEq κ] {key : κ} {value : ν} {entries : List (κ × ν)} {e : κ × ν}
    (h : e ∈ put key value entries) :
    (e.2 = value ∧ (e.1 = key ∨ (key == e.1) = true)) ∨ e ∈ entries := by
  induction entries with
  | nil =>
    rw [put, update, List.mem_singleton] at h
    rw [h]
    exact .inl ⟨rfl, .inl rfl⟩
  | cons first rest ih =>
    obtain ⟨k, v⟩ := first
    rw [put, update] at h
    split at h
    · rename_i hk
      rcases List.mem_cons.1 h with rfl | h
      · exact .inl ⟨rfl, .inr hk⟩
      · exact .inr (List.mem_cons_of_mem _ h)
    · rcases List.mem_cons.1 h with rfl | h
      · exact .inr List.mem_cons_self
      · exact (ih h).imp_right (List.mem_cons_of_mem _)

theorem eq_or_mem_of_mem_put [BEq κ] [LawfulBEq κ] {key : κ} {value : ν} {entries : List (κ × ν)}
    {e : κ × ν} (h : e ∈ put key value entries) : e = (key, value) ∨ e ∈ entries := by
  refine (of_mem_put h).imp_left ?_
  rintro ⟨hvalue, hkey | hkey⟩
  · exact Prod.ext hkey hvalue
  · exact Prod.ext (eq_of_beq hkey).symm hvalue

theorem snd_of_mem_put [BEq κ] {key : κ} {value : ν} {entries : List (κ × ν)} {e : κ × ν}
    (h : e ∈ put key value entries) : e.2 = value ∨ e ∈ entries :=
  (of_mem_put h).imp_left And.left

end ApiBindings.Table
