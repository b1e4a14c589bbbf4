import ApiBindings.Proofs.Document.Entries
import ApiBindings.Schema.Stack
import Mathlib.Logic.Relation

/-!
# Chains of references

A name of the component table refers to another one if its entry is a mapping with a reference to
it, and it holds a schema if its entry is a mapping without a reference. A name stands for the
schema that the last name of its chain holds (`StandsFor`), and a position finds the schema written
there, or the one that the name it refers to stands for (`Finds`). These are read off the entries of
a document alone, and where references can be resolved they say what is found
(`resolve_eq_some_iff`).

Chains are followed for as many entries as the table has. That never cuts a chain off: a search that
remembers the names it has visited, and stops at one of them only, comes to the same schema
(`follow_eq_searchFrom`). Such a search gives up on no chain that ends, since no name of it comes
back (`not_returns`), and each step of it uses up one of the names of the table.
-/

namespace ApiBindings.Schema

open Relation (ReflTransGen TransGen)

section Table

variable {table entries : List (Scalar × Value)} {name next last : String} {target : Value}

/-- A name refers to the next one of a chain. -/
def RefersTo (table : List (Scalar × Value)) (name next : String) : Prop :=
  ∃ entries, Value.valueAt? (.text name) table = some (.mapping entries) ∧
    Value.valueAt? (.text "$ref") entries = some (.text (Reference.base ++ next))

/-- A name holds a schema that is no reference. -/
def Holds (table : List (Scalar × Value)) (name : String) (entries : List (Scalar × Value)) : Prop :=
  Value.valueAt? (.text name) table = some (.mapping entries) ∧
    Value.valueAt? (.text "$ref") entries = none

theorem ofValue?_eq_some_iff :
    Reference.ofValue? target = some ⟨next⟩ ↔ target = .text (Reference.base ++ next) := by
  constructor
  · intro h
    unfold Reference.ofValue? at h
    split at h
    · obtain ⟨rest, hrest, heq⟩ := Option.map_eq_some_iff.1 h
      obtain rfl := Reference.mk.inj heq
      have htext := Text.dropStart?_eq_some_iff.1 hrest
      exact congrArg Value.text (String.toList_inj.1 (by simp [htext]))
    · cases h
  · rintro rfl
    have hrest : Text.dropStart? Reference.base.toList (Reference.base ++ next).toList =
        some next.toList := Text.dropStart?_eq_some_iff.2 String.toList_append
    rw [Reference.ofValue?, Reference.ofText?, hrest, Option.map_some, String.ofList_toList]

theorem RefersTo.unique {next' : String} (h : RefersTo table name next)
    (h' : RefersTo table name next') : next = next' := by
  obtain ⟨entries, he, hr⟩ := h
  obtain ⟨entries', he', hr'⟩ := h'
  cases he.symm.trans he'
  have hnext := ofValue?_eq_some_iff.2 (Option.some.inj (hr.symm.trans hr'))
  cases (ofValue?_eq_some_iff.2 rfl).symm.trans hnext
  rfl

theorem Holds.not_refersTo (h : Holds table name entries) : ¬ RefersTo table name next := by
  rintro ⟨entries', he, hr⟩
  cases h.1.symm.trans he
  cases h.2.symm.trans hr

/-- No name of a chain that ends comes back: the end of the chain does not. -/
theorem not_returns (hc : ReflTransGen (RefersTo table) name last) (hl : Holds table last entries) :
    ¬ TransGen (RefersTo table) name name := by
  induction hc using ReflTransGen.head_induction_on with
  | refl =>
    intro h
    obtain ⟨next, hn, -⟩ := TransGen.head'_iff.1 h
    exact hl.not_refersTo hn
  | @head name next hn _ ih =>
    intro h
    obtain ⟨next', hn', hback⟩ := TransGen.head'_iff.1 h
    obtain rfl := hn.unique hn'
    exact ih (TransGen.tail' hback hn)

/-! ## Following a chain -/

theorem follow_of_holds (h : Holds table name entries) (fuel : Nat) :
    Reference.follow table (fuel + 1) name = some entries := by
  rw [Reference.follow]
  simp only [h.1, h.2]

theorem follow_of_refersTo (h : RefersTo table name next) (fuel : Nat) :
    Reference.follow table (fuel + 1) name = Reference.follow table fuel next := by
  obtain ⟨inner, he, hr⟩ := h
  rw [Reference.follow]
  simp only [he, hr, ofValue?_eq_some_iff.2 rfl]

theorem chain_of_follow {fuel : Nat} (h : Reference.follow table fuel name = some entries) :
    ∃ last, ReflTransGen (RefersTo table) name last ∧ Holds table last entries := by
  induction fuel generalizing name with
  | zero => cases h
  | succ fuel ih =>
    rw [Reference.follow] at h
    split at h
    · rename_i inner he
      split at h
      · rename_i hr
        cases h
        exact ⟨name, .refl, he, hr⟩
      · rename_i target hr
        split at h
        · rename_i next ht
          rw [ofValue?_eq_some_iff.1 ht] at hr
          obtain ⟨last, hc, hl⟩ := ih h
          exact ⟨last, .head ⟨inner, he, hr⟩ hc, hl⟩
        · cases h
    · cases h

/-! ## A search that remembers names -/

/-- The names in a table. -/
def names (table : List (Scalar × Value)) : List String :=
  table.filterMap fun e => match e.1 with
    | .text name => some name
    | _ => none

theorem mem_names_of_valueAt? (h : Value.valueAt? (.text name) table = some target) :
    name ∈ names table := by
  obtain ⟨e, he, hk⟩ := Value.mem_of_valueAt? h
  exact List.mem_filterMap.2 ⟨e, he, by rw [hk]⟩

/-- The entries of the schema that a search comes to from a name, unless it comes to a name that it
has visited. -/
def searchFrom (table : List (Scalar × Value)) (visited : List String) (name : String) :
    Option (List (Scalar × Value)) :=
  if hv : name ∈ visited then none
  else
    match he : Value.valueAt? (.text name) table with
    | some (.mapping entries) =>
      match Value.valueAt? (.text "$ref") entries with
      | none => some entries
      | some target =>
        match Reference.ofValue? target with
        | some next =>
          have := unseen_cons_lt (mem_names_of_valueAt? he) hv
          searchFrom table (name :: visited) next.name
        | none => none
    | _ => none
termination_by unseen (names table) visited
decreasing_by exact this

variable {visited : List String}

theorem searchFrom_of_holds (hv : name ∉ visited) (h : Holds table name entries) :
    searchFrom table visited name = some entries := by
  rw [searchFrom, dif_neg hv]
  split
  · rename_i inner he
    cases he.symm.trans h.1
    simp only [h.2]
  · rename_i hne
    exact absurd h.1 (hne entries)

theorem searchFrom_of_refersTo (hv : name ∉ visited) (h : RefersTo table name next) :
    searchFrom table visited name = searchFrom table (name :: visited) next := by
  obtain ⟨entries, he, hr⟩ := h
  rw [searchFrom, dif_neg hv]
  split
  · rename_i inner he'
    cases he.symm.trans he'
    simp only [hr, ofValue?_eq_some_iff.2 rfl]
  · rename_i hne
    exact absurd he (hne entries)

theorem searchFrom_cases (h : searchFrom table visited name = some entries) :
    name ∉ visited ∧ name ∈ names table ∧ (Holds table name entries ∨
      ∃ next, RefersTo table name next ∧
        searchFrom table (name :: visited) next = some entries) := by
  rw [searchFrom] at h
  split at h
  · cases h
  · rename_i hv
    split at h
    · rename_i inner he
      refine ⟨hv, mem_names_of_valueAt? he, ?_⟩
      split at h
      · rename_i hr
        cases h
        exact .inl ⟨he, hr⟩
      · rename_i target hr
        split at h
        · rename_i next ht
          rw [ofValue?_eq_some_iff.1 ht] at hr
          exact .inr ⟨next.name, ⟨inner, he, hr⟩, h⟩
        · cases h
    · cases h

/-- A search finds the end of a chain if it has visited no name that the chain can come to. -/
theorem searchFrom_of_chain (hc : ReflTransGen (RefersTo table) name last)
    (hl : Holds table last entries) (hv : ∀ v ∈ visited, ¬ ReflTransGen (RefersTo table) name v) :
    searchFrom table visited name = some entries := by
  induction hc using ReflTransGen.head_induction_on generalizing visited with
  | refl => exact searchFrom_of_holds (fun hm => hv last hm .refl) hl
  | @head name next hn hc ih =>
    rw [searchFrom_of_refersTo (fun hm => hv name hm .refl) hn]
    apply ih
    intro v hm hback
    rcases List.mem_cons.1 hm with rfl | hm
    · exact not_returns (.head hn hc) hl (TransGen.head' hn hback)
    · exact hv v hm (.head hn hback)

/-- What a search comes to is found by following the chain through as many entries as there are
names that the search has not visited. -/
theorem follow_of_searchFrom {fuel : Nat} (hf : unseen (names table) visited ≤ fuel)
    (h : searchFrom table visited name = some entries) :
    Reference.follow table fuel name = some entries := by
  induction fuel generalizing visited name with
  | zero =>
    obtain ⟨hv, hn, -⟩ := searchFrom_cases h
    have := unseen_cons_lt hn hv
    omega
  | succ fuel ih =>
    obtain ⟨hv, hn, hl | ⟨next, hr, h⟩⟩ := searchFrom_cases h
    · exact follow_of_holds hl fuel
    · rw [follow_of_refersTo hr]
      have := unseen_cons_lt hn hv
      exact ih (by omega) h

/-- Following a chain through as many entries as the table has finds what a search finds that
remembers the names it has visited. -/
theorem follow_eq_searchFrom (table : List (Scalar × Value)) (name : String) :
    Reference.follow table table.length name = searchFrom table [] name := by
  have hlength : unseen (names table) [] ≤ table.length :=
    Nat.le_trans (unseen_le_length _ _) (List.length_filterMap_le _ _)
  apply Option.ext
  intro entries
  constructor
  · intro h
    obtain ⟨last, hc, hl⟩ := chain_of_follow h
    exact searchFrom_of_chain hc hl (by simp)
  · exact follow_of_searchFrom hlength

end Table

/-! ## What names and positions stand for -/

/-- A name stands for the schema at the end of the chain that starts with it. -/
def StandsFor (document : Value) (name : String) (schema : Value) : Prop :=
  ∃ table last entries, (document.entry "components").entry "schemas" = .mapping table ∧
    ReflTransGen (RefersTo table) name last ∧ Holds table last entries ∧ schema = .mapping entries

/-- A position finds what is written there or, if it is a reference, what the name stands for. -/
inductive Finds (document : Value) : Value → Resolved → Prop
  | inline {position : Value} (h : position.lookup? "$ref" = none) :
    Finds document position ⟨position, none⟩
  | reference {position schema : Value} {name : String}
    (h : position.lookup? "$ref" = some (.text (Reference.base ++ name)))
    (hs : StandsFor document name schema) : Finds document position ⟨schema, some name⟩

section Documents

variable {document position schema : Value} {table : List (Scalar × Value)} {name : String}
  {r : Resolved}

theorem follow_length_eq_some_iff {entries : List (Scalar × Value)} :
    Reference.follow table table.length name = some entries ↔
      ∃ last, ReflTransGen (RefersTo table) name last ∧ Holds table last entries := by
  constructor
  · exact chain_of_follow
  · rintro ⟨last, hc, hl⟩
    rw [follow_eq_searchFrom]
    exact searchFrom_of_chain hc hl (by simp)

theorem componentTable_ok (h : componentTable document = .ok table) :
    (document.entry "components").entry "schemas" = .mapping table ∨
      table = [] ∧ ∀ other, (document.entry "components").entry "schemas" = .mapping other →
        other = [] := by
  obtain ⟨components, hc, h⟩ := bind_eq_ok.1 h
  obtain ⟨schemas, hs, h⟩ := bind_eq_ok.1 h
  rw [Value.entry_of_get hc, Value.entry_of_orElse hs]
  unfold Value.orElse at h
  split at h
  · exact .inl (Value.eq_mapping_of_entries h)
  · rename_i hfalse
    obtain rfl := Except.ok.inj h
    refine .inr ⟨rfl, ?_⟩
    rintro other rfl
    cases other with
    | nil => rfl
    | cons e other => exact absurd rfl hfalse

theorem standsFor_iff (h : componentTable document = .ok table) :
    StandsFor document name schema ↔ ∃ last entries, ReflTransGen (RefersTo table) name last ∧
      Holds table last entries ∧ schema = .mapping entries := by
  constructor
  · rintro ⟨other, last, entries, hother, hc, hl, rfl⟩
    rcases componentTable_ok h with htable | ⟨-, hempty⟩
    · obtain rfl := Value.mapping.inj (htable.symm.trans hother)
      exact ⟨last, entries, hc, hl, rfl⟩
    · rw [hempty other hother] at hl
      cases hl.1
  · rintro ⟨last, entries, hc, hl, rfl⟩
    rcases componentTable_ok h with htable | ⟨rfl, -⟩
    · exact ⟨table, last, entries, htable, hc, hl, rfl⟩
    · cases hl.1

/-- Where a name can be resolved, it leads to what it stands for. -/
theorem Reference.resolve_eq_some_iff {found : Option Value}
    (h : Reference.resolve document ⟨name⟩ = .ok found) :
    found = some schema ↔ StandsFor document name schema := by
  obtain ⟨table, htable, h⟩ := bind_eq_ok.1 h
  obtain rfl := Except.ok.inj h
  simp only [standsFor_iff htable, Option.map_eq_some_iff, follow_length_eq_some_iff]
  constructor
  · rintro ⟨entries, ⟨last, hc, hl⟩, rfl⟩
    exact ⟨last, entries, hc, hl, rfl⟩
  · rintro ⟨last, entries, hc, hl, rfl⟩
    exact ⟨entries, ⟨last, hc, hl⟩, rfl⟩

/-- Where a position can be resolved, it leads to what it finds. -/
theorem resolve_eq_some_iff {found : Option Resolved} (h : resolve document position = .ok found) :
    found = some r ↔ Finds document position r := by
  obtain ⟨mentioned, hmentioned, h⟩ := bind_eq_ok.1 h
  cases mentioned with
  | false =>
    obtain rfl := Except.ok.inj h
    have href := Value.lookup?_of_mentions hmentioned
    constructor
    · intro hr
      obtain rfl := Option.some.inj hr
      exact .inline href
    · rintro (_ | ⟨hsome, -⟩)
      · rfl
      · cases href.symm.trans hsome
  | true =>
    obtain ⟨target, htarget, h⟩ := bind_eq_ok.1 h
    have href := Value.lookup?_of_item htarget
    cases hname : Reference.ofValue? target with
    | none =>
      rw [hname] at h
      obtain rfl := Except.ok.inj h
      refine iff_of_false nofun ?_
      rintro (hnone | ⟨hsome, -⟩)
      · cases href.symm.trans hnone
      · rw [Option.some.inj (href.symm.trans hsome), ofValue?_eq_some_iff.2 rfl] at hname
        cases hname
    | some reference =>
      rw [hname] at h
      obtain ⟨named, hnamed, h⟩ := bind_eq_ok.1 h
      obtain rfl := Except.ok.inj h
      rw [ofValue?_eq_some_iff.1 hname] at href
      rw [Option.map_eq_some_iff]
      constructor
      · rintro ⟨schema, hschema, rfl⟩
        exact .reference href ((Reference.resolve_eq_some_iff hnamed).1 hschema)
      · rintro (hnone | ⟨hsome, hs⟩)
        · cases href.symm.trans hnone
        · have hvalue := ofValue?_eq_some_iff.2 (Option.some.inj (href.symm.trans hsome))
          cases (ofValue?_eq_some_iff.2 rfl).symm.trans hvalue
          exact ⟨_, (Reference.resolve_eq_some_iff hnamed).2 hs, rfl⟩

theorem finds_of_resolve (h : resolve document position = .ok (some r)) :
    Finds document position r := (resolve_eq_some_iff h).1 rfl

theorem StandsFor.unique {schema' : Value} (h : StandsFor document name schema)
    (h' : StandsFor document name schema') : schema = schema' := by
  obtain ⟨table, last, entries, ht, hc, hl, rfl⟩ := h
  obtain ⟨table', last', entries', ht', hc', hl', rfl⟩ := h'
  obtain rfl := Value.mapping.inj (ht.symm.trans ht')
  have hsearch : searchFrom table [] name = some entries := searchFrom_of_chain hc hl (by simp)
  rw [searchFrom_of_chain hc' hl' (by simp)] at hsearch
  rw [Option.some.inj hsearch]

theorem Finds.unique {r' : Resolved} (h : Finds document position r)
    (h' : Finds document position r') : r = r' := by
  cases h with
  | inline hnone =>
    cases h' with
    | inline => rfl
    | reference hsome => cases hnone.symm.trans hsome
  | reference hsome hs =>
    cases h' with
    | inline hnone => cases hnone.symm.trans hsome
    | reference hsome' hs' =>
      have hname := ofValue?_eq_some_iff.2 (Option.some.inj (hsome.symm.trans hsome'))
      cases (ofValue?_eq_some_iff.2 rfl).symm.trans hname
      rw [hs.unique hs']

end Documents

end ApiBindings.Schema
