import ApiBindings.Proofs.Schema.References
import ApiBindings.Proofs.Schema.Shape

/-!
# References lead to the ends of chains

In a document whose component table is a mapping, a reference leads to a schema exactly if a chain
of names that refer to each other ends at a name that holds it (`resolves_iff_chain`).
-/

namespace ApiBindings.Schema

open Relation (ReflTransGen)
open Value (NullOrMapping)

/-! ## Resolving references -/

/-- A document whose component table is a mapping, if there is one. -/
def HasTable (document : List (Scalar × Value)) : Prop :=
  (field "components" document).NullOrMapping fun components =>
    (field "schemas" components).NullOrMapping fun _ => True

variable {document : List (Scalar × Value)}

/-- **References lead to the ends of finite chains.** In a document whose component table is a
mapping, if there is one, every name can be resolved. It leads to a schema exactly if a chain of
names that refer to each other goes from it to a name that holds the schema; in all other cases it
leads nowhere. A search that stops at names it has visited finds the same, and a position that
refers to the name gets the schema under this name, not under the last one of the chain. -/
theorem resolves_iff_chain (h : HasTable document) (name : String) :
    ∃ table found, componentTable (.mapping document) = .ok table ∧
      Reference.resolve (.mapping document) ⟨name⟩ = .ok found ∧
      (∀ schema, found = some schema ↔ ∃ last entries,
        ReflTransGen (RefersTo table) name last ∧ Holds table last entries ∧
          schema = .mapping entries) ∧
      found = (searchFrom table [] name).map Value.mapping ∧
      ∀ entries, Value.valueAt? (.text "$ref") entries = some (.text (Reference.base ++ name)) →
        resolve (.mapping document) (.mapping entries) =
          .ok (found.map fun schema => ⟨schema, some name⟩) := by
  obtain ⟨table, htable, -⟩ := exists_componentTable trivial h
  have hresolve : Reference.resolve (.mapping document) ⟨name⟩ =
      .ok ((searchFrom table [] name).map Value.mapping) := by
    rw [← follow_eq_searchFrom, Reference.resolve, htable]
    rfl
  refine ⟨table, _, htable, hresolve, ?_, rfl, ?_⟩
  · intro schema
    rw [Option.map_eq_some_iff]
    constructor
    · rintro ⟨entries, hsearch, rfl⟩
      rw [← follow_eq_searchFrom] at hsearch
      obtain ⟨last, hc, hl⟩ := chain_of_follow hsearch
      exact ⟨last, entries, hc, hl, rfl⟩
    · rintro ⟨last, entries, hc, hl, rfl⟩
      exact ⟨entries, searchFrom_of_chain hc hl (by simp), rfl⟩
  · intro entries hr
    simp [resolve, Value.item, hr, ofValue?_eq_some_iff.2, hresolve, bind, Except.bind, pure,
      Except.pure]

/-- Names that refer on to a text, and two that refer to each other. -/
def chainedComponents : List (Scalar × Value) :=
  [(.text "Alias", referenceTo "Id"), (.text "Id", referenceTo "Key"),
    (.text "Key", .mapping [(.text "type", .text "string")]),
    (.text "Loop", referenceTo "Pool"), (.text "Pool", referenceTo "Loop")]

/-- A document with names that refer on. -/
def chainedDocument : List (Scalar × Value) :=
  [(.text "components", .mapping [(.text "schemas", .mapping chainedComponents)])]

theorem alias_chain : ReflTransGen (RefersTo chainedComponents) "Alias" "Key" :=
  .head ⟨_, rfl, rfl⟩ (.single ⟨_, rfl, rfl⟩)

/-- The first name of a chain leads to the text at the end of it. -/
theorem alias_resolves_along_chain : HasTable chainedDocument ∧
    Holds chainedComponents "Key" [(.text "type", .text "string")] ∧
    Reference.resolve (.mapping chainedDocument) ⟨"Alias"⟩ =
      .ok (some (.mapping [(.text "type", .text "string")])) := by
  have hholds : Holds chainedComponents "Key" [(.text "type", .text "string")] := ⟨rfl, rfl⟩
  have hdocument : HasTable chainedDocument := trivial
  obtain ⟨table, found, htable, hresolve, hchain, -⟩ := resolves_iff_chain hdocument "Alias"
  obtain rfl : chainedComponents = table := Except.ok.inj htable
  refine ⟨hdocument, hholds, ?_⟩
  rw [hresolve, (hchain _).2 ⟨"Key", _, alias_chain, hholds, rfl⟩]

end ApiBindings.Schema
