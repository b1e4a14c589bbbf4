import ApiBindings.Document.Access

/-!
# Warnings

Some parts of a document are passed over with a warning. A reading that may warn yields its result
together with the warnings up to the point where it ends, in order; a fault ends it at once.
-/

namespace ApiBindings.OpenApi

/-- What is passed over. -/
inductive Warning where
  | pathReference (path : String)
  | unresolvedBody (place reference : String)
  deriving DecidableEq, Repr

def Warning.message : Warning → String
  | .pathReference path => s!"Unhandled reference at path: '{path}'"
  | .unresolvedBody place reference => s!"No schema for {place}: cannot resolve '{reference}'"

/-- The result of a reading and the warnings given on the way. -/
structure Reading (α : Type) where
  warnings : List Warning
  result : Except Fault α

namespace Reading

variable {α β : Type}

def yield (a : α) : Reading α := ⟨[], .ok a⟩

def warn (w : Warning) : Reading Unit := ⟨[w], .ok ()⟩

/-- A reading without warnings. -/
def ofExcept (r : Except Fault α) : Reading α := ⟨[], r⟩

/-- Reads on with what has been read. -/
def andThen (r : Reading α) (next : α → Reading β) : Reading β :=
  match r.result with
  | .error f => ⟨r.warnings, .error f⟩
  | .ok a =>
    let later := next a
    ⟨r.warnings ++ later.warnings, later.result⟩

instance : Monad Reading where
  pure := yield
  bind := andThen

instance : MonadLift (Except Fault) Reading := ⟨ofExcept⟩

@[simp] theorem pure_eq (a : α) : (pure a : Reading α) = ⟨[], .ok a⟩ := rfl

theorem bind_eq (r : Reading α) (next : α → Reading β) : r >>= next = r.andThen next := rfl

/-- The result of two steps does not depend on the warnings. -/
theorem result_bind (r : Reading α) (next : α → Reading β) :
    (r >>= next).result = r.result >>= fun a => (next a).result := by
  obtain ⟨warnings, outcome⟩ := r
  cases outcome <;> rfl

theorem bind_result_eq_ok {r : Reading α} {next : α → Reading β} {b : β} :
    (r >>= next).result = .ok b ↔ ∃ a, r.result = .ok a ∧ (next a).result = .ok b := by
  rw [result_bind, bind_eq_ok]

end Reading

end ApiBindings.OpenApi
