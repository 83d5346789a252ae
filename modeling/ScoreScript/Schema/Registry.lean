import ScoreScript.Schema.Reading
import ScoreScript.Schema.Validation

/-!
The validators of one schema by root tag. Each is made when its tag is looked up for the first
time, and kept from then on. That there is none for a tag is kept as well; so it is for every tag
if there is no schema.
-/

namespace ScoreScript

/-- The validator for a root tag, if there is a schema and it declares the tag. -/
def Validator.compile? (schema : Option Schema) (tag : String) : Option Validator :=
  schema.bind fun schema => (Validator.ofRoot schema tag).toOption

structure Registry where
  schema : Option Schema
  cache : Assoc (Option Validator)
  /-- What is kept for a tag is what the schema has for it. -/
  coherent : ∀ tag found, cache.get? tag = some found → found = Validator.compile? schema tag

namespace Registry

def ofSchema (schema : Option Schema) : Registry :=
  ⟨schema, [], nofun⟩

instance : Inhabited Registry :=
  ⟨.ofSchema none⟩

/-- The registry of a data file, without a schema if the file cannot be used. -/
def ofText (text : String) : Registry :=
  .ofSchema (Schema.ofText text).toOption

/-- The registry that keeps what the schema has for a tag. -/
def keep (r : Registry) (tag : String) : Registry where
  schema := r.schema
  cache := r.cache.put tag (Validator.compile? r.schema tag)
  coherent other found kept := by
    rw [Assoc.get?_put] at kept
    split at kept
    · rename_i same
      rw [same]
      exact (Option.some.inj kept).symm
    · exact r.coherent other found kept

/-- Look up the validator for a root tag. -/
def lookUp (r : Registry) (tag : String) : Option Validator × Registry :=
  match r.cache.get? tag with
  | some found => (found, r)
  | none => (Validator.compile? r.schema tag, r.keep tag)

/-- The validator that is found for a root tag. -/
def validator? (r : Registry) (tag : String) : Option Validator :=
  (r.lookUp tag).1

/-- The registry after a tag was looked up. -/
def record (r : Registry) (tag : String) : Registry :=
  (r.lookUp tag).2

/-- How many tags have been looked up, whether or not there was a validator. -/
def size (r : Registry) : Nat :=
  r.cache.length

end Registry

end ScoreScript
