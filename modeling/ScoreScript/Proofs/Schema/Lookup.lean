import ScoreScript.Proofs.Assoc
import ScoreScript.Proofs.Stateful
import ScoreScript.Schema.Registry

/-!
What look-ups find, and what they leave. A look-up finds what the schema has for a tag, whatever
was looked up before, as `lookUp_eq` says. After a history of look-ups there are as many tags as
are distinct in it, as `size_recordAll` says. Work that uses a registry for look-ups only is an
inquiry: it asks for one tag after the other, and goes on by what it finds, until it has a result. In
every registry of one schema an inquiry asks for the same tags and has the same result, as
`Inquiry.run_eq` says.
-/

namespace ScoreScript

/-- There is a validator for a tag if there is a schema and it declares the tag. -/
theorem Validator.compile?_eq_some_iff {schema : Option Schema} {tag : String} {v : Validator} :
    Validator.compile? schema tag = some v ↔
      ∃ s, schema = some s ∧ s.declares tag = true ∧ v = ⟨tag, s⟩ := by
  cases schema with
  | none => simp [compile?]
  | some s =>
    simp only [compile?, Option.bind_some, Option.some.injEq, exists_eq_left']
    unfold ofRoot
    split
    · rename_i declared
      exact ⟨fun found => ⟨declared, (Option.some.inj found).symm⟩, fun ⟨_, same⟩ => same ▸ rfl⟩
    · rename_i undeclared
      exact ⟨fun found => (nomatch found), fun ⟨declared, _⟩ => absurd declared undeclared⟩

namespace Registry

theorem schema_record (r : Registry) (tag : String) : (r.record tag).schema = r.schema := by
  unfold record lookUp
  split <;> rfl

/-- What was kept makes no difference to what is found. -/
theorem validator?_eq_compile? (r : Registry) (tag : String) :
    r.validator? tag = Validator.compile? r.schema tag := by
  unfold validator? lookUp
  split
  · exact r.coherent tag _ ‹_›
  · rfl

theorem lookUp_eq (r : Registry) (tag : String) :
    r.lookUp tag = (Validator.compile? r.schema tag, r.record tag) :=
  Prod.ext (r.validator?_eq_compile? tag) rfl

/-- The tags for which something is kept, in the order in which they first came. -/
def tags (r : Registry) : List String :=
  r.cache.keys

theorem size_eq (r : Registry) : r.size = r.tags.length := by
  rw [size, tags, Assoc.keys, List.length_map]

theorem tags_record (r : Registry) (tag : String) :
    (r.record tag).tags = if tag ∈ r.tags then r.tags else r.tags ++ [tag] := by
  unfold record lookUp
  split
  · rename_i found kept
    have known : tag ∈ r.tags := List.mem_map_of_mem (Assoc.mem_of_get? kept)
    rw [if_pos known]
  · exact Assoc.keys_put tag _ r.cache

/-- Look up one tag after the other. -/
def recordAll (r : Registry) (tags : List String) : Registry :=
  tags.foldl record r

@[simp] theorem recordAll_nil (r : Registry) : r.recordAll [] = r :=
  rfl

@[simp] theorem recordAll_cons (r : Registry) (tag : String) (tags : List String) :
    r.recordAll (tag :: tags) = (r.record tag).recordAll tags :=
  rfl

theorem recordAll_append (r : Registry) (first second : List String) :
    r.recordAll (first ++ second) = (r.recordAll first).recordAll second :=
  List.foldl_append

theorem schema_recordAll (r : Registry) (tags : List String) :
    (r.recordAll tags).schema = r.schema := by
  induction tags generalizing r with
  | nil => rfl
  | cons tag rest ih => exact (ih (r.record tag)).trans (r.schema_record tag)

/-- Only the tags that were looked up are kept, each of them once. -/
theorem tags_recordAll (schema : Option Schema) (asked : List String) :
    ((ofSchema schema).recordAll asked).tags = asked.eraseDups := by
  rw [← Assoc.foldl_addName]
  exact (List.foldl_hom tags fun r tag => (r.tags_record tag).symm).symm

theorem size_recordAll (schema : Option Schema) (asked : List String) :
    ((ofSchema schema).recordAll asked).size = asked.eraseDups.length := by
  rw [size_eq, tags_recordAll]

end Registry

end ScoreScript

namespace ScoreScript

inductive Inquiry (α : Type) where
  | done (result : α)
  | ask (tag : String) (next : Option Validator → Inquiry α)

namespace Inquiry

variable {α β : Type}

/-- Make the look-ups in a registry. -/
def run : Inquiry α → Registry → α × Registry
  | .done a, r => (a, r)
  | .ask tag next, r => (next (r.lookUp tag).1).run (r.lookUp tag).2

/-- The result if the schema itself were asked. -/
def result (schema : Option Schema) : Inquiry α → α
  | .done a => a
  | .ask tag next => (next (Validator.compile? schema tag)).result schema

/-- The tags that are asked for, in turn. -/
def asked (schema : Option Schema) : Inquiry α → List String
  | .done _ => []
  | .ask tag next => tag :: (next (Validator.compile? schema tag)).asked schema

/-- An inquiry goes by the schema, not by what was looked up before. -/
theorem run_eq (inquiry : Inquiry α) (r : Registry) :
    inquiry.run r = (inquiry.result r.schema, r.recordAll (inquiry.asked r.schema)) := by
  induction inquiry generalizing r with
  | done a => rfl
  | ask tag next ih =>
    rw [run, r.lookUp_eq, ih, r.schema_record]
    rfl

def bind (next : α → Inquiry β) : Inquiry α → Inquiry β
  | .done a => next a
  | .ask tag rest => .ask tag fun found => (rest found).bind next

theorem run_bind (inquiry : Inquiry α) (next : α → Inquiry β) (r : Registry) :
    (inquiry.bind next).run r = (next (inquiry.run r).1).run (inquiry.run r).2 := by
  induction inquiry generalizing r with
  | done a => rfl
  | ask tag rest ih => exact ih (r.lookUp tag).1 (r.lookUp tag).2

def map (f : α → β) (inquiry : Inquiry α) : Inquiry β :=
  inquiry.bind fun a => .done (f a)

theorem run_map (f : α → β) (inquiry : Inquiry α) (r : Registry) :
    (inquiry.map f).run r = (f (inquiry.run r).1, (inquiry.run r).2) :=
  run_bind inquiry _ r

end Inquiry

variable {σ τ α β : Type}

/-- From a state on, work is an inquiry. Its result comes with the state that it leaves; `put` puts
a registry into a state. -/
def InquiresFrom (put : σ → Registry → σ) (work : StateM σ α) (s : σ) : Prop :=
  ∃ inquiry : Inquiry (α × σ), ∀ r,
    work (put s r) = ((inquiry.run r).1.1, put (inquiry.run r).1.2 (inquiry.run r).2)

/-- Work that is an inquiry wherever it starts. -/
def Inquires (put : σ → Registry → σ) (work : StateM σ α) : Prop :=
  ∀ s, InquiresFrom put work s

variable {put : σ → Registry → σ} {put' : τ → Registry → τ}

/-- Work that looks nothing up. -/
theorem InquiresFrom.of_run {work : StateM σ α} {s : σ} (value : α) (next : σ)
    (runs : ∀ r, work (put s r) = (value, put next r)) : InquiresFrom put work s :=
  ⟨.done (value, next), runs⟩

/-- The inquiry may be about a part of the state only. -/
theorem InquiresFrom.within {work : StateM σ α} {outer : StateM τ β} {s : σ} {t : τ}
    (inquires : InquiresFrom put work s) (f : α × σ → β × τ)
    (runs : ∀ r a s' r', work (put s r) = (a, put s' r') →
      outer (put' t r) = ((f (a, s')).1, put' (f (a, s')).2 r')) : InquiresFrom put' outer t := by
  obtain ⟨inquiry, works⟩ := inquires
  refine ⟨inquiry.map f, fun r => ?_⟩
  rw [Inquiry.run_map]
  exact runs r _ _ _ (works r)

/-- An inquiry may go on by its result. -/
theorem InquiresFrom.andThen {work : StateM σ α} {outer : StateM τ β} {s : σ} {t : τ}
    {γ : Type} {next : α × σ → StateM τ γ} {start : α × σ → τ}
    (inquires : InquiresFrom put work s)
    (rest : ∀ x, InquiresFrom put' (next x) (start x)) (f : α × σ → γ × τ → β × τ)
    (runs : ∀ r x r' y r'', work (put s r) = (x.1, put x.2 r') →
      next x (put' (start x) r') = (y.1, put' y.2 r'') →
        outer (put' t r) = ((f x y).1, put' (f x y).2 r'')) : InquiresFrom put' outer t := by
  obtain ⟨inquiry, works⟩ := inquires
  choose more worksOn using rest
  refine ⟨inquiry.bind fun x => (more x).map (f x), fun r => ?_⟩
  rw [Inquiry.run_bind, Inquiry.run_map]
  exact runs r _ _ _ _ (works r) (worksOn _ _)

namespace Inquires

theorem pure (a : α) : Inquires put (Pure.pure a : ExceptT Error (StateM σ) α).run :=
  fun s => .of_run (.ok a) s fun _ => rfl

theorem throw (e : Error) :
    Inquires put (MonadExcept.throw e : ExceptT Error (StateM σ) α).run :=
  fun s => .of_run (.error e) s fun _ => rfl

theorem bind {work : ExceptT Error (StateM σ) α} {next : α → ExceptT Error (StateM σ) β}
    (first : Inquires put work.run) (rest : ∀ a, Inquires put (next a).run) :
    Inquires put (work >>= next).run := by
  have goesOn (x : Except Error α × σ) : InquiresFrom put (ExceptT.bindCont next x.1) x.2 := by
    cases x.1 with
    | ok a => exact rest a x.2
    | error e => exact .of_run (.error e) x.2 fun _ => rfl
  refine fun s => (first s).andThen goesOn (fun _ y => y) fun r x r' y r'' done ends => ?_
  change ExceptT.bindCont next (work.run (put s r)).1 (work.run (put s r)).2 = _
  rw [show work.run (put s r) = (x.1, put x.2 r') from done]
  exact ends

/-- Work that does not fail. -/
theorem liftState {work : StateM σ α} (inquires : Inquires put work) :
    Inquires put (MonadLift.monadLift work : ExceptT Error (StateM σ) α).run :=
  fun s => (inquires s).within (fun x => (.ok x.1, x.2)) fun r a s' r' done => by
    change ((.ok (work (put s r)).1, (work (put s r)).2) : Except Error α × σ) = _
    rw [done]

theorem liftExcept (result : Except Error α) :
    Inquires put (MonadLift.monadLift result : ExceptT Error (StateM σ) α).run :=
  fun s => .of_run result s fun r => run_liftExcept result (put s r)

end Inquires

end ScoreScript
