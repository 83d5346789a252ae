import ScoreScript.Proofs.Building.Content
import ScoreScript.Proofs.Run.Scope
import ScoreScript.Proofs.Sandbox.Exactness
import ScoreScript.Proofs.Translation.Mirror

/-!
Documents that a catalogue can make again. Each element has a type that is known where it stands,
with a field for each attribute. Main statements: the call of such an element constructs it
(`run_construct_callArguments`), and the sandbox lets its statement pass (`passes_of_mirrors`).
-/

namespace ScoreScript

open Naming Script Script.Grammar

/-- The types that are known by name somewhere in a script. -/
abbrev TypeScope := String → Option TypeId

/-- Inside an element its nested types are known too, but they hide nothing. -/
def TypeScope.extend (known : TypeScope) (scope : Assoc TypeId) : TypeScope :=
  fun name => (known name).or (scope.get? name)

/-- A type makes an element with this content: a field for each attribute, the first one for the
text, and the children in the order that it puts them in. -/
structure ElementType.Suits (type : ElementType) (e : Element) : Prop where
  tag : type.tag = e.tag
  fields : ∀ entry ∈ e.attributes, ∃ ns,
    type.field? (fieldName entry.1) = some (.attr entry.1 ns)
  text : ∀ text, e.text = some text → e.children = [] ∧ isBlankText text = false ∧
    ∃ name, type.fields.head? = some (name, .text)
  order : Element.inOrder type.order e.children = true

/-- The element can be made again where these types are known. -/
inductive Element.Reproducible (c : Catalogue) : TypeScope → Element → Prop where
  | intro {known : TypeScope} {e : Element} {id : TypeId} {type : ElementType} (named : Nameable e)
      (capital : isHostName (typeName e.tag) = false) (bound : known (typeName e.tag) = some id)
      (there : c.get? id = some type) (suits : type.Suits e)
      (inside : ∀ child ∈ e.children, child.Reproducible c (known.extend type.scope)) :
      e.Reproducible c known

namespace Element

variable {c : Catalogue} {known : TypeScope} {e : Element}

/-- Everything inside it can be made again where it stands. -/
theorem Reproducible.everywhere (h : e.Reproducible c known) :
    e.Everywhere fun n => ∃ known, n.Reproducible c known := by
  induction h with
  | intro named capital bound there suits inside ih =>
    exact everywhere_iff.2 ⟨⟨_, .intro named capital bound there suits inside⟩, ih⟩

theorem Reproducible.named (h : e.Reproducible c known) : Nameable e := by
  cases h
  assumption

theorem Reproducible.capital (h : e.Reproducible c known) :
    isHostName (typeName e.tag) = false := by
  cases h
  assumption

theorem Reproducible.keepsText (h : e.Reproducible c known) : KeepsText e := by
  cases h with
  | intro _ _ _ _ suits _ =>
    intro text holds
    obtain ⟨alone, visible, -⟩ := suits.text text holds
    exact ⟨alone, visible⟩

theorem distinct_attributes (named : Nameable e) : (e.attributes.map (·.1)).Nodup := by
  refine List.Nodup.of_map fieldName ?_
  rw [List.map_map]
  exact named.distinct

/-- What does not depend on validation holds of the unmarked element as well. -/
theorem everywhere_unmarked {P Q : Element → Prop} (passes : ∀ n, P n → Q n.unmarked)
    (h : e.Everywhere P) : e.unmarked.Everywhere Q := by
  induction e using Element.induction with
  | step e ih =>
    obtain ⟨here, inside⟩ := everywhere_iff.1 h
    refine everywhere_iff.2 ⟨passes e here, ?_⟩
    rw [unmarked_eq, List.forall_mem_map]
    exact fun c member => ih c member (inside c member)

theorem Reproducible.nameable (h : e.Reproducible c known) : e.unmarked.Everywhere Nameable := by
  refine everywhere_unmarked ?_ h.everywhere
  rintro n ⟨known, h⟩
  have named := h.named
  rw [unmarked_eq]
  exact ⟨named.type, named.typeFree, named.fields, named.fieldsFree, named.distinct⟩

theorem Reproducible.capitals (h : e.Reproducible c known) :
    e.unmarked.Everywhere fun e => isHostName (typeName e.tag) = false := by
  refine everywhere_unmarked ?_ h.everywhere
  rintro n ⟨known, h⟩
  rw [unmarked_eq]
  exact h.capital

/-! ### Construction -/

/-- What the call of an element passes to its type. -/
def callArguments (e : Element) : Arguments :=
  ⟨e.text.toList.map .str, e.attributes.map fun entry => (fieldName entry.1, .str entry.2)⟩

theorem keys_callArguments (e : Element) :
    Assoc.keys e.callArguments.named = e.attributes.map fun entry => fieldName entry.1 := by
  rw [callArguments, Assoc.keys, List.map_map]
  rfl

end Element

section

variable {c : Catalogue} {span : Span} {make : TypeId → Making Element} {d : Draft} {name : String}

theorem Draft.give_text (field : d.type.field? name = some .text) (text : String) :
    d.give span name (.str text) make = return d.setText text := by
  rw [give, field]
  rfl

theorem Draft.give_attribute {key : String} {ns : Option String}
    (field : d.type.field? name = some (.attr key ns)) (value : String) :
    d.give span name (.str value) make = return d.setAttribute key value := by
  rw [give, field]
  rfl

theorem giveInTurn_text {fields : List (String × Field)} (text : String)
    (field : d.type.field? name = some .text) :
    giveInTurn c span [.str text] ((name, .text) :: fields) d = return d.setText text := by
  unfold giveInTurn
  rw [Draft.give_text field, pure_bind, giveInTurn_nil]

/-- The draft with further attributes. -/
def Draft.addAttributes (d : Draft) (more : Assoc String) : Draft :=
  { d with element := { d.element with attributes := d.element.attributes ++ more } }

theorem Draft.addAttributes_nil (d : Draft) : d.addAttributes [] = d := by
  obtain ⟨type, ⟨tag, attributes, children, text, checked, settled⟩, reported⟩ := d
  rw [addAttributes, List.append_nil]

theorem Draft.addAttributes_append (d : Draft) (first second : Assoc String) :
    (d.addAttributes first).addAttributes second = d.addAttributes (first ++ second) := by
  rw [addAttributes, addAttributes, addAttributes, List.append_assoc]

/-- Values for distinct attributes are set one behind the other. -/
theorem giveNamed_attributes {attributes : Assoc String} :
    ∀ {d : Draft}, d.element.checked = false →
      (∀ entry ∈ attributes, ∃ ns,
        d.type.field? (fieldName entry.1) = some (.attr entry.1 ns)) →
      (Assoc.keys (d.element.attributes ++ attributes)).Nodup →
      giveNamed c span (attributes.map fun entry => (fieldName entry.1, .str entry.2)) d =
        return d.addAttributes attributes := by
  induction attributes with
  | nil =>
    intro d _ _ _
    rw [List.map_nil, giveNamed, d.addAttributes_nil]
  | cons entry rest ih =>
    intro d unchecked fields distinct
    obtain ⟨name, value⟩ := entry
    obtain ⟨⟨ns, here⟩, later⟩ := List.forall_mem_cons.1 fields
    have new : Assoc.contains d.element.attributes name = false :=
      Assoc.contains_of_nodup distinct
    have set : d.setAttribute name value = d.addAttributes [(name, value)] := by
      rw [Draft.setAttribute, Element.setAttribute, Assoc.put_of_new _ new, ← unchecked]
      rfl
    have further := ih (d := d.addAttributes [(name, value)]) unchecked later
      (by simpa [Draft.addAttributes] using distinct)
    rw [List.map_cons, giveNamed, Draft.give_attribute here, pure_bind, set, further,
      d.addAttributes_append, List.singleton_append]

theorem run_construct {id : TypeId} {args : Arguments} {begun texted done : Draft}
    (started : Draft.start c span id args.positional.length (Assoc.keys args.named) = .ok begun)
    (inTurn : giveInTurn c span args.positional begun.type.fields begun = return texted)
    (byName : giveNamed c span args.named texted = return done) (log : Log) :
    (construct c span id args).run log = (.ok done.element, log) := by
  obtain ⟨positional, named⟩ := args
  rw [construct, Value.toElement, started]
  refine (run_bind_ok (run_liftExcept (.ok begun) log) _).trans ?_
  rw [inTurn, pure_bind, byName, pure_bind]
  rfl

end

section

variable {c : Catalogue} {id : TypeId} {type : ElementType} {e : Element} {span : Span}

/-- The text of an element, if there is one, is for the first field. -/
theorem ElementType.Suits.positional (suits : type.Suits e) :
    e.text = none ∧ e.callArguments.positional = [] ∨
      ∃ text name more, e.text = some text ∧ e.callArguments.positional = [.str text] ∧
        type.fields = (name, .text) :: more := by
  cases text : e.text with
  | none =>
    rw [Element.callArguments, text]
    exact .inl ⟨rfl, rfl⟩
  | some value =>
    obtain ⟨-, -, name, first⟩ := suits.text value text
    obtain ⟨more, fields⟩ := List.head?_eq_some_iff.1 first
    rw [Element.callArguments, text]
    exact .inr ⟨value, name, more, rfl, rfl, fields⟩

theorem start_callArguments (there : c.get? id = some type) (suits : type.Suits e)
    (named : Nameable e) :
    Draft.start c span id e.callArguments.positional.length (Assoc.keys e.callArguments.named) =
      .ok ⟨type, .empty type.tag, []⟩ := by
  have found : c.element id = .ok type := by rw [Catalogue.element, there]
  have fits : e.callArguments.positional.length ≤ type.fields.length ∧
      ∀ entry ∈ e.attributes, fieldName entry.1 ∉
        Assoc.keys (type.fields.take e.callArguments.positional.length) := by
    rcases suits.positional with ⟨-, none⟩ | ⟨text, name, more, -, one, fields⟩
    · rw [none]
      exact ⟨Nat.zero_le _, fun _ _ => List.not_mem_nil⟩
    · rw [one, fields]
      refine ⟨Nat.le_add_left 1 _, fun entry member same => ?_⟩
      obtain ⟨ns, isAttribute⟩ := suits.fields entry member
      rw [List.mem_singleton.1 same, ElementType.field?_first fields] at isAttribute
      cases isAttribute
  have noRepeat : firstRepeated? (Assoc.keys (type.fields.take e.callArguments.positional.length))
      (Assoc.keys e.callArguments.named) = none := by
    rw [e.keys_callArguments]
    refine firstRepeated?_eq_none named.distinct ?_
    rw [List.forall_mem_map]
    exact fits.2
  rw [Draft.start, found]
  simp only [bind, Except.bind]
  rw [if_neg (Nat.not_lt.2 fits.1), noRepeat]
  rfl

theorem giveInTurn_callArguments (suits : type.Suits e) :
    giveInTurn c span e.callArguments.positional type.fields ⟨type, .empty type.tag, []⟩ =
      return ⟨type, { tag := e.tag, text := e.text }, []⟩ := by
  rw [← suits.tag]
  rcases suits.positional with ⟨noText, none⟩ | ⟨text, name, more, hasText, one, fields⟩
  · rw [noText, none, giveInTurn_nil]
    rfl
  · rw [hasText, one, fields]
    exact giveInTurn_text text (d := ⟨type, _, _⟩) (ElementType.field?_first fields)

/-- The call of an element constructs it, without its children. -/
theorem run_construct_callArguments (there : c.get? id = some type) (suits : type.Suits e)
    (named : Nameable e) (log : Log) :
    (construct c span id e.callArguments).run log =
      (.ok { tag := e.tag, attributes := e.attributes, text := e.text }, log) :=
  run_construct (start_callArguments there suits named) (giveInTurn_callArguments suits)
    (giveNamed_attributes rfl suits.fields (Element.distinct_attributes named)) log

end

/-! ### The sandbox -/

namespace Script

/-- What the sandbox does not mind. -/
def Finding.IsFine : Finding → Prop
  | .kind k => k ∈ allowedKinds
  | .call name => isHostName name = false

/-- Nothing in the node is minded. -/
def Node.Passes (n : Node) : Prop :=
  ∀ p, Within n p → ∀ f ∈ p.own, f.IsFine

theorem Node.passes_iff {n : Node} :
    n.Passes ↔ (∀ f ∈ n.own, f.IsFine) ∧ ∀ q ∈ n.parts, q.Passes := by
  constructor
  · intro all
    exact ⟨all n (.self n), fun q direct p below => all p (.part direct below)⟩
  · rintro ⟨own, parts⟩ p within
    rcases within_iff.1 within with rfl | ⟨q, direct, below⟩
    · exact own
    · exact parts q direct p below

theorem Module.isAccepted_of_passes {m : Module} (h : ∀ s ∈ m.body, (Node.stmt s).Passes) :
    m.verdict.isAccepted = true := by
  rw [m.isAccepted_iff_isDeclarative, Module.IsDeclarative, bodyInFragment_iff_shows]
  constructor
  · rintro k (same | ⟨s, member, n, within, shown⟩)
    · cases same
      decide
    · exact h s member n within _ shown
  · rintro name (same | ⟨s, member, n, within, shown⟩)
    · cases same
    · exact h s member n within _ shown

end Script

theorem forall_mem_of_forall₂ {α β : Type} {R : α → β → Prop} {P : β → Prop} {as : List α}
    {bs : List β} (h : List.Forall₂ R as bs) (each : ∀ a ∈ as, ∀ b, R a b → P b) :
    ∀ b ∈ bs, P b := by
  induction h with
  | nil => exact nofun
  | cons first _ ih =>
    obtain ⟨here, later⟩ := List.forall_mem_cons.1 each
    exact List.forall_mem_cons.2 ⟨here _ first, ih later⟩

namespace Element

theorem passes_of_isText {text : String} {arg : Expr} (h : IsText text arg) :
    (Node.expr arg).Passes := by
  obtain ⟨span, rfl⟩ := h
  rw [Node.passes_iff]
  simp [Node.own, Node.parts, Expr.parts, Expr.marks, Expr.kind, Finding.IsFine, allowedKinds]

theorem passes_of_isCall {e : Element} {call : Expr} (h : IsCall e call)
    (capital : isHostName (typeName e.tag) = false) : (Node.expr call).Passes := by
  obtain ⟨place, args, keywords, span, rfl, texts, fields⟩ := h
  have args_pass : ∀ arg ∈ args, (Node.expr arg).Passes :=
    forall_mem_of_forall₂ texts fun text _ arg => passes_of_isText
  have keywords_pass : ∀ k ∈ keywords, (Node.keyword k).Passes := by
    refine forall_mem_of_forall₂ fields ?_
    rintro entry - ⟨name, value, span⟩ ⟨-, isText⟩
    have value_passes : (Node.expr value).Passes := passes_of_isText isText
    rw [Node.passes_iff]
    simp [Node.own, Node.parts, Finding.IsFine, allowedKinds, value_passes]
  have callee_passes : (Node.expr (.name (typeName e.tag) .load place)).Passes := by
    rw [Node.passes_iff]
    simp [Node.own, Node.parts, Expr.parts, Expr.marks, Expr.kind, Use.kind, Finding.IsFine,
      allowedKinds]
  rw [Node.passes_iff]
  constructor
  · simp [Node.own, Expr.marks, Expr.kind, Finding.IsFine, callableName, capital, allowedKinds]
  · simp only [Node.parts, Expr.parts, List.forall_mem_cons, List.forall_mem_append,
      List.forall_mem_map]
    exact ⟨callee_passes, args_pass, keywords_pass⟩

/-- The sandbox lets the statement of an element pass if no type in it looks like a function. -/
theorem passes_of_mirrors {e : Element} :
    ∀ {stmt : Stmt}, Mirrors e stmt →
      e.Everywhere (fun e => isHostName (typeName e.tag) = false) → (Node.stmt stmt).Passes := by
  induction e using Element.induction with
  | step e ih =>
    intro stmt h capital
    obtain ⟨here, inside⟩ := everywhere_iff.1 capital
    rw [Node.passes_iff]
    cases h with
    | leaf alone same =>
      simp [Node.own, Stmt.kind, Node.parts, Stmt.parts, Finding.IsFine, allowedKinds,
        passes_of_isCall same here]
    | @block _ call body item span inner same children =>
      have body_passes : ∀ s ∈ body, (Node.stmt s).Passes :=
        forall_mem_of_forall₂ children fun c member s mirrors =>
          ih c member mirrors (inside c member)
      have item_passes : (Node.item ⟨call, none, item⟩).Passes := by
        rw [Node.passes_iff]
        simp [Node.own, Node.parts, Finding.IsFine, allowedKinds, passes_of_isCall same here]
      constructor
      · simp [Node.own, Stmt.kind, Finding.IsFine, allowedKinds]
      · simp only [Node.parts, Stmt.parts, List.forall_mem_append, List.forall_mem_map,
          List.forall_mem_singleton]
        exact ⟨item_passes, body_passes⟩

end Element

end ScoreScript
