import ScoreScript.Proofs.Printing.Tokens
import ScoreScript.Proofs.Sandbox.Exactness
import ScoreScript.Proofs.Script.Statement

/-!
Written scripts are read back. The tokens of an expression are an operand, with its brackets it can
be called, and those of a statement are a statement: what is read is the tree that was written,
wherever its parts stand (`Expr.Same`, `Stmt.Same`). So every declarative script is the text of its
tree, and the sandbox accepts it exactly if nothing that it calls by name looks like a host function.
-/

namespace ScoreScript.Script

open Grammar

/-- The other expression is the same up to where its parts stand. -/
def Expr.Same (e other : Expr) : Prop :=
  other.unplaced = e.unplaced

def WithItem.Same (i other : WithItem) : Prop :=
  other.unplaced = i.unplaced

/-- The other statement is the same up to where its parts stand. -/
def Stmt.Same (s other : Stmt) : Prop :=
  other.unplaced = s.unplaced

theorem map_eq_map_of_forall₂ {α β γ : Type} {f : α → γ} {g : β → γ} {as : List α} {bs : List β}
    (h : List.Forall₂ (fun a b => g b = f a) as bs) : bs.map g = as.map f := by
  induction h with
  | nil => rfl
  | cons same _ ih => rw [List.map_cons, List.map_cons, same, ih]

/-! ### Expressions -/

theorem Expr.Same.tuple {items others : List Expr} {use : Use} {span span' : Span}
    (h : List.Forall₂ Same items others) :
    Same (.tuple items use span) (.tuple others use span') := by
  rw [Same, unplaced, unplaced, unplacedAll_eq_map, unplacedAll_eq_map, map_eq_map_of_forall₂ h]

theorem Expr.Same.call {callee callee' : Expr} {args args' : List Expr}
    {keywords keywords' : List KeywordArg} {span span' : Span} (called : Same callee callee')
    (positional : List.Forall₂ Same args args')
    (named : List.Forall₂ (IsField KeywordArg.name fun k => Same k.value) keywords keywords') :
    Same (.call callee args keywords span) (.call callee' args' keywords' span') := by
  have each : List.Forall₂ (fun k k' : KeywordArg => k'.unplaced = k.unplaced) keywords
      keywords' := named.imp fun k k' field => by
    rw [KeywordArg.unplaced, KeywordArg.unplaced, field.1, field.2]
  rw [Same, unplaced, unplaced, unplacedAll_eq_map, unplacedAll_eq_map, unplacedKeywords_eq_map,
    unplacedKeywords_eq_map, called, map_eq_map_of_forall₂ positional, map_eq_map_of_forall₂ each]

section

variable {hole : Nat → String → Except Error Expr}

theorem Constant.Printable.isCallee {value : Constant} (h : value.Printable) :
    IsCallee hole value.kinds fun e => ∃ span, e = .constant value span := by
  cases h with
  | none => exact .constant rfl rfl
  | bool b => cases b <;> exact .constant rfl rfl
  | int small => exact .constant rfl rfl
  | str text => exact .text text
  | ellipsis => exact .constant rfl rfl

/-- The tokens of the expression are an operand, and with its brackets they can be called. -/
structure IsRead (hole : Nat → String → Except Error Expr) (e : Expr) : Prop where
  operand : IsOperand hole e.kinds e.Same
  callee : IsCallee hole (calleeKinds e.isBare e.kinds) e.Same

theorem IsRead.of_bare {e : Expr} (bare : e.isBare = true) (h : IsCallee hole e.kinds e.Same) :
    IsRead hole e := by
  refine ⟨h.operand, ?_⟩
  rw [bare]
  exact h

theorem IsRead.of_operand {e : Expr} (other : e.isBare = false)
    (h : IsOperand hole e.kinds e.Same) : IsRead hole e := by
  refine ⟨h, ?_⟩
  rw [other]
  exact h.group

theorem Expr.Printable.isRead {e : Expr} (h : e.Printable) : IsRead hole e := by
  induction h with
  | constant plain =>
    refine .of_operand rfl (plain.isCallee.mono ?_).operand
    rintro _ ⟨span, rfl⟩
    rfl
  | @name id span free =>
    refine .of_bare rfl ((IsCallee.name id).mono ?_)
    rintro _ ⟨span, rfl⟩
    rfl
  | @tuple items span _ ih =>
    have tuple := IsCallee.tuple fun e member => (ih e member).operand
    rw [← kindsAll_eq_map] at tuple
    refine .of_operand rfl (tuple.mono ?_).operand
    rintro _ ⟨others, span, rfl, same⟩
    exact .tuple same
  | minus _ ih =>
    refine .of_operand rfl (ih.operand.minus.mono ?_)
    rintro _ ⟨operand, span, rfl, same⟩
    rw [Same, unplaced, unplaced, same]
  | @call callee args keywords span _ _ _ names distinct called positional values =>
    have call := called.callee.call (fun e member => (positional e member).operand)
      (fun k member => (values k member).operand) distinct
    rw [argumentPieces, ← kindsAll_eq_map, ← kindsKeywords_eq_map] at call
    refine .of_bare rfl (call.mono ?_)
    rintro _ ⟨callee', args', keywords', span, rfl, same, args, keywords⟩
    exact .call same args keywords

theorem toTargets_of_stores {items read : List Expr}
    (h : List.Forall₂ (fun t e => IsItem.Stores t.Same e) items read) :
    ∃ targets, toTargets .store read = .ok targets ∧ List.Forall₂ Expr.Same items targets := by
  induction h with
  | nil => exact ⟨[], rfl, .nil⟩
  | cons first _ ih =>
    obtain ⟨t, known, same⟩ := first
    obtain ⟨targets, others, all⟩ := ih
    refine ⟨t :: targets, ?_, .cons same all⟩
    rw [toTargets, known, others]
    rfl

/-- A target is read as an operand, which is then put to the other use. -/
theorem Expr.PrintableTarget.isOperand {t : Expr} (h : t.PrintableTarget) :
    IsOperand hole t.kinds (IsItem.Stores t.Same) := by
  induction h with
  | @name id span free =>
    refine ((IsCallee.name id).mono ?_).operand
    rintro _ ⟨span, rfl⟩
    exact ⟨.name id .store span, rfl, rfl⟩
  | @tuple items span _ ih =>
    have tuple := IsCallee.tuple ih
    rw [← kindsAll_eq_map] at tuple
    refine (tuple.mono ?_).operand
    rintro _ ⟨read, span, rfl, stored⟩
    obtain ⟨targets, known, same⟩ := toTargets_of_stores stored
    refine ⟨.tuple targets .store span, ?_, .tuple same⟩
    rw [toTarget, known]
    rfl

/-! ### Statements -/

theorem WithItem.Printable.isItem {i : WithItem} (h : i.Printable) :
    IsItem hole i.kinds i.Same := by
  obtain ⟨context, target, span⟩ := i
  have operand : IsOperand hole context.kinds context.Same := h.context.isRead.operand
  cases target with
  | none =>
    refine (IsItem.plain operand).mono ?_
    rintro _ ⟨e, span, rfl, same⟩
    rw [Same, unplaced, unplaced, same]
  | some target =>
    refine (IsItem.stored operand (h.target target rfl).isOperand).mono ?_
    rintro _ ⟨e, t, span, rfl, same, place⟩
    rw [Same, unplaced, unplaced, same, Option.map_some, Option.map_some, place]

theorem Stmt.Printable.isStatement {s : Stmt} (h : s.Printable) :
    IsStatement hole s.kinds s.Same := by
  induction h with
  | expr inner =>
    refine (IsStatement.expr inner.isRead.operand).mono ?_
    rintro _ ⟨e, span, rfl, same⟩
    rw [Same, unplaced, unplaced, same]
  | pass =>
    refine IsStatement.pass.mono ?_
    rintro _ ⟨span, rfl⟩
    rfl
  | @withStmt items body span some_item _ each _ ih =>
    have statement := IsStatement.withStmt some_item (fun i member => (each i member).isItem) ih
    rw [kinds, bodyKinds_eq_flatMap]
    refine statement.mono ?_
    rintro _ ⟨items', body', span, rfl, same, block⟩
    rw [Same, unplaced, unplaced, unplacedBody_eq_map, unplacedBody_eq_map,
      map_eq_map_of_forall₂ same, map_eq_map_of_forall₂ block]

end

/-- The text of an expression is read as that expression, alone on a line. -/
theorem Expr.Printable.ofText_alone {e : Expr} (h : e.Printable) :
    ∃ other span, Module.ofText .unlimited e.print = .ok ⟨[.expr other span]⟩ ∧ e.Same other := by
  obtain ⟨tokens, lexed, kinds⟩ := Layout.tokens_phrase h.isPhrase h.passes_end
  have alone : tokens.map (·.kind) = [e].flatMap (fun _ => e.kinds ++ [.newline]) ++ [.eof] := by
    rw [kinds, List.flatMap_singleton]
  obtain ⟨⟨body⟩, read, same⟩ := Module.ofText_of_statements lexed alone fun hole _ _ =>
    .expr h.isRead.operand
  cases same with
  | cons one noMore =>
    cases noMore
    obtain ⟨other, span, rfl, same⟩ := one
    exact ⟨other, span, read, same⟩

/-- The text of a script is read as the script that was written. -/
theorem Module.ofText_print_unplaced {m : Module} (h : m.Printable) :
    ∃ other, Module.ofText .unlimited m.print = .ok other ∧ other.unplaced = m.unplaced := by
  obtain ⟨tokens, lexed, kinds⟩ := tokens_print h
  obtain ⟨other, read, same⟩ := Module.ofText_of_statements lexed kinds fun hole s member =>
    (h s member).isStatement
  refine ⟨other, read, ?_⟩
  rw [unplaced, unplaced, map_eq_map_of_forall₂ same]

end ScoreScript.Script

namespace ScoreScript.Script

/-! ### What a walk finds does not depend on places -/

theorem callableName_unplaced (e : Expr) : callableName e.unplaced = callableName e := by
  cases e <;> rfl

mutual

theorem Expr.findings_unplaced (e : Expr) : e.unplaced.events.findings = e.events.findings := by
  cases e with
  | tuple items use span => simp [Expr.unplaced, Expr.events, findings_unplacedAll items]
  | unary op operand span => simp [Expr.unplaced, Expr.events, operand.findings_unplaced]
  | call callee args keywords span =>
    simp [Expr.unplaced, Expr.events, callableName_unplaced, callee.findings_unplaced,
      findings_unplacedAll args, findings_unplacedKeywords keywords]
  | _ => rfl

theorem findings_unplacedAll (items : List Expr) :
    (eventsAll (unplacedAll items)).findings = (eventsAll items).findings := by
  cases items with
  | nil => rfl
  | cons e rest => simp [unplacedAll, eventsAll, e.findings_unplaced, findings_unplacedAll rest]

theorem findings_unplacedKeywords (keywords : List KeywordArg) :
    (keywordEvents (unplacedKeywords keywords)).findings = (keywordEvents keywords).findings := by
  cases keywords with
  | nil => rfl
  | cons k rest =>
    obtain ⟨name, value, span⟩ := k
    simp [unplacedKeywords, keywordEvents, value.findings_unplaced,
      findings_unplacedKeywords rest]

end

theorem findings_unplacedItems (items : List WithItem) :
    (itemEvents (items.map (·.unplaced))).findings = (itemEvents items).findings := by
  induction items with
  | nil => rfl
  | cons i rest ih =>
    have target : (eventsOpt (i.target.map Expr.unplaced)).findings =
        (eventsOpt i.target).findings := by
      cases i.target with
      | none => rfl
      | some t => exact t.findings_unplaced
    simp [itemEvents, i.context.findings_unplaced, target, ih]

mutual

theorem Stmt.findings_unplaced (s : Stmt) : s.unplaced.events.findings = s.events.findings := by
  cases s with
  | expr value span => simp [Stmt.unplaced, Stmt.events, value.findings_unplaced]
  | withStmt items body span =>
    simp [Stmt.unplaced, Stmt.events, findings_unplacedItems, findings_unplacedBody body]
  | _ => rfl

theorem findings_unplacedBody (body : List Stmt) :
    (bodyEvents (unplacedBody body)).findings = (bodyEvents body).findings := by
  cases body with
  | nil => rfl
  | cons s rest => simp [unplacedBody, bodyEvents, s.findings_unplaced, findings_unplacedBody rest]

end

variable {m : Module}

theorem Module.shows_unplaced {f : Finding} : m.unplaced.Shows f ↔ m.Shows f := by
  have same : m.unplaced.events.map Event.finding = m.events.map Event.finding := by
    have body := findings_unplacedBody m.body
    rw [unplacedBody_eq_map] at body
    exact congrArg (Finding.kind .module :: ·) body
  rw [← mem_events_iff_shows, ← mem_events_iff_shows, same]

theorem Module.isDeclarative_unplaced : m.unplaced.IsDeclarative ↔ m.IsDeclarative := by
  simp only [IsDeclarative, bodyInFragment_iff_shows, shows_unplaced]

/-! ### What is written is in the fragment -/

theorem Expr.Printable.inFragment {e : Expr} (h : e.Printable) : e.InFragment := by
  induction h with
  | constant => trivial
  | name => trivial
  | tuple _ ih => exact ⟨trivial, (exprsInFragment_iff _).2 ih⟩
  | minus _ ih => exact ⟨rfl, ih⟩
  | call _ _ _ _ _ called positional values =>
    exact ⟨called, (exprsInFragment_iff _).2 positional, (keywordsInFragment_iff _).2 values⟩

theorem Expr.PrintableTarget.inFragment {t : Expr} (h : t.PrintableTarget) : t.InFragment := by
  induction h with
  | name => trivial
  | tuple _ ih => exact ⟨trivial, (exprsInFragment_iff _).2 ih⟩

theorem Stmt.Printable.inFragment {s : Stmt} (h : s.Printable) : s.InFragment := by
  induction h with
  | expr inner => exact inner.inFragment
  | pass => trivial
  | withStmt _ _ each _ ih =>
    refine ⟨(itemsInFragment_iff _).2 fun i member => ?_, (bodyInFragment_iff _).2 ih⟩
    exact ⟨(each i member).context.inFragment, fun t place =>
      ((each i member).target t place).inFragment⟩

/-! ### What is called -/

/-- Somewhere in the script, the name is called. -/
def Module.Calls (m : Module) (id : String) : Prop :=
  ∃ s ∈ m.body, ∃ use place args keywords span,
    Within (.stmt s) (.expr (.call (.name id use place) args keywords span))

theorem isHostName_bracketed (text : String) : isHostName s!"<{text}>" = false := by
  have first : s!"<{text}>".toList = '<' :: (text ++ ">").toList := by
    simp [toString]
  have sign : isLower '<' = false := by decide
  rw [isHostName, first]
  exact sign

/-- What is called in the fragment is a name, or goes by its kind. -/
theorem Expr.InFragment.callableName {callee : Expr} (h : callee.InFragment) :
    (∃ id use place, callee = .name id use place) ∨ isHostName (callableName callee) = false := by
  cases callee with
  | name id use place => exact .inl ⟨id, use, place, rfl⟩
  | constant | tuple | unary | call => exact .inr (isHostName_bracketed _)
  | _ => exact h.elim

theorem mem_own_call {n : Node} {name : String} (h : .call name ∈ n.own) :
    ∃ callee args keywords span, n = .expr (.call callee args keywords span) ∧
      name = callableName callee := by
  cases n with
  | expr e =>
    cases e <;> simp [Node.own, Expr.marks] at h
    exact ⟨_, _, _, _, rfl, h⟩
  | _ => simp [Node.own] at h

theorem Module.isDeclarative_iff_calls (inside : bodyInFragment m.body) :
    m.IsDeclarative ↔ ∀ id, m.Calls id → isHostName id = false := by
  constructor
  · rintro ⟨-, fine⟩ id ⟨s, member, use, place, args, keywords, span, within⟩
    refine fine id (.inr ⟨s, member, _, within, ?_⟩)
    simp [Node.own, Expr.marks, callableName]
  · intro fine
    refine ⟨inside, ?_⟩
    rintro name (other | ⟨s, member, n, within, shown⟩)
    · cases other
    · obtain ⟨callee, args, keywords, span, rfl, rfl⟩ := mem_own_call shown
      have call : (Node.expr (.call callee args keywords span)).InFragment :=
        Node.InFragment.of_within (n := .stmt s) ((bodyInFragment_iff _).1 inside s member) within
      rcases call.1.callableName with ⟨id, use, place, rfl⟩ | kind
      · exact fine id ⟨s, member, use, place, args, keywords, span, within⟩
      · exact kind

/-- A script of calls, literals, names, tuples and `with` blocks is read back from its text, and
it is accepted exactly if no name that it calls begins with a lower case letter. -/
theorem Module.ofText_print (printable : m.Printable) :
    ∃ read, Module.ofText .unlimited m.print = .ok read ∧ read.unplaced = m.unplaced ∧
      (read.verdict.isAccepted = true ↔ ∀ id, m.Calls id → isHostName id = false) := by
  obtain ⟨read, text, same⟩ := ofText_print_unplaced printable
  have inside : bodyInFragment m.body :=
    (bodyInFragment_iff _).2 fun s member => (printable s member).inFragment
  refine ⟨read, text, same, ?_⟩
  rw [isAccepted_iff_isDeclarative, ← isDeclarative_iff_calls inside,
    ← isDeclarative_unplaced (m := m), ← same, isDeclarative_unplaced]

/-- A block that stores what it calls, with a call of a call and arguments of each kind. -/
def writtenBar : Module :=
  let pitch := .call (.name "Pitch" .load .nowhere)
    [.constant (.str "C") .nowhere, .constant .none .nowhere] [] .nowhere
  let note := .call (.call (.name "Note" .load .nowhere)
    [pitch, .unary .minus (.constant (.int 4) .nowhere) .nowhere]
    [.mk (some "dots") (.tuple [.constant (.bool true) .nowhere] .load .nowhere) .nowhere,
      .mk none (.name "more" .load .nowhere) .nowhere] .nowhere) [] [] .nowhere
  let bar := .call (.constant .ellipsis .nowhere) [] [] .nowhere
  ⟨[.withStmt [⟨bar, some (.tuple [.name "bar" .store .nowhere] .store .nowhere), .nowhere⟩]
    [.expr note .nowhere, .pass .nowhere] .nowhere]⟩

theorem printable_writtenBar : writtenBar.Printable := by
  have free : ∀ id ∈ ["Pitch", "Note", "dots", "more", "bar"], IsFreeName id :=
    fun id member => ⟨(by decide : ∀ id ∈ _, IsIdent id) id member,
      (by decide : ∀ id ∈ _, Keyword.ofText? id = none) id member⟩
  simp only [List.forall_mem_cons] at free
  obtain ⟨pitch, note, dots, more, bar, -⟩ := free
  refine List.forall_mem_singleton.2 (.withStmt nofun nofun ?items ?body)
  case items =>
    refine List.forall_mem_singleton.2 ⟨.call (.constant .ellipsis) nofun nofun nofun .nil, ?_⟩
    rintro _ ⟨⟩
    exact .tuple (List.forall_mem_singleton.2 (.name bar))
  case body =>
    refine List.forall_mem_cons.2 ⟨.expr (.call (.call (.name note) ?args ?values ?names ?distinct)
      nofun nofun nofun .nil), List.forall_mem_singleton.2 .pass⟩
    case args =>
      have letter : ∀ e ∈ [Expr.constant (.str "C") .nowhere, .constant .none .nowhere],
          e.Printable :=
        List.forall_mem_cons.2 ⟨.constant (.str "C"), List.forall_mem_singleton.2 (.constant .none)⟩
      exact List.forall_mem_cons.2 ⟨.call (.name pitch) letter nofun nofun .nil,
        List.forall_mem_singleton.2 (.minus (.constant (.int (by decide))))⟩
    case values =>
      exact List.forall_mem_cons.2 ⟨.tuple (List.forall_mem_singleton.2 (.constant (.bool true))),
        List.forall_mem_singleton.2 (.name more)⟩
    case names =>
      exact List.forall_mem_cons.2 ⟨fun id same => by cases same; exact dots,
        List.forall_mem_singleton.2 nofun⟩
    case distinct => decide

theorem ofText_print_writtenBar :
    writtenBar.print =
      "with (...)() as (bar,):\n" ++
      "    Note(Pitch('C', None), -4, dots=(True,), **more)()\n" ++
      "    pass\n" ∧
    ∃ read, Module.ofText .unlimited writtenBar.print = .ok read ∧
      read.unplaced = writtenBar.unplaced ∧
      (read.verdict.isAccepted = true ↔ ∀ id, writtenBar.Calls id → isHostName id = false) :=
  ⟨by decide +kernel, Module.ofText_print printable_writtenBar⟩

end ScoreScript.Script
